import IntraDoc.Proofs.Link.Foreign
import IntraDoc.Proofs.Link.Rendering

/-!
# Reading a rendering again

With a slash for each `::` a rendering is a target again. A token makes it unreadable. Without one
it is the bare name of a module below named directories, or an anchor alone, and rendering what is
read gives the same text except for the own name of the crate and for anchors that look like
associated items.
-/

namespace IntraDoc

namespace Rendering

/-- The text with a slash for each `::`, from left to right. -/
def slashed : Text → Text
  | [] => []
  | ':' :: ':' :: rest => '/' :: slashed rest
  | char :: rest => char :: slashed rest

/--
A rendering that survives being read again: it neither begins with the own name of the crate, unless
the crate is called `crate`, nor is it the anchor of an associated item.
-/
def IsStable (crateName rendering : Text) : Prop :=
  ¬(crateName ≠ "crate".toList ∧
      Text.startsWith rendering (crateName ++ "::".toList) = true) ∧
    ¬∃ kind ∈ itemKinds, ∃ name, Identifier.isPlain name = true ∧
      rendering = '#' :: (kind ++ '.' :: name)

theorem slashed_append {piece : Text} (free : ':' ∉ piece) (rest : Text) :
    slashed (piece ++ rest) = piece ++ slashed rest := by
  induction piece with
  | nil => rfl
  | cons char piece ih =>
      simp only [List.mem_cons, not_or] at free
      rw [List.cons_append, slashed, ih free.2, List.cons_append]
      rintro - rfl
      exact absurd rfl free.1

theorem slashed_of_notMem {text : Text} (free : ':' ∉ text) : slashed text = text := by
  simpa [slashed] using slashed_append free []

theorem slashed_joinWith {pieces : List Text} {tail : Text}
    (free : ∀ piece ∈ pieces, ':' ∉ piece) (tailFree : ':' ∉ tail) :
    slashed (Text.joinWith "::".toList pieces ++ tail) = Text.joinWith ['/'] pieces ++ tail := by
  induction pieces with
  | nil => exact slashed_of_notMem tailFree
  | cons first others ih =>
      have firstFree := free first (by simp)
      cases others with
      | nil => simp [slashed_append firstFree, slashed_of_notMem tailFree]
      | cons next others =>
          have othersFree : ∀ piece ∈ next :: others, ':' ∉ piece := by
            intro piece isPiece
            exact free piece (List.mem_cons_of_mem _ isPiece)
          have separator : "::".toList = [':', ':'] := by decide
          calc slashed (Text.joinWith "::".toList (first :: next :: others) ++ tail)
              = slashed (first ++ ("::".toList ++
                  (Text.joinWith "::".toList (next :: others) ++ tail))) := by
                rw [Text.joinWith_cons (by simp)]
                simp only [List.append_assoc]
            _ = first ++ '/' :: slashed (Text.joinWith "::".toList (next :: others) ++ tail) := by
                rw [slashed_append firstFree, separator]
                rfl
            _ = first ++ ['/'] ++ Text.joinWith ['/'] (next :: others) ++ tail := by
                rw [ih othersFree]
                simp

end Rendering

namespace DocLink

section Targets

variable {target : Text} {options : Options}

/-- A target without a colon has no scheme, so only its relative reading counts. -/
theorem ofTarget?_of_colonless (colonless : ':' ∉ target) :
    ofTarget? target options = ofRelative? (LinkPath.parse target) options.crateName := by
  apply ofTarget?_of_not_isAddress
  rintro ⟨scheme, isScheme, first⟩
  rcases LinkPath.colon_mem_scheme isScheme with ⟨name, rfl, colon⟩
  exact colonless (LinkPath.mem_of_named_mem_parse (List.mem_of_mem_head? first) colon).1

/-- A target with a character that no page name has is not read. -/
theorem ofTarget?_eq_none {char : Char} (colonless : ':' ∉ target) (singleLine : '\n' ∉ target)
    (inside : char ∈ target) (foreign : Page.isAnchorChar char = false) (notHash : char ≠ '#')
    (notSlash : char ≠ '/') : ofTarget? target options = none := by
  rw [ofTarget?_of_colonless colonless, Option.eq_none_iff_forall_ne_some]
  intro link read
  have allowed := isTargetChar_of_ofRelative? options.crateName_isIdentifier singleLine read
  rcases allowed char inside with isAnchorChar | isHash | isSlash
  · simp [isAnchorChar] at foreign
  · exact notHash isHash
  · exact notSlash isSlash

theorem isPlainSegment_of_isPlain {name : Text} (plain : Identifier.isPlain name = true)
    (rest : Text) : Component.IsPlainSegment (name ++ rest) := by
  have dotless : '.' ∉ name := Identifier.notMem_of_isPlain plain (by decide)
  cases name with
  | nil => simp [Identifier.isPlain] at plain
  | cons char others =>
      refine Component.isPlainSegment_cons ?_ (others ++ rest)
      rintro rfl
      exact dotless (by simp)

/-- Names joined by slashes are read as a module below directories. -/
theorem ofRelative?_joinWith {names : List Text} {last : Text} {fragment : Option Text}
    (plain : ∀ name ∈ names, Identifier.isPlain name = true)
    (wellFormed : (Page.bare last fragment).WellFormed) (crateName : Text) :
    ofRelative? (LinkPath.parse (Text.joinWith ['/'] (names ++ [last]) ++
      Page.anchorText fragment)) crateName =
      withLead? ⟨names.map .named⟩ (.mod last fragment) crateName := by
  have segment : ∀ name ∈ names ++ [(Page.bare last fragment).text],
      Component.IsPlainSegment name ∧ '/' ∉ name := by
    intro name isName
    rcases List.mem_append.mp isName with isDirectory | isLast
    · exact ⟨by simpa using isPlainSegment_of_isPlain (plain name isDirectory) [],
        Identifier.notMem_of_isPlain (plain name isDirectory) (by decide)⟩
    · rw [List.mem_singleton.mp isLast]
      exact ⟨isPlainSegment_of_isPlain wellFormed.2 _, Page.slash_notMem_text wellFormed⟩
  have joined : Text.joinWith ['/'] (names ++ [last]) ++ Page.anchorText fragment =
      Text.joinWith ['/'] (names ++ [(Page.bare last fragment).text]) :=
    Text.joinWith_concat_append names last _
  rw [joined, LinkPath.parse_joinWith (by simp) (fun name isName => (segment name isName).1)
    (fun name isName => (segment name isName).2), List.map_append, List.map_singleton,
    ofRelative?_bare wellFormed]

/-- The link that a module below named directories stands for. -/
def ofNames (crateName : Text) : List Text → Finish → DocLink
  | [], finish => ⟨.empty, [], finish⟩
  | first :: others, finish =>
    ⟨if first = crateName then .crate else .sibling first, others, finish⟩

theorem withLead?_names {names : List Text} {crateName : Text} {finish : Finish}
    (plain : ∀ name ∈ names, Identifier.isPlain name = true) :
    withLead? ⟨names.map .named⟩ finish crateName = some (ofNames crateName names finish) := by
  have valid : ∀ name ∈ names, isIdentifier name = true := by
    intro name isName
    exact isIdentifier_of_isPlain (plain name isName)
  cases names with
  | nil => exact withLead?_of_lead .empty finish
  | cons first others =>
      simp only [List.mem_cons, forall_eq_or_imp] at valid
      simp only [ofNames, List.map_cons]
      split
      · rename_i own
        subst own
        simpa using withLead?_of_lead (Lead.crate 0 valid.2) finish
      · rename_i foreign
        exact withLead?_of_lead (Lead.sibling foreign valid.1 valid.2) finish

end Targets

section Renderings

variable {link : DocLink} {options : Options} {char : Char}

theorem mem_token_of_mem_leadingToken (inside : char ∈ link.leadingToken) :
    char ∈ link.disambiguator.token := by
  unfold leadingToken at inside
  split at inside
  · exact inside
  · simp at inside

theorem mem_token_of_mem_trailingToken (inside : char ∈ link.trailingToken) :
    char ∈ link.disambiguator.token := by
  unfold trailingToken at inside
  split at inside
  · exact inside
  · simp at inside

namespace WellNamed

theorem notMem_token (wellNamed : link.WellNamed) :
    ':' ∉ link.disambiguator.token ∧ '\n' ∉ link.disambiguator.token ∧
      '/' ∉ link.disambiguator.token := by
  have all : ∀ disambiguator ∈ Disambiguator.known, ':' ∉ disambiguator.token ∧
      '\n' ∉ disambiguator.token ∧ '/' ∉ disambiguator.token := by decide
  exact all link.disambiguator wellNamed.finish.known

theorem isPlain_segments_none (wellNamed : link.WellNamed) :
    ∀ name ∈ link.segments none, Identifier.isPlain name = true :=
  wellNamed.isPlain_segments none fun _ => by decide

/-- The characters of an anchor that stands behind a path. -/
theorem mem_anchorText (wellNamed : link.WellNamed)
    (inside : char ∈ Page.anchorText link.finish.anchorName) :
    char = '#' ∨ Page.isAnchorChar char = true := by
  cases found : link.finish.anchorName with
  | none => simp [found, Page.anchorText] at inside
  | some name =>
      simp only [found, Page.anchorText, List.mem_cons] at inside
      exact inside.imp_right ((wellNamed.finish.anchor name found).2 char)

theorem slashed_render (wellNamed : link.WellNamed) (disambiguate : Bool) :
    Rendering.slashed (link.render none disambiguate) =
      (if disambiguate then link.leadingToken else []) ++
        (Text.joinWith ['/'] (link.segments none) ++
          (link.trailingToken ++ Page.anchorText link.finish.anchorName)) := by
  have tokenFree := wellNamed.notMem_token.1
  have leadingFree : ':' ∉ if disambiguate = true then link.leadingToken else [] := by
    intro inside
    split at inside
    · exact tokenFree (mem_token_of_mem_leadingToken inside)
    · simp at inside
  have segmentsFree : ∀ name ∈ link.segments none, ':' ∉ name := by
    intro name isSegment
    exact Identifier.notMem_of_isPlain (wellNamed.isPlain_segments_none name isSegment) (by decide)
  have tailFree : ':' ∉ link.trailingToken ++ Page.anchorText link.finish.anchorName := by
    intro inside
    rcases List.mem_append.mp inside with inToken | inAnchor
    · exact tokenFree (mem_token_of_mem_trailingToken inToken)
    · rcases wellNamed.mem_anchorText inAnchor with isHash | allowed
      · exact absurd isHash (by decide)
      · exact absurd allowed (by decide)
  rw [render, wellNamed.renderPath_eq, Rendering.slashed_append leadingFree, List.append_assoc,
    Rendering.slashed_joinWith segmentsFree tailFree]

theorem notMem_slashed_render (wellNamed : link.WellNamed) (disambiguate : Bool)
    (outside : Page.isAnchorChar char = false) (notHash : char ≠ '#') (notSlash : char ≠ '/')
    (notToken : char ∉ link.disambiguator.token) :
    char ∉ Rendering.slashed (link.render none disambiguate) := by
  rw [wellNamed.slashed_render]
  intro inside
  simp only [List.mem_append] at inside
  rcases inside with inLeading | inPath | inTrailing | inAnchor
  · split at inLeading
    · exact notToken (mem_token_of_mem_leadingToken inLeading)
    · simp at inLeading
  · rcases Text.mem_joinWith inPath with isSlash | ⟨name, isSegment, inName⟩
    · exact notSlash (by simpa using isSlash)
    · have word := Identifier.isAsciiWord_of_isPlain
        (wellNamed.isPlain_segments_none name isSegment) char inName
      simp [Page.isAnchorChar_of_isAsciiWord word] at outside
  · exact notToken (mem_token_of_mem_trailingToken inTrailing)
  · rcases wellNamed.mem_anchorText inAnchor with isHash | allowed
    · exact notHash isHash
    · simp [allowed] at outside

/-- A rendering with a token in it is not read again. -/
theorem ofTarget?_slashed_eq_none (wellNamed : link.WellNamed) (disambiguate : Bool)
    (inside : char ∈ Rendering.slashed (link.render none disambiguate))
    (outside : Page.isAnchorChar char = false) (notHash : char ≠ '#') (notSlash : char ≠ '/') :
    ofTarget? (Rendering.slashed (link.render none disambiguate)) options = none := by
  have colonless := wellNamed.notMem_slashed_render disambiguate (by decide) (by decide)
    (by decide) wellNamed.notMem_token.1
  have singleLine := wellNamed.notMem_slashed_render disambiguate (by decide) (by decide)
    (by decide) wellNamed.notMem_token.2.1
  exact ofTarget?_eq_none colonless singleLine inside outside notHash notSlash

theorem ofTarget?_slashed_trailing (wellNamed : link.WellNamed) (disambiguate : Bool)
    (trailing : link.disambiguator.placement = .trailing) :
    ofTarget? (Rendering.slashed (link.render none disambiguate)) options = none := by
  have written : link.trailingToken = link.disambiguator.token := by
    simp [trailingToken, trailing]
  have within : ∀ char ∈ link.disambiguator.token,
      char ∈ Rendering.slashed (link.render none disambiguate) := by
    intro char inToken
    rw [wellNamed.slashed_render, written]
    simp [inToken]
  rcases Disambiguator.token_of_trailing wellNamed.finish.known trailing with isCall | isMacro
  · exact wellNamed.ofTarget?_slashed_eq_none disambiguate
      (within '(' (by simp [disambiguator, isCall])) (by decide) (by decide) (by decide)
  · exact wellNamed.ofTarget?_slashed_eq_none disambiguate
      (within '!' (by simp [disambiguator, isMacro])) (by decide) (by decide) (by decide)

theorem ofTarget?_slashed_leading (wellNamed : link.WellNamed)
    (leading : link.disambiguator.placement = .leading) :
    ofTarget? (Rendering.slashed (link.render none true)) options = none := by
  have within : '@' ∈ Rendering.slashed (link.render none true) := by
    have inToken : '@' ∈ link.disambiguator.token :=
      Disambiguator.at_mem_token_of_leading wellNamed.finish.known leading
    rw [wellNamed.slashed_render]
    simp [leadingToken, leading, inToken]
  exact wellNamed.ofTarget?_slashed_eq_none true within (by decide) (by decide) (by decide)

end WellNamed

/-- The names of directories with `crate` for the crate in front. -/
def fromCrate (crateName : Text) : List Text → List Text
  | [] => []
  | first :: others => (if first = crateName then "crate".toList else first) :: others

section Names

variable {crateName : Text} {names : List Text}

@[simp]
theorem finish_ofNames (crateName : Text) (names : List Text) (finish : Finish) :
    (ofNames crateName names finish).finish = finish := by
  cases names <;> rfl

theorem lead_ofNames (crateName : Text) (names : List Text) (finish : Finish) :
    (ofNames crateName names finish).start.segments ++ (ofNames crateName names finish).modules =
      fromCrate crateName names := by
  cases names with
  | nil => rfl
  | cons first others =>
      simp only [ofNames, fromCrate]
      split <;> rfl

theorem isPlain_fromCrate (plain : ∀ name ∈ names, Identifier.isPlain name = true) :
    ∀ name ∈ fromCrate crateName names, Identifier.isPlain name = true := by
  cases names with
  | nil => simp [fromCrate]
  | cons first others =>
      simp only [List.mem_cons, forall_eq_or_imp] at plain
      simp only [fromCrate, List.mem_cons, forall_eq_or_imp]
      refine ⟨?_, plain.2⟩
      split
      · decide
      · exact plain.1

/-- The rendering of a module below named directories. -/
theorem render_ofNames {last : Text} {fragment : Option Text}
    (plain : ∀ name ∈ names, Identifier.isPlain name = true)
    (wellFormed : (Page.bare last fragment).WellFormed) :
    (ofNames crateName names (.mod last fragment)).render none false =
      Text.joinWith "::".toList (fromCrate crateName names ++ [last]) ++
        Page.anchorText fragment := by
  have wellNamed : (ofNames crateName names (.mod last fragment)).WellNamed := by
    constructor
    · rw [lead_ofNames]
      exact isPlain_fromCrate plain
    · rw [finish_ofNames]
      exact Finish.wellNamed_mod wellFormed.2 wellFormed.1
  have segmentsEq : (ofNames crateName names (.mod last fragment)).segments none =
      fromCrate crateName names ++ [last] := by
    rw [segments, startSegments, finish_ofNames, if_neg (by simp [Finish.isAssociated]),
      lead_ofNames]
    rfl
  have noToken : (ofNames crateName names (.mod last fragment)).trailingToken = [] := by
    simp [trailingToken, disambiguator, Finish.disambiguator, Disambiguator.mod]
  rw [render, wellNamed.renderPath_eq, segmentsEq, noToken, finish_ofNames]
  simp [Finish.anchorName]

end Names

theorem exists_anchor_of_segments_eq_nil {currentType : Option Text}
    (none : link.segments currentType = []) :
    ∃ name, link.finish = .anchor name := by
  unfold segments at none
  cases found : link.finish with
  | anchor name => exact ⟨name, rfl⟩
  | associated disambiguator name => simp [found, Finish.names] at none
  | mod name fragment => simp [found, Finish.names] at none
  | item kind disambiguator name added =>
      rcases added with _ | (name | ⟨disambiguator, member⟩) <;>
        simp [found, Finish.names] at none

/-- A path starts with a name and `::` if that name is the first of several segments. -/
theorem startsWith_joinWith {first name tail : Text} {others : List Text} (nonempty : others ≠ [])
    (firstFree : ':' ∉ first) (nameFree : ':' ∉ name) :
    Text.startsWith (Text.joinWith "::".toList (first :: others) ++ tail)
      (name ++ "::".toList) = true ↔ first = name := by
  have separator : "::".toList = [':', ':'] := by decide
  rw [Text.startsWith_iff, Text.joinWith_cons nonempty]
  constructor
  · rintro ⟨rest, same⟩
    have cut := congrArg (List.takeWhile fun char => decide (char ≠ ':')) same
    simp only [separator, List.append_assoc, List.cons_append] at cut
    rwa [takeWhile_ne_append firstFree, takeWhile_ne_append nameFree] at cut
  · rintro rfl
    exact ⟨_, by rw [List.append_assoc]⟩

/-- Only the own name of the crate is rendered differently when it is read again. -/
theorem render_ofNames_eq_iff {crateName last : Text} {names : List Text}
    {fragment : Option Text} (crateFree : ':' ∉ crateName)
    (plain : ∀ name ∈ names, Identifier.isPlain name = true)
    (wellFormed : (Page.bare last fragment).WellFormed) :
    (ofNames crateName names (.mod last fragment)).render none false =
        Text.joinWith "::".toList (names ++ [last]) ++ Page.anchorText fragment ↔
      ¬(crateName ≠ "crate".toList ∧
        Text.startsWith (Text.joinWith "::".toList (names ++ [last]) ++ Page.anchorText fragment)
          (crateName ++ "::".toList) = true) := by
  rw [render_ofNames plain wellFormed]
  cases names with
  | nil =>
      have colonless : ':' ∉ last ++ Page.anchorText fragment :=
        Page.notMem_text wellFormed (by decide) (by decide)
      simp only [fromCrate, true_iff]
      rintro ⟨-, starts⟩
      rcases Text.startsWith_iff.mp starts with ⟨rest, same⟩
      rw [List.nil_append, Text.joinWith_singleton] at same
      exact colonless (by simp [same])
  | cons first others =>
      have firstFree : ':' ∉ first :=
        Identifier.notMem_of_isPlain (plain first (by simp)) (by decide)
      have cancel : ∀ front : Text, Text.joinWith "::".toList (front :: (others ++ [last])) ++
          Page.anchorText fragment = Text.joinWith "::".toList (first :: (others ++ [last])) ++
          Page.anchorText fragment ↔ front = first := by
        intro front
        rw [Text.joinWith_cons (by simp), Text.joinWith_cons (by simp)]
        simp
      rw [List.cons_append, startsWith_joinWith (by simp) firstFree crateFree, fromCrate,
        List.cons_append, cancel]
      by_cases own : first = crateName
      · subst own
        simp [eq_comm]
      · simp [own]

theorem ofRelative?_anchorText {name : Text} (isAnchor : Page.IsAnchor name)
    (crateName : Text) :
    ofRelative? (LinkPath.parse ('#' :: name)) crateName =
      match Page.associated? ('#' :: name) with
      | some (kind, member) => some ⟨.here, [], .associated (.ofKind kind) member⟩
      | none => some ⟨.here, [], .anchor name⟩ := by
  have wellFormed := Page.wellFormed_anchor isAnchor
  have parsed : LinkPath.parse ('#' :: name) = ⟨[] ++ [.named (Page.anchor name).text]⟩ := by
    have segment : ∀ text ∈ [(Page.anchor name).text],
        Component.IsPlainSegment text ∧ '/' ∉ text := by
      intro text isText
      rw [List.mem_singleton.mp isText]
      exact ⟨Component.isPlainSegment_cons (by decide) name, Page.slash_notMem_text wellFormed⟩
    exact LinkPath.parse_joinWith (by simp) (fun text isText => (segment text isText).1)
      (fun text isText => (segment text isText).2)
  rw [parsed, ofRelative?_anchor wellFormed]
  cases Page.associated? ('#' :: name) <;> rfl

theorem exists_ofRelative?_anchor {name crateName : Text} (isAnchor : Page.IsAnchor name)
    (crateValid : isIdentifier crateName = true) :
    ∃ again, ofRelative? (LinkPath.parse ('#' :: name)) crateName = some again ∧
      (again.render none false = '#' :: name ↔ Rendering.IsStable crateName ('#' :: name)) := by
  have noCrate : Text.startsWith ('#' :: name) (crateName ++ "::".toList) = false := by
    rw [Bool.eq_false_iff]
    intro starts
    rcases Text.startsWith_iff.mp starts with ⟨rest, same⟩
    have hashFree : '#' ∉ crateName := notMem_of_isIdentifier crateValid (by decide) (by decide)
    cases crateName with
    | nil => exact absurd crateValid (by decide)
    | cons char others =>
        simp only [List.cons_append, List.cons.injEq] at same
        exact hashFree (same.1 ▸ List.mem_cons_self)
  rw [ofRelative?_anchorText isAnchor]
  cases member : Page.associated? ('#' :: name) with
  | none =>
      refine ⟨_, rfl, ?_⟩
      have stable : Rendering.IsStable crateName ('#' :: name) := by
        refine ⟨fun own => absurd own.2 (by rw [noCrate]; decide), ?_⟩
        rintro ⟨kind, known, memberName, plain, same⟩
        have isMember := Page.associated?_eq_some_iff.mpr ⟨same, known, plain⟩
        simp [isMember] at member
      exact iff_of_true (List.append_nil ('#' :: name)) stable
  | some found =>
      rcases found with ⟨kind, memberName⟩
      rcases Page.associated?_eq_some_iff.mp member with ⟨same, known, plain⟩
      refine ⟨_, rfl, iff_of_false ?_ fun stable => stable.2 ⟨kind, known, memberName, plain, same⟩⟩
      have owner : render ⟨.here, [], .associated (.ofKind kind) memberName⟩ none false =
          'S' :: ("elf::".toList ++ memberName ++
            trailingToken ⟨.here, [], .associated (.ofKind kind) memberName⟩) := rfl
      rw [owner]
      simp

/-- A path of identifiers is no anchor. -/
theorem joinWith_ne_hash {names : List Text} {last : Text}
    (plain : ∀ name ∈ names, Identifier.isPlain name = true)
    (lastPlain : Identifier.isPlain last = true) (tail rest : Text) :
    Text.joinWith "::".toList (names ++ [last]) ++ tail ≠ '#' :: rest := by
  have begins : ∃ first behind, Identifier.isPlain first = true ∧
      Text.joinWith "::".toList (names ++ [last]) = first ++ behind := by
    cases names with
    | nil => exact ⟨last, [], lastPlain, by simp⟩
    | cons first others =>
        obtain ⟨behind, shape⟩ := Text.exists_joinWith_cons first (others ++ [last])
        exact ⟨first, behind, plain first (by simp), shape⟩
  rcases begins with ⟨first, behind, firstPlain, shape⟩
  rw [shape]
  intro same
  have hashFree : '#' ∉ first := Identifier.notMem_of_isPlain firstPlain (by decide)
  cases first with
  | nil => exact Identifier.ne_nil_of_isPlain firstPlain rfl
  | cons char others =>
      simp only [List.cons_append, List.cons.injEq] at same
      exact hashFree (same.1 ▸ List.mem_cons_self)

theorem exists_ofRelative?_names {names : List Text} {last crateName : Text}
    {fragment : Option Text} (crateValid : isIdentifier crateName = true)
    (plain : ∀ name ∈ names, Identifier.isPlain name = true)
    (wellFormed : (Page.bare last fragment).WellFormed) :
    let rendering := Text.joinWith "::".toList (names ++ [last]) ++ Page.anchorText fragment
    ∃ again, ofRelative? (LinkPath.parse (Text.joinWith ['/'] (names ++ [last]) ++
        Page.anchorText fragment)) crateName = some again ∧
      (again.render none false = rendering ↔ Rendering.IsStable crateName rendering) := by
  intro rendering
  refine ⟨ofNames crateName names (.mod last fragment), ?_, ?_⟩
  · rw [ofRelative?_joinWith plain wellFormed, withLead?_names plain]
  · have noMember : ¬∃ kind ∈ itemKinds, ∃ name, Identifier.isPlain name = true ∧
        rendering = '#' :: (kind ++ '.' :: name) := by
      rintro ⟨kind, -, name, -, same⟩
      exact absurd same (joinWith_ne_hash plain wellFormed.2 _ _)
    have crateFree : ':' ∉ crateName := notMem_of_isIdentifier crateValid (by decide) (by decide)
    exact (render_ofNames_eq_iff crateFree plain wellFormed).trans (and_iff_left noMember).symm

/-- A rendering without a trailing token is read again. -/
theorem WellNamed.exists_ofTarget?_slashed (wellNamed : link.WellNamed)
    (noToken : link.trailingToken = []) :
    ∃ again, ofTarget? (Rendering.slashed (link.render none false)) options = some again ∧
      (again.render none false = link.render none false ↔
        Rendering.IsStable options.crateName (link.render none false)) := by
  have colonless := wellNamed.notMem_slashed_render false (by decide) (by decide) (by decide)
    wellNamed.notMem_token.1
  have slashed := wellNamed.slashed_render false
  have rendering : link.render none false = Text.joinWith "::".toList (link.segments none) ++
      Page.anchorText link.finish.anchorName := by
    rw [render, wellNamed.renderPath_eq, noToken]
    simp
  rw [noToken] at slashed
  simp only [Bool.false_eq_true, if_false, List.nil_append] at slashed
  rw [ofTarget?_of_colonless colonless, slashed, rendering]
  rcases List.eq_nil_or_concat' (link.segments none) with alone | ⟨names, last, several⟩
  · obtain ⟨name, finish⟩ := exists_anchor_of_segments_eq_nil alone
    have anchored : link.finish.anchorName = some name := by rw [finish]; rfl
    rw [alone, anchored]
    exact exists_ofRelative?_anchor (wellNamed.finish.anchor name anchored)
      options.crateName_isIdentifier
  · have plain := wellNamed.isPlain_segments_none
    rw [several] at plain ⊢
    exact exists_ofRelative?_names options.crateName_isIdentifier
      (fun name isName => plain name (List.mem_append_left _ isName))
      ⟨wellNamed.finish.anchor, plain last (by simp)⟩

/--
A rendering that is read again. With a token it is refused. Without one it is read, and rendered as
before unless it begins with the own name of the crate or is the anchor of an associated item.
-/
theorem classify_slashed_render {target : Text} (singleLine : '\n' ∉ target)
    (read : ofRelative? (LinkPath.parse target) options.crateName = some link) :
    let rendering := link.render none false
    (link.disambiguator.placement = .trailing →
      classify (Rendering.slashed rendering) options = .error ⟨Rendering.slashed rendering⟩) ∧
    (link.disambiguator.placement ≠ .trailing →
      ∃ again, classify (Rendering.slashed rendering) options = .ok again ∧
        (again.render none false = rendering ↔ Rendering.IsStable options.crateName rendering)) ∧
    (link.disambiguator.placement = .leading →
      classify (Rendering.slashed (link.render none true)) options =
        .error ⟨Rendering.slashed (link.render none true)⟩) := by
  rcases exists_reads (LinkPath.isSingleLine_parse singleLine) read with
    ⟨lead, page, wellFormed, -, reads, leadSingle⟩
  have wellNamed := reads.wellNamed wellFormed leadSingle
  refine ⟨?_, ?_, ?_⟩
  · intro trailing
    rw [classify, wellNamed.ofTarget?_slashed_trailing false trailing]
  · intro notTrailing
    have noToken : link.trailingToken = [] := if_neg notTrailing
    obtain ⟨again, isRead, same⟩ := wellNamed.exists_ofTarget?_slashed noToken
    exact ⟨again, by rw [classify, isRead], same⟩
  · intro leading
    rw [classify, wellNamed.ofTarget?_slashed_leading leading]

/-- A module of the crate's own name, reached through `./`, is taken for the crate. -/
theorem classify_slashed_render_ownName :
    let options : Options := { crateName := "krate".toList }
    let link : DocLink := ⟨.here, ["krate".toList],
      .item "struct".toList (.ofKind "struct".toList) "Type".toList none⟩
    ofRelative? (LinkPath.parse "./krate/struct.Type.html".toList) options.crateName = some link ∧
      link.render none false = "krate::Type".toList ∧
      ∃ again, classify (Rendering.slashed (link.render none false)) options = .ok again ∧
        again.render none false ≠ link.render none false := by
  intro options link
  have read : ofRelative? (LinkPath.parse "./krate/struct.Type.html".toList) options.crateName =
      some link := by decide +kernel
  obtain ⟨again, isRead, same⟩ :=
    (classify_slashed_render (by decide +kernel) read).2.1 (by decide +kernel)
  refine ⟨read, by decide +kernel, again, isRead, ?_⟩
  rw [ne_eq, same]
  exact fun stable => stable.1 (by decide +kernel)

end Renderings

end DocLink

end IntraDoc
