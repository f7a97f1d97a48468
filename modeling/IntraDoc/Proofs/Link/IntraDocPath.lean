import IntraDoc.Proofs.Link.Destination
import IntraDoc.Proofs.Link.Target

/-!
# The grammar of intra-doc paths

An intra-doc path is a leading token, segments joined by `::`, a trailing token and an anchor.
Every rendering of a target is such a path, and there is only one way to take the rendering apart:
the first `#` begins the anchor, an `@` ends the leading token, and a trailing token is told by its
last character.
-/

namespace IntraDoc

/-- The parts of an intra-doc path, in the order in which they are written. -/
structure IntraDocPath where
  leading : Text
  segments : List Text
  trailing : Text
  anchor : Option Text
deriving DecidableEq, Repr

namespace IntraDocPath

/-- The segments with `::` between them, and the trailing token. -/
def body (path : IntraDocPath) : Text :=
  Text.joinWith "::".toList path.segments ++ path.trailing

/-- The path as it is written. -/
def text (path : IntraDocPath) : Text :=
  path.leading ++ path.body ++ Page.anchorText path.anchor

/-- The name of the type in scope is a word. -/
def IsScope (currentType : Option Text) : Prop :=
  ∀ name ∈ currentType, name ≠ [] ∧ ∀ char ∈ name, Text.isWord char = true

/--
The parts of a path that can be written in the scope of a type. There is at most one token. The
segments are identifiers, the first of them possibly the type in scope instead, and only an anchor
can stand without segments.
-/
structure WellFormed (currentType : Option Text) (path : IntraDocPath) : Prop where
  leading : path.leading = [] ∨ path.leading ∈ Disambiguator.leadingTokens
  trailing : path.trailing = [] ∨ path.trailing ∈ Disambiguator.trailingTokens
  oneToken : path.leading = [] ∨ path.trailing = []
  first : ∀ name ∈ path.segments.head?, Identifier.isPlain name = true ∨ currentType = some name
  others : ∀ name ∈ path.segments.tail, Identifier.isPlain name = true
  anchor : ∀ name ∈ path.anchor, Page.IsAnchor name
  anchorAlone : path.segments = [] →
    path.leading = [] ∧ path.trailing = [] ∧ path.anchor.isSome = true

section Reading

variable {currentType : Option Text} {path : IntraDocPath}

theorem isWord_of_isPlain {name : Text} (plain : Identifier.isPlain name = true) :
    ∀ char ∈ name, Text.isWord char = true := by
  intro char inside
  simp [Text.isWord, Identifier.isAsciiWord_of_isPlain plain char inside]

theorem WellFormed.isWord_segments (wellFormed : path.WellFormed currentType)
    (scope : IsScope currentType) :
    ∀ name ∈ path.segments, name ≠ [] ∧ ∀ char ∈ name, Text.isWord char = true := by
  have ofPlain : ∀ {name : Text}, Identifier.isPlain name = true →
      name ≠ [] ∧ ∀ char ∈ name, Text.isWord char = true :=
    fun plain => ⟨Identifier.ne_nil_of_isPlain plain, isWord_of_isPlain plain⟩
  intro name isSegment
  rcases shape : path.segments with _ | ⟨head, tail⟩
  · simp [shape] at isSegment
  · rw [shape] at isSegment
    rcases List.mem_cons.mp isSegment with rfl | isLater
    · rcases wellFormed.first name (by simp [shape]) with plain | isScope
      · exact ofPlain plain
      · exact scope name isScope
    · exact ofPlain (wellFormed.others name (by simpa [shape] using isLater))

theorem WellFormed.notMem_joinWith (wellFormed : path.WellFormed currentType)
    (scope : IsScope currentType) {char : Char} (notWord : Text.isWord char = false)
    (notColon : char ≠ ':') : char ∉ Text.joinWith "::".toList path.segments := by
  intro inside
  rcases Text.mem_joinWith inside with isColon | ⟨name, isSegment, inName⟩
  · exact notColon (by simpa using isColon)
  · simp [(wellFormed.isWord_segments scope name isSegment).2 char inName] at notWord

theorem WellFormed.trailing_cases (wellFormed : path.WellFormed currentType) :
    path.trailing = [] ∨ path.trailing = "()".toList ∨ path.trailing = "!".toList := by
  simpa [Disambiguator.trailingTokens] using wellFormed.trailing

theorem WellFormed.notMem_body (wellFormed : path.WellFormed currentType)
    (scope : IsScope currentType) {char : Char} (notWord : Text.isWord char = false)
    (notColon : char ≠ ':') (notToken : char ∉ "()".toList ++ "!".toList) : char ∉ path.body := by
  simp only [List.mem_append, not_or] at notToken
  intro inside
  rcases List.mem_append.mp inside with inSegments | inTrailing
  · exact wellFormed.notMem_joinWith scope notWord notColon inSegments
  · rcases wellFormed.trailing_cases with none | call | bang
    · simp [none] at inTrailing
    · exact notToken.1 (call ▸ inTrailing)
    · exact notToken.2 (bang ▸ inTrailing)

/-- A leading token ends at its only `@`. -/
theorem WellFormed.leading_cases (wellFormed : path.WellFormed currentType) :
    path.leading = [] ∨ ∃ word, '@' ∉ word ∧ '#' ∉ word ∧ path.leading = word ++ ['@'] := by
  have all : ∀ token ∈ Disambiguator.leadingTokens, '@' ∉ token.dropLast ∧ '#' ∉ token.dropLast ∧
      token = token.dropLast ++ ['@'] := by decide
  rcases wellFormed.leading with none | isToken
  · exact Or.inl none
  · exact Or.inr ⟨_, all path.leading isToken⟩

end Reading

section Unique

variable {currentType : Option Text} {left right : IntraDocPath}

/-- The first `#` begins the anchor. -/
theorem WellFormed.takeWhile_text {path : IntraDocPath} (wellFormed : path.WellFormed currentType)
    (scope : IsScope currentType) :
    path.text.takeWhile (· ≠ '#') = path.leading ++ path.body := by
  have hashless : '#' ∉ path.leading ++ path.body := by
    intro inside
    rcases List.mem_append.mp inside with inLeading | inBody
    · rcases wellFormed.leading_cases with none | ⟨word, -, free, shape⟩
      · simp [none] at inLeading
      · simp [shape, free] at inLeading
    · exact wellFormed.notMem_body scope (by decide +kernel) (by decide) (by decide) inBody
  apply takeWhile_append_stop (forall_ne_of_notMem hashless)
  cases path.anchor <;> simp [Page.anchorText]

theorem anchor_eq (leftWellFormed : left.WellFormed currentType)
    (rightWellFormed : right.WellFormed currentType) (scope : IsScope currentType)
    (same : left.text = right.text) :
    left.leading ++ left.body = right.leading ++ right.body ∧ left.anchor = right.anchor := by
  have sameFront : left.leading ++ left.body = right.leading ++ right.body := by
    rw [← leftWellFormed.takeWhile_text scope, ← rightWellFormed.takeWhile_text scope, same]
  refine ⟨sameFront, Page.anchorText_injective ?_⟩
  rw [text, text, sameFront] at same
  exact List.append_cancel_left same

/-- An `@` ends the leading token, and there is none without one. -/
theorem leading_eq (leftWellFormed : left.WellFormed currentType)
    (rightWellFormed : right.WellFormed currentType) (scope : IsScope currentType)
    (same : left.leading ++ left.body = right.leading ++ right.body) :
    left.leading = right.leading ∧ left.body = right.body := by
  have behind : ∀ {path : IntraDocPath}, path.WellFormed currentType → '@' ∉ path.body :=
    fun wellFormed => wellFormed.notMem_body scope (by decide +kernel) (by decide) (by decide)
  rcases leftWellFormed.leading_cases with leftNone | ⟨leftWord, leftFree, -, leftShape⟩ <;>
    rcases rightWellFormed.leading_cases with rightNone | ⟨rightWord, rightFree, -, rightShape⟩
  · rw [leftNone, rightNone] at same ⊢
    exact ⟨rfl, same⟩
  · rw [leftNone, rightShape, List.nil_append] at same
    exact absurd (by simp [same]) (behind leftWellFormed)
  · rw [leftShape, rightNone, List.nil_append] at same
    exact absurd (by simp [← same]) (behind rightWellFormed)
  · rw [leftShape, rightShape, List.append_assoc, List.append_assoc] at same
    have sameWord : leftWord = rightWord := by
      rw [← takeWhile_ne_append leftFree left.body, ← takeWhile_ne_append rightFree right.body]
      exact congrArg _ same
    rw [leftShape, rightShape, sameWord]
    rw [sameWord] at same
    exact ⟨rfl, by simpa using same⟩

theorem segments_eq (leftWellFormed : left.WellFormed currentType)
    (rightWellFormed : right.WellFormed currentType) (scope : IsScope currentType)
    (same : left.body = right.body) :
    left.segments = right.segments ∧ left.trailing = right.trailing := by
  have path : ∀ {path : IntraDocPath}, path.WellFormed currentType →
      Rendering.dropToken path.body = Text.joinWith "::".toList path.segments := by
    intro path wellFormed
    apply Rendering.dropToken_append _ wellFormed.trailing_cases
    exact ⟨wellFormed.notMem_joinWith scope (by decide +kernel) (by decide),
      wellFormed.notMem_joinWith scope (by decide +kernel) (by decide)⟩
  have sameJoined : Text.joinWith "::".toList left.segments =
      Text.joinWith "::".toList right.segments := by
    rw [← path leftWellFormed, ← path rightWellFormed, same]
  have segments : ∀ {path : IntraDocPath}, path.WellFormed currentType →
      ∀ name ∈ path.segments, name ≠ [] ∧ ':' ∉ name := by
    intro path wellFormed name isSegment
    rcases wellFormed.isWord_segments scope name isSegment with ⟨nonempty, isWord⟩
    exact ⟨nonempty, fun colon => absurd (isWord ':' colon) (by decide +kernel)⟩
  have sameSegments : left.segments = right.segments := by
    rw [← Rendering.ite_splitSegments_joinWith (segments leftWellFormed),
      ← Rendering.ite_splitSegments_joinWith (segments rightWellFormed), sameJoined]
  refine ⟨sameSegments, ?_⟩
  rw [body, body, sameJoined] at same
  exact List.append_cancel_left same

/-- No text can be taken apart in two ways. -/
theorem text_injective (leftWellFormed : left.WellFormed currentType)
    (rightWellFormed : right.WellFormed currentType) (scope : IsScope currentType)
    (same : left.text = right.text) : left = right := by
  rcases anchor_eq leftWellFormed rightWellFormed scope same with ⟨sameFront, sameAnchor⟩
  rcases leading_eq leftWellFormed rightWellFormed scope sameFront with ⟨sameLeading, sameBody⟩
  rcases segments_eq leftWellFormed rightWellFormed scope sameBody with
    ⟨sameSegments, sameTrailing⟩
  rcases left with ⟨leading, segments, trailing, anchor⟩
  simp_all

end Unique

end IntraDocPath

namespace DocLink

/-- The parts that a link is rendered from. -/
def intraDocPath (link : DocLink) (currentType : Option Text) (disambiguate : Bool) :
    IntraDocPath :=
  ⟨if disambiguate then link.leadingToken else [], link.segments currentType, link.trailingToken,
    link.finish.anchorName⟩

section Renderings

variable {link : DocLink} {currentType : Option Text}

theorem ownerName_cases (currentType : Option Text) :
    Identifier.isPlain (ownerName currentType) = true ∨
      currentType = some (ownerName currentType) := by
  unfold ownerName
  split
  · exact Or.inr rfl
  · exact Or.inl (by decide)

theorem leadingToken_eq_nil_or_trailingToken_eq_nil (link : DocLink) :
    link.leadingToken = [] ∨ link.trailingToken = [] := by
  unfold leadingToken trailingToken
  cases link.disambiguator.placement <;> simp

theorem WellNamed.leadingToken_cases (wellNamed : link.WellNamed) :
    link.leadingToken = [] ∨ link.leadingToken ∈ Disambiguator.leadingTokens := by
  unfold leadingToken
  split
  · rename_i leading
    exact Or.inr (Disambiguator.token_of_leading wellNamed.finish.known leading)
  · exact Or.inl rfl

/-- Only the type in scope may be something else than an identifier, and it comes first. -/
theorem WellNamed.segments_cases (wellNamed : link.WellNamed) (currentType : Option Text) :
    (∀ name ∈ (link.segments currentType).head?,
        Identifier.isPlain name = true ∨ currentType = some name) ∧
      ∀ name ∈ (link.segments currentType).tail, Identifier.isPlain name = true := by
  by_cases bare : link.start = .here ∧ link.finish.isAssociated = true ∧ link.modules = []
  · have shape : link.segments currentType = ownerName currentType :: link.finish.names := by
      simp [segments, startSegments, bare]
    rw [shape]
    refine ⟨?_, wellNamed.finish.names⟩
    intro name isFirst
    rw [← Option.some.inj isFirst]
    exact ownerName_cases currentType
  · have plain : ∀ name ∈ link.segments currentType, Identifier.isPlain name = true := by
      intro name isSegment
      simp only [segments, startSegments, if_neg bare] at isSegment
      rcases List.mem_append.mp isSegment with inLead | inFinish
      · exact wellNamed.lead name inLead
      · exact wellNamed.finish.names name inFinish
    refine ⟨?_, ?_⟩
    · intro name isFirst
      exact Or.inl (plain name (List.mem_of_mem_head? isFirst))
    · intro name isLater
      exact plain name (List.mem_of_mem_tail isLater)

theorem WellNamed.wellFormed_intraDocPath (wellNamed : link.WellNamed)
    (currentType : Option Text) (disambiguate : Bool) :
    (link.intraDocPath currentType disambiguate).WellFormed currentType := by
  have leading : (if disambiguate then link.leadingToken else []) = [] ∨
      (if disambiguate then link.leadingToken else []) = link.leadingToken := by
    cases disambiguate <;> simp
  rcases wellNamed.segments_cases currentType with ⟨first, others⟩
  refine ⟨?_, ?_, ?_, first, others, wellNamed.finish.anchor, ?_⟩
  · rcases leading with none | written
    · exact Or.inl none
    · simp only [intraDocPath, written]
      exact wellNamed.leadingToken_cases
  · simpa [Disambiguator.trailingTokens, intraDocPath] using trailingToken_cases wellNamed
  · rcases leading with none | written
    · exact Or.inl none
    · simp only [intraDocPath, written]
      exact leadingToken_eq_nil_or_trailingToken_eq_nil link
  · intro alone
    rcases exists_anchor_of_segments_eq_nil alone with ⟨name, finish⟩
    rcases link with ⟨start, modules, linkFinish⟩
    simp only at finish
    subst finish
    refine ⟨?_, rfl, rfl⟩
    cases disambiguate <;> rfl

theorem WellNamed.text_intraDocPath (wellNamed : link.WellNamed) (currentType : Option Text)
    (disambiguate : Bool) :
    (link.intraDocPath currentType disambiguate).text = link.render currentType disambiguate := by
  rw [wellNamed.render_eq, IntraDocPath.text, IntraDocPath.body, intraDocPath, List.append_assoc]

end Renderings

/--
Every rendering of a target is a well-formed intra-doc path, and in one way only. Asking for leading
tokens puts the token of the disambiguator in front, if that is where it goes, and changes nothing
else.
-/
theorem existsUnique_intraDocPath {target : Text} {options : Options} {link : DocLink}
    {currentType : Option Text} (singleLine : '\n' ∉ target)
    (read : classify target options = .ok link) (scope : IntraDocPath.IsScope currentType) :
    (∀ disambiguate, ∃! path : IntraDocPath,
      path.WellFormed currentType ∧ path.text = link.render currentType disambiguate) ∧
    (link.disambiguator.placement = .leading →
      link.disambiguator.token ∈ Disambiguator.leadingTokens ∧
        link.render currentType true =
          link.disambiguator.token ++ link.render currentType false) ∧
    (link.disambiguator.placement ≠ .leading →
      link.render currentType true = link.render currentType false) := by
  have wellNamed := wellNamed_of_ofTarget? singleLine (ofTarget?_of_classify read)
  refine ⟨?_, ?_, ?_⟩
  · intro disambiguate
    refine ⟨link.intraDocPath currentType disambiguate,
      ⟨wellNamed.wellFormed_intraDocPath currentType disambiguate,
        wellNamed.text_intraDocPath currentType disambiguate⟩, ?_⟩
    rintro other ⟨wellFormed, spelled⟩
    apply IntraDocPath.text_injective wellFormed
      (wellNamed.wellFormed_intraDocPath currentType disambiguate) scope
    rw [spelled, wellNamed.text_intraDocPath]
  · intro leading
    refine ⟨Disambiguator.token_of_leading wellNamed.finish.known leading, ?_⟩
    simp [render, leadingToken, leading]
  · intro notLeading
    simp [render, leadingToken, notLeading]

/-- A function with a section of its page: the token stands before the section. -/
theorem existsUnique_intraDocPath_function :
    let options : Options := { crateName := "krate".toList }
    let link : DocLink := ⟨.sibling "mod1".toList, [],
      .item "fn".toList (.ofKind "fn".toList) "run".toList (some (.anchor "errors".toList))⟩
    let currentType := some "Type".toList
    classify "mod1/fn.run.html#errors".toList options = .ok link ∧
      link.render currentType true = "mod1::run()#errors".toList ∧
      ∃! path : IntraDocPath,
        path.WellFormed currentType ∧ path.text = link.render currentType true := by
  intro options link currentType
  have read : classify "mod1/fn.run.html#errors".toList options = .ok link := by decide +kernel
  have scope : IntraDocPath.IsScope currentType := by
    intro name isScope
    rw [← Option.some.inj isScope]
    exact ⟨by decide, IntraDocPath.isWord_of_isPlain (by decide)⟩
  exact ⟨read, by decide +kernel,
    (existsUnique_intraDocPath (by decide) read scope).1 true⟩

end DocLink

end IntraDoc
