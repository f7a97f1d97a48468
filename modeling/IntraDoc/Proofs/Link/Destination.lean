import IntraDoc.Proofs.Link.Rendering

/-!
# Where links lead

A page of the documentation lies in the directory of its module, so a relative target is a walk from
one directory to another and a page there. The rendering of the same target is a path of modules and
items. This file defines both walks, neither in terms of the readers, and shows that they end in the
same place.
-/

namespace IntraDoc

/-- The directory of a module: the names of the modules that hold it, the crate first. -/
abbrev Directory := List Text

namespace Directory

/-- The directory above. There is none above the directory of the crate. -/
def parent? : Directory → Option Directory
  | [] => none
  | [_] => none
  | directory => some directory.dropLast

/-- The directory that a component of a target leads to. -/
def visit? (directory : Directory) : Component → Option Directory
  | .here => some directory
  | .up => directory.parent?
  | component => some (directory ++ [component.text])

/-- The module or item that a segment of a path leads to. -/
def enter? (directory : Directory) (segment : Text) : Option Directory :=
  if segment = "self".toList then some directory
  else if segment = "super".toList then directory.parent?
  else some (directory ++ [segment])

end Directory

namespace Page

/-- The associated item that an anchor on the page of an item names. -/
def memberNames (fragment : Text) : List Text :=
  match Text.splitOn '.' fragment with
  | [kind, name] => if itemKinds.contains kind && Identifier.isPlain name then [name] else []
  | _ => []

/--
What a page name adds to the directory of the page: the module that it names, or the item and the
associated item. An index page and an anchor add nothing.
-/
def addedNames (page : Text) : List Text :=
  match Text.splitOn '.' (page.takeWhile (· ≠ '#')) with
  | [[]] => []
  | [name] => [name]
  | [_, name, _] => name :: memberNames ((page.dropWhile (· ≠ '#')).drop 1)
  | _ => []

end Page

namespace LinkPath

/-- What the page name adds to the directory that the path leads to. -/
def addedNames (path : LinkPath) : List Text :=
  (path.fileName?.map Page.addedNames).getD []

/-- The directories, modules and items that the path names. -/
def names (path : LinkPath) : List Text :=
  (path.parent.components.filterMap fun component =>
    match component with
    | .named name => some name
    | _ => none) ++ path.addedNames

end LinkPath

/-- The place that a target leads to, unless it climbs above the crate. -/
def Directory.walk? (directory : Directory) (path : LinkPath) : Option Directory :=
  (path.parent.components.foldlM visit? directory).map (· ++ path.addedNames)

namespace Rendering

/-- A path without `()` or `!` behind it. -/
def dropToken (path : Text) : Text :=
  match path.reverse with
  | ')' :: '(' :: rest => rest.reverse
  | '!' :: rest => rest.reverse
  | _ => path

/-- The path in a rendering without a leading token. -/
def path (rendering : Text) : Text :=
  dropToken (rendering.takeWhile (· ≠ '#'))

/-- The pieces between the occurrences of `::`. -/
def splitSegments : Text → List Text
  | [] => [[]]
  | ':' :: ':' :: rest => [] :: splitSegments rest
  | char :: rest =>
    match splitSegments rest with
    | [] => [[char]]
    | piece :: pieces => (char :: piece) :: pieces

/-- The segments of the path in a rendering; an empty path has none. -/
def segments (rendering : Text) : List Text :=
  if path rendering = [] then [] else splitSegments (path rendering)

end Rendering

/-- The place that a rendering leads to from a module, unless it climbs above the crate. -/
def Directory.follow? (directory : Directory) (rendering : Text) : Option Directory :=
  (Rendering.segments rendering).foldlM enter? directory

/-- The names that have a meaning of their own in paths: the crate and the keywords. -/
def reservedNames (crateName : Text) : List Text :=
  [crateName, "crate".toList, "self".toList, "super".toList]

namespace Rendering

theorem splitSegments_of_notMem {piece : Text} (free : ':' ∉ piece) :
    splitSegments piece = [piece] := by
  induction piece with
  | nil => rfl
  | cons char rest ih =>
      simp only [List.mem_cons, not_or] at free
      rw [splitSegments, ih free.2]
      rintro - rfl
      exact absurd rfl free.1

theorem splitSegments_append {piece : Text} (free : ':' ∉ piece) (rest : Text) :
    splitSegments (piece ++ ':' :: ':' :: rest) = piece :: splitSegments rest := by
  induction piece with
  | nil => rfl
  | cons char piece ih =>
      simp only [List.mem_cons, not_or] at free
      rw [List.cons_append, splitSegments, ih free.2]
      rintro - rfl
      exact absurd rfl free.1

theorem splitSegments_joinWith {pieces : List Text} (nonempty : pieces ≠ [])
    (free : ∀ piece ∈ pieces, ':' ∉ piece) :
    splitSegments (Text.joinWith "::".toList pieces) = pieces := by
  induction pieces with
  | nil => exact absurd rfl nonempty
  | cons first others ih =>
      have firstFree := free first (by simp)
      cases others with
      | nil => simpa using splitSegments_of_notMem firstFree
      | cons next others =>
          have othersFree : ∀ piece ∈ next :: others, ':' ∉ piece := by
            intro piece isPiece
            exact free piece (List.mem_cons_of_mem _ isPiece)
          have separator : "::".toList = [':', ':'] := by decide
          rw [Text.joinWith_cons (by simp), separator, List.append_assoc, List.cons_append,
            List.singleton_append, splitSegments_append firstFree, ← separator,
            ih (by simp) othersFree]

/-- Joined segments are told apart again, also when there are none. -/
theorem ite_splitSegments_joinWith {pieces : List Text}
    (filled : ∀ piece ∈ pieces, piece ≠ [] ∧ ':' ∉ piece) :
    (if Text.joinWith "::".toList pieces = [] then []
      else splitSegments (Text.joinWith "::".toList pieces)) = pieces := by
  by_cases none : pieces = []
  · simp [none]
  · rw [if_neg (Text.joinWith_ne_nil none fun piece isPiece => (filled piece isPiece).1)]
    exact splitSegments_joinWith none fun piece isPiece => (filled piece isPiece).2

theorem dropToken_append {path token : Text} (clean : ')' ∉ path ∧ '!' ∉ path)
    (isToken : token = [] ∨ token = "()".toList ∨ token = "!".toList) :
    dropToken (path ++ token) = path := by
  rcases isToken with rfl | rfl | rfl
  · rw [List.append_nil]
    unfold dropToken
    split
    · rename_i rest reversed
      have inside : ')' ∈ path.reverse := by simp [reversed]
      exact absurd (List.mem_reverse.mp inside) clean.1
    · rename_i rest reversed
      have inside : '!' ∈ path.reverse := by simp [reversed]
      exact absurd (List.mem_reverse.mp inside) clean.2
    · rfl
  · simp [dropToken]
  · simp [dropToken]

end Rendering

namespace DocLink

section Following

variable {link : DocLink} {currentType : Option Text}

theorem trailingToken_cases (wellNamed : link.WellNamed) :
    link.trailingToken = [] ∨ link.trailingToken = "()".toList ∨
      link.trailingToken = "!".toList := by
  unfold trailingToken
  split
  · rename_i trailing
    exact Or.inr (Disambiguator.token_of_trailing wellNamed.finish.known trailing)
  · exact Or.inl rfl

/-- Outside of its tokens and its anchor a rendering has identifiers and colons only. -/
theorem mem_joinWith_segments
    (plain : ∀ name ∈ link.segments currentType, Identifier.isPlain name = true) :
    ∀ char ∈ Text.joinWith "::".toList (link.segments currentType),
      char = ':' ∨ Text.isAsciiWord char = true := by
  intro char inside
  rcases Text.mem_joinWith inside with inSeparator | ⟨name, isSegment, inName⟩
  · exact Or.inl (by simpa using inSeparator)
  · exact Or.inr (Identifier.isAsciiWord_of_isPlain (plain name isSegment) char inName)

theorem path_renderPath (wellNamed : link.WellNamed)
    (plain : ∀ name ∈ link.segments currentType, Identifier.isPlain name = true) :
    Rendering.path (link.renderPath currentType) =
      Text.joinWith "::".toList (link.segments currentType) := by
  have alphabet := mem_joinWith_segments plain
  have token := trailingToken_cases wellNamed
  have outside : ∀ char, char ≠ ':' → Text.isAsciiWord char = false →
      char ∉ Text.joinWith "::".toList (link.segments currentType) := by
    intro char notColon notWord inside
    rcases alphabet char inside with colon | word
    · exact notColon colon
    · simp [word] at notWord
  have hashless : '#' ∉ Text.joinWith "::".toList (link.segments currentType) ++
      link.trailingToken := by
    intro inside
    rcases List.mem_append.mp inside with inPath | inToken
    · exact outside '#' (by decide) (by decide) inPath
    · rcases token with isToken | isToken | isToken <;> simp [isToken] at inToken
  have stop : ∀ char ∈ (Page.anchorText link.finish.anchorName).head?,
      decide (char ≠ '#') = false := by
    cases link.finish.anchorName <;> simp [Page.anchorText]
  rw [wellNamed.renderPath_eq, Rendering.path,
    takeWhile_append_stop (forall_ne_of_notMem hashless) stop]
  exact Rendering.dropToken_append
    ⟨outside ')' (by decide) (by decide), outside '!' (by decide) (by decide)⟩ token

/-- A rendering is read back into the segments that it was made of. -/
theorem segments_renderPath (wellNamed : link.WellNamed)
    (plain : ∀ name ∈ link.segments currentType, Identifier.isPlain name = true) :
    Rendering.segments (link.renderPath currentType) = link.segments currentType := by
  rw [Rendering.segments, path_renderPath wellNamed plain]
  apply Rendering.ite_splitSegments_joinWith
  intro name isSegment
  exact ⟨Identifier.ne_nil_of_isPlain (plain name isSegment),
    Identifier.notMem_of_isPlain (plain name isSegment) (by decide)⟩

end Following

end DocLink

namespace Component

/-- The segments that say the same as a component. -/
def segments : Component → List Text
  | here => []
  | up => ["super".toList]
  | component => [component.text]

theorem flatMap_segments_named (names : List Text) :
    (names.map named).flatMap segments = names := by
  induction names with
  | nil => rfl
  | cons first others ih => simp [segments, text, ih]

theorem flatMap_segments_up (count : Nat) :
    (List.replicate count up).flatMap segments = List.replicate count "super".toList := by
  induction count with
  | zero => rfl
  | succ count ih => simp [List.replicate_succ, segments, ih]

end Component

namespace Directory

theorem enter?_of_foreign {crateName name : Text} (directory : Directory)
    (foreign : name ∉ reservedNames crateName) :
    directory.enter? name = some (directory ++ [name]) := by
  simp only [reservedNames, List.mem_cons, List.not_mem_nil, or_false, not_or] at foreign
  rw [enter?, if_neg foreign.2.2.1, if_neg foreign.2.2.2]

theorem foldlM_enter?_of_foreign {crateName : Text} {names : List Text} (directory : Directory)
    (foreign : ∀ name ∈ names, name ∉ reservedNames crateName) :
    names.foldlM enter? directory = some (directory ++ names) := by
  induction names generalizing directory with
  | nil => simp
  | cons first others ih =>
      rw [List.foldlM_cons, enter?_of_foreign directory (foreign first (by simp))]
      simpa using ih (directory ++ [first]) fun name isName =>
        foreign name (List.mem_cons_of_mem _ isName)

/-- One component leads to where its segments lead. -/
theorem visit?_eq_foldlM {crateName : Text} (directory : Directory) {component : Component}
    (foreign : ∀ name, component = .named name → name ∉ reservedNames crateName) :
    directory.visit? component = component.segments.foldlM enter? directory := by
  cases component with
  | here => rfl
  | up => simp [visit?, Component.segments, enter?]
  | root => simp [visit?, Component.segments, enter?, Component.text]
  | named name =>
      simp [visit?, Component.segments, Component.text,
        enter?_of_foreign directory (foreign name rfl)]

/-- A run of components leads to where their segments lead. -/
theorem foldlM_visit?_eq {crateName : Text} {lead : List Component} (directory : Directory)
    (foreign : ∀ name, .named name ∈ lead → name ∉ reservedNames crateName) :
    lead.foldlM visit? directory = (lead.flatMap Component.segments).foldlM enter? directory := by
  induction lead generalizing directory with
  | nil => rfl
  | cons first others ih =>
      have firstForeign : ∀ name, first = .named name → name ∉ reservedNames crateName := by
        rintro name rfl
        exact foreign name (by simp)
      rw [List.foldlM_cons, List.flatMap_cons, List.foldlM_append,
        visit?_eq_foldlM directory firstForeign]
      congr 1
      funext reached
      exact ih reached fun name isName => foreign name (List.mem_cons_of_mem _ isName)

end Directory

namespace DocLink

/-- The segments of a lead are those of its components, if the crate is not among them. -/
theorem Lead.segments_eq {crateName : Text} {lead : List Component} {start : Start}
    {modules : List Text} (reached : Lead crateName lead start modules)
    (foreign : .named crateName ∉ lead)
    (inFront : ∀ before after, lead = before ++ .here :: after → before = []) :
    start.segments ++ modules = lead.flatMap Component.segments := by
  cases reached with
  | empty => rfl
  | here count valid =>
      have noUps := inFront _ _ rfl
      rw [noUps]
      simp [Start.segments, Component.segments, Component.flatMap_segments_named]
  | crate count valid => exact absurd (by simp) foreign
  | sibling nameForeign nameValid valid =>
      simp [Start.segments, Component.segments, Component.text,
        Component.flatMap_segments_named]
  | supers count headForeign valid =>
      rw [List.flatMap_append, Component.flatMap_segments_up, Component.flatMap_segments_named]
      rfl

end DocLink

namespace Page

theorem memberNames_eq (fragment : Text) :
    memberNames fragment =
      match associated? ('#' :: fragment) with
      | some (_, member) => [member]
      | none => [] := by
  cases member : associated? ('#' :: fragment) with
  | some found =>
      rcases found with ⟨kind, name⟩
      rcases associated?_eq_some_iff.mp member with ⟨spelled, known, plain⟩
      simp only [List.cons.injEq, true_and] at spelled
      have kindFree : '.' ∉ kind :=
        Identifier.notMem_of_isPlain (isPlain_of_mem_itemKinds known) (by decide)
      have nameFree : '.' ∉ name := Identifier.notMem_of_isPlain plain (by decide)
      rw [memberNames, spelled, Text.splitOn_append kindFree, Text.splitOn_of_notMem nameFree]
      simp [known, plain]
  | none =>
      unfold memberNames
      split
      · rename_i kind name cut
        rw [if_neg]
        intro isMember
        rw [Bool.and_eq_true, List.contains_iff_mem] at isMember
        rcases isMember with ⟨known, plain⟩
        have spelled : fragment = kind ++ '.' :: name := by
          rw [← Text.joinWith_splitOn fragment, cut]
          simp [Text.joinWith]
        have found := associated?_eq_some_iff.mpr ⟨congrArg ('#' :: ·) spelled, known, plain⟩
        simp [found] at member
      · rfl

/-- What a page adds to its directory. -/
def names : Page → List Text
  | anchor _ => []
  | item _ name fragment => name :: (fragment.map memberNames).getD []
  | index _ => []
  | bare name _ => [name]

theorem addedNames_text {page : Page} (wellFormed : page.WellFormed) :
    addedNames page.text = page.names := by
  rw [addedNames, takeWhile_text wellFormed, splitOn_file wellFormed, dropWhile_text wellFormed]
  cases page with
  | anchor name => rfl
  | index fragment => rfl
  | bare name fragment =>
      cases name with
      | nil => exact absurd rfl (Identifier.ne_nil_of_isPlain wellFormed.2)
      | cons char rest => rfl
  | item kind name fragment =>
      cases fragment <;>
        simp [pieces, names, anchorName, anchorText, memberNames, Text.splitOn]

theorem names_item (kind name : Text) (disambiguator : Disambiguator) (fragment : Option Text) :
    (Finish.item kind disambiguator name (fragment.map fragmentOf)).names =
      (item kind name fragment).names := by
  cases fragment with
  | none => rfl
  | some fragment =>
      simp only [Option.map_some, fragmentOf, names, Option.getD_some, memberNames_eq]
      cases member : associated? ('#' :: fragment) <;> simp [Finish.names]

end Page

namespace DocLink

section Destinations

variable {crateName target : Text} {lead : List Component} {page : Page} {link : DocLink}

/-- A link leads to where its lead and its page lead. -/
theorem Reads.foldlM_segments (reads : Reads crateName lead page link)
    (notMember : link.finish.isAssociated = false)
    (foreign : .named crateName ∉ lead)
    (inFront : ∀ before after, lead = before ++ .here :: after → before = [])
    (currentType : Option Text) (directory : Directory) :
    (link.segments currentType).foldlM Directory.enter? directory =
      (lead.flatMap Component.segments ++ page.names).foldlM Directory.enter? directory := by
  have startOnly : link.segments currentType =
      link.start.segments ++ link.modules ++ link.finish.names := by
    simp [segments, startSegments, notMember]
  have before : ∀ {components : List Component} {last : Component},
      lead = components ++ [last] → .named crateName ∉ components ∧
        ∀ before after, components = before ++ .here :: after → before = [] := by
    rintro components last rfl
    refine ⟨fun component => foreign (List.mem_append_left _ component), ?_⟩
    rintro before after rfl
    exact inFront before (after ++ [last]) (by simp)
  rw [startOnly]
  cases reads with
  | member near known plain => simp [Finish.isAssociated] at notMember
  | anchor noMember => rfl
  | anchorBelow nonempty noMember reached =>
      rw [reached.segments_eq foreign inFront]
      rfl
  | item reached => rw [reached.segments_eq foreign inFront, Page.names_item]
  | bare reached =>
      rw [reached.segments_eq foreign inFront]
      rfl
  | index => rfl
  | indexHere reached =>
      rw [reached.segments_eq (before rfl).1 (before rfl).2, List.foldlM_append]
      simp [Finish.names, Page.names, Component.segments, Directory.enter?]
  | indexUp reached =>
      rw [reached.segments_eq (before rfl).1 (before rfl).2]
      simp [Finish.names, Page.names, Component.segments]
  | indexCrate reached => exact absurd (by simp) foreign
  | indexNamed nameForeign valid reached =>
      rw [reached.segments_eq (before rfl).1 (before rfl).2]
      simp [Finish.names, Page.names, Component.segments, Component.text]
  | indexAnchor => rfl
  | indexAnchorBelow nonempty reached =>
      rw [reached.segments_eq foreign inFront]
      rfl

/--
Converting a relative target keeps the place that it leads to. From every directory the rendering
leads to where the target leads, and climbs above the crate only if the target does. The names on
the way must not be reserved ones, and a bare associated item has no directory of its own.
-/
theorem follow?_render_eq_walk? (singleLine : '\n' ∉ target)
    (read : ofRelative? (LinkPath.parse target) crateName = some link)
    (notMember : link.finish.isAssociated = false)
    (foreign : ∀ name ∈ (LinkPath.parse target).names, name ∉ reservedNames crateName)
    (directory : Directory) (currentType : Option Text) :
    directory.follow? (link.render currentType false) =
      directory.walk? (LinkPath.parse target) := by
  rcases exists_reads (LinkPath.isSingleLine_parse singleLine) read with
    ⟨lead, page, wellFormed, path, reads, leadSingle⟩
  have inFront : ∀ before after, lead = before ++ .here :: after → before = [] := by
    rintro before after rfl
    exact LinkPath.before_here_eq_nil (by rw [path, List.append_assoc, List.cons_append])
  have wellNamed := reads.wellNamed wellFormed leadSingle
  have plain := wellNamed.isPlain_segments currentType (by simp [notMember])
  have added : (LinkPath.parse target).addedNames = page.names := by
    simp [path, LinkPath.addedNames, Page.addedNames_text wellFormed]
  have leadForeign : ∀ name, .named name ∈ lead → name ∉ reservedNames crateName := by
    intro name component
    apply foreign name
    simp only [LinkPath.names, path, parent_concat, List.mem_append, List.mem_filterMap]
    exact Or.inl ⟨.named name, component, rfl⟩
  have pageForeign : ∀ name ∈ page.names, name ∉ reservedNames crateName := by
    intro name inPage
    apply foreign name
    rw [LinkPath.names, added]
    exact List.mem_append_right _ inPage
  have crateForeign : .named crateName ∉ lead := by
    intro component
    exact leadForeign crateName component (by simp [reservedNames])
  calc directory.follow? (link.render currentType false)
      = (link.segments currentType).foldlM Directory.enter? directory := by
        simp only [Directory.follow?, render, Bool.false_eq_true, if_false, List.nil_append,
          segments_renderPath wellNamed plain]
    _ = (lead.flatMap Component.segments ++ page.names).foldlM Directory.enter? directory :=
        reads.foldlM_segments notMember crateForeign inFront currentType directory
    _ = (lead.foldlM Directory.visit? directory).map (· ++ page.names) := by
        rw [List.foldlM_append, ← Directory.foldlM_visit?_eq directory leadForeign]
        cases lead.foldlM Directory.visit? directory with
        | none => rfl
        | some reached => exact Directory.foldlM_enter?_of_foreign reached pageForeign
    _ = directory.walk? (LinkPath.parse target) := by
        rw [Directory.walk?, added, path, parent_concat]

/-- Two steps up, one module down and a method there. -/
theorem follow?_render_twoUp :
    let target := "../../near/struct.Type.html#method.call".toList
    let link : DocLink := ⟨.supers 2, ["near".toList], .item "struct".toList
      (.ofKind "struct".toList) "Type".toList
      (some (.associated (.ofKind "method".toList) "call".toList))⟩
    let directory : Directory := ["krate".toList, "far".toList, "inner".toList]
    ofRelative? (LinkPath.parse target) "krate".toList = some link ∧
      directory.walk? (LinkPath.parse target) =
        some ["krate".toList, "near".toList, "Type".toList, "call".toList] ∧
      directory.follow? (link.render none false) =
        directory.walk? (LinkPath.parse target) := by
  intro target link directory
  have read : ofRelative? (LinkPath.parse target) "krate".toList = some link := by
    decide +kernel
  refine ⟨read, by decide +kernel, ?_⟩
  exact follow?_render_eq_walk? (by decide +kernel) read (by decide) (by decide +kernel)
    directory none

end Destinations

end DocLink

end IntraDoc
