import IntraDoc.Proofs.Link.Reading

/-!
# The normal form of renderings

The rendering of a link is a list of segments joined by `::`, a trailing token and an anchor. Links
that come from a target are well named: every segment is an identifier, the anchor is one that a
page name may carry, and the disambiguator is one of the table.
-/

namespace IntraDoc

namespace Disambiguator

/-- The disambiguators that some kind has. -/
def known : List Disambiguator :=
  none :: table.map (·.2)

/-- The tokens that stand in front of a path. -/
def leadingTokens : List Text :=
  ["type@".toList, "value@".toList, "macro@".toList, "mod@".toList]

/-- The tokens that stand behind a path. -/
def trailingTokens : List Text :=
  ["()".toList, "!".toList]

theorem ofKind_mem_known (kind : Text) : ofKind kind ∈ known := by
  unfold ofKind known
  cases found : table.lookup kind with
  | none => simp
  | some disambiguator =>
      rcases List.lookup_eq_some_iff.mp found with ⟨before, after, split, -⟩
      simp [split]

theorem mod_mem_known : mod ∈ known := by
  simp [known, table]

theorem token_of_trailing {disambiguator : Disambiguator} (isKnown : disambiguator ∈ known)
    (trailing : disambiguator.placement = .trailing) :
    disambiguator.token = "()".toList ∨ disambiguator.token = "!".toList := by
  have all : ∀ disambiguator ∈ known, disambiguator.placement = .trailing →
      disambiguator.token = "()".toList ∨ disambiguator.token = "!".toList := by decide
  exact all disambiguator isKnown trailing

theorem token_of_leading {disambiguator : Disambiguator} (isKnown : disambiguator ∈ known)
    (leading : disambiguator.placement = .leading) : disambiguator.token ∈ leadingTokens := by
  have all : ∀ disambiguator ∈ known, disambiguator.placement = .leading →
      disambiguator.token ∈ leadingTokens := by decide
  exact all disambiguator isKnown leading

theorem at_mem_token_of_leading {disambiguator : Disambiguator} (isKnown : disambiguator ∈ known)
    (leading : disambiguator.placement = .leading) : '@' ∈ disambiguator.token := by
  have all : ∀ token ∈ leadingTokens, '@' ∈ token := by decide
  exact all disambiguator.token (token_of_leading isKnown leading)

end Disambiguator

/-- The segments that a start contributes to a path. -/
def Start.segments : Start → List Text
  | empty => []
  | here => []
  | crate => ["crate".toList]
  | sibling name => [name]
  | supers count => List.replicate count "super".toList

/-- The segments that a finish contributes to a path. -/
def Finish.names : Finish → List Text
  | anchor _ => []
  | associated _ name => [name]
  | mod name _ => [name]
  | item _ _ name (some (.associated _ member)) => [name, member]
  | item _ _ name _ => [name]

/-- The anchor that a finish ends in. -/
def Finish.anchorName : Finish → Option Text
  | anchor name => some name
  | associated _ _ => none
  | mod _ fragment => fragment
  | item _ _ _ (some (.anchor name)) => some name
  | item _ _ _ _ => none

/-- The parts of the finish can be read back from a path. -/
structure Finish.WellNamed (finish : Finish) : Prop where
  names : ∀ name ∈ finish.names, Identifier.isPlain name = true
  anchor : ∀ name ∈ finish.anchorName, Page.IsAnchor name
  known : finish.disambiguator ∈ Disambiguator.known

namespace Finish

theorem wellNamed_anchor {name : Text} (isAnchor : Page.IsAnchor name) :
    (Finish.anchor name).WellNamed := by
  refine ⟨by simp [names], by simpa [anchorName] using isAnchor, ?_⟩
  simp [disambiguator, Disambiguator.known]

theorem wellNamed_associated {kind name : Text} (plain : Identifier.isPlain name = true) :
    (Finish.associated (.ofKind kind) name).WellNamed :=
  ⟨by simpa [names] using plain, by simp [anchorName], Disambiguator.ofKind_mem_known kind⟩

theorem wellNamed_mod {name : Text} {fragment : Option Text}
    (plain : Identifier.isPlain name = true) (isAnchor : ∀ name ∈ fragment, Page.IsAnchor name) :
    (Finish.mod name fragment).WellNamed :=
  ⟨by simpa [names] using plain, isAnchor, Disambiguator.mod_mem_known⟩

theorem wellNamed_item {kind name : Text} {fragment : Option Text}
    (wellFormed : (Page.item kind name fragment).WellFormed) :
    (Finish.item kind (.ofKind kind) name (fragment.map Page.fragmentOf)).WellNamed := by
  rcases wellFormed with ⟨isAnchor, -, plain⟩
  cases fragment with
  | none =>
      exact ⟨by simpa [names] using plain, by simp [anchorName],
        Disambiguator.ofKind_mem_known kind⟩
  | some fragment =>
      have isAnchor := isAnchor fragment rfl
      simp only [Option.map_some, Page.fragmentOf]
      cases member : Page.associated? ('#' :: fragment) with
      | none =>
          exact ⟨by simpa [names] using plain, by simpa [anchorName] using isAnchor,
            Disambiguator.ofKind_mem_known kind⟩
      | some found =>
          rcases found with ⟨memberKind, memberName⟩
          have memberPlain := (Page.associated?_eq_some_iff.mp member).2.2
          exact ⟨by simp [names, plain, memberPlain], by simp [anchorName],
            Disambiguator.ofKind_mem_known memberKind⟩

end Finish

namespace DocLink

/-- The segments before the modules: the type in scope for a bare associated item. -/
def startSegments (link : DocLink) (currentType : Option Text) : List Text :=
  if link.start = .here ∧ link.finish.isAssociated = true ∧ link.modules = [] then
    [ownerName currentType]
  else link.start.segments

/-- The segments of the path that a link is rendered as. -/
def segments (link : DocLink) (currentType : Option Text) : List Text :=
  link.startSegments currentType ++ link.modules ++ link.finish.names

/-- The parts of the link can be read back from a path. -/
structure WellNamed (link : DocLink) : Prop where
  lead : ∀ name ∈ link.start.segments ++ link.modules, Identifier.isPlain name = true
  finish : link.finish.WellNamed

theorem ownerName_ne_nil (currentType : Option Text) : ownerName currentType ≠ [] := by
  unfold ownerName
  split
  · simp
  · decide

theorem joinSegment_joinWith {segments : List Text} (filled : ∀ segment ∈ segments, segment ≠ [])
    (segment : Text) :
    joinSegment (Text.joinWith "::".toList segments) segment =
      Text.joinWith "::".toList (segments ++ [segment]) := by
  unfold joinSegment
  cases segments with
  | nil => rfl
  | cons first others =>
      have nonempty : Text.joinWith "::".toList (first :: others) ≠ [] :=
        Text.joinWith_ne_nil (by simp) filled
      rw [if_neg (by simpa using nonempty), Text.joinWith_concat (by simp)]

theorem foldl_joinSegment {segments modules : List Text}
    (filled : ∀ segment ∈ segments ++ modules, segment ≠ []) :
    modules.foldl joinSegment (Text.joinWith "::".toList segments) =
      Text.joinWith "::".toList (segments ++ modules) := by
  induction modules generalizing segments with
  | nil => simp
  | cons first others ih =>
      have segmentsFilled : ∀ segment ∈ segments, segment ≠ [] := by
        intro segment isSegment
        exact filled segment (List.mem_append_left _ isSegment)
      rw [List.foldl_cons, joinSegment_joinWith segmentsFilled, ih (by simpa using filled)]
      simp

theorem renderStart_eq (link : DocLink) (currentType : Option Text) :
    link.renderStart currentType =
      Text.joinWith "::".toList (link.startSegments currentType) := by
  unfold renderStart startSegments
  cases found : link.start with
  | here =>
      by_cases bare : link.finish.isAssociated = true ∧ link.modules = []
      · simp [bare.1, bare.2]
      · simp [bare, Start.segments]
  | _ => simp [Start.segments]

/--
A rendering is its segments, the trailing token and the anchor, in this order, if no segment that
leads to the finish is empty.
-/
theorem renderPath_eq_of_filled {link : DocLink} {currentType : Option Text}
    (filled : ∀ segment ∈ link.startSegments currentType ++ link.modules, segment ≠ []) :
    link.renderPath currentType =
      Text.joinWith "::".toList (link.segments currentType) ++ link.trailingToken ++
        Page.anchorText link.finish.anchorName := by
  have joined := fun segment => joinSegment_joinWith filled segment
  have lead : link.renderLead currentType =
      Text.joinWith "::".toList (link.startSegments currentType ++ link.modules) := by
    rw [renderLead, renderStart_eq]
    exact foldl_joinSegment filled
  rcases link with ⟨start, modules, finish⟩
  unfold renderPath
  rw [lead]
  unfold segments
  cases finish with
  | anchor name =>
      have noToken : trailingToken ⟨start, modules, .anchor name⟩ = [] := rfl
      simp only [noToken, Finish.names, Finish.anchorName, Page.anchorText, List.append_nil]
  | associated disambiguator name =>
      simp only [joined, Finish.names, Finish.anchorName, Page.anchorText, List.append_nil]
  | mod name fragment =>
      have noToken : trailingToken ⟨start, modules, .mod name fragment⟩ = [] := rfl
      cases fragment <;>
        simp only [joined, noToken, Finish.names, Finish.anchorName, Page.anchorText,
          List.append_nil]
  | item kind disambiguator name added =>
      rcases added with _ | (anchor | ⟨memberDisambiguator, member⟩)
      · simp only [joined, Finish.names, Finish.anchorName, Page.anchorText, List.append_nil]
      · simp only [joined, Finish.names, Finish.anchorName, Page.anchorText]
      · simp only [joined, Finish.names, Finish.anchorName, Page.anchorText, List.append_nil]
        rw [← Text.joinWith_concat (by simp)]
        simp

namespace WellNamed

variable {link : DocLink}

theorem startSegments_ne_nil (wellNamed : link.WellNamed) (currentType : Option Text) :
    ∀ segment ∈ link.startSegments currentType ++ link.modules, segment ≠ [] := by
  intro segment isSegment
  rcases List.mem_append.mp isSegment with inStart | inModules
  · unfold startSegments at inStart
    split at inStart
    · simp only [List.mem_singleton] at inStart
      rw [inStart]
      exact ownerName_ne_nil currentType
    · exact Identifier.ne_nil_of_isPlain (wellNamed.lead segment (List.mem_append_left _ inStart))
  · exact Identifier.ne_nil_of_isPlain (wellNamed.lead segment (List.mem_append_right _ inModules))

theorem renderPath_eq (wellNamed : link.WellNamed) (currentType : Option Text) :
    link.renderPath currentType =
      Text.joinWith "::".toList (link.segments currentType) ++ link.trailingToken ++
        Page.anchorText link.finish.anchorName :=
  renderPath_eq_of_filled (wellNamed.startSegments_ne_nil currentType)

theorem isPlain_segments (wellNamed : link.WellNamed) (currentType : Option Text)
    (owned : link.finish.isAssociated = true → Identifier.isPlain (ownerName currentType) = true) :
    ∀ name ∈ link.segments currentType, Identifier.isPlain name = true := by
  intro name isSegment
  unfold segments at isSegment
  rcases List.mem_append.mp isSegment with inLead | inFinish
  · rcases List.mem_append.mp inLead with inStart | inModules
    · unfold startSegments at inStart
      split at inStart
      · rename_i bare
        simp only [List.mem_singleton] at inStart
        exact inStart ▸ owned bare.2.1
      · exact wellNamed.lead name (List.mem_append_left _ inStart)
    · exact wellNamed.lead name (List.mem_append_right _ inModules)
  · exact wellNamed.finish.names name inFinish

end WellNamed

section Reading

variable {crateName : Text} {lead : List Component} {start : Start} {modules : List Text}

theorem Lead.isPlain (reached : Lead crateName lead start modules)
    (singleLine : ∀ name, .named name ∈ lead → '\n' ∉ name) :
    ∀ name ∈ start.segments ++ modules, Identifier.isPlain name = true := by
  have plainOf : ∀ name, .named name ∈ lead → isIdentifier name = true →
      Identifier.isPlain name = true := by
    intro name component valid
    rwa [isIdentifier_eq_isPlain (singleLine name component)] at valid
  intro name isSegment
  rcases List.mem_append.mp isSegment with inStart | inModules
  · cases reached with
    | empty => simp [Start.segments] at inStart
    | here count valid => simp [Start.segments] at inStart
    | crate count valid =>
        simp only [Start.segments, List.mem_singleton] at inStart
        rw [inStart]
        decide
    | sibling foreign nameValid valid =>
        simp only [Start.segments, List.mem_singleton] at inStart
        exact inStart ▸ plainOf _ (by simp) nameValid
    | supers count foreign valid =>
        rw [List.eq_of_mem_replicate inStart]
        decide
  · cases reached with
    | empty => simp at inModules
    | here count valid => exact plainOf name (by simp [inModules]) (valid name inModules)
    | crate count valid => exact plainOf name (by simp [inModules]) (valid name inModules)
    | sibling foreign nameValid valid =>
        exact plainOf name (by simp [inModules]) (valid name inModules)
    | supers count foreign valid =>
        exact plainOf name (by simp [inModules]) (valid name inModules)

/-- Links that are read from a target on one line are well named. -/
theorem Reads.wellNamed {page : Page} {link : DocLink} (reads : Reads crateName lead page link)
    (wellFormed : page.WellFormed) (singleLine : ∀ name, .named name ∈ lead → '\n' ∉ name) :
    link.WellNamed := by
  have before : ∀ {components : List Component} {last : Component},
      lead = components ++ [last] → ∀ name, .named name ∈ components → '\n' ∉ name := by
    rintro components last rfl name component
    exact singleLine name (List.mem_append_left _ component)
  cases reads with
  | member near known plain =>
      exact ⟨by simp [Start.segments], Finish.wellNamed_associated plain⟩
  | anchor noMember =>
      exact ⟨by simp [Start.segments], Finish.wellNamed_anchor (wellFormed.1 _ rfl)⟩
  | anchorBelow nonempty noMember reached =>
      exact ⟨reached.isPlain singleLine, Finish.wellNamed_anchor (wellFormed.1 _ rfl)⟩
  | item reached => exact ⟨reached.isPlain singleLine, Finish.wellNamed_item wellFormed⟩
  | bare reached =>
      exact ⟨reached.isPlain singleLine, Finish.wellNamed_mod wellFormed.2 wellFormed.1⟩
  | index => exact ⟨by simp [Start.segments], Finish.wellNamed_mod (by decide) (by simp)⟩
  | indexHere reached =>
      exact ⟨reached.isPlain (before rfl), Finish.wellNamed_mod (by decide) (by simp)⟩
  | indexUp reached =>
      exact ⟨reached.isPlain (before rfl), Finish.wellNamed_mod (by decide) (by simp)⟩
  | indexCrate reached =>
      exact ⟨by simp [Start.segments], Finish.wellNamed_mod (by decide) (by simp)⟩
  | indexNamed foreign valid reached =>
      have plain := valid
      rw [isIdentifier_eq_isPlain (singleLine _ (by simp))] at plain
      exact ⟨reached.isPlain (before rfl), Finish.wellNamed_mod plain (by simp)⟩
  | indexAnchor =>
      exact ⟨by simp [Start.segments], Finish.wellNamed_mod (by decide) wellFormed.1⟩
  | indexAnchorBelow nonempty reached =>
      exact ⟨reached.isPlain singleLine, Finish.wellNamed_anchor (wellFormed.1 _ rfl)⟩

end Reading

end DocLink

end IntraDoc
