import IntraDoc.Proofs.Link.FirstSegment

/-!
# Spellings of the page of a module

The page of a module can be written as the index page of its directory or as the directory alone,
and a section of it as an anchor on either of them or as an anchor in the directory. Different
readers take these spellings apart: one makes the directory a component before the page, another
makes it the page. What relates them is that a directory before the page adds a segment at the end
of what leads there, whichever start that has.
-/

namespace IntraDoc

namespace DocLink

/-- The link with one more directory between its start and its finish. -/
def below (name : Text) (link : DocLink) : DocLink :=
  match link.start with
  | .empty => { link with start := .sibling name }
  | _ => { link with modules := link.modules ++ [name] }

section Directories

variable {crateName name : Text} {start : Start} {finish : Finish}

theorem moduleNames?_concat (valid : isIdentifier name = true) (components : List Component) :
    moduleNames? (components ++ [.named name]) = (moduleNames? components).map (· ++ [name]) := by
  induction components with
  | nil => simp [moduleNames?, valid]
  | cons first others ih =>
      cases first with
      | named other =>
          simp only [List.cons_append, moduleNames?, ih]
          split
          · simp only [Option.map_map]
            rfl
          · rfl
      | root => rfl
      | here => rfl
      | up => rfl

theorem through?_concat (valid : isIdentifier name = true) (notEmpty : start ≠ .empty)
    (between : List Component) :
    through? start (between ++ [.named name]) finish =
      (through? start between finish).map (below name) := by
  have deeper : ∀ modules, below name ⟨start, modules, finish⟩ =
      ⟨start, modules ++ [name], finish⟩ := by
    intro modules
    cases start with
    | empty => exact absurd rfl notEmpty
    | _ => rfl
  rw [through?, through?, moduleNames?_concat valid, Option.map_map, Option.map_map]
  congr 1
  funext modules
  exact (deeper modules).symm

/-- A last directory other than the own one is passed on the way to the finish. -/
theorem withLead?_concat (foreign : name ≠ crateName) (valid : isIdentifier name = true)
    (lead : List Component) (finish : Finish) :
    withLead? ⟨lead ++ [.named name]⟩ finish crateName =
      (withLead? ⟨lead⟩ finish crateName).map (below name) := by
  obtain ⟨count, rest, rfl, stop, -, -⟩ := replicate_up_append lead
  have behind : (rest ++ [Component.named name]).head? ≠ some .up := by
    cases rest with
    | nil => simp
    | cons first others => simpa using stop
  rw [List.append_assoc, withLead?_replicate count rest finish crateName stop,
    withLead?_replicate count (rest ++ [Component.named name]) finish crateName behind]
  cases rest with
  | nil =>
      by_cases noUps : count = 0
      · simp [foreign, valid, noUps, through?, moduleNames?, below]
      · simp [foreign, valid, noUps, through?, moduleNames?, below]
  | cons first others =>
      cases first with
      | up => simp at stop
      | root => rfl
      | here => exact through?_concat valid (by simp) others
      | named other =>
          simp only [List.cons_append]
          split
          · exact through?_concat valid (by simp) others
          · split
            · split
              · exact through?_concat valid (by simp) others
              · rfl
            · exact through?_concat valid (by simp) (.named other :: others)

end Directories

section Sections

variable {crateName name : Text} {lead : List Component} {start : Start} {modules : List Text}

/-- The directory is the last of the segments that lead to the finish. -/
theorem Lead.exists_below (reached : Lead crateName lead start modules) (foreign : name ≠ crateName)
    (valid : isIdentifier name = true) :
    ∃ lower others, Lead crateName (lead ++ [.named name]) lower others ∧
      lower.segments ++ others = start.segments ++ modules ++ [name] := by
  have read : withLead? ⟨lead ++ [.named name]⟩ (.mod name none) crateName =
      some (below name ⟨start, modules, .mod name none⟩) := by
    rw [withLead?_concat foreign valid, withLead?_of_lead reached]
    rfl
  refine ⟨_, _, (withLead?_eq_some_iff.mp read).2, ?_⟩
  cases reached with
  | supers count notOwn valid => exact (List.append_assoc ..).symm
  | _ => rfl

theorem Lead.render_anchor (reached : Lead crateName lead start modules) (anchor : Text)
    (currentType : Option Text) :
    render ⟨start, modules, .anchor anchor⟩ currentType false =
      Text.joinWith "::".toList (start.segments ++ modules) ++ '#' :: anchor := by
  have noToken : trailingToken ⟨start, modules, .anchor anchor⟩ = [] := rfl
  rw [render, reached.renderPath_eq rfl, noToken, Finish.names, List.append_nil, List.append_nil]
  rfl

theorem Lead.render_modAnchor (reached : Lead crateName lead start modules) (name anchor : Text)
    (currentType : Option Text) :
    render ⟨start, modules, .mod name (some anchor)⟩ currentType false =
      Text.joinWith "::".toList (start.segments ++ modules ++ [name]) ++ '#' :: anchor := by
  have noToken : trailingToken ⟨start, modules, .mod name (some anchor)⟩ = [] := rfl
  rw [render, reached.renderPath_eq rfl, noToken, Finish.names, List.append_nil]
  rfl

/-- An anchor in a directory and an anchor on its bare name are rendered alike. -/
theorem map_render_withLead?_concat (foreign : name ≠ crateName) (valid : isIdentifier name = true)
    (lead : List Component) (anchor : Text) (currentType : Option Text) :
    (withLead? ⟨lead ++ [.named name]⟩ (.anchor anchor) crateName).map
        (fun link => link.render currentType false) =
      (withLead? ⟨lead⟩ (.mod name (some anchor)) crateName).map
        (fun link => link.render currentType false) := by
  cases read : withLead? ⟨lead⟩ (.anchor anchor) crateName with
  | none =>
      have unread : withLead? ⟨lead⟩ (.mod name (some anchor)) crateName = none := by
        rw [Option.eq_none_iff_forall_ne_some]
        intro link isRead
        have reached := (withLead?_eq_some_iff.mp isRead).2
        simp [withLead?_of_lead reached] at read
      rw [withLead?_concat foreign valid, read, unread]
      rfl
  | some link =>
      have reached := (withLead?_eq_some_iff.mp read).2
      obtain ⟨lower, others, deeper, sameSegments⟩ := reached.exists_below foreign valid
      rw [withLead?_of_lead deeper, withLead?_of_lead reached, Option.map_some, Option.map_some,
        deeper.render_anchor, reached.render_modAnchor, sameSegments]

end Sections

section Spellings

variable {crateName anchor : Text} {lead : List Component}

/-- An anchor that names an associated item. -/
def IsMemberAnchor (anchor : Text) : Prop :=
  ∃ kind ∈ itemKinds, ∃ name, Identifier.isPlain name = true ∧ anchor = kind ++ '.' :: name

theorem associated?_eq_none (noMember : ¬IsMemberAnchor anchor) :
    Page.associated? ('#' :: anchor) = none := by
  rw [Option.eq_none_iff_forall_ne_some]
  rintro ⟨kind, name⟩ found
  obtain ⟨spelled, known, plain⟩ := Page.associated?_eq_some_iff.mp found
  exact noMember ⟨kind, known, name, plain, (List.cons.inj spelled).2⟩

theorem ofRelative?_indexAnchor (nonempty : lead ≠ []) (isAnchor : Page.IsAnchor anchor) :
    ofRelative? ⟨lead ++ [.named ("index.html#".toList ++ anchor)]⟩ crateName =
      withLead? ⟨lead⟩ (.anchor anchor) crateName := by
  have wellFormed : (Page.index (some anchor)).WellFormed :=
    ⟨by simpa [Page.anchorName] using isAnchor, trivial⟩
  apply (ofRelative?_index wellFormed).trans
  simp only [if_neg nonempty]

theorem ofRelative?_anchorBelow (nonempty : lead ≠ []) (isAnchor : Page.IsAnchor anchor)
    (noMember : lead = [.here] → ¬IsMemberAnchor anchor) :
    ofRelative? ⟨lead ++ [.named ('#' :: anchor)]⟩ crateName =
      withLead? ⟨lead⟩ (.anchor anchor) crateName := by
  have unread : (if lead = [] ∨ lead = [.here] then Page.associated? ('#' :: anchor) else none) =
      none := by
    by_cases near : lead = [.here]
    · rw [associated?_eq_none (noMember near), ite_self]
    · rw [if_neg (by simp [nonempty, near])]
  apply (ofRelative?_anchor (Page.wellFormed_anchor isAnchor)).trans
  rw [unread]
  simp only [if_neg nonempty]

/-- Behind a `.` the name of an associated item is no section. -/
theorem ofRelative?_memberHere (isMember : IsMemberAnchor anchor) :
    ofRelative? ⟨[.here] ++ [.named ('#' :: anchor)]⟩ crateName ≠
      withLead? ⟨[.here]⟩ (.anchor anchor) crateName := by
  rcases isMember with ⟨kind, known, name, plain, rfl⟩
  have isAnchor := Page.isAnchor_of_associated known plain
  have asMember : ofRelative? ⟨[.here] ++ [.named ('#' :: (kind ++ '.' :: name))]⟩ crateName =
      some ⟨.here, [], .associated (.ofKind kind) name⟩ :=
    ofRelative?_of_reads (Page.wellFormed_anchor isAnchor) (.member (Or.inr rfl) known plain)
  rw [asMember]
  intro same
  have finish := (withLead?_eq_some_iff.mp same.symm).1
  simp at finish

theorem ofRelative?_indexNamed {name : Text} (foreign : name ≠ crateName)
    (plain : Identifier.isPlain name = true) :
    ofRelative? ⟨lead ++ [.named name] ++ [.named "index.html".toList]⟩ crateName =
      withLead? ⟨lead⟩ (.mod name none) crateName := by
  have wellFormed : (Page.index none).WellFormed := by simp [Page.WellFormed, Page.anchorName]
  apply (ofRelative?_index wellFormed).trans
  simp only [ofIndex?, List.getLast?_concat, parent_concat, if_neg foreign,
    isIdentifier_of_isPlain plain, if_true]

theorem ofRelative?_bareName {name : Text} {fragment : Option Text}
    (plain : Identifier.isPlain name = true)
    (isAnchor : ∀ anchor ∈ fragment, Page.IsAnchor anchor) :
    ofRelative? ⟨lead ++ [.named (name ++ Page.anchorText fragment)]⟩ crateName =
      withLead? ⟨lead⟩ (.mod name fragment) crateName := by
  have wellFormed : (Page.bare name fragment).WellFormed := ⟨isAnchor, plain⟩
  exact ofRelative?_bare wellFormed

end Spellings

/--
The spellings of the page of a module agree. A section of the index page of a directory is the
section in that directory, with one exception: in the directory `.` the name of an associated item
is that item. A directory that is not the own one stands for its index page, and an anchor behind
its name is read if the same anchor in the directory is, with the same rendering.
-/
theorem ofRelative?_modulePage {lead : List Component} {anchor : Text} (nonempty : lead ≠ [])
    (isAnchor : Page.IsAnchor anchor) (crateName : Text) :
    (ofRelative? ⟨lead ++ [.named ("index.html#".toList ++ anchor)]⟩ crateName =
        ofRelative? ⟨lead ++ [.named ('#' :: anchor)]⟩ crateName ↔
      ¬(lead = [.here] ∧ IsMemberAnchor anchor)) ∧
    ∀ before name, lead = before ++ [.named name] → Identifier.isPlain name = true →
      name ≠ crateName →
      ofRelative? ⟨lead ++ [.named "index.html".toList]⟩ crateName =
        ofRelative? ⟨lead⟩ crateName ∧
      ∀ currentType,
        (ofRelative? ⟨before ++ [.named (name ++ '#' :: anchor)]⟩ crateName).map
            (fun link => link.render currentType false) =
          (ofRelative? ⟨lead ++ [.named ('#' :: anchor)]⟩ crateName).map
            (fun link => link.render currentType false) := by
  refine ⟨?_, ?_⟩
  · rw [ofRelative?_indexAnchor nonempty isAnchor]
    constructor
    · rintro same ⟨rfl, isMember⟩
      exact ofRelative?_memberHere isMember same.symm
    · intro noMember
      exact (ofRelative?_anchorBelow nonempty isAnchor fun near isMember =>
        noMember ⟨near, isMember⟩).symm
  · rintro before name rfl plain foreign
    have bare : ofRelative? ⟨before ++ [.named name]⟩ crateName =
        withLead? ⟨before⟩ (.mod name none) crateName := by
      have read : ofRelative? ⟨before ++ [.named (name ++ Page.anchorText none)]⟩ crateName = _ :=
        ofRelative?_bareName plain (by simp)
      rwa [Page.anchorText, List.append_nil] at read
    have noHere : before ++ [.named name] ≠ [.here] := by
      intro same
      have last := congrArg List.getLast? same
      simp at last
    refine ⟨(ofRelative?_indexNamed foreign plain).trans bare.symm, ?_⟩
    intro currentType
    have someAnchor : ∀ other ∈ some anchor, Page.IsAnchor other := by simpa using isAnchor
    have anchored : ofRelative? ⟨before ++ [.named (name ++ '#' :: anchor)]⟩ crateName =
        withLead? ⟨before⟩ (.mod name (some anchor)) crateName :=
      ofRelative?_bareName plain someAnchor
    rw [anchored, ofRelative?_anchorBelow nonempty isAnchor fun near => absurd near noHere,
      map_render_withLead?_concat foreign (isIdentifier_of_isPlain plain)]

/-- A section of a module two directories away, and an associated item on the current page. -/
theorem ofRelative?_modulePage_twoSpellings :
    let lead := (LinkPath.parse "../regex/bytes".toList).components
    let here := (LinkPath.parse ".".toList).components
    lead ≠ [] ∧ Page.IsAnchor "syntax".toList ∧
      ofRelative? ⟨lead ++ [.named "index.html".toList]⟩ "krate".toList =
        ofRelative? ⟨lead⟩ "krate".toList ∧
      ofRelative? ⟨lead ++ [.named "index.html#syntax".toList]⟩ "krate".toList =
        ofRelative? ⟨lead ++ [.named "#syntax".toList]⟩ "krate".toList ∧
      ofRelative? ⟨here ++ [.named "index.html#method.new".toList]⟩ "krate".toList ≠
        ofRelative? ⟨here ++ [.named "#method.new".toList]⟩ "krate".toList := by
  intro lead here
  have nonempty : lead ≠ [] := by decide
  have isAnchor : Page.IsAnchor "syntax".toList :=
    ⟨by decide, List.all_eq_true.mp (by decide)⟩
  have memberAnchor : Page.IsAnchor "method.new".toList :=
    ⟨by decide, List.all_eq_true.mp (by decide)⟩
  have isMember : IsMemberAnchor "method.new".toList :=
    ⟨"method".toList, by decide, "new".toList, by decide, rfl⟩
  have hereNonempty : here ≠ [] := by decide
  have below := ofRelative?_modulePage nonempty isAnchor "krate".toList
  have beside := ofRelative?_modulePage hereNonempty memberAnchor "krate".toList
  refine ⟨nonempty, isAnchor, ?_, below.1.mpr fun near => absurd near.1 (by decide), ?_⟩
  · exact (below.2 [.up, .named "regex".toList] "bytes".toList (by decide) (by decide)
      (by decide)).1
  · intro same
    exact beside.1.mp same ⟨by decide, isMember⟩

end DocLink

end IntraDoc
