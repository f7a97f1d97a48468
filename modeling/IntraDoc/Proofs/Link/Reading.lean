import IntraDoc.Proofs.Link.Relative

/-!
# The meaning of relative targets

`DocLink.Reads` relates a lead and a page to the link that they stand for, one rule for each shape
of the target. The cascade of readers decides this relation, so that later files argue by its rules
and never open the readers.
-/

namespace IntraDoc

namespace DocLink

/-- The link that a lead and a page stand for in a crate. -/
inductive Reads (crateName : Text) : List Component → Page → DocLink → Prop where
  /-- A bare associated item. -/
  | member {lead : List Component} {kind name : Text} (near : lead = [] ∨ lead = [.here])
      (known : kind ∈ itemKinds) (plain : Identifier.isPlain name = true) :
      Reads crateName lead (.anchor (kind ++ '.' :: name))
        ⟨.here, [], .associated (.ofKind kind) name⟩
  /-- A section of the current page. -/
  | anchor {name : Text} (noMember : Page.associated? ('#' :: name) = none) :
      Reads crateName [] (.anchor name) ⟨.here, [], .anchor name⟩
  /-- A section of the page of another directory. -/
  | anchorBelow {lead : List Component} {name : Text} {start : Start} {modules : List Text}
      (nonempty : lead ≠ [])
      (noMember : lead = [.here] → Page.associated? ('#' :: name) = none)
      (reached : Lead crateName lead start modules) :
      Reads crateName lead (.anchor name) ⟨start, modules, .anchor name⟩
  /-- The page of an item. -/
  | item {lead : List Component} {kind name : Text} {fragment : Option Text} {start : Start}
      {modules : List Text} (reached : Lead crateName lead start modules) :
      Reads crateName lead (.item kind name fragment)
        ⟨start, modules, .item kind (.ofKind kind) name (fragment.map Page.fragmentOf)⟩
  /-- A module by its bare name. -/
  | bare {lead : List Component} {name : Text} {fragment : Option Text} {start : Start}
      {modules : List Text} (reached : Lead crateName lead start modules) :
      Reads crateName lead (.bare name fragment) ⟨start, modules, .mod name fragment⟩
  /-- The index page of the current directory. -/
  | index : Reads crateName [] (.index none) ⟨.empty, [], .mod "self".toList none⟩
  /-- The index page of the current directory, written with a `.`. -/
  | indexHere {lead : List Component} {start : Start} {modules : List Text}
      (reached : Lead crateName lead start modules) :
      Reads crateName (lead ++ [.here]) (.index none) ⟨start, modules, .mod "self".toList none⟩
  /-- The index page of a parent directory. -/
  | indexUp {lead : List Component} {start : Start} {modules : List Text}
      (reached : Lead crateName lead start modules) :
      Reads crateName (lead ++ [.up]) (.index none) ⟨start, modules, .mod "super".toList none⟩
  /-- The index page of the crate, which is absolute. -/
  | indexCrate {lead : List Component} {start : Start} {modules : List Text}
      (reached : Lead crateName lead start modules) :
      Reads crateName (lead ++ [.named crateName]) (.index none)
        ⟨.empty, [], .mod "crate".toList none⟩
  /-- The index page of a named directory. -/
  | indexNamed {lead : List Component} {name : Text} {start : Start} {modules : List Text}
      (foreign : name ≠ crateName) (valid : isIdentifier name = true)
      (reached : Lead crateName lead start modules) :
      Reads crateName (lead ++ [.named name]) (.index none) ⟨start, modules, .mod name none⟩
  /-- A section of the index page of the current directory. -/
  | indexAnchor {name : Text} :
      Reads crateName [] (.index (some name)) ⟨.empty, [], .mod "self".toList (some name)⟩
  /-- A section of the index page of another directory. -/
  | indexAnchorBelow {lead : List Component} {name : Text} {start : Start} {modules : List Text}
      (nonempty : lead ≠ []) (reached : Lead crateName lead start modules) :
      Reads crateName lead (.index (some name)) ⟨start, modules, .anchor name⟩

section Decision

variable {lead : List Component} {page : Page} {link : DocLink} {crateName : Text}

theorem reads_of_ofIndex? (read : ofIndex? ⟨lead⟩ crateName = some link) :
    Reads crateName lead (.index none) link := by
  rcases link with ⟨start, modules, finish⟩
  rcases List.eq_nil_or_concat' lead with rfl | ⟨lead, last, rfl⟩
  · have alone : ofIndex? ⟨[]⟩ crateName = some ⟨.empty, [], .mod "self".toList none⟩ := rfl
    simp only [alone, Option.some.injEq, DocLink.mk.injEq] at read
    rcases read with ⟨rfl, rfl, rfl⟩
    exact .index
  · simp only [ofIndex?, List.getLast?_concat, parent_concat] at read
    cases last with
    | root => simp at read
    | here =>
        rcases withLead?_eq_some_iff.mp read with ⟨rfl, reached⟩
        exact .indexHere reached
    | up =>
        rcases withLead?_eq_some_iff.mp read with ⟨rfl, reached⟩
        exact .indexUp reached
    | named name =>
        simp only at read
        split at read
        · rename_i own
          subst own
          simp only [Option.map_eq_some_iff] at read
          rcases read with ⟨before, reached, same⟩
          simp only [DocLink.mk.injEq] at same
          rcases same with ⟨rfl, rfl, rfl⟩
          exact .indexCrate (withLead?_eq_some_iff.mp reached).2
        · rename_i foreign
          split at read
          · rename_i valid
            rcases withLead?_eq_some_iff.mp read with ⟨rfl, reached⟩
            exact .indexNamed foreign valid reached
          · simp at read

/-- What the cascade of readers makes of a target is what the target stands for. -/
theorem reads_of_ofRelative? (wellFormed : page.WellFormed)
    (read : ofRelative? ⟨lead ++ [.named page.text]⟩ crateName = some link) :
    Reads crateName lead page link := by
  rcases link with ⟨start, modules, finish⟩
  cases page with
  | anchor name =>
      rw [ofRelative?_anchor wellFormed] at read
      by_cases near : lead = [] ∨ lead = [.here]
      · rw [if_pos near] at read
        cases member : Page.associated? ('#' :: name) with
        | some found =>
            rcases found with ⟨kind, memberName⟩
            rcases Page.associated?_eq_some_iff.mp member with ⟨spelled, known, plain⟩
            simp only [List.cons.injEq, true_and] at spelled
            subst spelled
            simp only [member, Option.some.injEq, DocLink.mk.injEq] at read
            rcases read with ⟨rfl, rfl, rfl⟩
            exact .member near known plain
        | none =>
            simp only [member] at read
            split at read
            · rename_i alone
              simp only [Option.some.injEq, DocLink.mk.injEq] at read
              rcases read with ⟨rfl, rfl, rfl⟩
              exact alone ▸ .anchor member
            · rename_i nonempty
              rcases withLead?_eq_some_iff.mp read with ⟨rfl, reached⟩
              exact .anchorBelow nonempty (fun _ => member) reached
      · simp only [if_neg near] at read
        rw [not_or] at near
        rw [if_neg near.1] at read
        rcases withLead?_eq_some_iff.mp read with ⟨rfl, reached⟩
        exact .anchorBelow near.1 (fun isHere => absurd isHere near.2) reached
  | item kind name fragment =>
      rw [ofRelative?_item wellFormed] at read
      rcases withLead?_eq_some_iff.mp read with ⟨rfl, reached⟩
      exact .item reached
  | bare name fragment =>
      rw [ofRelative?_bare wellFormed] at read
      rcases withLead?_eq_some_iff.mp read with ⟨rfl, reached⟩
      exact .bare reached
  | index fragment =>
      rw [ofRelative?_index wellFormed] at read
      cases fragment with
      | none => exact reads_of_ofIndex? read
      | some name =>
          simp only at read
          split at read
          · rename_i alone
            simp only [Option.some.injEq, DocLink.mk.injEq] at read
            rcases read with ⟨rfl, rfl, rfl⟩
            exact alone ▸ .indexAnchor
          · rename_i nonempty
            rcases withLead?_eq_some_iff.mp read with ⟨rfl, reached⟩
            exact .indexAnchorBelow nonempty reached

/-- The cascade of readers finds what a target stands for. -/
theorem ofRelative?_of_reads (wellFormed : page.WellFormed)
    (reads : Reads crateName lead page link) :
    ofRelative? ⟨lead ++ [.named page.text]⟩ crateName = some link := by
  cases reads with
  | member near known plain =>
      rw [ofRelative?_anchor wellFormed, if_pos near,
        Page.associated?_eq_some_iff.mpr ⟨rfl, known, plain⟩]
  | anchor noMember =>
      rw [ofRelative?_anchor wellFormed, noMember]
      rfl
  | anchorBelow nonempty noMember reached =>
      rw [ofRelative?_anchor wellFormed, withLead?_of_lead reached, if_neg nonempty]
      by_cases near : lead = [.here]
      · simp [near, noMember near]
      · simp [near, nonempty]
  | item reached => rw [ofRelative?_item wellFormed, withLead?_of_lead reached]
  | bare reached => rw [ofRelative?_bare wellFormed, withLead?_of_lead reached]
  | index =>
      rw [ofRelative?_index wellFormed]
      rfl
  | indexHere reached =>
      rw [ofRelative?_index wellFormed]
      simp only [ofIndex?, List.getLast?_concat, parent_concat, withLead?_of_lead reached]
  | indexUp reached =>
      rw [ofRelative?_index wellFormed]
      simp only [ofIndex?, List.getLast?_concat, parent_concat, withLead?_of_lead reached]
  | indexCrate reached =>
      rw [ofRelative?_index wellFormed]
      simp only [ofIndex?, List.getLast?_concat, parent_concat, if_true,
        withLead?_of_lead reached, Option.map_some]
  | indexNamed foreign valid reached =>
      rw [ofRelative?_index wellFormed]
      simp only [ofIndex?, List.getLast?_concat, parent_concat, if_neg foreign, valid, if_true,
        withLead?_of_lead reached]
  | indexAnchor =>
      rw [ofRelative?_index wellFormed]
      rfl
  | indexAnchorBelow nonempty reached =>
      rw [ofRelative?_index wellFormed]
      simp only [if_neg nonempty, withLead?_of_lead reached]

/-- A path that is read is a lead and a page, possibly with a line feed, that stand for the link. -/
theorem exists_reads_chomp {path : LinkPath} (read : ofRelative? path crateName = some link) :
    ∃ (lead : List Component) (name : Text) (page : Page), page.WellFormed ∧
      path = ⟨lead ++ [.named name]⟩ ∧ Text.chomp name = page.text ∧
      Reads crateName lead page link := by
  rcases exists_page_of_ofRelative? read with
    ⟨lead, name, page, wellFormed, shape, spelled, isRead⟩
  exact ⟨lead, name, page, wellFormed, shape, spelled, reads_of_ofRelative? wellFormed isRead⟩

/-- A path on one line that is read is a lead and a page that stand for the link. -/
theorem exists_reads {path : LinkPath} (singleLine : path.IsSingleLine)
    (read : ofRelative? path crateName = some link) :
    ∃ (lead : List Component) (page : Page), page.WellFormed ∧
      path = ⟨lead ++ [.named page.text]⟩ ∧ Reads crateName lead page link ∧
      ∀ name, .named name ∈ lead → '\n' ∉ name := by
  rcases exists_reads_chomp read with ⟨lead, name, page, wellFormed, rfl, spelled, reads⟩
  have nameSingle : '\n' ∉ name := singleLine name (by simp)
  rw [Text.chomp_of_notMem nameSingle] at spelled
  refine ⟨lead, page, wellFormed, by rw [spelled], reads, ?_⟩
  intro other component
  exact singleLine other (List.mem_append_left _ component)

end Decision

section Alphabet

variable {crateName : Text} {lead : List Component} {page : Page} {link : DocLink}

/-- What leads to a page: steps up, `.` and identifiers. -/
theorem Lead.component_cases {start : Start} {modules : List Text}
    (reached : Lead crateName lead start modules) (crateValid : isIdentifier crateName = true) :
    ∀ component ∈ lead, component = .up ∨ component = .here ∨
      ∃ name, component = .named name ∧ isIdentifier name = true := by
  have ofModule : ∀ {names : List Text} {component : Component},
      (∀ name ∈ names, isIdentifier name = true) → component ∈ names.map .named →
      ∃ name, component = .named name ∧ isIdentifier name = true := by
    rintro names component valid isModule
    rcases List.mem_map.mp isModule with ⟨name, isName, rfl⟩
    exact ⟨name, rfl, valid name isName⟩
  intro component inside
  cases reached with
  | empty => simp at inside
  | here count valid =>
      rcases List.mem_append.mp inside with isUp | isBelow
      · exact Or.inl (List.eq_of_mem_replicate isUp)
      · rcases List.mem_cons.mp isBelow with rfl | isModule
        · exact Or.inr (Or.inl rfl)
        · exact Or.inr (Or.inr (ofModule valid isModule))
  | crate count valid =>
      rcases List.mem_append.mp inside with isUp | isBelow
      · exact Or.inl (List.eq_of_mem_replicate isUp)
      · rcases List.mem_cons.mp isBelow with rfl | isModule
        · exact Or.inr (Or.inr ⟨crateName, rfl, crateValid⟩)
        · exact Or.inr (Or.inr (ofModule valid isModule))
  | @sibling name _ foreign nameValid valid =>
      rcases List.mem_cons.mp inside with rfl | isModule
      · exact Or.inr (Or.inr ⟨name, rfl, nameValid⟩)
      · exact Or.inr (Or.inr (ofModule valid isModule))
  | supers count foreign valid =>
      rcases List.mem_append.mp inside with isUp | isModule
      · exact Or.inl (List.eq_of_mem_replicate isUp)
      · exact Or.inr (Or.inr (ofModule valid isModule))

theorem Reads.component_cases (reads : Reads crateName lead page link)
    (crateValid : isIdentifier crateName = true) :
    ∀ component ∈ lead, component = .up ∨ component = .here ∨
      ∃ name, component = .named name ∧ isIdentifier name = true := by
  -- The directory of an index page is the last component, and the lead before it is shorter.
  have extended : ∀ {components : List Component} {last : Component} {start : Start}
      {modules : List Text}, Lead crateName components start modules →
      (last = .up ∨ last = .here ∨ ∃ name, last = .named name ∧ isIdentifier name = true) →
      ∀ component ∈ components ++ [last], component = .up ∨ component = .here ∨
        ∃ name, component = .named name ∧ isIdentifier name = true := by
    intro components last start modules reached lastCases component inside
    rcases List.mem_append.mp inside with earlier | isLast
    · exact reached.component_cases crateValid component earlier
    · rw [List.mem_singleton.mp isLast]
      exact lastCases
  cases reads with
  | member near known plain => rcases near with rfl | rfl <;> simp
  | anchor noMember => simp
  | anchorBelow nonempty noMember reached => exact reached.component_cases crateValid
  | item reached => exact reached.component_cases crateValid
  | bare reached => exact reached.component_cases crateValid
  | index => simp
  | indexHere reached => exact extended reached (by simp)
  | indexUp reached => exact extended reached (by simp)
  | indexCrate reached => exact extended reached (by simpa using crateValid)
  | indexNamed foreign valid reached => exact extended reached (by simpa using valid)
  | indexAnchor => simp
  | indexAnchorBelow nonempty reached => exact reached.component_cases crateValid

theorem Reads.isIdentifier_named (reads : Reads crateName lead page link)
    (crateValid : isIdentifier crateName = true) {name : Text} (component : .named name ∈ lead) :
    isIdentifier name = true := by
  rcases reads.component_cases crateValid _ component with isUp | isHere | ⟨other, same, valid⟩
  · simp at isUp
  · simp at isHere
  · rw [Component.named.inj same]
    exact valid

/-- A target on one line that is read consists of the characters of page names and of slashes. -/
theorem isTargetChar_of_ofRelative? {target : Text} (crateValid : isIdentifier crateName = true)
    (singleLine : '\n' ∉ target)
    (read : ofRelative? (LinkPath.parse target) crateName = some link) :
    ∀ char ∈ target, Page.isAnchorChar char = true ∨ char = '#' ∨ char = '/' := by
  rcases exists_reads (LinkPath.isSingleLine_parse singleLine) read with
    ⟨lead, page, wellFormed, path, reads, leadSingle⟩
  have leadPlain : ∀ name, .named name ∈ lead → Identifier.isPlain name = true := by
    intro name component
    rw [← isIdentifier_eq_isPlain (leadSingle name component)]
    exact reads.isIdentifier_named crateValid component
  intro char inside
  rcases LinkPath.mem_target inside with rfl | rfl | ⟨name, component, inName⟩
  · simp
  · exact Or.inl (by decide)
  · simp only [path, List.mem_append, List.mem_singleton, Component.named.injEq] at component
    rcases component with inLead | rfl
    · exact Or.inl (Page.isAnchorChar_of_isAsciiWord
        (Identifier.isAsciiWord_of_isPlain (leadPlain name inLead) char inName))
    · rcases Page.isAnchorChar_of_mem_text wellFormed char inName with allowed | rfl
      · exact Or.inl allowed
      · simp

end Alphabet

end DocLink

end IntraDoc
