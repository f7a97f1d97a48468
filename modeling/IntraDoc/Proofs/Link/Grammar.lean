import IntraDoc.Proofs.Link.Reading

/-!
# The grammar of relative targets

`LinkPath.IsRelative` lists the relative targets shape by shape, without a crate and without a
reader. The readers accept exactly these, in whatever crate, since what leads to a page can always
be read from some start. No two readers accept the same target: the page decides which of them may,
so the order in which they are tried is of no account.
-/

namespace IntraDoc

section Search

variable {α β : Type} {search : α → Option β} {left right : List α}

/-- The first result does not depend on the order if at most one element has any. -/
theorem findSome?_eq_of_perm (perm : left.Perm right)
    (exclusive : left.Pairwise fun first second => search first = none ∨ search second = none) :
    left.findSome? search = right.findSome? search := by
  have symmetric : ∀ {first second : α}, search first = none ∨ search second = none →
      search second = none ∨ search first = none := fun either => either.symm
  induction perm with
  | nil => rfl
  | cons first rest ih =>
      rw [List.findSome?_cons, List.findSome?_cons, ih (List.pairwise_cons.mp exclusive).2]
  | swap first second rest =>
      have either := (List.pairwise_cons.mp exclusive).1 first List.mem_cons_self
      simp only [List.findSome?_cons]
      rcases either with none | none <;> simp only [none]
  | trans leftPerm rightPerm leftStep rightStep =>
      rw [leftStep exclusive]
      exact rightStep ((leftPerm.pairwise_iff symmetric).mp exclusive)

end Search

namespace LinkPath

/-- What may stand before a page: `.` or steps up, and then modules. -/
inductive IsLead : List Component → Prop where
  | here {modules : List Text} (plain : ∀ name ∈ modules, Identifier.isPlain name = true) :
      IsLead (.here :: modules.map .named)
  | ups (count : Nat) {modules : List Text}
      (plain : ∀ name ∈ modules, Identifier.isPlain name = true) :
      IsLead (List.replicate count .up ++ modules.map .named)

/-- The relative targets: a lead and a page, or an index page and the directory that it names. -/
inductive IsRelative : List Component → Prop where
  | member {lead : List Component} {kind name : Text} (near : lead = [] ∨ lead = [.here])
      (known : kind ∈ itemKinds) (plain : Identifier.isPlain name = true) :
      IsRelative (lead ++ [.named ('#' :: (kind ++ '.' :: name))])
  | anchor {lead : List Component} {name : Text} (before : IsLead lead)
      (isAnchor : Page.IsAnchor name) : IsRelative (lead ++ [.named ('#' :: name)])
  | item {lead : List Component} {kind name : Text} {fragment : Option Text}
      (before : IsLead lead) (known : kind ∈ itemKinds) (plain : Identifier.isPlain name = true)
      (isAnchor : ∀ anchor ∈ fragment, Page.IsAnchor anchor) :
      IsRelative (lead ++
        [.named (kind ++ '.' :: (name ++ ".html".toList) ++ Page.anchorText fragment)])
  | bare {lead : List Component} {name : Text} {fragment : Option Text} (before : IsLead lead)
      (plain : Identifier.isPlain name = true)
      (isAnchor : ∀ anchor ∈ fragment, Page.IsAnchor anchor) :
      IsRelative (lead ++ [.named (name ++ Page.anchorText fragment)])
  | indexAnchor {lead : List Component} {name : Text} (before : IsLead lead)
      (isAnchor : Page.IsAnchor name) :
      IsRelative (lead ++ [.named ("index.html".toList ++ '#' :: name)])
  | index : IsRelative [.named "index.html".toList]
  | indexHere : IsRelative [.here, .named "index.html".toList]
  | indexUp {lead : List Component} (before : IsLead lead) :
      IsRelative (lead ++ [.up, .named "index.html".toList])
  | indexNamed {lead : List Component} {name : Text} (before : IsLead lead)
      (plain : Identifier.isPlain name = true) :
      IsRelative (lead ++ [.named name, .named "index.html".toList])

theorem isPlain_of_named_mem_parse {target name : Text} (singleLine : '\n' ∉ target)
    (component : .named name ∈ (parse target).components) (valid : isIdentifier name = true) :
    Identifier.isPlain name = true := by
  rwa [isIdentifier_eq_isPlain (isSingleLine_parse singleLine name component)] at valid

end LinkPath

namespace DocLink

open LinkPath (IsLead IsRelative)

section Leads

variable {crateName : Text} {lead : List Component}

/-- Every lead can be read, and the crate only decides from which start. -/
theorem exists_lead_of_isLead (crateName : Text) (before : IsLead lead) :
    ∃ start modules, Lead crateName lead start modules := by
  have validOf : ∀ {names : List Text}, (∀ name ∈ names, Identifier.isPlain name = true) →
      ∀ name ∈ names, isIdentifier name = true := by
    intro names plain name isName
    exact isIdentifier_of_isPlain (plain name isName)
  cases before with
  | here plain => exact ⟨.here, _, Lead.here 0 (validOf plain)⟩
  | @ups count modules plain =>
      have valid := validOf plain
      cases modules with
      | nil =>
          cases count with
          | zero => exact ⟨.empty, [], Lead.empty⟩
          | succ count => exact ⟨.supers (count + 1), [], Lead.supers count (by simp) (by simp)⟩
      | cons first others =>
          simp only [List.mem_cons, forall_eq_or_imp] at valid
          by_cases own : first = crateName
          · subst own
            exact ⟨.crate, others, Lead.crate count valid.2⟩
          · cases count with
            | zero => exact ⟨.sibling first, others, Lead.sibling own valid.1 valid.2⟩
            | succ count =>
                refine ⟨.supers (count + 1), first :: others, Lead.supers count ?_ ?_⟩
                · simpa using own
                · simpa using valid

/-- In a parsed target `.` stands in front, so that a lead has one of the two forms. -/
theorem isLead_of_lead {target : Text} {start : Start} {modules : List Text}
    {rest : List Component} (crateValid : isIdentifier crateName = true)
    (singleLine : '\n' ∉ target) (parsed : (LinkPath.parse target).components = lead ++ rest)
    (reached : Lead crateName lead start modules) : IsLead lead := by
  have plainOf : ∀ name, .named name ∈ lead → isIdentifier name = true →
      Identifier.isPlain name = true := by
    intro name component
    apply LinkPath.isPlain_of_named_mem_parse singleLine
    rw [parsed]
    exact List.mem_append_left _ component
  have below : ∀ (count : Nat) (names : List Text),
      lead = List.replicate count .up ++ names.map .named →
      (∀ name ∈ names, isIdentifier name = true) → IsLead lead := by
    intro count names shape valid
    rw [shape]
    apply IsLead.ups
    intro name isName
    apply plainOf name
    · rw [shape]
      exact List.mem_append_right _ (List.mem_map_of_mem isName)
    · exact valid name isName
  cases reached with
  | empty => exact below 0 [] rfl (by simp)
  | here count valid =>
      have front : List.replicate count Component.up = [] := by
        rw [List.append_assoc] at parsed
        exact LinkPath.before_here_eq_nil parsed
      rw [front, List.nil_append] at plainOf ⊢
      apply IsLead.here
      intro name isModule
      exact plainOf name (by simp [isModule]) (valid name isModule)
  | crate count valid =>
      exact below count (crateName :: modules) rfl (by simpa [crateValid] using valid)
  | @sibling first _ foreign firstValid valid =>
      exact below 0 (first :: modules) rfl (by simpa [firstValid] using valid)
  | supers count foreign valid => exact below (count + 1) modules rfl valid

end Leads

section Targets

variable {crateName : Text} {lead : List Component}

/-- A target that stands for a link is of one of the shapes. -/
theorem isRelative_of_reads {target : Text} {page : Page} {link : DocLink}
    (crateValid : isIdentifier crateName = true) (singleLine : '\n' ∉ target)
    (parsed : (LinkPath.parse target).components = lead ++ [.named page.text])
    (wellFormed : page.WellFormed) (reads : Reads crateName lead page link) :
    IsRelative (lead ++ [.named page.text]) := by
  have before : ∀ {components rest : List Component} {start : Start} {modules : List Text},
      lead ++ [.named page.text] = components ++ rest →
      Lead crateName components start modules → IsLead components := by
    intro components rest start modules shape reached
    rw [shape] at parsed
    exact isLead_of_lead crateValid singleLine parsed reached
  cases reads with
  | member near known plain => exact .member near known plain
  | anchor noMember => exact .anchor (before rfl Lead.empty) (wellFormed.1 _ rfl)
  | anchorBelow nonempty noMember reached =>
      exact .anchor (before rfl reached) (wellFormed.1 _ rfl)
  | item reached =>
      exact .item (before rfl reached) wellFormed.2.1 wellFormed.2.2 wellFormed.1
  | bare reached => exact .bare (before rfl reached) wellFormed.2 wellFormed.1
  | index => exact .index
  | @indexHere components start modules reached =>
      have front : components = [] := by
        rw [List.append_assoc] at parsed
        exact LinkPath.before_here_eq_nil parsed
      rw [front]
      exact .indexHere
  | indexUp reached =>
      rw [List.append_assoc]
      exact .indexUp (before (List.append_assoc _ _ _) reached)
  | indexCrate reached =>
      have plain := LinkPath.isPlain_of_named_mem_parse singleLine (by simp [parsed]) crateValid
      rw [List.append_assoc]
      exact .indexNamed (before (List.append_assoc _ _ _) reached) plain
  | indexNamed foreign valid reached =>
      have plain := LinkPath.isPlain_of_named_mem_parse singleLine (by simp [parsed]) valid
      rw [List.append_assoc]
      exact .indexNamed (before (List.append_assoc _ _ _) reached) plain
  | indexAnchor => exact .indexAnchor (before rfl Lead.empty) (wellFormed.1 _ rfl)
  | indexAnchorBelow nonempty reached =>
      exact .indexAnchor (before rfl reached) (wellFormed.1 _ rfl)

theorem exists_reads_anchor {name : Text} (before : IsLead lead) :
    ∃ link, Reads crateName lead (.anchor name) link := by
  rcases exists_lead_of_isLead crateName before with ⟨start, modules, reached⟩
  by_cases near : lead = [] ∨ lead = [.here]
  · cases member : Page.associated? ('#' :: name) with
    | some found =>
        rcases found with ⟨kind, memberName⟩
        rcases Page.associated?_eq_some_iff.mp member with ⟨spelled, known, plain⟩
        rw [List.cons.inj spelled |>.2]
        exact ⟨_, .member near known plain⟩
    | none =>
        rcases near with rfl | rfl
        · exact ⟨_, .anchor member⟩
        · exact ⟨_, .anchorBelow (by simp) (fun _ => member) reached⟩
  · rw [not_or] at near
    exact ⟨_, .anchorBelow near.1 (fun isHere => absurd isHere near.2) reached⟩

/-- Every target of one of the shapes stands for a link. -/
theorem exists_reads_of_isRelative {components : List Component} (crateName : Text)
    (relative : IsRelative components) :
    ∃ (lead : List Component) (page : Page) (link : DocLink), page.WellFormed ∧
      components = lead ++ [.named page.text] ∧ Reads crateName lead page link := by
  have index : (Page.index none).WellFormed := ⟨by simp [Page.anchorName], trivial⟩
  cases relative with
  | @member lead kind name near known plain =>
      exact ⟨lead, .anchor (kind ++ '.' :: name), _,
        Page.wellFormed_anchor (Page.isAnchor_of_associated known plain), rfl,
        .member near known plain⟩
  | @anchor lead name before isAnchor =>
      rcases exists_reads_anchor before with ⟨link, reads⟩
      exact ⟨lead, .anchor name, link, Page.wellFormed_anchor isAnchor, rfl, reads⟩
  | @item lead kind name fragment before known plain isAnchor =>
      rcases exists_lead_of_isLead crateName before with ⟨start, modules, reached⟩
      exact ⟨lead, .item kind name fragment, _, ⟨isAnchor, known, plain⟩, rfl, .item reached⟩
  | @bare lead name fragment before plain isAnchor =>
      rcases exists_lead_of_isLead crateName before with ⟨start, modules, reached⟩
      exact ⟨lead, .bare name fragment, _, ⟨isAnchor, plain⟩, rfl, .bare reached⟩
  | @indexAnchor lead name before isAnchor =>
      have wellFormed : (Page.index (some name)).WellFormed :=
        ⟨by simpa [Page.anchorName] using isAnchor, trivial⟩
      by_cases alone : lead = []
      · exact ⟨[], .index (some name), _, wellFormed, by rw [alone]; rfl, .indexAnchor⟩
      · rcases exists_lead_of_isLead crateName before with ⟨start, modules, reached⟩
        exact ⟨lead, .index (some name), _, wellFormed, rfl, .indexAnchorBelow alone reached⟩
  | index => exact ⟨[], .index none, _, index, rfl, .index⟩
  | indexHere => exact ⟨[.here], .index none, _, index, rfl, .indexHere Lead.empty⟩
  | @indexUp lead before =>
      rcases exists_lead_of_isLead crateName before with ⟨start, modules, reached⟩
      exact ⟨lead ++ [.up], .index none, _, index, by rw [List.append_assoc]; rfl,
        .indexUp reached⟩
  | @indexNamed lead name before plain =>
      rcases exists_lead_of_isLead crateName before with ⟨start, modules, reached⟩
      have spelled : lead ++ [.named name, .named "index.html".toList] =
          (lead ++ [.named name]) ++ [.named (Page.index none).text] := by
        rw [List.append_assoc]
        rfl
      by_cases own : name = crateName
      · subst own
        exact ⟨_, .index none, _, index, spelled, .indexCrate reached⟩
      · exact ⟨_, .index none, _, index, spelled,
          .indexNamed own (isIdentifier_of_isPlain plain) reached⟩

theorem isSome_ofRelative?_iff {target : Text} (crateValid : isIdentifier crateName = true)
    (singleLine : '\n' ∉ target) :
    (ofRelative? (LinkPath.parse target) crateName).isSome = true ↔
      IsRelative (LinkPath.parse target).components := by
  rw [Option.isSome_iff_exists]
  constructor
  · rintro ⟨link, read⟩
    rcases exists_reads (LinkPath.isSingleLine_parse singleLine) read with
      ⟨lead, page, wellFormed, parsed, reads, -⟩
    have components := congrArg LinkPath.components parsed
    rw [components]
    exact isRelative_of_reads crateValid singleLine components wellFormed reads
  · intro relative
    rcases exists_reads_of_isRelative crateName relative with
      ⟨lead, page, link, wellFormed, components, reads⟩
    have parsed : LinkPath.parse target = ⟨lead ++ [.named page.text]⟩ := by
      rw [← components]
    exact ⟨link, by rw [parsed]; exact ofRelative?_of_reads wellFormed reads⟩

end Targets

section Order

variable {path : LinkPath} {crateName : Text}

/-- The readers of relative targets, in the order in which they are tried. -/
def readers (crateName : Text) : List (LinkPath → Option DocLink) :=
  [ofAssociated?, (ofAnchor? · crateName), (ofItem? · crateName), (ofModule? · crateName)]

theorem findSome?_readers (path : LinkPath) (crateName : Text) :
    (readers crateName).findSome? (· path) = ofRelative? path crateName := by
  simp only [readers, ofRelative?, List.findSome?_cons, List.findSome?_nil]
  cases ofAssociated? path <;> cases ofAnchor? path crateName <;>
    cases ofItem? path crateName <;> cases ofModule? path crateName <;> rfl

theorem ofAssociated?_eq_none_or_ofAnchor?_eq_none :
    ofAssociated? path = none ∨ ofAnchor? path crateName = none := by
  cases member : ofAssociated? path with
  | none => exact Or.inl rfl
  | some link =>
      right
      rw [ofAnchor?, member]
      rfl

/-- No two readers accept the same path: the page tells which of them may. -/
theorem pairwise_readers (singleLine : path.IsSingleLine) (crateName : Text) :
    (readers crateName).Pairwise fun first second => first path = none ∨ second path = none := by
  cases read : ofRelative? path crateName with
  | none =>
      simp only [ofRelative?, Option.or_eq_none_iff] at read
      simp [readers, read]
  | some link =>
      rcases exists_reads singleLine read with ⟨lead, page, wellFormed, rfl, -, -⟩
      have near : ofAssociated? ⟨lead ++ [.named page.text]⟩ = none ∨
          ofAnchor? ⟨lead ++ [.named page.text]⟩ crateName = none :=
        ofAssociated?_eq_none_or_ofAnchor?_eq_none
      have noMember : (∀ name, page ≠ .anchor name) →
          ofAssociated? ⟨lead ++ [.named page.text]⟩ = none := ofAssociated?_page wellFormed
      have noAnchor : (∀ name, page ≠ .anchor name) →
          ofAnchor? ⟨lead ++ [.named page.text]⟩ crateName = none := ofAnchor?_page wellFormed
      have noItem : (∀ kind name fragment, page ≠ .item kind name fragment) →
          ofItem? ⟨lead ++ [.named page.text]⟩ crateName = none := ofItem?_page wellFormed
      have noModule : (∀ fragment, page ≠ .index fragment) →
          (∀ name fragment, page ≠ .bare name fragment) →
          ofModule? ⟨lead ++ [.named page.text]⟩ crateName = none := ofModule?_page wellFormed
      cases page with
      | anchor name => simp [readers, near, noItem, noModule]
      | item kind name fragment => simp [readers, noMember, noAnchor, noModule]
      | index fragment => simp [readers, noMember, noAnchor, noItem]
      | bare name fragment => simp [readers, noMember, noAnchor, noItem]

end Order

/--
The readers accept exactly the relative targets, at most one of them accepts a given target, and
trying them in another order gives the same link.
-/
theorem ofRelative?_iff_isRelative {target crateName : Text} (singleLine : '\n' ∉ target)
    (crateValid : isIdentifier crateName = true) :
    let path := LinkPath.parse target
    ((ofRelative? path crateName).isSome = true ↔ IsRelative path.components) ∧
    ((readers crateName).Pairwise fun first second => first path = none ∨ second path = none) ∧
    (∀ order : List (LinkPath → Option DocLink), order.Perm (readers crateName) →
      order.findSome? (· path) = ofRelative? path crateName) := by
  intro path
  have exclusive := pairwise_readers (LinkPath.isSingleLine_parse singleLine) crateName
  refine ⟨isSome_ofRelative?_iff crateValid singleLine, exclusive, ?_⟩
  intro order perm
  rw [← findSome?_readers]
  exact (findSome?_eq_of_perm perm.symm exclusive).symm

/-- The index page of the own crate, one level up. -/
theorem ofRelative?_iff_isRelative_ownIndex :
    (ofRelative? (LinkPath.parse "../krate/index.html".toList) "krate".toList).isSome = true := by
  have accepted := @ofRelative?_iff_isRelative "../krate/index.html".toList "krate".toList
    (by decide) (by decide)
  have components : (LinkPath.parse "../krate/index.html".toList).components =
      [.up] ++ [.named "krate".toList, .named "index.html".toList] := by decide +kernel
  have lead : IsLead [.up] := @LinkPath.IsLead.ups 1 [] (by simp)
  apply accepted.1.mpr
  rw [components]
  exact .indexNamed lead (by decide)

end DocLink

end IntraDoc
