import IntraDoc.Link.Relative
import IntraDoc.Proofs.Link.Page
import IntraDoc.Proofs.Link.Path

/-!
# What the readers of relative targets accept

A relative target is a lead and a page. `DocLink.Lead` says which starts and modules the components
before the page stand for, and `DocLink.withLead?` decides it. For every shape of the page there is
one equation that says how the cascade of readers treats it; conversely a target that is read at all
ends in a well-formed page.
-/

namespace IntraDoc

namespace DocLink

/-- The start and the modules that the components before a page stand for. -/
inductive Lead (crateName : Text) : List Component → Start → List Text → Prop where
  /-- The page stands alone. -/
  | empty : Lead crateName [] .empty []
  /-- The page stands below the current directory. -/
  | here (count : Nat) {modules : List Text} (valid : ∀ name ∈ modules, isIdentifier name = true) :
      Lead crateName (List.replicate count .up ++ .here :: modules.map .named) .here modules
  /-- The page stands below the directory of the crate. -/
  | crate (count : Nat) {modules : List Text}
      (valid : ∀ name ∈ modules, isIdentifier name = true) :
      Lead crateName (List.replicate count .up ++ .named crateName :: modules.map .named) .crate
        modules
  /-- The page stands below a module beside the current one. -/
  | sibling {name : Text} {modules : List Text} (foreign : name ≠ crateName)
      (nameValid : isIdentifier name = true)
      (valid : ∀ name ∈ modules, isIdentifier name = true) :
      Lead crateName (.named name :: modules.map .named) (.sibling name) modules
  /-- The page is reached by steps up first. -/
  | supers (count : Nat) {modules : List Text} (foreign : ∀ name ∈ modules.head?, name ≠ crateName)
      (valid : ∀ name ∈ modules, isIdentifier name = true) :
      Lead crateName (List.replicate (count + 1) .up ++ modules.map .named) (.supers (count + 1))
        modules

theorem moduleNames?_eq_some_iff {components : List Component} {names : List Text} :
    moduleNames? components = some names ↔
      components = names.map .named ∧ ∀ name ∈ names, isIdentifier name = true := by
  induction components generalizing names with
  | nil =>
      simp only [moduleNames?, Option.some.injEq, List.nil_eq, List.map_eq_nil_iff]
      constructor
      · rintro rfl
        simp
      · rintro ⟨rfl, -⟩
        rfl
  | cons first rest ih =>
      cases first with
      | named name =>
          simp only [moduleNames?]
          split
          · rename_i valid
            simp only [Option.map_eq_some_iff, ih]
            constructor
            · rintro ⟨others, ⟨rfl, othersValid⟩, rfl⟩
              refine ⟨rfl, ?_⟩
              simpa [valid] using othersValid
            · rintro ⟨components, allValid⟩
              cases names with
              | nil => simp at components
              | cons first others =>
                  simp only [List.map_cons, List.cons.injEq, Component.named.injEq] at components
                  rcases components with ⟨rfl, rfl⟩
                  simp only [List.mem_cons, forall_eq_or_imp] at allValid
                  exact ⟨others, ⟨rfl, allValid.2⟩, rfl⟩
          · rename_i invalid
            simp only [reduceCtorEq, false_iff, not_and]
            intro components allValid
            cases names with
            | nil => simp at components
            | cons first others =>
                simp only [List.map_cons, List.cons.injEq, Component.named.injEq] at components
                exact invalid (components.1 ▸ allValid first (by simp))
      | root => cases names <;> simp [moduleNames?]
      | here => cases names <;> simp [moduleNames?]
      | up => cases names <;> simp [moduleNames?]

theorem through?_eq_some_iff {start : Start} {between : List Component} {finish : Finish}
    {link : DocLink} :
    through? start between finish = some link ↔
      link.start = start ∧ link.finish = finish ∧ between = link.modules.map .named ∧
        ∀ name ∈ link.modules, isIdentifier name = true := by
  simp only [through?, Option.map_eq_some_iff, moduleNames?_eq_some_iff]
  constructor
  · rintro ⟨modules, ⟨rfl, valid⟩, rfl⟩
    exact ⟨rfl, rfl, rfl, valid⟩
  · rintro ⟨rfl, rfl, components, valid⟩
    exact ⟨link.modules, ⟨components, valid⟩, rfl⟩

theorem through?_map_named {modules : List Text}
    (valid : ∀ name ∈ modules, isIdentifier name = true) (start : Start) (finish : Finish) :
    through? start (modules.map .named) finish = some ⟨start, modules, finish⟩ :=
  through?_eq_some_iff.mpr ⟨rfl, rfl, rfl, valid⟩

/-- Leading steps up are a run of their own, since no other component is one. -/
theorem replicate_up_append (components : List Component) :
    ∃ count rest, components = List.replicate count .up ++ rest ∧ rest.head? ≠ some .up ∧
      components.takeWhile (· = .up) = List.replicate count .up ∧
      components.dropWhile (· = .up) = rest := by
  induction components with
  | nil => exact ⟨0, [], by simp⟩
  | cons first others ih =>
      by_cases isUp : first = .up
      · rcases ih with ⟨count, rest, shape, stop, ups, behind⟩
        refine ⟨count + 1, rest, ?_, stop, ?_, ?_⟩
        · simp [isUp, shape, List.replicate_succ]
        · simp [isUp, ups, List.replicate_succ]
        · simp [isUp, behind]
      · exact ⟨0, first :: others, by simp, by simpa using isUp, by simp [isUp],
          by simp [isUp]⟩

theorem withLead?_replicate (count : Nat) (rest : List Component) (finish : Finish)
    (crateName : Text) :
    rest.head? ≠ some .up → withLead? ⟨List.replicate count .up ++ rest⟩ finish crateName =
      match rest with
      | [] => some ⟨if count = 0 then .empty else .supers count, [], finish⟩
      | .here :: modules => through? .here modules finish
      | .named name :: modules =>
        if name = crateName then through? .crate modules finish
        else if count = 0 then
          if isIdentifier name then through? (.sibling name) modules finish else none
        else through? (.supers count) (.named name :: modules) finish
      | _ => none := by
  intro stop
  have inside : ∀ component ∈ List.replicate count Component.up,
      decide (component = .up) = true := by
    intro component isUp
    simp [List.eq_of_mem_replicate isUp]
  have outside : ∀ component ∈ rest.head?, decide (component = Component.up) = false := by
    intro component found
    simp only [decide_eq_false_iff_not]
    rintro rfl
    exact stop found
  simp only [withLead?]
  rw [takeWhile_append_stop inside outside, dropWhile_append_stop inside outside]
  cases rest with
  | nil => cases count <;> simp
  | cons first modules =>
      cases first with
      | up => simp at stop
      | root => rfl
      | here => rfl
      | named name => cases count <;> simp

section Leads

variable {components : List Component} {start : Start} {modules : List Text} {finish : Finish}
  {crateName : Text} {link : DocLink}

theorem lead_of_withLead? (read : withLead? ⟨components⟩ finish crateName = some link) :
    link.finish = finish ∧ Lead crateName components link.start link.modules := by
  rcases link with ⟨start, modules, linkFinish⟩
  obtain ⟨count, rest, rfl, stop, -, -⟩ := replicate_up_append components
  rw [withLead?_replicate count rest finish crateName stop] at read
  cases rest with
  | nil =>
      simp only [Option.some.injEq, DocLink.mk.injEq] at read
      rcases read with ⟨rfl, rfl, rfl⟩
      cases count with
      | zero => exact ⟨rfl, by simpa using Lead.empty⟩
      | succ count =>
          have lead : Lead crateName (List.replicate (count + 1) .up ++ [].map .named)
              (.supers (count + 1)) [] := Lead.supers count (by simp) (by simp)
          exact ⟨rfl, by simpa using lead⟩
  | cons first others =>
      cases first with
      | up => simp at stop
      | root => simp at read
      | here =>
          rcases through?_eq_some_iff.mp read with ⟨rfl, rfl, rfl, valid⟩
          exact ⟨rfl, Lead.here count valid⟩
      | named name =>
          simp only at read
          split at read
          · rename_i own
            rcases through?_eq_some_iff.mp read with ⟨rfl, rfl, rfl, valid⟩
            exact ⟨rfl, own ▸ Lead.crate count valid⟩
          · rename_i foreign
            split at read
            · rename_i noUps
              split at read
              · rename_i nameValid
                rcases through?_eq_some_iff.mp read with ⟨rfl, rfl, rfl, valid⟩
                exact ⟨rfl, by simpa [noUps] using Lead.sibling foreign nameValid valid⟩
              · simp at read
            · rename_i someUps
              obtain ⟨before, rfl⟩ := Nat.exists_eq_succ_of_ne_zero someUps
              rcases through?_eq_some_iff.mp read with ⟨rfl, rfl, components, valid⟩
              refine ⟨rfl, ?_⟩
              simp only at components valid
              rw [components]
              refine Lead.supers before ?_ valid
              cases modules with
              | nil => simp
              | cons head others =>
                  simp only [List.map_cons, List.cons.injEq, Component.named.injEq] at components
                  simpa [← components.1] using foreign

theorem withLead?_of_lead (reached : Lead crateName components start modules) (finish : Finish) :
    withLead? ⟨components⟩ finish crateName = some ⟨start, modules, finish⟩ := by
  cases reached with
  | empty => rfl
  | here count valid =>
      rw [withLead?_replicate count _ _ _ (by simp)]
      exact through?_map_named valid _ _
  | crate count valid =>
      rw [withLead?_replicate count _ _ _ (by simp)]
      simpa using through?_map_named valid _ _
  | @sibling name _ foreign nameValid valid =>
      have read := withLead?_replicate 0 (.named name :: modules.map .named) finish crateName
        (by simp)
      simp only [List.replicate_zero, List.nil_append, foreign, nameValid, if_true,
        if_false] at read
      rw [read]
      exact through?_map_named valid _ _
  | supers count foreign valid =>
      cases modules with
      | nil =>
          rw [withLead?_replicate (count + 1) _ _ _ (by simp)]
          simp
      | cons head others =>
          rw [withLead?_replicate (count + 1) _ _ _ (by simp)]
          have headForeign := foreign head (by simp)
          simpa [headForeign] using through?_map_named valid (.supers (count + 1)) finish

/-- The components before a page are read as `Lead` says. -/
theorem withLead?_eq_some_iff :
    withLead? ⟨components⟩ finish crateName = some link ↔
      link.finish = finish ∧ Lead crateName components link.start link.modules := by
  constructor
  · exact lead_of_withLead?
  · rintro ⟨rfl, reached⟩
    exact withLead?_of_lead reached link.finish

end Leads

section Pages

variable {lead : List Component} {page : Page} {crateName : Text}

@[simp]
theorem fileName?_concat (lead : List Component) (name : Text) :
    LinkPath.fileName? ⟨lead ++ [.named name]⟩ = some name := by
  simp [LinkPath.fileName?]

@[simp]
theorem parent_concat (lead : List Component) (component : Component) :
    LinkPath.parent ⟨lead ++ [component]⟩ = ⟨lead⟩ := by
  simp [LinkPath.parent]

theorem eq_concat_of_fileName? {path : LinkPath} {name : Text}
    (found : path.fileName? = some name) :
    path = ⟨path.parent.components ++ [.named name]⟩ := by
  rcases path with ⟨components⟩
  rcases List.eq_nil_or_concat components with rfl | ⟨lead, last, rfl⟩
  · simp [LinkPath.fileName?] at found
  · cases last <;> simp_all [LinkPath.fileName?, LinkPath.parent]

/-- Only a page that stands alone, or behind `./`, is asked for a bare associated item. -/
theorem ofAssociated?_concat (lead : List Component) (name : Text) :
    ofAssociated? ⟨lead ++ [.named name]⟩ =
      if lead = [] ∨ lead = [.here] then
        (Page.associated? (Text.chomp name)).map fun (kind, name) =>
          ⟨.here, [], .associated (.ofKind kind) name⟩
      else none := by
  rcases lead with _ | ⟨first, _ | ⟨second, others⟩⟩
  · simp [ofAssociated?]
  · cases first <;> simp [ofAssociated?]
  · cases first <;> cases second <;> cases others <;> simp [ofAssociated?]

theorem ofAssociated?_page (wellFormed : page.WellFormed)
    (different : ∀ name, page ≠ .anchor name) :
    ofAssociated? ⟨lead ++ [.named page.text]⟩ = none := by
  rw [ofAssociated?_concat, Text.chomp_of_notMem (Page.newline_notMem_text wellFormed),
    Page.associated?_text_eq_none wellFormed different]
  simp

theorem ofAnchor?_page (wellFormed : page.WellFormed) (different : ∀ name, page ≠ .anchor name) :
    ofAnchor? ⟨lead ++ [.named page.text]⟩ crateName = none := by
  rw [ofAnchor?, ofAssociated?_page wellFormed different]
  simp [Text.chomp_of_notMem (Page.newline_notMem_text wellFormed),
    Page.anchor?_text_eq_none wellFormed different]

theorem ofItem?_page (wellFormed : page.WellFormed)
    (different : ∀ kind name fragment, page ≠ .item kind name fragment) :
    ofItem? ⟨lead ++ [.named page.text]⟩ crateName = none := by
  simp [ofItem?, Text.chomp_of_notMem (Page.newline_notMem_text wellFormed),
    Page.item?_text_eq_none wellFormed different]

theorem ofModule?_page (wellFormed : page.WellFormed)
    (notIndex : ∀ fragment, page ≠ .index fragment)
    (notBare : ∀ name fragment, page ≠ .bare name fragment) :
    ofModule? ⟨lead ++ [.named page.text]⟩ crateName = none := by
  simp [ofModule?, Text.chomp_of_notMem (Page.newline_notMem_text wellFormed),
    Page.index?_text_eq_none wellFormed notIndex,
    Page.bareModule?_text_eq_none wellFormed notBare]

/-- An anchor alone is a bare associated item if it looks like one and no directory leads to it. -/
theorem ofRelative?_anchor {name : Text} (wellFormed : (Page.anchor name).WellFormed) :
    ofRelative? ⟨lead ++ [.named (Page.anchor name).text]⟩ crateName =
      match if lead = [] ∨ lead = [.here] then Page.associated? ('#' :: name) else none with
      | some (kind, member) => some ⟨.here, [], .associated (.ofKind kind) member⟩
      | none =>
        if lead = [] then some ⟨.here, [], .anchor name⟩
        else withLead? ⟨lead⟩ (.anchor name) crateName := by
  have chomped := Text.chomp_of_notMem (Page.newline_notMem_text wellFormed)
  have isRead : Page.anchor? (Page.anchor name).text = some name :=
    Page.anchor?_eq_some_iff.mpr ⟨rfl, wellFormed.1 name rfl⟩
  rw [ofRelative?, ofItem?_page wellFormed (by simp), ofModule?_page wellFormed (by simp) (by simp),
    ofAnchor?, ofAssociated?_concat, chomped]
  have spelled : (Page.anchor name).text = '#' :: name := rfl
  rw [spelled] at isRead chomped ⊢
  by_cases near : lead = [] ∨ lead = [.here]
  · cases member : Page.associated? ('#' :: name) with
    | some found => simp [near]
    | none => simp [near, chomped, isRead]
  · simp [near, chomped, isRead]

theorem ofRelative?_item {kind name : Text} {fragment : Option Text}
    (wellFormed : (Page.item kind name fragment).WellFormed) :
    ofRelative? ⟨lead ++ [.named (Page.item kind name fragment).text]⟩ crateName =
      withLead? ⟨lead⟩ (.item kind (.ofKind kind) name (fragment.map Page.fragmentOf))
        crateName := by
  have isRead : Page.item? (Page.item kind name fragment).text =
      some (.item kind (.ofKind kind) name (fragment.map Page.fragmentOf)) :=
    Page.item?_eq_some_iff.mpr ⟨kind, name, fragment, rfl, wellFormed, rfl⟩
  rw [ofRelative?, ofAssociated?_page wellFormed (by simp), ofAnchor?_page wellFormed (by simp),
    ofModule?_page wellFormed (by simp) (by simp)]
  simp [ofItem?, Text.chomp_of_notMem (Page.newline_notMem_text wellFormed), isRead]

theorem ofRelative?_index {fragment : Option Text}
    (wellFormed : (Page.index fragment).WellFormed) :
    ofRelative? ⟨lead ++ [.named (Page.index fragment).text]⟩ crateName =
      match fragment with
      | none => ofIndex? ⟨lead⟩ crateName
      | some anchor =>
        if lead = [] then some ⟨.empty, [], .mod "self".toList (some anchor)⟩
        else withLead? ⟨lead⟩ (.anchor anchor) crateName := by
  have isRead : Page.index? (Page.index fragment).text = some fragment :=
    Page.index?_eq_some_iff.mpr ⟨rfl, wellFormed⟩
  rw [ofRelative?, ofAssociated?_page wellFormed (by simp), ofAnchor?_page wellFormed (by simp),
    ofItem?_page wellFormed (by simp)]
  simp only [Option.none_or, ofModule?, fileName?_concat, parent_concat, Option.bind_some,
    Text.chomp_of_notMem (Page.newline_notMem_text wellFormed), isRead]
  cases fragment with
  | none => rfl
  | some anchor =>
      cases lead with
      | nil => rfl
      | cons first others => simp

theorem ofRelative?_bare {name : Text} {fragment : Option Text}
    (wellFormed : (Page.bare name fragment).WellFormed) :
    ofRelative? ⟨lead ++ [.named (Page.bare name fragment).text]⟩ crateName =
      withLead? ⟨lead⟩ (.mod name fragment) crateName := by
  have isRead : Page.bareModule? (Page.bare name fragment).text = some (name, fragment) :=
    Page.bareModule?_eq_some_iff.mpr ⟨rfl, wellFormed⟩
  rw [ofRelative?, ofAssociated?_page wellFormed (by simp), ofAnchor?_page wellFormed (by simp),
    ofItem?_page wellFormed (by simp)]
  simp [ofModule?, Text.chomp_of_notMem (Page.newline_notMem_text wellFormed),
    Page.index?_text_eq_none wellFormed, isRead]

/-- Whatever reader accepts a path, it accepts the last component as a page name. -/
theorem chomp_fileName?_eq_text {path : LinkPath} {link : DocLink}
    (read : ofRelative? path crateName = some link) :
    ∃ name, path.fileName? = some name ∧
      ∃ page : Page, page.WellFormed ∧ Text.chomp name = page.text := by
  simp only [ofRelative?, Option.or_eq_some_iff] at read
  rcases read with asMember | ⟨-, asAnchor | ⟨-, asItem | ⟨-, asModule⟩⟩⟩
  · simp only [ofAssociated?, Option.map_eq_some_iff, Option.bind_eq_some_iff] at asMember
    rcases asMember with ⟨⟨kind, member⟩, ⟨name, last, found⟩, -⟩
    rcases Page.associated?_eq_some_iff.mp found with ⟨spelled, known, plain⟩
    have wellFormed := Page.wellFormed_anchor (Page.isAnchor_of_associated known plain)
    refine ⟨name, ?_, .anchor (kind ++ '.' :: member), wellFormed, spelled⟩
    split at last <;> simp_all [LinkPath.fileName?]
  · unfold ofAnchor? at asAnchor
    split at asAnchor
    · simp at asAnchor
    · split at asAnchor
      · simp at asAnchor
      · rename_i anchor found
        rcases Option.bind_eq_some_iff.mp found with ⟨name, last, isRead⟩
        rcases Page.anchor?_eq_some_iff.mp isRead with ⟨spelled, isAnchor⟩
        exact ⟨name, last, .anchor anchor, Page.wellFormed_anchor isAnchor, spelled⟩
  · rcases Option.bind_eq_some_iff.mp asItem with ⟨finish, found, -⟩
    rcases Option.bind_eq_some_iff.mp found with ⟨name, last, isRead⟩
    rcases Page.item?_eq_some_iff.mp isRead with ⟨kind, item, fragment, spelled, wellFormed, -⟩
    exact ⟨name, last, .item kind item fragment, wellFormed, spelled⟩
  · rcases Option.bind_eq_some_iff.mp asModule with ⟨name, last, isRead⟩
    cases asIndex : Page.index? (Text.chomp name) with
    | some fragment =>
        rcases Page.index?_eq_some_iff.mp asIndex with ⟨spelled, wellFormed⟩
        exact ⟨name, last, .index fragment, wellFormed, spelled⟩
    | none =>
        simp only [asIndex, Option.bind_eq_some_iff] at isRead
        rcases isRead with ⟨⟨bareName, fragment⟩, asBare, -⟩
        rcases Page.bareModule?_eq_some_iff.mp asBare with ⟨spelled, wellFormed⟩
        exact ⟨name, last, .bare bareName fragment, wellFormed, spelled⟩

/-- A line feed behind the page name makes no difference. -/
theorem ofRelative?_of_chomp_eq (lead : List Component) {name other : Text}
    (same : Text.chomp name = Text.chomp other) :
    ofRelative? ⟨lead ++ [.named name]⟩ crateName =
      ofRelative? ⟨lead ++ [.named other]⟩ crateName := by
  simp only [ofRelative?, ofAnchor?, ofItem?, ofModule?, ofAssociated?_concat, fileName?_concat,
    parent_concat, Option.bind_some, same, List.length_append, List.length_singleton]

theorem exists_page_of_ofRelative? {path : LinkPath} {link : DocLink}
    (read : ofRelative? path crateName = some link) :
    ∃ (lead : List Component) (name : Text) (page : Page), page.WellFormed ∧
      path = ⟨lead ++ [.named name]⟩ ∧ Text.chomp name = page.text ∧
      ofRelative? ⟨lead ++ [.named page.text]⟩ crateName = some link := by
  rcases chomp_fileName?_eq_text read with ⟨name, last, page, wellFormed, spelled⟩
  have shape := eq_concat_of_fileName? last
  refine ⟨path.parent.components, name, page, wellFormed, shape, spelled, ?_⟩
  have chomped : Text.chomp page.text = Text.chomp name := by
    rw [spelled, Text.chomp_of_notMem (Page.newline_notMem_text wellFormed)]
  rw [ofRelative?_of_chomp_eq _ chomped, ← shape]
  exact read

end Pages

end DocLink

end IntraDoc
