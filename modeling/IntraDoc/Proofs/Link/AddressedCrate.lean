import IntraDoc.Proofs.Link.FirstSegment
import IntraDoc.Proofs.Link.Hosted
import IntraDoc.Proofs.Link.Target

/-!
# The crates that web addresses name

A rendering that begins with `crate` or with the name of a crate means the same wherever it is
written. An address on a documentation host is rendered so if it names a crate: the package, if
nothing but a version follows it, or the crate that the pages behind the version or the channel
begin with. If these pages begin with no crate, what is left of the address is read as if it stood
on the current page.
-/

namespace IntraDoc

theorem Text.exchange_of_notMem {text : Text} {old new : Char} (free : old ∉ text) :
    exchange old new text = text := by
  unfold exchange
  rw [List.map_congr_left (g := id), List.map_id]
  intro char inside
  have different : char ≠ old := by
    rintro rfl
    exact free inside
  simp [different]

namespace DocLink

section Anchored

variable {link : DocLink} {name : Text}

/-- The rendering leads into this crate, or into the own one, wherever it is written. -/
structure IsAnchored (link : DocLink) (crate : Text) : Prop where
  fixed : ∀ currentType disambiguate,
    link.render currentType disambiguate = link.render none disambiguate
  noAnchor : ∀ currentType disambiguate rest, link.render currentType disambiguate ≠ '#' :: rest
  first : ∀ currentType, Rendering.firstSegment (link.renderPath currentType) = "crate".toList ∨
    Rendering.firstSegment (link.renderPath currentType) = crate

theorem isAnchored_of_firstName (known : link.disambiguator ∈ Disambiguator.known)
    (filled : ∀ currentType,
      ∀ segment ∈ link.startSegments currentType ++ link.modules, segment ≠ [])
    (notHere : link.start ≠ .here)
    (firstName : ∀ currentType, (link.segments currentType).head?.getD [] = "crate".toList ∨
      (link.segments currentType).head?.getD [] = name ∧ isIdentifier name = true) :
    link.IsAnchored name := by
  have first : ∀ currentType,
      Rendering.firstSegment (link.renderPath currentType) = "crate".toList ∨
        Rendering.firstSegment (link.renderPath currentType) = name ∧ isIdentifier name = true := by
    intro currentType
    rw [firstSegment_renderPath known (filled currentType)]
    rcases firstName currentType with own | ⟨named, valid⟩
    · left
      rw [own]
      decide
    · right
      rw [named]
      exact ⟨Rendering.firstSegment_of_isIdentifier valid, valid⟩
  refine ⟨?_, ?_, ?_⟩
  · intro currentType disambiguate
    exact render_eq_of_start_ne_here notHere disambiguate
  · intro currentType disambiguate rest
    apply render_ne_hash known
    rcases first currentType with own | ⟨named, valid⟩
    · rw [own]
      decide
    · rw [named]
      exact ne_nil_of_isIdentifier valid
  · intro currentType
    exact (first currentType).imp_right And.left

end Anchored

end DocLink

theorem LinkPath.here_notMem_behind {target : Text} {first : Component} {rest : List Component}
    (components : (parse target).components = first :: rest) : .here ∉ rest := by
  intro inside
  rcases List.append_of_mem inside with ⟨before, after, rfl⟩
  have front : (parse target).components = (first :: before) ++ .here :: after := components
  exact absurd (before_here_eq_nil front) (by simp)

namespace Hosted

/-- The pages begin with the directory of this crate, or with a page of this name. -/
inductive Begins : List Component → Text → Prop where
  | directory {name : Text} {rest : List Component} (nonempty : rest ≠ []) :
      Begins (.named name :: rest) name
  | page {last name : Text} (fragment : Option Text)
      (wellFormed : (Page.bare name fragment).WellFormed)
      (spelled : Text.chomp last = (Page.bare name fragment).text) : Begins [.named last] name

/-- The address goes on with a package, a version and these pages. -/
def IsVersioned (path : LinkPath) (pages : List Component) : Prop :=
  ∃ scheme ∈ schemes, ∃ package version : Component, HoldsVersion version.text ∧
    path.components = scheme :: .named "docs.rs".toList :: package :: version :: pages

/-- The address goes on with a channel, if there is one, and these pages of the distribution. -/
def IsDistributed (path : LinkPath) (pages : List Component) : Prop :=
  ∃ scheme ∈ schemes, ∃ channel : Option Component, (∀ name ∈ channel, IsChannelText name.text) ∧
    (∃ first ∈ pages.head?, first.text ∈ distributed) ∧
    path.components = scheme :: .named "doc.rust-lang.org".toList :: (channel.toList ++ pages)

/--
The crate that an address names: the package if nothing but a version follows, and otherwise the
crate that the pages begin with.
-/
inductive NamesCrate (path : LinkPath) : Text → Prop where
  | package {scheme package : Component} (version : Option Component) (isScheme : scheme ∈ schemes)
      (components : path.components =
        scheme :: .named "docs.rs".toList :: package :: version.toList) :
      NamesCrate path (Text.exchange '-' '_' package.text)
  | versioned {pages : List Component} {name : Text} (isVersioned : IsVersioned path pages)
      (begins : Begins pages name) : NamesCrate path name
  | distributed {pages : List Component} {name : Text} (isDistributed : IsDistributed path pages)
      (begins : Begins pages name) : NamesCrate path name

section Reading

variable {path : LinkPath} {pages : List Component} {crateName name : Text} {link : DocLink}

theorem Begins.ne_nil (begins : Begins pages name) : pages ≠ [] := by
  cases begins <;> simp

theorem ofRelative?_of_isVersioned (isVersioned : IsVersioned path pages) (nonempty : pages ≠ [])
    (read : DocLink.ofHosted? path crateName = some link) :
    DocLink.ofRelative? ⟨pages⟩ crateName = some link := by
  rcases isVersioned with ⟨scheme, isScheme, package, version, holds, components⟩
  have found := isVersion_iff.mpr holds
  obtain ⟨first, others, rfl⟩ := List.exists_cons_of_ne_nil nonempty
  simp only [DocLink.ofHosted?, components, isScheme, if_true, ofPackage?, found] at read
  split at read
  · simp at read
  · exact read

theorem ofRelative?_of_isDistributed (isDistributed : IsDistributed path pages)
    (read : DocLink.ofHosted? path crateName = some link) :
    DocLink.ofRelative? ⟨pages⟩ crateName = some link := by
  rcases isDistributed with
    ⟨scheme, isScheme, channel, areChannels, ⟨first, begins, known⟩, components⟩
  obtain ⟨others, rfl⟩ : ∃ others, pages = first :: others := by
    cases pages with
    | nil => simp at begins
    | cons head others =>
        simp only [List.head?_cons, Option.mem_def, Option.some.injEq] at begins
        exact ⟨others, by rw [begins]⟩
  have notChannel := isChannel_eq_false_of_distributed known
  cases channel with
  | none =>
      simpa [DocLink.ofHosted?, components, isScheme, ofDistribution?, notChannel, known] using read
  | some name =>
      have found := isChannel_iff.mpr (areChannels name rfl)
      simpa [DocLink.ofHosted?, components, isScheme, ofDistribution?, found, known] using read

theorem packageRoot?_of_package {scheme package : Component} {version : Option Component}
    (isScheme : scheme ∈ schemes)
    (components : path.components = scheme :: .named "docs.rs".toList :: package :: version.toList)
    (read : DocLink.ofHosted? path crateName = some link) :
    packageRoot? package.text crateName = some link := by
  cases version with
  | none =>
      simp only [DocLink.ofHosted?, components, isScheme, if_true, ofPackage?,
        Option.toList_none] at read
      split at read
      · simp at read
      · exact read
  | some version =>
      simp only [DocLink.ofHosted?, components, isScheme, if_true, ofPackage?,
        Option.toList_some] at read
      split at read
      · simp at read
      · split at read
        · exact read
        · simp at read

theorem exists_of_ofPackage? {package : Component} {rest : List Component}
    (read : ofPackage? ⟨package :: rest⟩ crateName = some link) :
    (∃ version : Option Component, rest = version.toList) ∨
      ∃ version pages, rest = version :: pages ∧ HoldsVersion version.text ∧
        DocLink.ofRelative? ⟨pages⟩ crateName = some link := by
  rcases rest with _ | ⟨version, _ | ⟨next, others⟩⟩
  · exact Or.inl ⟨none, rfl⟩
  · exact Or.inl ⟨some version, rfl⟩
  · simp only [ofPackage?] at read
    split at read
    · simp at read
    · split at read
      · rename_i found
        exact Or.inr ⟨version, next :: others, rfl, isVersion_iff.mp found, read⟩
      · simp at read

theorem exists_of_ofDistribution? {components : List Component}
    (read : ofDistribution? ⟨components⟩ crateName = some link) :
    ∃ (channel : Option Component) (pages : List Component),
      (∀ name ∈ channel, IsChannelText name.text) ∧
      (∃ first ∈ pages.head?, first.text ∈ distributed) ∧
      components = channel.toList ++ pages ∧
      DocLink.ofRelative? ⟨pages⟩ crateName = some link := by
  cases components with
  | nil => simp [ofDistribution?] at read
  | cons first rest =>
      simp only [ofDistribution?] at read
      generalize chosen : (if isChannel first = true then rest else first :: rest) = pages at read
      cases pages with
      | nil => simp at read
      | cons linked others =>
          simp only at read
          split at read
          · rename_i known
            have isDistributed : ∃ component ∈ (linked :: others).head?,
                component.text ∈ distributed := ⟨linked, rfl, by simpa using known⟩
            by_cases found : isChannel first = true
            · rw [if_pos found] at chosen
              exact ⟨some first, linked :: others, by simpa using isChannel_iff.mp found,
                isDistributed, by simp [chosen], read⟩
            · rw [if_neg found] at chosen
              exact ⟨none, linked :: others, by simp, isDistributed, by simp [chosen], read⟩
          · simp at read

/--
The pages of the distribution begin with a crate. The one crate whose name is no identifier cannot
be the page itself.
-/
theorem exists_begins (isDistributed : ∃ first ∈ pages.head?, first.text ∈ distributed)
    (read : DocLink.ofRelative? ⟨pages⟩ crateName = some link) : ∃ name, Begins pages name := by
  have names : ∀ component ∈ [Component.root, .here, .up], component.text ∉ distributed := by decide
  have pageNames : ∀ name ∈ distributed, name = "nightly-rustc".toList ∨
      Identifier.isPlain name = true ∧ Text.chomp name = name := by decide
  rcases isDistributed with ⟨first, begins, known⟩
  cases pages with
  | nil => simp at begins
  | cons head others =>
      simp only [List.head?_cons, Option.mem_def, Option.some.injEq] at begins
      subst begins
      cases head with
      | root => exact absurd known (names _ (by simp))
      | here => exact absurd known (names _ (by simp))
      | up => exact absurd known (names _ (by simp))
      | named name =>
          by_cases alone : others = []
          · subst alone
            rcases pageNames name known with rfl | ⟨plain, unbroken⟩
            · have unread :
                  DocLink.ofRelative? ⟨[.named "nightly-rustc".toList]⟩ crateName = none := rfl
              rw [unread] at read
              simp at read
            · refine ⟨name, .page none ⟨by simp [Page.anchorName], plain⟩ ?_⟩
              rw [unbroken]
              simp [Page.text, Page.file, Page.anchorName, Page.anchorText]
          · exact ⟨name, .directory alone⟩

/-- An address that names no crate is read by the pages behind the version. -/
theorem exists_isVersioned (noCrate : ∀ name, ¬NamesCrate path name)
    (read : DocLink.ofHosted? path crateName = some link) :
    ∃ pages, IsVersioned path pages ∧ DocLink.ofRelative? ⟨pages⟩ crateName = some link := by
  rcases path with ⟨components⟩
  unfold DocLink.ofHosted? at read
  split at read
  · rename_i scheme host first rest shape
    simp only at shape
    subst shape
    split at read
    · rename_i isScheme
      split at read
      · rename_i isHost
        subst isHost
        rcases exists_of_ofPackage? read with
          ⟨version, rfl⟩ | ⟨version, pages, rfl, holds, isRead⟩
        · exact absurd (.package version isScheme rfl) (noCrate _)
        · exact ⟨pages, ⟨scheme, isScheme, first, version, holds, rfl⟩, isRead⟩
      · split at read
        · rename_i isHost
          subst isHost
          rcases exists_of_ofDistribution? read with
            ⟨channel, pages, areChannels, known, shape, isRead⟩
          obtain ⟨name, begins⟩ := exists_begins known isRead
          have isDistributed : IsDistributed
              ⟨scheme :: .named "doc.rust-lang.org".toList :: first :: rest⟩ pages :=
            ⟨scheme, isScheme, channel, areChannels, known, by rw [shape]⟩
          exact absurd (.distributed isDistributed begins) (noCrate name)
        · simp at read
    · simp at read
  · simp at read

end Reading

end Hosted

namespace DocLink

section Addresses

variable {crateName name : Text} {lead : List Component} {page : Page} {link : DocLink}

theorem isAnchored_crateRoot {root : Text}
    (named : root = "crate".toList ∨ root = name ∧ isIdentifier name = true) :
    (Hosted.crateRoot root).IsAnchored name := by
  apply isAnchored_of_firstName
  · exact Disambiguator.mod_mem_known
  · simp [Hosted.crateRoot, startSegments, Start.segments]
  · simp [Hosted.crateRoot]
  · simpa [Hosted.crateRoot, segments, startSegments, Start.segments, Finish.names] using named

theorem isAnchored_of_packageRoot? {package : Text}
    (read : Hosted.packageRoot? package crateName = some link) :
    link.IsAnchored (Text.exchange '-' '_' package) := by
  unfold Hosted.packageRoot? at read
  split at read
  · rw [← Option.some.inj read]
    exact isAnchored_crateRoot (Or.inl rfl)
  · split at read
    · rename_i valid
      have same : Text.exchange '-' '_' package = package :=
        Text.exchange_of_notMem (notMem_of_isIdentifier valid (by decide) (by decide))
      rw [← Option.some.inj read, same]
      exact isAnchored_crateRoot (Or.inr ⟨rfl, valid⟩)
    · simp only at read
      split at read
      · rename_i valid
        rw [← Option.some.inj read]
        exact isAnchored_crateRoot (Or.inr ⟨rfl, valid⟩)
      · simp at read

theorem Reads.isAnchored {last : Text} (reads : Reads crateName lead page link)
    (crateValid : isIdentifier crateName = true) (wellFormed : page.WellFormed)
    (spelled : Text.chomp last = page.text) (noHere : .here ∉ lead)
    (begins : Hosted.Begins (lead ++ [.named last]) name) : link.IsAnchored name := by
  have filled := fun currentType => @Reads.filled crateName lead page link currentType reads
  generalize shape : lead ++ [Component.named last] = pages at begins
  cases begins with
  | @directory _ rest nonempty =>
      obtain ⟨others, rfl⟩ : ∃ others, lead = .named name :: others := by
        cases lead with
        | nil =>
            simp only [List.nil_append, List.cons.injEq] at shape
            exact absurd shape.2.symm nonempty
        | cons first others =>
            simp only [List.cons_append, List.cons.injEq] at shape
            exact ⟨others, by rw [shape.1]⟩
      have valid := reads.isIdentifier_named crateValid List.mem_cons_self
      apply isAnchored_of_firstName (reads.known wellFormed) filled
        (reads.start_ne_here noHere (Or.inl (by simp)))
      intro currentType
      rw [reads.firstName_segments noHere]
      split
      · exact Or.inl rfl
      · unfold leadSegment?
        split
        · exact Or.inl rfl
        · exact Or.inr ⟨rfl, valid⟩
  | page fragment bareWellFormed bareSpelled =>
      obtain ⟨rfl, rfl⟩ : lead = [] ∧ last = _ := by
        simpa [List.append_eq_singleton_iff] using shape
      obtain rfl := Page.text_injective wellFormed bareWellFormed (spelled.symm.trans bareSpelled)
      apply isAnchored_of_firstName (reads.known wellFormed) filled
        (reads.start_ne_here noHere (Or.inr (by simp)))
      intro currentType
      rw [reads.firstName_segments noHere]
      exact Or.inr ⟨by simp [leadSegment?, pageSegment], isIdentifier_of_isPlain wellFormed.2⟩

/-- The pages lead to the own crate: from its directory on, or to the index page of it. -/
def ReachesCrate (crateName : Text) (pages : List Component) : Prop :=
  (pages.dropLast.dropWhile (· = .up)).head? = some (.named crateName) ∨
    pages.dropLast.getLast? = some (.named crateName) ∧
      ∃ last, pages.getLast? = some (.named last) ∧ Text.chomp last = Page.indexFile

/--
How the rendering begins if the pages name no crate: with the current type, the anchor alone,
`self`, the item's own name, or `super` unless the steps up reach the own crate.
-/
inductive Strays (crateName : Text) (link : DocLink) : List Component → Prop where
  | member {last kind name : Text} (spelled : Text.chomp last = '#' :: (kind ++ '.' :: name))
      (known : kind ∈ itemKinds)
      (rendered : ∀ currentType, link.renderPath currentType =
        ownerName currentType ++ "::".toList ++ name ++ link.trailingToken) :
      Strays crateName link [.named last]
  | anchor {last name : Text} (spelled : Text.chomp last = '#' :: name)
      (rendered : ∀ currentType disambiguate,
        link.render currentType disambiguate = '#' :: name) : Strays crateName link [.named last]
  | index {last : Text} {fragment : Option Text}
      (spelled : Text.chomp last = (Page.index fragment).text)
      (first : ∀ currentType,
        Rendering.firstSegment (link.renderPath currentType) = "self".toList) :
      Strays crateName link [.named last]
  | item {last kind name : Text} {fragment : Option Text}
      (spelled : Text.chomp last = (Page.item kind name fragment).text)
      (first : ∀ currentType, Rendering.firstSegment (link.renderPath currentType) = name) :
      Strays crateName link [.named last]
  | up {rest : List Component} (stays : ¬ReachesCrate crateName (.up :: rest))
      (first : ∀ currentType,
        Rendering.firstSegment (link.renderPath currentType) = "super".toList) :
      Strays crateName link (.up :: rest)
  | own {rest : List Component} (reaches : ReachesCrate crateName (.up :: rest))
      (first : ∀ currentType,
        Rendering.firstSegment (link.renderPath currentType) = "crate".toList) :
      Strays crateName link (.up :: rest)

theorem renderPath_member (kind name : Text) (currentType : Option Text) :
    let link : DocLink := ⟨.here, [], .associated (.ofKind kind) name⟩
    link.renderPath currentType =
      ownerName currentType ++ "::".toList ++ name ++ link.trailingToken := by
  intro link
  have owned : link.renderLead currentType = ownerName currentType := rfl
  have joined : joinSegment (ownerName currentType) name =
      ownerName currentType ++ "::".toList ++ name := by
    simp [joinSegment, ownerName_ne_nil currentType]
  rw [← joined, ← owned]
  rfl

theorem isAnchored_of_begins {pages : List Component} (crateValid : isIdentifier crateName = true)
    (noHere : .here ∉ pages) (read : ofRelative? ⟨pages⟩ crateName = some link)
    (begins : Hosted.Begins pages name) : link.IsAnchored name := by
  rcases exists_reads_chomp read with ⟨lead, last, page, wellFormed, shape, spelled, reads⟩
  obtain rfl := (LinkPath.mk.inj shape)
  exact reads.isAnchored crateValid wellFormed spelled
    (fun inLead => noHere (List.mem_append_left _ inLead)) begins

theorem Reads.strays_of_alone {last : Text} (reads : Reads crateName lead page link)
    (alone : lead = []) (wellFormed : page.WellFormed) (spelled : Text.chomp last = page.text)
    (noCrate : ∀ name, ¬Hosted.Begins [.named last] name) :
    link.Strays crateName [.named last] := by
  have first : ∀ currentType, Rendering.firstSegment (link.renderPath currentType) =
      Rendering.firstSegment (pageSegment currentType page) := by
    intro currentType
    rw [reads.firstSegment_renderPath wellFormed (by simp [alone])]
    simp [alone, leadSegment?]
  cases page with
  | anchor name =>
      cases reads with
      | member near known plain => exact .member spelled known (renderPath_member _ _)
      | anchor noMember => exact .anchor spelled (render_anchor name)
      | anchorBelow nonempty noMember reached => exact absurd alone nonempty
  | item kind name fragment =>
      refine .item spelled ?_
      intro currentType
      rw [first]
      exact Rendering.firstSegment_of_isIdentifier (isIdentifier_of_isPlain wellFormed.2.2)
  | index fragment => exact .index spelled first
  | bare name fragment => exact absurd (.page fragment wellFormed spelled) (noCrate name)

theorem Reads.strays_of_up {last : Text} {others : List Component}
    (reads : Reads crateName (.up :: others) page link) (wellFormed : page.WellFormed)
    (spelled : Text.chomp last = page.text) (noHere : .here ∉ Component.up :: others) :
    link.Strays crateName (.up :: (others ++ [.named last])) := by
  have first := reads.firstSegment_renderPath wellFormed noHere
  have isIndex : page = .index none ↔ Text.chomp last = Page.indexFile := by
    have indexText : (Page.index none).text = Page.indexFile := rfl
    rw [spelled, ← indexText]
    constructor
    · rintro rfl
      rfl
    · exact Page.text_injective wellFormed ⟨by simp [Page.anchorName], trivial⟩
  have dropLast : (Component.up :: (others ++ [.named last])).dropLast = .up :: others := by
    rw [← List.cons_append, List.dropLast_concat]
  have getLast : (Component.up :: (others ++ [.named last])).getLast? = some (.named last) := by
    rw [← List.cons_append, List.getLast?_concat]
  by_cases own : ReachesCrate crateName (.up :: (others ++ [.named last]))
  · refine .own own ?_
    intro currentType
    rw [first]
    rcases own with fromCrate | ⟨inCrate, name, isLast, asIndex⟩
    · rw [dropLast] at fromCrate
      rw [leadSegment?, if_pos fromCrate, Option.getD_some, ite_self]
      decide
    · rw [dropLast] at inCrate
      rw [getLast, Option.some.injEq, Component.named.injEq] at isLast
      rw [if_pos ⟨isIndex.mpr (isLast ▸ asIndex), inCrate⟩]
      decide
  · refine .up own ?_
    intro currentType
    rw [ReachesCrate, dropLast, getLast, not_or] at own
    have notIndex : ¬(page = .index none ∧
        (Component.up :: others).getLast? = some (.named crateName)) := by
      rintro ⟨asIndex, inCrate⟩
      exact own.2 ⟨inCrate, last, rfl, isIndex.mp asIndex⟩
    have stepsUp : leadSegment? crateName (.up :: others) = some "super".toList := by
      rw [leadSegment?, if_neg own.1]
      rfl
    rw [first, if_neg notIndex, stepsUp, Option.getD_some]
    decide

theorem strays_of_not_begins {pages : List Component} (crateValid : isIdentifier crateName = true)
    (noHere : .here ∉ pages) (read : ofRelative? ⟨pages⟩ crateName = some link)
    (noCrate : ∀ name, ¬Hosted.Begins pages name) : link.Strays crateName pages := by
  rcases exists_reads_chomp read with ⟨lead, last, page, wellFormed, shape, spelled, reads⟩
  obtain rfl := (LinkPath.mk.inj shape)
  cases lead with
  | nil => exact reads.strays_of_alone rfl wellFormed spelled noCrate
  | cons first others =>
      have noHereLead : .here ∉ first :: others :=
        fun inLead => noHere (List.mem_append_left _ inLead)
      rcases reads.component_cases crateValid first (by simp) with rfl | rfl | ⟨name, rfl, -⟩
      · exact reads.strays_of_up wellFormed spelled noHereLead
      · simp at noHereLead
      · exact absurd (.directory (by simp)) (noCrate name)

end Addresses

/--
An address that names a crate is rendered as a path that leads into this crate, or into the own one,
from wherever it is written. On the host of the distribution every address that is read does so; on
the host of the packages what follows the version need not begin with a crate, and then the
rendering depends on the place or loses the crate.
-/
theorem classify_address_isAnchored {target : Text} {options : Options} {link : DocLink}
    (isAddress : (LinkPath.parse target).IsAddress) (read : classify target options = .ok link) :
    let path := LinkPath.parse target
    (∀ name, Hosted.NamesCrate path name → link.IsAnchored name) ∧
      ((∀ name, ¬Hosted.NamesCrate path name) →
        ∃ pages, Hosted.IsVersioned path pages ∧ link.Strays options.crateName pages) := by
  intro path
  have isRead : ofHosted? path options.crateName = some link := by
    have ofTarget := ofTarget?_of_classify read
    rw [ofTarget?_of_isForeign (Or.inr isAddress), ofHostedWith?] at ofTarget
    split at ofTarget
    · exact ofTarget
    · simp at ofTarget
  have noHere : ∀ {first rest pages}, path.components = first :: rest → pages <:+ rest →
      .here ∉ pages := by
    intro first rest pages components isSuffix inPages
    exact LinkPath.here_notMem_behind components (isSuffix.mem inPages)
  refine ⟨?_, ?_⟩
  · intro name names
    cases names with
    | package version isScheme components =>
        exact isAnchored_of_packageRoot? (Hosted.packageRoot?_of_package isScheme components isRead)
    | versioned isVersioned begins =>
        apply isAnchored_of_begins options.crateName_isIdentifier _ _ begins
        · rcases isVersioned with ⟨scheme, isScheme, package, version, holds, components⟩
          exact noHere components ⟨[_, _, _], rfl⟩
        · exact Hosted.ofRelative?_of_isVersioned isVersioned begins.ne_nil isRead
    | distributed isDistributed begins =>
        apply isAnchored_of_begins options.crateName_isIdentifier _ _ begins
        · rcases isDistributed with ⟨scheme, isScheme, channel, areChannels, known, components⟩
          exact noHere components ⟨_ :: channel.toList, rfl⟩
        · exact Hosted.ofRelative?_of_isDistributed isDistributed isRead
  · intro noCrate
    rcases Hosted.exists_isVersioned noCrate isRead with ⟨pages, isVersioned, pagesRead⟩
    refine ⟨pages, isVersioned, ?_⟩
    apply strays_of_not_begins options.crateName_isIdentifier _ pagesRead
    · intro name begins
      exact noCrate name (.versioned isVersioned begins)
    · rcases isVersioned with ⟨scheme, isScheme, package, version, holds, components⟩
      exact noHere components ⟨[_, _, _], rfl⟩

/-- A method of a type in a package whose name has a hyphen. -/
theorem classify_address_isAnchored_method :
    let options : Options := { crateName := "krate".toList }
    let target := "https://docs.rs/my-crate/1.4.2/my_crate/struct.Type.html#method.new".toList
    let link : DocLink := ⟨.sibling "my_crate".toList, [], .item "struct".toList
      (.ofKind "struct".toList) "Type".toList
      (some (.associated (.ofKind "method".toList) "new".toList))⟩
    (LinkPath.parse target).IsAddress ∧ classify target options = .ok link ∧
      Hosted.NamesCrate (LinkPath.parse target) "my_crate".toList ∧
      link.IsAnchored "my_crate".toList := by
  intro options target link
  have isAddress : (LinkPath.parse target).IsAddress :=
    ⟨.named "https:".toList, by decide, by decide +kernel⟩
  have read : classify target options = .ok link := by decide +kernel
  have isVersioned : Hosted.IsVersioned (LinkPath.parse target)
      [.named "my_crate".toList, .named "struct.Type.html#method.new".toList] :=
    ⟨.named "https:".toList, by decide, .named "my-crate".toList, .named "1.4.2".toList,
      Hosted.isVersion_iff.mp (by decide +kernel), by decide +kernel⟩
  have names : Hosted.NamesCrate (LinkPath.parse target) "my_crate".toList :=
    .versioned isVersioned (.directory (by simp))
  exact ⟨isAddress, read, names, (classify_address_isAnchored isAddress read).1 _ names⟩

/--
Addresses in the documentation of one crate that become links into whatever is around them: a method
of the current type, a section of the current page, the current module, the module above.
-/
theorem classify_address_strays :
    let options : Options := { crateName := "krate".toList }
    let rendered := fun (page : String) (currentType : Option Text) =>
      (classify ("https://docs.rs/regex/latest/".toList ++ page.toList) options).toOption.map
        (·.render currentType false)
    rendered "#method.new" none = some "Self::new()".toList ∧
      rendered "#method.new" (some "Type".toList) = some "Type::new()".toList ∧
      rendered "#syntax" none = some "#syntax".toList ∧
      rendered "index.html" none = some "self".toList ∧
      rendered "../bytes/struct.Regex.html" none = some "super::bytes::Regex".toList := by
  decide +kernel

end DocLink

end IntraDoc
