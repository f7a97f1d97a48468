import IntraDoc.Proofs.Link.AddressedCrate
import IntraDoc.Proofs.Link.CrateRoot

/-!
# The root page of a package

The address of a package on its host, with or without a version, stands for the root of the crate
that the package holds. The crate has the name of the package with `_` for `-`, and the address is
refused if this is no identifier. The own crate is told by the name of the package as it is written,
not by the name of its crate, so that a package with a `-` in its name is never taken for the own
one. That is the only difference between the two comparisons.
-/

namespace IntraDoc

namespace Text

variable {text : Text} {old new : Char}

/-- If the new character is missing, there was nothing to exchange. -/
theorem exchange_eq_self (free : new ∉ exchange old new text) : exchange old new text = text := by
  apply exchange_of_notMem
  intro inside
  apply free
  exact List.mem_map.mpr ⟨old, inside, if_pos rfl⟩

end Text

namespace LinkPath

/-- A segment is one component, whether a slash closes it or not. -/
theorem laterComponents_closed {segment closing : Text} (isSegment : Component.IsSegment segment)
    (isClosing : closing = [] ∨ closing = ['/']) :
    laterComponents (segment ++ closing) = [.ofSegment segment] := by
  rcases isClosing with rfl | rfl
  · rw [List.append_nil, laterComponents, Text.splitOn_of_notMem isSegment.slashless]
    simp [Component.ofLater?_of_ne isSegment.nonempty isSegment.notHere]
  · exact laterComponents_segment isSegment []

end LinkPath

namespace Hosted

/-- The page of a package, as it stands behind the host. -/
def packagePage (package : Text) (version : Option Text) (closing : Text) : Text :=
  match version with
  | none => package ++ closing
  | some text => package ++ '/' :: (text ++ closing)

section Packages

variable {package crateName : Text}

/-- A package is read under the name of its crate, if this is an identifier. -/
theorem packageRoot?_eq (crateValid : isIdentifier crateName = true) (singleLine : '\n' ∉ package) :
    packageRoot? package crateName =
      if Identifier.isPlain (Text.exchange '-' '_' package) then
        some (crateRoot (if package = crateName then "crate".toList
          else Text.exchange '-' '_' package))
      else none := by
  have nameSingle : '\n' ∉ Text.exchange '-' '_' package :=
    Text.notMem_exchange singleLine (by decide)
  have unchanged : isIdentifier package = true → Text.exchange '-' '_' package = package := by
    intro valid
    apply Text.exchange_of_notMem
    exact notMem_of_isIdentifier valid (by decide) (by decide)
  rw [← isIdentifier_eq_isPlain nameSingle, packageRoot?]
  by_cases own : package = crateName
  · have valid : isIdentifier package = true := own ▸ crateValid
    rw [if_pos own, if_pos own, unchanged valid, if_pos valid]
  · rw [if_neg own, if_neg own]
    by_cases valid : isIdentifier package = true
    · rw [if_pos valid, unchanged valid, if_pos valid]
    · rw [if_neg valid]

end Packages

end Hosted

namespace DocLink

section Addresses

variable {options : Options} {scheme package closing : Text} {version : Option Text}

/-- Nothing but a version and a slash may follow the package. -/
theorem ofTarget?_packagePage (hosted : options.hosted = true)
    (isScheme : .named scheme ∈ Hosted.schemes) (isPackage : Component.IsSegment package)
    (notCrate : package ≠ "crate".toList)
    (isVersion : ∀ text ∈ version, Hosted.HoldsVersion text ∧ '/' ∉ text)
    (isClosing : closing = [] ∨ closing = ['/']) :
    ofTarget? (Hosted.address scheme "docs.rs".toList
        (Hosted.packagePage package version closing)) options =
      Hosted.packageRoot? package options.crateName := by
  have isHost : .named "docs.rs".toList ∈ Hosted.hosts := by simp [Hosted.hosts]
  rw [ofTarget?_address isScheme isHost hosted]
  cases version with
  | none =>
      rw [Hosted.packagePage, LinkPath.laterComponents_closed isPackage isClosing]
      simp only [ofHosted?, isScheme, if_true, Hosted.ofPackage?, Component.text_ofSegment,
        notCrate, if_false]
  | some text =>
      obtain ⟨holds, slashless⟩ := isVersion text rfl
      have found : Hosted.isVersion (.ofSegment text) = true := by
        apply Hosted.isVersion_iff.mpr
        simpa using holds
      rw [Hosted.packagePage, LinkPath.laterComponents_segment isPackage,
        LinkPath.laterComponents_closed (holds.isSegment slashless) isClosing]
      simp only [ofHosted?, isScheme, if_true, Hosted.ofPackage?, Component.text_ofSegment,
        notCrate, if_false, found]

theorem render_crateRoot (name : Text) (currentType : Option Text) :
    (Hosted.crateRoot name).render currentType false = name := by
  apply (render_mod name none currentType false).trans
  simp [Page.text, Page.file, Page.anchorName, Page.anchorText]

theorem RendersTo.unique {target rendering other : Text}
    (rendersTo : RendersTo options target rendering) (again : RendersTo options target other) :
    rendering = other := by
  rcases rendersTo with ⟨link, read, rendered⟩
  rcases again with ⟨otherLink, otherRead, otherRendered⟩
  have same : link = otherLink := Except.ok.inj (read.symm.trans otherRead)
  rw [← rendered none, ← otherRendered none, same]

/-- The name of a crate is `crate` only for the package of this name. -/
theorem package_eq_crate (isCrate : Text.exchange '-' '_' package = "crate".toList) :
    package = "crate".toList := by
  rw [← isCrate]
  apply (Text.exchange_eq_self ?_).symm
  rw [isCrate]
  decide

end Addresses

/--
The address of a package, with or without a version and a final slash, is the root of the crate that
bears the name of the package with `_` for `-`, if this is an identifier; otherwise it is refused.
It is rendered as `crate` if the package itself bears the name of the own crate. Comparing the name
of its crate instead would make a difference for one kind of package only: one with a `-` in its
name whose crate is the own one.
-/
theorem classify_packageRoot {options : Options} {scheme package closing : Text}
    {version : Option Text} (hosted : options.hosted = true)
    (isScheme : .named scheme ∈ Hosted.schemes) (isPackage : Component.IsSegment package)
    (singleLine : '\n' ∉ package) (notCrate : package ≠ "crate".toList)
    (isVersion : ∀ text ∈ version, Hosted.HoldsVersion text ∧ '/' ∉ text)
    (isClosing : closing = [] ∨ closing = ['/']) :
    let own := options.crateName
    let name := Text.exchange '-' '_' package
    let target := Hosted.address scheme "docs.rs".toList
      (Hosted.packagePage package version closing)
    (Identifier.isPlain name = true →
      classify target options =
        .ok (Hosted.crateRoot (if package = own then "crate".toList else name)) ∧
      RendersTo options target (if package = own then "crate".toList else name) ∧
      (RendersTo options target (if name = own then "crate".toList else name) ↔
        (name = own → package = own))) ∧
    (Identifier.isPlain name = false → classify target options = .error ⟨target⟩) := by
  intro own name target
  have read : ofTarget? target options = Hosted.packageRoot? package own :=
    ofTarget?_packagePage hosted isScheme isPackage notCrate isVersion isClosing
  rw [Hosted.packageRoot?_eq options.crateName_isIdentifier singleLine] at read
  refine ⟨?_, ?_⟩
  · intro plain
    rw [if_pos plain] at read
    have classified : classify target options =
        .ok (Hosted.crateRoot (if package = own then "crate".toList else name)) := by
      rw [classify, read]
    have rendersTo : RendersTo options target (if package = own then "crate".toList else name) :=
      ⟨_, classified, fun currentType => render_crateRoot _ currentType⟩
    have ownName : package = own → name = own := by
      intro isOwn
      apply (Text.exchange_of_notMem ?_).trans isOwn
      rw [isOwn]
      exact notMem_of_isIdentifier options.crateName_isIdentifier (by decide) (by decide)
    refine ⟨classified, rendersTo, ?_⟩
    constructor
    · intro normalised isOwnName
      by_contra notOwn
      have same := rendersTo.unique normalised
      rw [if_neg notOwn, if_pos isOwnName] at same
      exact notCrate (package_eq_crate same)
    · intro sameCrate
      have sameOwn : name = own ↔ package = own := ⟨sameCrate, ownName⟩
      simp only [sameOwn]
      exact rendersTo
  · intro notPlain
    apply classify_eq_error
    rw [read, if_neg (by simpa using notPlain)]

/-- A package under the name of its crate, and one whose name no crate can have. -/
theorem classify_packageRoot_dashed :
    let options : Options := { crateName := "my_crate".toList }
    Hosted.HoldsVersion "latest".toList ∧
      RendersTo options "https://docs.rs/serde-json/latest/".toList "serde_json".toList ∧
      classify "https://docs.rs/7-zip".toList options =
        .error ⟨"https://docs.rs/7-zip".toList⟩ := by
  intro options
  have isScheme : .named "https:".toList ∈ Hosted.schemes := by simp [Hosted.schemes]
  have holds : Hosted.HoldsVersion "latest".toList := ⟨_, Or.inl rfl, List.infix_refl _⟩
  have hosted : options.hosted = true := rfl
  have isVersion : ∀ text ∈ some "latest".toList, Hosted.HoldsVersion text ∧ '/' ∉ text := by
    rintro text ⟨⟩
    exact ⟨holds, by decide⟩
  have noVersion : ∀ text ∈ (none : Option Text), Hosted.HoldsVersion text ∧ '/' ∉ text := by simp
  have dashed : Component.IsSegment "serde-json".toList := ⟨by decide, by decide, by decide⟩
  have numbered : Component.IsSegment "7-zip".toList := ⟨by decide, by decide, by decide⟩
  have named := classify_packageRoot hosted isScheme dashed (by decide) (by decide) isVersion
    (Or.inr rfl)
  have unnamed := classify_packageRoot hosted isScheme numbered (by decide) (by decide) noVersion
    (Or.inl rfl)
  exact ⟨holds, (named.1 (by decide)).2.1, unnamed.2 (by decide)⟩

/-- The page of the own package is not the crate root if the package is written with a `-`. -/
theorem not_rendersTo_crate_dashed :
    let options : Options := { crateName := "my_crate".toList }
    Text.exchange '-' '_' "my-crate".toList = options.crateName ∧
      RendersTo options "https://docs.rs/my_crate".toList "crate".toList ∧
      ¬RendersTo options "https://docs.rs/my-crate".toList "crate".toList := by
  intro options
  have dashed : classify "https://docs.rs/my-crate".toList options =
      .ok (Hosted.crateRoot "my_crate".toList) := by decide +kernel
  have plain : classify "https://docs.rs/my_crate".toList options =
      .ok (Hosted.crateRoot "crate".toList) := by decide +kernel
  refine ⟨by decide, ⟨_, plain, render_crateRoot "crate".toList⟩, ?_⟩
  rintro ⟨link, read, rendered⟩
  have same : link = Hosted.crateRoot "my_crate".toList := Except.ok.inj (read.symm.trans dashed)
  rw [same] at rendered
  exact absurd (rendered none) (by decide)

end DocLink

end IntraDoc
