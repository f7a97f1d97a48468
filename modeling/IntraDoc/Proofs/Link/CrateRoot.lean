import IntraDoc.Proofs.Link.FirstSegment
import IntraDoc.Proofs.Link.Hosted
import IntraDoc.Proofs.Link.Rereading

/-!
# The root page of the own crate

From a page of the crate its root page is reached by steps to the parent and the directory that
bears the name of the crate. The index page of this directory is the root of the crate, however many
steps lead to it. The directory alone is read as a module instead, and keeps its name and the steps
in front of it. An address on the host of the packages that goes on with the directory is read in
the same two ways.
-/

namespace IntraDoc

namespace LinkPath

/-- A relative target behind steps to the parent. -/
def stepsUp (count : Nat) (rest : Text) : Text :=
  (List.replicate count "../".toList).flatten ++ rest

section Steps

variable {count : Nat} {rest : Text}

@[simp]
theorem stepsUp_zero : stepsUp 0 rest = rest := rfl

theorem stepsUp_succ : stepsUp (count + 1) rest = "..".toList ++ '/' :: stepsUp count rest := by
  simp [stepsUp, List.replicate_succ]

theorem mem_stepsUp {char : Char} (inside : char ∈ stepsUp count rest) :
    char ∈ "../".toList ∨ char ∈ rest := by
  rw [stepsUp, List.mem_append] at inside
  refine inside.imp_left fun inSteps => ?_
  obtain ⟨step, isStep, inStep⟩ := List.mem_flatten.mp inSteps
  rw [← List.eq_of_mem_replicate isStep]
  exact inStep

theorem laterComponents_stepsUp :
    laterComponents (stepsUp count rest) = List.replicate count .up ++ laterComponents rest := by
  induction count with
  | zero => simp
  | succ count ih =>
      have isSegment : Component.IsSegment "..".toList := ⟨by decide, by decide, by decide⟩
      have isUp : Component.ofSegment "..".toList = .up := rfl
      rw [stepsUp_succ, laterComponents_segment isSegment, isUp, ih]
      rfl

/-- Steps to the parent are read as such in front of a target without a marker of its own. -/
theorem parse_stepsUp (first : ∀ char ∈ rest.head?, char ≠ '/' ∧ char ≠ '.') :
    parse (stepsUp count rest) = ⟨List.replicate count .up ++ laterComponents rest⟩ := by
  cases count with
  | zero =>
      rw [stepsUp_zero, List.replicate_zero, List.nil_append]
      cases rest with
      | nil => rfl
      | cons char others =>
          obtain ⟨notSlash, notDot⟩ := first char rfl
          refine parse_eq_laterComponents (by simp [isRooted, notSlash]) ?_
          rw [Text.splitOn, if_neg notSlash]
          split <;> simp [notDot]
  | succ count =>
      have isUp : Component.ofFirst? "..".toList = some .up := rfl
      rw [LinkPath.mk.injEq, stepsUp_succ, parse_append (by decide) (by decide), isUp,
        laterComponents_stepsUp]
      rfl

end Steps

end LinkPath

namespace DocLink

open LinkPath (stepsUp laterComponents)

/-- The target is classified, and it is rendered like this for every current type. -/
def RendersTo (options : Options) (target rendering : Text) : Prop :=
  ∃ link, classify target options = .ok link ∧
    ∀ currentType, link.render currentType false = rendering

/-- A name behind a `super` for every step to the parent. -/
def belowSupers (count : Nat) (name : Text) : Text :=
  Text.joinWith "::".toList (List.replicate count "super".toList ++ [name])

/-- A name is that of the crate root only if no step leads to it. -/
theorem belowSupers_eq_crate_iff {count : Nat} {name : Text} :
    belowSupers count name = "crate".toList ↔ count = 0 ∧ name = "crate".toList := by
  cases count with
  | zero => simp [belowSupers]
  | succ count => simp [belowSupers, List.replicate_succ, Text.joinWith_cons]

section Readings

variable {options : Options} {target : Text}

/-- A target that is read as a module is rendered with the segments of what leads to it. -/
theorem Lead.rendersTo_mod {crateName name : Text} {lead : List Component} {start : Start}
    {modules : List Text} (reached : Lead crateName lead start modules)
    (read : ofTarget? target options = some ⟨start, modules, .mod name none⟩) :
    RendersTo options target
      (Text.joinWith "::".toList (start.segments ++ modules ++ [name])) := by
  refine ⟨_, ?_, fun currentType => reached.render_mod name currentType false⟩
  rw [classify, read]

theorem exists_lead_replicate_up (crateName : Text) (count : Nat) :
    ∃ start, Lead crateName (List.replicate count .up) start [] ∧
      start.segments = List.replicate count "super".toList := by
  cases count with
  | zero => exact ⟨.empty, .empty, rfl⟩
  | succ count =>
      have reached : Lead crateName (List.replicate (count + 1) .up ++ [].map .named)
          (.supers (count + 1)) [] := .supers count (by simp) (by simp)
      exact ⟨.supers (count + 1), by simpa using reached, rfl⟩

/-- The index page of the own directory is the crate root. -/
theorem rendersTo_crate (count : Nat) (same : ofTarget? target options =
      ofRelative? ⟨List.replicate count .up ++
        [.named options.crateName, .named "index.html".toList]⟩ options.crateName) :
    RendersTo options target "crate".toList := by
  obtain ⟨start, reached, -⟩ := exists_lead_replicate_up options.crateName count
  have wellFormed : (Page.index none).WellFormed := by simp [Page.WellFormed, Page.anchorName]
  have read := ofRelative?_of_reads wellFormed (.indexCrate reached)
  rw [List.append_assoc, List.singleton_append] at read
  have root : Lead options.crateName [] .empty [] := .empty
  exact root.rendersTo_mod (same.trans read)

/-- The own directory alone is a module of that name. -/
theorem rendersTo_belowSupers (plain : Identifier.isPlain options.crateName = true) (count : Nat)
    (same : ofTarget? target options =
      ofRelative? ⟨List.replicate count .up ++ [.named options.crateName]⟩ options.crateName) :
    RendersTo options target (belowSupers count options.crateName) := by
  obtain ⟨start, reached, segments⟩ := exists_lead_replicate_up options.crateName count
  have wellFormed : (Page.bare options.crateName none).WellFormed :=
    ⟨by simp [Page.anchorName], plain⟩
  have read := ofRelative?_of_reads wellFormed (.bare reached)
  have isName : (Page.bare options.crateName none).text = options.crateName := by
    simp [Page.text, Page.file, Page.anchorName, Page.anchorText]
  rw [isName] at read
  have rendered := reached.rendersTo_mod (same.trans read)
  rw [segments, List.append_nil] at rendered
  exact rendered

end Readings

section Spellings

variable {name rest : Text} {options : Options} (plain : Identifier.isPlain name = true)

include plain

theorem isPlainSegment_name : Component.IsPlainSegment name := by
  simpa using isPlainSegment_of_isPlain plain []

theorem laterComponents_name : laterComponents name = [.named name] := by
  rw [laterComponents, Text.splitOn_of_notMem (Identifier.notMem_of_isPlain plain (by decide))]
  simp [Component.ofLater?_of_isPlainSegment (isPlainSegment_name plain)]

theorem laterComponents_name_append (rest : Text) :
    laterComponents (name ++ '/' :: rest) = .named name :: laterComponents rest := by
  rw [LinkPath.laterComponents_append (Identifier.notMem_of_isPlain plain (by decide)),
    Component.ofLater?_of_isPlainSegment (isPlainSegment_name plain)]
  rfl

/-- A name in front of a relative target leaves the steps to the parent before it as they are. -/
theorem ofTarget?_stepsUp (count : Nat) (colonless : ':' ∉ rest) :
    ofTarget? (stepsUp count (name ++ rest)) options =
      ofRelative? ⟨List.replicate count .up ++ laterComponents (name ++ rest)⟩
        options.crateName := by
  have first : ∀ char ∈ (name ++ rest).head?, char ≠ '/' ∧ char ≠ '.' := by
    intro char isFirst
    rw [List.head?_append_of_ne_nil _ (Identifier.ne_nil_of_isPlain plain)] at isFirst
    have inside := List.mem_of_mem_head? isFirst
    constructor <;> rintro rfl
    · exact Identifier.notMem_of_isPlain plain (by decide) inside
    · exact Identifier.notMem_of_isPlain plain (by decide) inside
  have free : ':' ∉ stepsUp count (name ++ rest) := by
    intro inside
    rcases LinkPath.mem_stepsUp inside with inSteps | inTarget
    · exact absurd inSteps (by decide)
    · rcases List.mem_append.mp inTarget with inName | inRest
      · exact Identifier.notMem_of_isPlain plain (by decide) inName
      · exact colonless inRest
  rw [ofTarget?_of_colonless free, LinkPath.parse_stepsUp first]

/-- Behind a package and a version a name is read as it is without them. -/
theorem ofTarget?_namedAddress {scheme package version : Text}
    (isScheme : .named scheme ∈ Hosted.schemes) (hosted : options.hosted = true)
    (isPackage : Component.IsSegment package) (notCrate : package ≠ "crate".toList)
    (holdsVersion : Hosted.HoldsVersion version) (slashless : '/' ∉ version) :
    ofTarget? (Hosted.address scheme "docs.rs".toList
        (package ++ '/' :: (version ++ '/' :: (name ++ '/' :: rest)))) options =
      ofRelative? ⟨.named name :: laterComponents rest⟩ options.crateName := by
  have isVersion : Component.IsSegment version := holdsVersion.isSegment slashless
  have found : Hosted.isVersion (.ofSegment version) = true :=
    Hosted.isVersion_iff.mpr (by simpa using holdsVersion)
  rw [ofTarget?_packageAddress isScheme hosted isPackage isVersion
    (laterComponents_name_append plain rest), if_neg notCrate, if_pos found]

end Spellings

/--
The spellings of the root page of the own crate. Its index page is rendered as `crate` behind any
number of steps to the parent, and in an address behind a package and a version. The directory
alone, with or without a slash behind it, is rendered as its name, with a `super` in front for every
step. That is `crate` only for a crate of this name, and without a step.
-/
theorem rendersTo_crateRoot {options : Options}
    (plain : Identifier.isPlain options.crateName = true) (count : Nat) :
    let own := options.crateName
    RendersTo options (stepsUp count (own ++ "/index.html".toList)) "crate".toList ∧
    RendersTo options (stepsUp count own) (belowSupers count own) ∧
    RendersTo options (stepsUp count (own ++ ['/'])) (belowSupers count own) ∧
    (belowSupers count own = "crate".toList ↔ count = 0 ∧ own = "crate".toList) ∧
    ∀ scheme package version, .named scheme ∈ Hosted.schemes → options.hosted = true →
      Component.IsSegment package → package ≠ "crate".toList → Hosted.HoldsVersion version →
      '/' ∉ version →
      let address := fun rest => Hosted.address scheme "docs.rs".toList
        (package ++ '/' :: (version ++ '/' :: (own ++ '/' :: rest)))
      RendersTo options (address "index.html".toList) "crate".toList ∧
        RendersTo options (address []) own := by
  intro own
  have index : laterComponents (own ++ "/index.html".toList) =
      [.named own, .named "index.html".toList] :=
    laterComponents_name_append plain "index.html".toList
  have slash : laterComponents (own ++ ['/']) = [.named own] :=
    laterComponents_name_append plain []
  have alone : stepsUp count own = stepsUp count (own ++ []) := by rw [List.append_nil]
  refine ⟨?_, ?_, ?_, belowSupers_eq_crate_iff, ?_⟩
  · refine rendersTo_crate count ?_
    rw [ofTarget?_stepsUp plain count (by decide), index]
  · refine rendersTo_belowSupers plain count ?_
    rw [alone, ofTarget?_stepsUp plain count (by simp), List.append_nil,
      laterComponents_name plain]
  · refine rendersTo_belowSupers plain count ?_
    rw [ofTarget?_stepsUp plain count (by decide), slash]
  · intro scheme package version isScheme hosted isPackage notCrate holdsVersion slashless address
    have reduced : ∀ rest, ofTarget? (address rest) options =
        ofRelative? ⟨.named own :: laterComponents rest⟩ own := fun _ =>
      ofTarget?_namedAddress plain isScheme hosted isPackage notCrate holdsVersion slashless
    exact ⟨rendersTo_crate 0 (reduced "index.html".toList),
      rendersTo_belowSupers plain 0 (reduced [])⟩

/-- Two steps up, and the same crate in the address of a package that exports it. -/
theorem rendersTo_crateRoot_krate :
    let options : Options := { crateName := "krate".toList }
    Identifier.isPlain options.crateName = true ∧
      RendersTo options "../../krate/index.html".toList "crate".toList ∧
      RendersTo options "../../krate/".toList "super::super::krate".toList ∧
      RendersTo options "https://docs.rs/facade/1.0.0/krate/".toList "krate".toList := by
  intro options
  have plain : Identifier.isPlain options.crateName = true := by decide
  obtain ⟨index, -, slash, -, addresses⟩ := rendersTo_crateRoot plain 2
  have numeral : ∀ digit, Text.isDigit digit = true → Hosted.IsNumeral [digit] := by
    intro digit isDigit
    exact ⟨by simp, by simpa using isDigit⟩
  have holdsVersion : Hosted.HoldsVersion "1.0.0".toList :=
    ⟨_, Or.inr ⟨['1'], ['0'], ['0'], numeral '1' (by decide), numeral '0' (by decide),
      numeral '0' (by decide), rfl⟩, List.infix_refl _⟩
  have isPackage : Component.IsSegment "facade".toList := ⟨by decide, by decide, by decide⟩
  have address := addresses "https:".toList "facade".toList "1.0.0".toList
    (by simp [Hosted.schemes]) rfl isPackage (by decide) holdsVersion (by decide)
  exact ⟨plain, index, slash, address.2⟩

/-- One step up to the own directory is not the crate root, nor is the directory without a step. -/
theorem not_rendersTo_crate_directory :
    let options : Options := { crateName := "krate".toList }
    ¬RendersTo options "../krate".toList "crate".toList ∧
      ¬RendersTo options "krate/".toList "crate".toList := by
  intro options
  have above : classify "../krate".toList options =
      .ok ⟨.supers 1, [], .mod "krate".toList none⟩ := by decide +kernel
  have beside : classify "krate/".toList options =
      .ok ⟨.empty, [], .mod "krate".toList none⟩ := by decide +kernel
  constructor
  · rintro ⟨link, read, rendered⟩
    rw [above, Except.ok.injEq] at read
    subst read
    exact absurd (rendered none) (by decide +kernel)
  · rintro ⟨link, read, rendered⟩
    rw [beside, Except.ok.injEq] at read
    subst read
    exact absurd (rendered none) (by decide +kernel)

end DocLink

end IntraDoc
