import IntraDoc.Proofs.Conversion.Batch
import IntraDoc.Proofs.Crate.Failures
import IntraDoc.Proofs.File.Order
import Mathlib.Data.List.Pairwise

/-!
# What discovering crates lists

The crates of a directory are those of its own package and of the packages in the directories that
the members of its workspace match, each place once, in the order of the members and the paths that
they match. The invariant is `Discovery.IsListing`: it holds when the own package was looked at, and
every member of the workspace keeps it. The name of every crate is one that a conversion accepts.
-/

namespace IntraDoc

/-- The crate of the package in a directory: the package has a usable name, and sources. -/
inductive Crate.IsPackageOf (system : FileSystem) (directory : FilePath) : Crate → Prop where
  | package {text shown crateName : Text} {manifest name : Value}
      (holds : system.Holds (directory.child Manifest.fileName) text)
      (parsed : Toml.parse text = .ok manifest)
      (isName : Manifest.packageName? manifest = some name) (isShown : name.display? = some shown)
      (normalised : CrateName.ofPackage shown = .ok crateName)
      (sources : system.isDirectory (directory.child "src".toList) = true) :
      IsPackageOf system directory ⟨crateName, directory.child "src".toList⟩

/-- The directory of the package that a crate was found in. -/
def Crate.directory (crate : Crate) : FilePath :=
  crate.path.parent

/-- A member of the workspace of a directory, which is a pattern, matches a path. -/
def Manifest.Matches (system : FileSystem) (directory : FilePath) (member : Value)
    (path : FilePath) : Prop :=
  ∃ shown pattern, member.display? = some shown ∧ Glob.parse shown = .ok pattern ∧
    path ∈ Glob.paths system directory pattern

/--
Of two paths the first one is matched by the first member that matches any of them. If this member
matches both, the first path is the first in the order of paths as well.
-/
def Manifest.Precedes (system : FileSystem) (directory : FilePath) (members : List Value)
    (path other : FilePath) : Prop :=
  ∃ before member after, members = before ++ member :: after ∧
    (∀ earlier ∈ before, ¬Matches system directory earlier path ∧
      ¬Matches system directory earlier other) ∧
    Matches system directory member path ∧
    (Matches system directory member other → path.parts ≤ other.parts)

/-- What is required of the list of the crates of a directory with a workspace. -/
structure Discovery.IsListing (system : FileSystem) (directory : FilePath) (members : List Value)
    (crates : List Crate) : Prop where
  distinct : (crates.map Crate.path).Nodup
  own_first : ∀ own : Crate, own.IsPackageOf system directory → crates.head? = some own
  mem_iff : ∀ crate : Crate, crate ∈ crates ↔ crate.IsPackageOf system directory ∨
    ∃ member ∈ members, ∃ path, Manifest.Matches system directory member path ∧
      crate.IsPackageOf system path
  /-- Behind the own package the crates stand in the order in which they are first matched. -/
  ordered : crates.Pairwise fun crate other => crate.IsPackageOf system directory ∨
    Manifest.Precedes system directory members crate.directory other.directory

section Packages

variable {system : FileSystem} {directory other path : FilePath} {crate : Crate}

theorem FilePath.child_injective {name : Text} (same : directory.child name = other.child name) :
    directory = other := by
  cases directory
  cases other
  simpa [FilePath.child] using same

@[simp]
theorem FilePath.parent_child (directory : FilePath) (name : Text) :
    (directory.child name).parent = directory := by
  simp [FilePath.parent, FilePath.child]

theorem FileSystem.Holds.unique {text otherText : Text} (holds : system.Holds path text)
    (again : system.Holds path otherText) : text = otherText := by
  obtain ⟨content, raw, found, decoded, rfl⟩ := holds
  exact ((FileSystem.holds_iff found decoded).mp again).symm

theorem Crate.IsPackageOf.directory_eq (isPackage : crate.IsPackageOf system directory) :
    crate.directory = directory := by
  cases isPackage
  exact FilePath.parent_child directory _

theorem Crate.IsPackageOf.path_eq (isPackage : crate.IsPackageOf system directory) :
    crate.path = directory.child "src".toList := by
  cases isPackage
  rfl

/-- A place is that of one crate only. -/
theorem Crate.IsPackageOf.unique {crate' : Crate} (isPackage : crate.IsPackageOf system directory)
    (isOther : crate'.IsPackageOf system other) (same : crate.path = crate'.path) :
    crate = crate' := by
  cases isPackage with
  | package holds parsed isName isShown normalised _ =>
      cases isOther with
      | package holds' parsed' isName' isShown' normalised' _ =>
          obtain rfl := FilePath.child_injective same
          obtain rfl := holds.unique holds'
          obtain rfl := Except.ok.inj (parsed.symm.trans parsed')
          obtain rfl := Option.some.inj (isName.symm.trans isName')
          obtain rfl := Option.some.inj (isShown.symm.trans isShown')
          rw [Except.ok.inj (normalised.symm.trans normalised')]

theorem Crate.IsPackageOf.isIdentifier_name (isPackage : crate.IsPackageOf system directory) :
    isIdentifier crate.name = true := by
  cases isPackage with
  | package _ _ _ _ normalised _ =>
      unfold CrateName.ofPackage CrateName.check at normalised
      split at normalised
      · rename_i valid
        rwa [← Except.ok.inj normalised]
      · simp at normalised

theorem Crate.IsPackageOf.isFile (isPackage : crate.IsPackageOf system directory) :
    system.isFile (directory.child Manifest.fileName) = true := by
  cases isPackage with
  | package holds =>
      obtain ⟨content, raw, found, -, -⟩ := holds
      exact FileSystem.isFile_iff.mpr ⟨content, found⟩

end Packages

section Members

variable {system : FileSystem} {directory path other : FilePath} {members : List Value}

theorem Manifest.Precedes.concat (precedes : Precedes system directory members path other)
    (member : Value) : Precedes system directory (members ++ [member]) path other := by
  obtain ⟨before, first, after, rfl, noEarlier, isMatch, inOrder⟩ := precedes
  exact ⟨before, first, after ++ [member], by simp, noEarlier, isMatch, inOrder⟩

/-- A path that some member matches precedes those that none matches. -/
theorem Manifest.precedes_of_unmatched
    (isMatched : ∃ member ∈ members, Matches system directory member path)
    (unmatched : ∀ member ∈ members, ¬Matches system directory member other) :
    Precedes system directory members path other := by
  induction members with
  | nil => simp at isMatched
  | cons first members ih =>
      rw [List.forall_mem_cons] at unmatched
      by_cases isFirst : Matches system directory first path
      · exact ⟨[], first, members, rfl, by simp, isFirst, fun matchesOther =>
          absurd matchesOther unmatched.1⟩
      · have isLater : ∃ member ∈ members, Matches system directory member path := by
          simpa [isFirst] using isMatched
        obtain ⟨before, member, after, rfl, noEarlier, isMatch, inOrder⟩ := ih isLater unmatched.2
        refine ⟨first :: before, member, after, rfl, ?_, isMatch, inOrder⟩
        rw [List.forall_mem_cons]
        exact ⟨⟨isFirst, unmatched.1⟩, noEarlier⟩

end Members

namespace Survey

/-- The crates among what was found, in order and as often as they were found. -/
def found (survey : Survey) : List Crate :=
  survey.findings.filterMap fun finding =>
    match finding with
    | .crate crate => some crate
    | .unusable _ => none

/-- A crate is added to the known ones, unless its place is known. -/
def addNew (known : List Crate) (crate : Crate) : List Crate :=
  if known.any fun other => other.path = crate.path then known else known ++ [crate]

variable {system : FileSystem} {directory : FilePath} {member : Value} {crate : Crate}

theorem crates_eq (survey : Survey) : survey.crates = survey.found.foldl addNew [] := by
  rw [crates, found, List.foldl_filterMap]
  congr
  funext known finding
  cases finding <;> rfl

theorem found_append {survey next : Survey} (goesOn : survey.failure = none) :
    (survey.append next).found = survey.found ++ next.found := by
  simp [append, goesOn, found]

theorem found_foldl_append {surveys : List Survey} {survey : Survey}
    (goesOn : (surveys.foldl append survey).failure = none) :
    (surveys.foldl append survey).found = survey.found ++ surveys.flatMap found ∧
      survey.failure = none ∧ ∀ next ∈ surveys, next.failure = none := by
  have noFailures := goesOn
  rw [failure_foldl_append, Option.or_eq_none_iff, List.findSome?_eq_none_iff] at noFailures
  refine ⟨?_, noFailures⟩
  clear noFailures
  induction surveys generalizing survey with
  | nil => simp
  | cons next surveys ih =>
      have first : survey.failure = none := by
        rw [failure_foldl_append, Option.or_eq_none_iff] at goesOn
        exact goesOn.1
      rw [List.foldl_cons] at goesOn ⊢
      rw [ih goesOn, found_append first, List.append_assoc, List.flatMap_cons]

theorem mem_found_ofPackage {text : Text} {manifest : Value}
    (holds : system.Holds (directory.child Manifest.fileName) text)
    (parsed : Toml.parse text = .ok manifest)
    (goesOn : (ofPackage system (directory.child Manifest.fileName) manifest).failure = none) :
    crate ∈ (ofPackage system (directory.child Manifest.fileName) manifest).found ↔
      crate.IsPackageOf system directory := by
  have package_iff : crate.IsPackageOf system directory ↔
      ∃ name shown crateName, Manifest.packageName? manifest = some name ∧
        name.display? = some shown ∧ CrateName.ofPackage shown = .ok crateName ∧
        system.isDirectory (directory.child "src".toList) = true ∧
        crate = ⟨crateName, directory.child "src".toList⟩ := by
    constructor
    · intro isPackage
      cases isPackage with
      | package holds' parsed' isName isShown normalised sources =>
          obtain rfl := holds.unique holds'
          obtain rfl := Except.ok.inj (parsed.symm.trans parsed')
          exact ⟨_, _, _, isName, isShown, normalised, sources, rfl⟩
    · rintro ⟨name, shown, crateName, isName, isShown, normalised, sources, rfl⟩
      exact .package holds parsed isName isShown normalised sources
  rw [package_iff]
  simp only [ofPackage, FilePath.parent_child] at goesOn ⊢
  generalize directory.child "src".toList = place at goesOn ⊢
  cases isName : Manifest.packageName? manifest with
  | none => simp [found]
  | some name =>
      cases sources : system.isDirectory place with
      | false => simp [found]
      | true =>
          cases isShown : name.display? with
          | none => simp [isName, sources, isShown] at goesOn
          | some shown =>
              cases normalised : CrateName.ofPackage shown <;>
                simp [found, isShown, normalised]

/-- Looking at a directory finds the crate of its package, if there is one. -/
theorem mem_found_ofMember (goesOn : (ofMember system directory).failure = none) :
    crate ∈ (ofMember system directory).found ↔ crate.IsPackageOf system directory := by
  by_cases isFile : system.isFile (directory.child Manifest.fileName) = true
  · obtain ⟨content, isContent⟩ := FileSystem.isFile_iff.mp isFile
    cases loaded : Manifest.load system (directory.child Manifest.fileName) with
    | error error => simp [ofMember, isFile, loaded] at goesOn
    | ok manifest =>
        obtain ⟨text, holds, parsed⟩ := (Manifest.load_eq_ok_iff isContent).mp loaded
        simp only [ofMember, isFile, loaded, if_true] at goesOn ⊢
        exact mem_found_ofPackage holds parsed goesOn
  · simp only [ofMember, if_neg isFile]
    exact iff_of_false (by simp [found]) fun isPackage => isFile isPackage.isFile

/-- Looking at some directories finds the crates of their packages. -/
theorem mem_flatMap_found {paths : List FilePath}
    (goOn : ∀ path ∈ paths, (ofMember system path).failure = none) :
    crate ∈ paths.flatMap (fun path => (ofMember system path).found) ↔
      ∃ path ∈ paths, crate.IsPackageOf system path := by
  rw [List.mem_flatMap]
  constructor
  · rintro ⟨path, isPath, isFound⟩
    exact ⟨path, isPath, (mem_found_ofMember (goOn path isPath)).mp isFound⟩
  · rintro ⟨path, isPath, isPackage⟩
    exact ⟨path, isPath, (mem_found_ofMember (goOn path isPath)).mpr isPackage⟩

/-- The crates are found in the order of the directories. -/
theorem pairwise_flatMap_found {paths : List FilePath}
    (goOn : ∀ path ∈ paths, (ofMember system path).failure = none)
    (inOrder : paths.Pairwise fun path other => path.parts ≤ other.parts) :
    (paths.flatMap fun path => (ofMember system path).found).Pairwise fun crate other =>
      crate.directory.parts ≤ other.directory.parts := by
  have directory_eq : ∀ path ∈ paths, ∀ crate ∈ (ofMember system path).found,
      crate.directory = path := fun path isPath crate isFound =>
    ((mem_found_ofMember (goOn path isPath)).mp isFound).directory_eq
  rw [List.pairwise_flatMap]
  constructor
  · intro path isPath
    apply List.pairwise_of_forall_mem_list
    intro crate isCrate other isOther
    rw [directory_eq path isPath crate isCrate, directory_eq path isPath other isOther]
  · apply inOrder.imp_of_mem
    intro path other isPath isOther le crate isCrate crate' isCrate'
    rw [directory_eq path isPath crate isCrate, directory_eq other isOther crate' isCrate']
    exact le

/-- What a member of a workspace adds: the packages of what it matches, in the order of paths. -/
theorem found_ofPattern (goesOn : (ofPattern system directory member).failure = none) :
    (∀ crate, crate ∈ (ofPattern system directory member).found ↔
      ∃ path, Manifest.Matches system directory member path ∧ crate.IsPackageOf system path) ∧
    (ofPattern system directory member).found.Pairwise fun crate other =>
      crate.directory.parts ≤ other.directory.parts := by
  unfold ofPattern at goesOn ⊢
  cases isShown : member.display? with
  | none => simp [isShown] at goesOn
  | some shown =>
      cases parsed : Glob.parse shown with
      | error error => simp [isShown, parsed] at goesOn
      | ok pattern =>
          simp only [isShown, parsed, Option.map_some] at goesOn ⊢
          obtain ⟨listed, -, surveysGoOn⟩ := found_foldl_append goesOn
          have goOn : ∀ path ∈ Glob.paths system directory pattern,
              (ofMember system path).failure = none := fun path isPath =>
            surveysGoOn _ (List.mem_map_of_mem isPath)
          have matches_iff : ∀ path, Manifest.Matches system directory member path ↔
              path ∈ Glob.paths system directory pattern := by
            simp [Manifest.Matches, isShown, parsed]
          have starts : found {} = [] := rfl
          rw [listed, List.flatMap_map, starts, List.nil_append]
          simp only [matches_iff]
          exact ⟨fun crate => mem_flatMap_found goOn,
            pairwise_flatMap_found goOn (Glob.pairwise_paths system directory pattern)⟩

/-- Adding crates keeps the known ones in front, and adds each new place once. -/
theorem exists_news (known found : List Crate) :
    ∃ news, found.foldl addNew known = known ++ news ∧ news.Sublist found ∧
      (∀ crate ∈ news, ∀ other ∈ known, other.path ≠ crate.path) ∧
      (news.map Crate.path).Nodup ∧
      ∀ crate ∈ found, ∃ other ∈ known ++ news, other.path = crate.path := by
  induction found generalizing known with
  | nil => exact ⟨[], by simp, List.Sublist.refl _, by simp, by simp, by simp⟩
  | cons crate found ih =>
      rw [List.foldl_cons]
      by_cases isKnown : known.any (fun other => other.path = crate.path) = true
      · obtain ⟨news, added, isSublist, isNew, distinct, covers⟩ := ih known
        have atPlace : ∃ other ∈ known, other.path = crate.path := by simpa using isKnown
        obtain ⟨other, isOther, same⟩ := atPlace
        rw [addNew, if_pos isKnown]
        refine ⟨news, added, isSublist.cons crate, isNew, distinct, ?_⟩
        rw [List.forall_mem_cons]
        exact ⟨⟨other, List.mem_append_left _ isOther, same⟩, covers⟩
      · obtain ⟨news, added, isSublist, isNew, distinct, covers⟩ := ih (known ++ [crate])
        have placeIsNew : ∀ other ∈ known, other.path ≠ crate.path := by simpa using isKnown
        simp only [List.mem_append, List.mem_singleton, or_imp, forall_and, forall_eq] at isNew
        rw [List.append_assoc, List.singleton_append] at added covers
        rw [addNew, if_neg isKnown]
        refine ⟨crate :: news, added, isSublist.cons_cons crate, ?_, ?_, ?_⟩
        · rw [List.forall_mem_cons]
          exact ⟨placeIsNew, isNew.1⟩
        · rw [List.map_cons, List.nodup_cons, List.mem_map]
          refine ⟨?_, distinct⟩
          rintro ⟨other, isOther, same⟩
          exact isNew.2 other isOther same.symm
        · rw [List.forall_mem_cons]
          exact ⟨⟨crate, by simp, rfl⟩, covers⟩

end Survey

namespace Discovery

section Listing

variable {system : FileSystem} {directory : FilePath} {members : List Value} {member : Value}
  {crates : List Crate}

/-- The own package is looked at before the members. -/
theorem isListing_own (goesOn : (Survey.ofMember system directory).failure = none) :
    IsListing system directory []
      ((Survey.ofMember system directory).found.foldl Survey.addNew []) := by
  obtain ⟨news, added, isSublist, -, distinct, covers⟩ :=
    Survey.exists_news [] (Survey.ofMember system directory).found
  rw [added, List.nil_append]
  rw [List.nil_append] at covers
  have isOwn : ∀ crate ∈ news, crate.IsPackageOf system directory := fun crate isNew =>
    (Survey.mem_found_ofMember goesOn).mp (isSublist.subset isNew)
  have mem_of_isOwn : ∀ crate : Crate, crate.IsPackageOf system directory → crate ∈ news := by
    intro crate isPackage
    obtain ⟨other, isOther, same⟩ := covers crate ((Survey.mem_found_ofMember goesOn).mpr isPackage)
    rwa [← (isOwn other isOther).unique isPackage same]
  refine ⟨distinct, ?_, ?_, ?_⟩
  · intro own isPackage
    cases news with
    | nil => exact absurd (mem_of_isOwn own isPackage) (by simp)
    | cons first others =>
        have isFirst := isOwn first List.mem_cons_self
        have same : first.path = own.path := isFirst.path_eq.trans isPackage.path_eq.symm
        rw [isFirst.unique isPackage same, List.head?_cons]
  · intro crate
    simpa using ⟨isOwn crate, mem_of_isOwn crate⟩
  · apply List.pairwise_of_forall_mem_list
    intro crate isCrate other isOther
    exact Or.inl (isOwn crate isCrate)

theorem IsListing.exists_isPackageOf (listing : IsListing system directory members crates)
    {crate : Crate} (isListed : crate ∈ crates) : ∃ place, crate.IsPackageOf system place := by
  rcases (listing.mem_iff crate).mp isListed with isOwn | ⟨-, -, place, -, isPackage⟩
  · exact ⟨directory, isOwn⟩
  · exact ⟨place, isPackage⟩

/-- What a member of the workspace adds behind a listing. -/
structure IsAddition (system : FileSystem) (directory : FilePath) (members : List Value)
    (crates : List Crate) (member : Value) (news : List Crate) : Prop where
  distinct : ((crates ++ news).map Crate.path).Nodup
  matched : ∀ crate ∈ news, Manifest.Matches system directory member crate.directory ∧
    crate.IsPackageOf system crate.directory
  unmatched : ∀ crate ∈ news, ∀ earlier ∈ members,
    ¬Manifest.Matches system directory earlier crate.directory
  covers : ∀ path, Manifest.Matches system directory member path →
    ∀ crate : Crate, crate.IsPackageOf system path → crate ∈ crates ++ news
  in_order : news.Pairwise fun crate other => crate.directory.parts ≤ other.directory.parts

/-- A member of the workspace adds the packages that it is the first to match. -/
theorem IsListing.exists_isAddition (listing : IsListing system directory members crates)
    (goesOn : (Survey.ofPattern system directory member).failure = none) :
    ∃ news, (Survey.ofPattern system directory member).found.foldl Survey.addNew crates =
      crates ++ news ∧ IsAddition system directory members crates member news := by
  obtain ⟨news, added, isSublist, isNew, distinct, covers⟩ :=
    Survey.exists_news crates (Survey.ofPattern system directory member).found
  obtain ⟨mem_found, inOrder⟩ := Survey.found_ofPattern goesOn
  have matched : ∀ crate ∈ news, Manifest.Matches system directory member crate.directory ∧
      crate.IsPackageOf system crate.directory := by
    intro crate isCrate
    obtain ⟨path, isMatch, isPackage⟩ := (mem_found crate).mp (isSublist.subset isCrate)
    rw [isPackage.directory_eq]
    exact ⟨isMatch, isPackage⟩
  have packaged : ∀ crate ∈ crates ++ news, ∃ place, crate.IsPackageOf system place := by
    intro crate isListed
    rcases List.mem_append.mp isListed with isKnown | isCrate
    · exact listing.exists_isPackageOf isKnown
    · exact ⟨_, (matched crate isCrate).2⟩
  refine ⟨news, added, ?_, matched, ?_, ?_, inOrder.sublist isSublist⟩
  · rw [List.map_append, List.nodup_append]
    refine ⟨listing.distinct, distinct, ?_⟩
    intro place isListed other isOther
    obtain ⟨known, isKnown, rfl⟩ := List.mem_map.mp isListed
    obtain ⟨crate, isCrate, rfl⟩ := List.mem_map.mp isOther
    exact isNew crate isCrate known isKnown
  · intro crate isCrate earlier isEarlier isMatch
    have isListed := (listing.mem_iff crate).mpr
      (Or.inr ⟨earlier, isEarlier, _, isMatch, (matched crate isCrate).2⟩)
    exact isNew crate isCrate crate isListed rfl
  · intro path isMatch crate isPackage
    obtain ⟨other, isOther, same⟩ := covers crate ((mem_found crate).mpr ⟨path, isMatch, isPackage⟩)
    obtain ⟨place, isAtPlace⟩ := packaged other isOther
    rwa [← isAtPlace.unique isPackage same]

/-- With what a member of the workspace adds, a listing is one for this member too. -/
theorem IsListing.concat {news : List Crate} (listing : IsListing system directory members crates)
    (addition : IsAddition system directory members crates member news) :
    IsListing system directory (members ++ [member]) (crates ++ news) := by
  refine ⟨addition.distinct, ?_, ?_, ?_⟩
  · intro own isPackage
    rw [List.head?_append, listing.own_first own isPackage, Option.some_or]
  · intro crate
    have listed_iff : crate ∈ crates ++ news ↔ crate ∈ crates ∨
        ∃ path, Manifest.Matches system directory member path ∧ crate.IsPackageOf system path := by
      constructor
      · intro isListed
        exact (List.mem_append.mp isListed).imp_right fun isCrate =>
          ⟨_, addition.matched crate isCrate⟩
      · rintro (isKnown | ⟨path, isMatch, isPackage⟩)
        · exact List.mem_append_left _ isKnown
        · exact addition.covers path isMatch crate isPackage
    rw [listed_iff, listing.mem_iff, or_assoc]
    simp only [List.mem_append, List.mem_singleton, or_and_right, exists_or, exists_eq_left]
  · rw [List.pairwise_append]
    refine ⟨?_, ?_, ?_⟩
    · exact listing.ordered.imp (Or.imp_right fun precedes => precedes.concat member)
    · apply addition.in_order.imp_of_mem
      intro crate other isCrate isOther le
      refine Or.inr ⟨members, member, [], rfl, fun earlier isEarlier => ?_,
        (addition.matched crate isCrate).1, fun _ => le⟩
      exact ⟨addition.unmatched crate isCrate earlier isEarlier,
        addition.unmatched other isOther earlier isEarlier⟩
    · intro known isKnown crate isCrate
      rcases (listing.mem_iff known).mp isKnown with
        isOwn | ⟨earlier, isEarlier, path, isMatch, isPackage⟩
      · exact Or.inl isOwn
      · rw [← isPackage.directory_eq] at isMatch
        exact Or.inr ((Manifest.precedes_of_unmatched ⟨earlier, isEarlier, isMatch⟩
          (addition.unmatched crate isCrate)).concat member)

/-- One member after the other is looked at. -/
theorem IsListing.append (listing : IsListing system directory members crates)
    {others : List Value}
    (goOn : ∀ member ∈ others, (Survey.ofPattern system directory member).failure = none) :
    IsListing system directory (members ++ others)
      ((others.flatMap fun member => (Survey.ofPattern system directory member).found).foldl
        Survey.addNew crates) := by
  induction others generalizing members crates with
  | nil => simpa using listing
  | cons member others ih =>
      rw [List.forall_mem_cons] at goOn
      obtain ⟨news, added, addition⟩ := listing.exists_isAddition goOn.1
      have further := ih (listing.concat addition) goOn.2
      rw [List.flatMap_cons, List.foldl_append, added]
      simpa using further

theorem outcome_ofDirectory_eq_ok_iff : (ofDirectory system directory).outcome = .ok crates ↔
    (Survey.ofDirectory system directory).failure = none ∧
      (Survey.ofDirectory system directory).crates = crates := by
  unfold ofDirectory
  cases failed : (Survey.ofDirectory system directory).failure <;> simp [failed]

/-- What is discovered in a directory is a listing of its crates. -/
theorem isListing_ofDirectory (found : (ofDirectory system directory).outcome = .ok crates) :
    ∃ text manifest members, system.Holds (directory.child Manifest.fileName) text ∧
      Toml.parse text = .ok manifest ∧ Manifest.members manifest = .ok members ∧
      IsListing system directory members crates := by
  obtain ⟨goesOn, rfl⟩ := outcome_ofDirectory_eq_ok_iff.mp found
  by_cases isFile : system.isFile (directory.child Manifest.fileName) = true
  · obtain ⟨content, isContent⟩ := FileSystem.isFile_iff.mp isFile
    cases loaded : Manifest.load system (directory.child Manifest.fileName) with
    | error error => simp [Survey.ofDirectory, isFile, loaded] at goesOn
    | ok manifest =>
        obtain ⟨text, holds, parsed⟩ := (Manifest.load_eq_ok_iff isContent).mp loaded
        have shape : Survey.ofDirectory system directory =
            (Survey.ofMember system directory).append
              (Survey.ofMembers system directory manifest) := by
          simp [Survey.ofDirectory, Survey.ofMember, isFile, loaded]
        rw [shape, Survey.failure_append, Option.or_eq_none_iff] at goesOn
        cases areMembers : Manifest.members manifest with
        | error error => simp [Survey.ofMembers, areMembers] at goesOn
        | ok members =>
            have membersGoOn := goesOn.2
            simp only [Survey.ofMembers, areMembers] at membersGoOn
            obtain ⟨listed, -, goOn⟩ := Survey.found_foldl_append membersGoOn
            rw [List.flatMap_map] at listed
            have further := (isListing_own goesOn.1).append fun member isMember =>
              goOn _ (List.mem_map_of_mem isMember)
            refine ⟨text, manifest, members, holds, parsed, areMembers, ?_⟩
            rw [shape, Survey.crates_eq, Survey.found_append goesOn.1, List.foldl_append]
            simp only [Survey.ofMembers, areMembers, listed]
            exact further
  · simp [Survey.ofDirectory, isFile] at goesOn

end Listing

section Names

variable {system : FileSystem} {crateName : Text} {crates : List Crate}

theorem isIdentifier_name_of_ofDirectory {directory : FilePath}
    (found : (ofDirectory system directory).outcome = .ok crates) :
    ∀ crate ∈ crates, isIdentifier crate.name = true := by
  obtain ⟨text, manifest, members, -, -, -, listing⟩ := isListing_ofDirectory found
  intro crate isListed
  obtain ⟨place, isPackage⟩ := listing.exists_isPackageOf isListed
  exact isPackage.isIdentifier_name

theorem ofPath_eq_ok {path : FilePath}
    (found : (ofPath system crateName path).outcome = .ok crates) :
    crates = [⟨crateName, path⟩] ∨ (ofDirectory system path).outcome = .ok crates := by
  unfold ofPath at found
  split at found
  · simp only at found
    split at found
    · exact Or.inl (Except.ok.inj found).symm
    · exact Or.inr found
  · exact Or.inl (Except.ok.inj found).symm

theorem isIdentifier_name_of_ofPaths (valid : isIdentifier crateName = true)
    {paths : List FilePath} (found : (ofPaths system crateName paths).outcome = .ok crates) :
    ∀ crate ∈ crates, isIdentifier crate.name = true := by
  induction paths generalizing crates with
  | nil =>
      rw [← Except.ok.inj found]
      simp
  | cons path paths ih =>
      unfold ofPaths at found
      cases first : (ofPath system crateName path).outcome with
      | error error => simp [first] at found
      | ok own =>
          cases later : (ofPaths system crateName paths).outcome with
          | error error => simp [first, later, Except.map] at found
          | ok others =>
              obtain rfl : own ++ others = crates := by
                simpa [first, later, Except.map] using found
              intro crate isListed
              rcases List.mem_append.mp isListed with isOwn | isOther
              · rcases ofPath_eq_ok first with rfl | ofDirectory
                · rwa [List.mem_singleton.mp isOwn]
                · exact isIdentifier_name_of_ofDirectory ofDirectory crate isOwn
              · exact ih later crate isOther

/-- Every crate that is discovered has a valid name, if the name that is given is valid. -/
theorem isIdentifier_name_of_ofArguments (valid : isIdentifier crateName = true)
    {paths : List FilePath} (found : (ofArguments system crateName paths).outcome = .ok crates) :
    ∀ crate ∈ crates, isIdentifier crate.name = true := by
  unfold ofArguments at found
  split at found
  · exact isIdentifier_name_of_ofDirectory found
  · exact isIdentifier_name_of_ofPaths valid found

theorem convertFiles_ne_crateName (options : Options) (ignore : Option IgnoreTable) (apply : Bool)
    (paths : List FilePath) (error : InvalidCrateName) :
    (system.convertFiles options ignore apply paths).failure ≠ some (.crateName error) := by
  induction paths generalizing system with
  | nil => simp [FileSystem.convertFiles]
  | cons path paths ih =>
      unfold FileSystem.convertFiles
      split
      · simp
      · exact ih

/-- With valid names a batch does not end for a name, whatever happens to its files. -/
theorem convertCrates_ne_crateName (valid : ∀ crate ∈ crates, isIdentifier crate.name = true)
    (options : Options) (ignore : Option IgnoreTable) (apply : Bool) (error : InvalidCrateName) :
    (system.convertCrates options ignore apply crates).failure ≠ some (.crateName error) := by
  induction crates generalizing system with
  | nil => simp [FileSystem.convertCrates]
  | cons crate crates ih =>
      rw [List.forall_mem_cons] at valid
      obtain ⟨own, isOwn⟩ := FileSystem.exists_forCrate valid.1 options
      unfold FileSystem.convertCrates
      rw [isOwn]
      simp only
      split
      · exact convertFiles_ne_crateName own ignore apply _ error
      · exact ih valid.2

end Names

/--
The crates that are discovered in a directory are a listing of the usable packages of the directory
and the members of its workspace. Whatever paths are given, and whatever valid name for those that
have no manifest, every crate to convert has a name that the options accept, so that no batch ends
for a name.
-/
theorem lists_usable (system : FileSystem) :
    (∀ directory crates, (ofDirectory system directory).outcome = .ok crates →
      ∃ text manifest members, system.Holds (directory.child Manifest.fileName) text ∧
        Toml.parse text = .ok manifest ∧ Manifest.members manifest = .ok members ∧
        IsListing system directory members crates) ∧
    ∀ crateName paths crates, CrateName.check crateName = .ok crateName →
      (ofArguments system crateName paths).outcome = .ok crates →
      (∀ crate ∈ crates, ∀ options : Options, ∃ own, options.forCrate crate.name = .ok own) ∧
      ∀ (later : FileSystem) options ignore apply error,
        (later.convertCrates options ignore apply crates).failure ≠ some (.crateName error) := by
  refine ⟨fun directory crates found => isListing_ofDirectory found, ?_⟩
  intro crateName paths crates accepted found
  have valid : isIdentifier crateName = true := by
    unfold CrateName.check at accepted
    split at accepted
    · assumption
    · simp at accepted
  have names := isIdentifier_name_of_ofArguments valid found
  refine ⟨fun crate isCrate options => FileSystem.exists_forCrate (names crate isCrate) options, ?_⟩
  intro later options ignore apply error
  exact convertCrates_ne_crateName names options ignore apply error

/-- Overlapping members and an own package: the own crate is first, and no place is listed again. -/
theorem lists_usable_overlapping :
    let manifest (text : String) : Entry := .file { bytes := Utf8.encode text.toList }
    let system : FileSystem :=
      { entries := [
          (["Cargo.toml".toList],
            manifest "[package]\nname = \"top\"\n[workspace]\nmembers = [\"b*\", \"a\", \"b\"]\n"),
          (["src".toList], .directory), (["a".toList], .directory),
          (["a".toList, "Cargo.toml".toList], manifest "[package]\nname = \"a-x\"\n"),
          (["a".toList, "src".toList], .directory), (["b".toList], .directory),
          (["b".toList, "Cargo.toml".toList], manifest "[package]\nname = \"b\"\n"),
          (["b".toList, "src".toList], .directory)] }
    let directory := FilePath.parse ".".toList
    let crates : List Crate :=
      [⟨"top".toList, FilePath.parse "src".toList⟩, ⟨"b".toList, FilePath.parse "b/src".toList⟩,
        ⟨"a_x".toList, FilePath.parse "a/src".toList⟩]
    (ofDirectory system directory).outcome = .ok crates ∧
      (∃ members, IsListing system directory members crates) ∧
      CrateName.check "my_krate".toList = .ok "my_krate".toList ∧
      (ofArguments system "my_krate".toList [directory]).outcome = .ok crates ∧
      ∀ options ignore apply error,
        (system.convertCrates options ignore apply crates).failure ≠ some (.crateName error) := by
  intro manifest system directory crates
  have found : (ofDirectory system directory).outcome = .ok crates := by decide +kernel
  have accepted : CrateName.check "my_krate".toList = .ok "my_krate".toList := by decide
  have given : (ofArguments system "my_krate".toList [directory]).outcome = .ok crates := by
    decide +kernel
  obtain ⟨text, document, members, -, -, -, listing⟩ :=
    (lists_usable system).1 directory crates found
  have names := (lists_usable system).2 "my_krate".toList [directory] crates accepted given
  exact ⟨found, ⟨members, listing⟩, accepted, given, names.2 system⟩

end Discovery

end IntraDoc
