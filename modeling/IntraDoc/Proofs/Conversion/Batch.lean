import IntraDoc.Proofs.Conversion.File
import IntraDoc.Proofs.File.Writes

/-!
# The files of a batch do not influence each other

A batch converts one file after the other, each in the file system that the files before it left
behind. Those have changed bytes at other places only. So the listings of the directories are those
of the beginning, every file is converted as if it were the only one, and the batch as a whole
writes what its files write alone, in whatever order they come. A path that no file can have ends
the batch; the files before it stay converted.
-/

namespace IntraDoc

namespace FileSystem

/-- The source files of crates, each with the name of its crate. -/
def sources (system : FileSystem) (crates : List Crate) : List (Text × FilePath) :=
  crates.flatMap fun crate => (system.sourceFiles crate.path).map fun path => (crate.name, path)

/-- What a conversion with this outcome has written. -/
def writesOf (system : FileSystem) (path : FilePath) (outcome : FileOutcome) :
    List (Place × Utf8.Bytes) :=
  match system.locate path with
  | .ok place =>
    if outcome.written then [(place, Utf8.encode (Action.newText outcome.actions))] else []
  | .error _ => []

/-- The two paths do not lead to one place. -/
def AreApart (system : FileSystem) (path other : FilePath) : Prop :=
  ∀ place, system.locate path = .ok place → system.locate other ≠ .ok place

section OneFile

variable {system : FileSystem} {options : Options} {ignore : Option IgnoreTable} {apply : Bool}
  {path : FilePath}

theorem locate_of_mem_writesOf {outcome : FileOutcome} {write : Place × Utf8.Bytes}
    (isWrite : write ∈ system.writesOf path outcome) : system.locate path = .ok write.1 := by
  unfold writesOf at isWrite
  split at isWrite
  · rename_i place located
    split at isWrite
    · rw [List.mem_singleton.mp isWrite]
      exact located
    · simp at isWrite
  · simp at isWrite

theorem writesOf_of_written {place : Place} {content : FileContent}
    (opened : system.openFile path = .ok (place, content)) {outcome : FileOutcome}
    (written : outcome.written = true) :
    system.writesOf path outcome =
      [(place, Utf8.encode (Action.newText outcome.actions))] := by
  simp only [writesOf, (openFile_eq_ok_iff.mp opened).1, written, if_true]

theorem writesOf_of_not_written {outcome : FileOutcome} (notWritten : outcome.written = false) :
    system.writesOf path outcome = [] := by
  unfold writesOf
  split
  · simp [notWritten]
  · rfl

theorem actionsFor_congr {other : FileSystem} (sameWorking : other.working = system.working)
    (sameFile : other.openFile path = system.openFile path) :
    other.actionsFor options ignore path = system.actionsFor options ignore path := by
  simp only [actionsFor, readText, workingPath, sameWorking, sameFile]

/-- Another file system with the same file at the path changes in the same way. -/
theorem Converts.convertFile_eq {outcome : FileOutcome} {after other : FileSystem}
    (converts : system.Converts options ignore apply path outcome after)
    (usable : path.isUsable = true) (sameWorking : other.working = system.working)
    (sameFile : other.openFile path = system.openFile path) :
    other.convertFile options ignore apply path =
      .ok (outcome, other.storeAll (system.writesOf path outcome)) := by
  rw [convertFile, if_neg (by simp [usable]), actionsFor_congr sameWorking sameFile]
  cases converts with
  | unreadable read =>
      rw [writesOf_of_not_written rfl]
      simp only [read]
      rfl
  | unwritten read keeps =>
      rw [writesOf_of_not_written rfl]
      simp only [read, keeps]
      rfl
  | denied read writes opened locked =>
      rw [writesOf_of_not_written rfl]
      simp only [read, writes, if_true, writeText_of_openFile (sameFile.trans opened), locked]
      rfl
  | written read writes opened writable =>
      rw [writesOf_of_written opened rfl]
      simp only [read, writes, if_true, writeText_of_openFile (sameFile.trans opened), writable]
      rfl

end OneFile

/-- The outcome of converting one file by itself; files that cannot be converted have none. -/
def outcomeAlone (system : FileSystem) (options : Options) (ignore : Option IgnoreTable)
    (apply : Bool) (source : Text × FilePath) : FileOutcome :=
  match options.forCrate source.1 with
  | .error _ => { path := source.2 }
  | .ok own =>
    match system.convertFile own ignore apply source.2 with
    | .error _ => { path := source.2 }
    | .ok (outcome, _) => outcome

/-- What converting one file by itself writes. -/
def writesAlone (system : FileSystem) (options : Options) (ignore : Option IgnoreTable)
    (apply : Bool) (source : Text × FilePath) : List (Place × Utf8.Bytes) :=
  system.writesOf source.2 (system.outcomeAlone options ignore apply source)

/-- The files are at different places, and nothing was written to any of them. -/
structure Undisturbed (system : FileSystem) (writes : List (Place × Utf8.Bytes))
    (paths : List FilePath) : Prop where
  apart : paths.Pairwise system.AreApart
  elsewhere : ∀ path ∈ paths, ∀ write ∈ writes, system.locate path ≠ .ok write.1

namespace Undisturbed

variable {system : FileSystem} {writes : List (Place × Utf8.Bytes)} {paths others : List FilePath}

theorem left (undisturbed : system.Undisturbed writes (paths ++ others)) :
    system.Undisturbed writes paths := by
  refine ⟨(List.pairwise_append.mp undisturbed.apart).1, ?_⟩
  intro path isPath
  exact undisturbed.elsewhere path (List.mem_append_left _ isPath)

/-- Writing to the first of the files leaves the others undisturbed. -/
theorem right (undisturbed : system.Undisturbed writes (paths ++ others))
    {written : List (Place × Utf8.Bytes)}
    (fromPaths : ∀ write ∈ written, ∃ path ∈ paths, system.locate path = .ok write.1) :
    system.Undisturbed (writes ++ written) others := by
  rcases List.pairwise_append.mp undisturbed.apart with ⟨-, apart, between⟩
  refine ⟨apart, ?_⟩
  intro other isOther write isWrite
  rcases List.mem_append.mp isWrite with earlier | isNew
  · exact undisturbed.elsewhere other (List.mem_append_right _ isOther) write earlier
  · rcases fromPaths write isNew with ⟨path, isPath, located⟩
    exact between path isPath other isOther write.1 located

end Undisturbed

theorem sources_cons (system : FileSystem) (crate : Crate) (crates : List Crate) :
    system.sources (crate :: crates) =
      ((system.sourceFiles crate.path).map fun path => (crate.name, path)) ++
        system.sources crates :=
  List.flatMap_cons

theorem exists_crate_of_mem_sources {system : FileSystem} {crates : List Crate}
    {source : Text × FilePath} (isSource : source ∈ system.sources crates) :
    ∃ crate ∈ crates, source.1 = crate.name := by
  rcases List.mem_flatMap.mp isSource with ⟨crate, isCrate, inCrate⟩
  rcases List.mem_map.mp inCrate with ⟨path, -, rfl⟩
  exact ⟨crate, isCrate, rfl⟩

theorem exists_forCrate {name : Text} (valid : isIdentifier name = true) (options : Options) :
    ∃ own, options.forCrate name = .ok own :=
  ⟨_, dif_pos valid⟩

section Batch

variable {system : FileSystem} {options : Options} {ignore : Option IgnoreTable} {apply : Bool}

theorem exists_locate_of_mem_writesAlone {sources : List (Text × FilePath)}
    {write : Place × Utf8.Bytes}
    (isWrite : write ∈ sources.flatMap (system.writesAlone options ignore apply)) :
    ∃ source ∈ sources, system.locate source.2 = .ok write.1 := by
  rcases List.mem_flatMap.mp isWrite with ⟨source, isSource, fromSource⟩
  exact ⟨source, isSource, locate_of_mem_writesOf fromSource⟩

/-- A file is converted as at the beginning, whatever was written at other places. -/
theorem convertFile_storeAll {own : Options} {name : Text} {path : FilePath}
    (isOwn : options.forCrate name = .ok own) (usable : path.isUsable = true)
    {writes : List (Place × Utf8.Bytes)}
    (elsewhere : ∀ write ∈ writes, system.locate path ≠ .ok write.1) :
    (system.storeAll writes).convertFile own ignore apply path =
      .ok (system.outcomeAlone options ignore apply (name, path),
        system.storeAll (writes ++ system.writesAlone options ignore apply (name, path))) := by
  obtain ⟨outcome, after, result, converts⟩ := @exists_converts system own ignore apply path usable
  have isAlone : system.outcomeAlone options ignore apply (name, path) = outcome := by
    simp only [outcomeAlone, isOwn, result]
  rw [writesAlone, isAlone, storeAll_append]
  exact converts.convertFile_eq usable working_storeAll (openFile_storeAll_of_ne elsewhere)

/-- The sources in front of the first one at a path that no file can have. -/
def reached (sources : List (Text × FilePath)) : List (Text × FilePath) :=
  sources.takeWhile fun source => source.2.isUsable

/-- What a batch amounts to: its files up to an invalid path, converted one by one by themselves. -/
def batchAlone (system : FileSystem) (options : Options) (ignore : Option IgnoreTable)
    (apply : Bool) (writes : List (Place × Utf8.Bytes)) (sources : List (Text × FilePath)) :
    Batch where
  outcomes := (reached sources).map (system.outcomeAlone options ignore apply)
  system := system.storeAll
    (writes ++ (reached sources).flatMap (system.writesAlone options ignore apply))
  failure := if sources.all fun source => source.2.isUsable then none else some (.path .nullByte)

theorem reached_eq_self {sources : List (Text × FilePath)}
    (usable : ∀ source ∈ sources, source.2.isUsable = true) : reached sources = sources :=
  List.takeWhile_eq_self_iff.mpr usable

theorem batchAlone_of_usable {sources : List (Text × FilePath)}
    (usable : ∀ source ∈ sources, source.2.isUsable = true) :
    system.batchAlone options ignore apply [] sources =
      ⟨sources.map (system.outcomeAlone options ignore apply),
        system.storeAll (sources.flatMap (system.writesAlone options ignore apply)), none⟩ := by
  simp [batchAlone, reached_eq_self usable, List.all_eq_true.mpr usable]

/-- Behind files that can all be converted a batch goes on in what they leave behind. -/
theorem behind_batchAlone {writes : List (Place × Utf8.Bytes)}
    {sources others : List (Text × FilePath)}
    (usable : ∀ source ∈ sources, source.2.isUsable = true) :
    (system.batchAlone options ignore apply
        (writes ++ sources.flatMap (system.writesAlone options ignore apply)) others).behind
      (sources.map (system.outcomeAlone options ignore apply)) =
    system.batchAlone options ignore apply writes (sources ++ others) := by
  have further : reached (sources ++ others) = sources ++ reached others :=
    List.takeWhile_append_of_pos usable
  have sameEnd : ((sources ++ others).all fun source => source.2.isUsable) =
      others.all fun source => source.2.isUsable := by
    rw [List.all_append, List.all_eq_true.mpr usable, Bool.true_and]
  simp only [batchAlone, Batch.behind, further, sameEnd, List.map_append, List.flatMap_append,
    List.append_assoc]

/-- Behind a path that no file can have a batch does not go on. -/
theorem batchAlone_append_of_unusable {writes : List (Place × Utf8.Bytes)}
    {sources others : List (Text × FilePath)}
    (unusable : ¬∀ source ∈ sources, source.2.isUsable = true) :
    system.batchAlone options ignore apply writes (sources ++ others) =
      system.batchAlone options ignore apply writes sources := by
  have stops : reached (sources ++ others) = reached sources := by
    rw [reached, List.takeWhile_append, if_neg]
    · rfl
    · intro whole
      have same := (List.takeWhile_prefix _).eq_of_length whole
      exact unusable (List.takeWhile_eq_self_iff.mp same)
  have fails : (sources.all fun source => source.2.isUsable) = false := by
    rwa [← Bool.not_eq_true, List.all_eq_true]
  simp [batchAlone, stops, fails]

theorem convertFiles_storeAll {own : Options} {name : Text} {paths : List FilePath}
    (isOwn : options.forCrate name = .ok own) {writes : List (Place × Utf8.Bytes)}
    (undisturbed : system.Undisturbed writes paths) :
    (system.storeAll writes).convertFiles own ignore apply paths =
      system.batchAlone options ignore apply writes (paths.map fun path => (name, path)) := by
  induction paths generalizing writes with
  | nil => simp [convertFiles, batchAlone, reached]
  | cons path paths ih =>
      cases usable : path.isUsable with
      | false => simp [convertFiles, convertFile, usable, batchAlone, reached]
      | true =>
          have first := @convertFile_storeAll system options ignore apply own name path isOwn
            usable writes (undisturbed.elsewhere path (List.mem_cons_self ..))
          have later : system.Undisturbed
              (writes ++ system.writesAlone options ignore apply (name, path)) paths := by
            have firstOnly : system.Undisturbed writes ([path] ++ paths) := undisturbed
            apply firstOnly.right
            intro write isWrite
            exact ⟨path, List.mem_singleton_self path, locate_of_mem_writesOf isWrite⟩
          have onward := @behind_batchAlone system options ignore apply writes [(name, path)]
            (paths.map fun path => (name, path)) (by simpa using usable)
          simp only [List.map_cons, List.map_nil, List.flatMap_cons, List.flatMap_nil,
            List.append_nil, List.singleton_append] at onward
          simp only [convertFiles, first, ih later, onward, List.map_cons]

/-- A batch converts its files one by one by themselves, up to a path that no file can have. -/
theorem convertCrates_storeAll {crates : List Crate}
    (valid : ∀ crate ∈ crates, isIdentifier crate.name = true)
    {writes : List (Place × Utf8.Bytes)}
    (undisturbed : system.Undisturbed writes ((system.sources crates).map Prod.snd)) :
    (system.storeAll writes).convertCrates options ignore apply crates =
      system.batchAlone options ignore apply writes (system.sources crates) := by
  induction crates generalizing writes with
  | nil => simp [convertCrates, sources, batchAlone, reached]
  | cons crate crates ih =>
      obtain ⟨own, isOwn⟩ := exists_forCrate (valid crate (List.mem_cons_self ..)) options
      rw [sources_cons, List.map_append, List.map_map] at undisturbed
      have paths : (system.sourceFiles crate.path).map
          (Prod.snd ∘ fun path => (crate.name, path)) = system.sourceFiles crate.path :=
        List.map_id _
      rw [paths] at undisturbed
      have first := @convertFiles_storeAll system options ignore apply own crate.name
        (system.sourceFiles crate.path) isOwn writes undisturbed.left
      rw [sources_cons]
      simp only [convertCrates, isOwn, sourceFiles_storeAll, first]
      generalize files_eq :
        ((system.sourceFiles crate.path).map fun path => (crate.name, path)) = files
      by_cases usable : ∀ source ∈ files, source.2.isUsable = true
      · have goesOn : (system.batchAlone options ignore apply writes files).failure = none := by
          simpa [batchAlone] using usable
        have others : system.Undisturbed
            (writes ++ files.flatMap (system.writesAlone options ignore apply))
            ((system.sources crates).map Prod.snd) := by
          apply undisturbed.right
          intro write isWrite
          rcases exists_locate_of_mem_writesAlone isWrite with ⟨source, isSource, located⟩
          rw [← files_eq] at isSource
          rcases List.mem_map.mp isSource with ⟨path, isPath, rfl⟩
          exact ⟨path, isPath, located⟩
        have later := ih (fun other isOther => valid other (List.mem_cons_of_mem _ isOther)) others
        rw [goesOn, ← behind_batchAlone usable, ← later]
        simp only [batchAlone, reached_eq_self usable]
      · have ended : (system.batchAlone options ignore apply writes files).failure =
            some (.path .nullByte) := by
          simpa [batchAlone] using usable
        rw [ended, batchAlone_append_of_unusable usable]

end Batch

section Apart

variable {system : FileSystem} {options : Options} {ignore : Option IgnoreTable} {apply : Bool}
  {sources : List (Text × FilePath)}

/-- Paths that resolve to different paths do not lead to one place. -/
theorem undisturbed_of_nodup
    (resolved : system.workingPath.resolve system.workingPath = system.workingPath)
    (distinct : (sources.map fun source => system.workingPath.resolve source.2).Nodup) :
    system.Undisturbed [] (sources.map Prod.snd) := by
  refine ⟨?_, by simp⟩
  rw [List.pairwise_map]
  apply (List.pairwise_map.mp distinct).imp
  intro source other different place located otherLocated
  exact different ((resolve_of_locate resolved located).trans
    (resolve_of_locate resolved otherLocated).symm)

theorem pairwise_writesAlone (undisturbed : system.Undisturbed [] (sources.map Prod.snd)) :
    (sources.flatMap (system.writesAlone options ignore apply)).Pairwise
      fun write other => write.1 ≠ other.1 := by
  rw [List.pairwise_flatMap]
  constructor
  · intro source isSource
    unfold writesAlone writesOf
    split
    · split <;> simp
    · simp
  · apply (List.pairwise_map.mp undisturbed.apart).imp
    intro source other apart write isWrite otherWrite isOther same
    apply apart write.1 (locate_of_mem_writesOf isWrite)
    rw [same]
    exact locate_of_mem_writesOf isOther

/-- After the batch every file is what its own conversion made of it. -/
theorem find?_storeAll_writesAlone (undisturbed : system.Undisturbed [] (sources.map Prod.snd))
    {source : Text × FilePath} (isSource : source ∈ sources) :
    (system.storeAll (sources.flatMap (system.writesAlone options ignore apply))).find? source.2 =
      (system.storeAll (system.writesAlone options ignore apply source)).find? source.2 := by
  obtain ⟨before, after, rfl⟩ := List.append_of_mem isSource
  have reordered : (before ++ source :: after).Perm (source :: (before ++ after)) :=
    List.perm_middle
  have apart : (source :: (before ++ after)).Pairwise fun first other =>
      system.AreApart first.2 other.2 := by
    refine (List.Perm.pairwise_iff ?_ reordered).mp (List.pairwise_map.mp undisturbed.apart)
    intro first other apart place located otherLocated
    exact apart place otherLocated located
  rw [storeAll_perm (reordered.flatMap_right _) (pairwise_writesAlone undisturbed),
    List.flatMap_cons, storeAll_append]
  apply find?_storeAll_of_ne
  intro write isWrite
  rcases exists_locate_of_mem_writesAlone isWrite with ⟨other, isOther, located⟩
  rw [locate_storeAll]
  intro sourceLocated
  exact (List.pairwise_cons.mp apart).1 other isOther write.1 sourceLocated located

end Apart

/--
If the source files of the crates are different files, at paths that a file can have, the batch has
one outcome for each of them, in the order of the crates, and outcome and content are those of
converting the file alone in the file system of the beginning; everything else stays as it is. In
another order the crates give the same outcomes and the same file system.
-/
theorem convertCrates_eq_alone (system : FileSystem) (options : Options)
    (ignore : Option IgnoreTable) (apply : Bool) (crates : List Crate)
    (valid : ∀ crate ∈ crates, isIdentifier crate.name = true)
    (resolved : system.workingPath.resolve system.workingPath = system.workingPath)
    (distinct :
      ((system.sources crates).map fun source => system.workingPath.resolve source.2).Nodup)
    (usable : ∀ source ∈ system.sources crates, source.2.isUsable = true) :
    ∃ outcomes after,
      system.convertCrates options ignore apply crates = ⟨outcomes, after, none⟩ ∧
      List.Forall₂ (fun source outcome => ∃ own alone,
          options.forCrate source.1 = .ok own ∧
          system.convertFile own ignore apply source.2 = .ok (outcome, alone) ∧
          after.find? source.2 = alone.find? source.2)
        (system.sources crates) outcomes ∧
      (∀ path, (∀ source ∈ system.sources crates,
          system.locate path ≠ system.locate source.2) →
        after.find? path = system.find? path) ∧
      ∀ permuted : List Crate, permuted.Perm crates → ∃ others,
        system.convertCrates options ignore apply permuted = ⟨others, after, none⟩ ∧
        ((system.sources permuted).zip others).Perm ((system.sources crates).zip outcomes) := by
  have undisturbed := undisturbed_of_nodup resolved distinct
  have result := @convertCrates_storeAll system options ignore apply crates valid [] undisturbed
  rw [batchAlone_of_usable usable] at result
  refine ⟨_, _, result, ?_, ?_, ?_⟩
  · rw [List.forall₂_map_right_iff, List.forall₂_same]
    rintro ⟨name, path⟩ isSource
    obtain ⟨crate, isCrate, rfl⟩ := exists_crate_of_mem_sources isSource
    obtain ⟨own, isOwn⟩ := exists_forCrate (valid crate isCrate) options
    have alone := @convertFile_storeAll system options ignore apply own crate.name path isOwn
      (usable _ isSource) [] (by simp)
    exact ⟨own, _, isOwn, alone, find?_storeAll_writesAlone undisturbed isSource⟩
  · intro path elsewhere
    apply find?_storeAll_of_ne
    intro write isWrite located
    rcases exists_locate_of_mem_writesAlone isWrite with ⟨source, isSource, written⟩
    exact elsewhere source isSource (located.trans written.symm)
  · intro permuted isPermuted
    have sameSources : (system.sources permuted).Perm (system.sources crates) :=
      isPermuted.flatMap_right _
    have stillDistinct := (sameSources.map _).nodup_iff.mpr distinct
    have stillUndisturbed := undisturbed_of_nodup resolved stillDistinct
    have stillUsable : ∀ source ∈ system.sources permuted, source.2.isUsable = true :=
      fun source isSource => usable source (sameSources.mem_iff.mp isSource)
    have there := @convertCrates_storeAll system options ignore apply permuted
      (fun crate isCrate => valid crate (isPermuted.mem_iff.mp isCrate)) [] stillUndisturbed
    rw [batchAlone_of_usable stillUsable, storeAll_perm (sameSources.flatMap_right _)
      (pairwise_writesAlone stillUndisturbed)] at there
    refine ⟨_, there, ?_⟩
    rw [← List.map_prod_left_eq_zip, ← List.map_prod_left_eq_zip]
    exact sameSources.map _

/-- A directory with a file that is no text, and a file that is converted whichever comes first. -/
theorem convertCrates_eq_alone_unreadable :
    let system : FileSystem :=
      { entries := [(["src".toList], .directory),
          (["src".toList, "a.rs".toList], .file ⟨[255], true⟩),
          (["b.rs".toList], .file ⟨Utf8.encode "[x](../krate/fn.x.html)\n".toList, true⟩)] }
    let crates : List Crate := [⟨"other".toList, FilePath.parse "src".toList⟩,
      ⟨"krate".toList, FilePath.parse "./b.rs".toList⟩]
    system.sources crates =
        [("other".toList, FilePath.parse "src/a.rs".toList),
          ("krate".toList, FilePath.parse "b.rs".toList)] ∧
      ∃ outcomes others after,
        system.convertCrates {} none true crates = ⟨outcomes, after, none⟩ ∧
        system.convertCrates {} none true crates.reverse = ⟨others, after, none⟩ ∧
        after.bytesAt? (FilePath.parse "b.rs".toList) =
          some (Utf8.encode "[x](crate::x())\n".toList) := by
  intro system crates
  have listed : system.sources crates =
      [("other".toList, FilePath.parse "src/a.rs".toList),
        ("krate".toList, FilePath.parse "b.rs".toList)] := by decide +kernel
  have distinct :
      ((system.sources crates).map fun source => system.workingPath.resolve source.2).Nodup := by
    rw [listed]
    decide +kernel
  have usable : ∀ source ∈ system.sources crates, source.2.isUsable = true := by
    rw [listed]
    decide +kernel
  obtain ⟨outcomes, after, result, -, -, permuted⟩ :=
    convertCrates_eq_alone system {} none true crates (by decide +kernel) (by decide +kernel)
      distinct usable
  obtain ⟨others, reversed, -⟩ := permuted crates.reverse crates.reverse_perm
  have bytes : (system.convertCrates {} none true crates).system.bytesAt?
      (FilePath.parse "b.rs".toList) = some (Utf8.encode "[x](crate::x())\n".toList) := by
    decide +kernel
  rw [result] at bytes
  exact ⟨listed, outcomes, others, after, result, reversed, bytes⟩

end FileSystem

end IntraDoc
