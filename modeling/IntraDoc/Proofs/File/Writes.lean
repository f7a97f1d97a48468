import IntraDoc.File.Sources
import IntraDoc.Proofs.File.Store
import Mathlib.Data.List.Pairwise
import Mathlib.Data.List.Perm.Basic

/-!
# Several files written

Writing files changes bytes, and never what a directory holds or where a path leads. So the source
files of a directory stay the same, a file that is not among the written ones is still what it was,
and files at different places can be written in any order. Where a path leads is also what it
resolves to, which tells apart paths to different files.
-/

namespace IntraDoc

namespace FilePath

theorem fold_append (walked names others : List Text) :
    fold walked (names ++ others) = fold (fold walked names) others := by
  induction names generalizing walked with
  | nil => rfl
  | cons name names ih =>
      simp only [List.cons_append, fold]
      split
      · exact ih _
      · exact ih _

end FilePath

namespace FileSystem

section Resolution

variable {system : FileSystem} {path : FilePath} {place : Place}

theorem eq_fold_of_walk {here : Place} {names : List Text}
    (walked : system.walk path here names = .ok place) : place = FilePath.fold here names := by
  induction names generalizing here with
  | nil =>
      simp only [walk] at walked
      split at walked
      · exact (Except.ok.inj walked).symm
      · simp at walked
  | cons name names ih =>
      simp only [walk] at walked
      simp only [FilePath.fold]
      split at walked
      · simp at walked
      · simp at walked
      · split at walked
        · rename_i isUp
          rw [if_pos isUp]
          exact ih walked
        · rename_i isName
          rw [if_neg isName]
          exact ih walked

/-- A path that leads somewhere resolves to that place. -/
theorem resolve_of_locate (resolved : system.workingPath.resolve system.workingPath =
      system.workingPath) (located : system.locate path = .ok place) :
    system.workingPath.resolve path = ⟨.single, place⟩ := by
  have own : FilePath.fold [] system.working = system.working :=
    congrArg FilePath.names resolved
  have reached := eq_fold_of_walk located
  simp only [FilePath.resolve, FilePath.join, workingPath, FilePath.mk.injEq, true_and]
  by_cases isAbsolute : path.isAbsolute = true
  · rw [if_pos isAbsolute] at reached ⊢
    exact reached.symm
  · rw [if_neg isAbsolute] at reached ⊢
    rw [FilePath.fold_append, own]
    exact reached.symm

end Resolution

section Listing

variable {system : FileSystem} {place : Place} {bytes : Utf8.Bytes}

theorem find?_store (path : FilePath) :
    (system.store place bytes).find? path =
      if system.locate path = .ok place then (system.find? path).map (Entry.withBytes bytes)
      else system.find? path := by
  by_cases here : system.locate path = .ok place
  · simp only [find?, locate_store, here, entryAt_store, if_true]
  · rw [if_neg here, find?_store_of_ne here]

theorem withBytes_eq_directory_iff {entry : Entry} :
    entry.withBytes bytes = .directory ↔ entry = .directory := by
  cases entry <;> simp [Entry.withBytes]

theorem map_withBytes_eq_directory_iff {entry : Option Entry} :
    entry.map (Entry.withBytes bytes) = some .directory ↔ entry = some .directory := by
  cases entry <;> simp [withBytes_eq_directory_iff]

theorem entryAt_store_eq_directory_iff {other : Place} :
    (system.store place bytes).entryAt other = some .directory ↔
      system.entryAt other = some .directory := by
  rw [entryAt_store]
  split
  · exact map_withBytes_eq_directory_iff
  · rfl

theorem isDirectory_store (path : FilePath) :
    (system.store place bytes).isDirectory path = system.isDirectory path := by
  rw [isDirectory, isDirectory, find?_store]
  apply decide_eq_decide.mpr
  split
  · exact map_withBytes_eq_directory_iff
  · rfl

theorem isFile_store (path : FilePath) :
    (system.store place bytes).isFile path = system.isFile path := by
  rw [isFile, isFile, find?_store]
  by_cases here : system.locate path = .ok place
  · rw [if_pos here]
    rcases system.find? path with _ | _ | _ <;> rfl
  · rw [if_neg here]

theorem isSome_find?_store (path : FilePath) :
    ((system.store place bytes).find? path).isSome = (system.find? path).isSome := by
  rw [find?_store]
  split
  · exact Option.isSome_map
  · rfl

/-- Storing a file changes neither the places of the entries nor which of them are directories. -/
theorem entries_store (system : FileSystem) (place : Place) (bytes : Utf8.Bytes) :
    (system.store place bytes).entries = system.entries.map fun entry =>
      (entry.1, if entry.1 = place then entry.2.withBytes bytes else entry.2) := by
  simp only [store]
  apply List.map_congr_left
  rintro ⟨found, entry⟩ -
  cases entry <;> split <;> simp_all [Entry.withBytes]

theorem children_store (directory : Place) :
    (system.store place bytes).children directory = system.children directory := by
  simp only [children, entries_store, List.filterMap_map]
  rfl

theorem listDirectory_store (path : FilePath) :
    Glob.listDirectory (system.store place bytes) path = Glob.listDirectory system path := by
  simp only [Glob.listDirectory, locate_store, children_store, entryAt_store_eq_directory_iff]

theorem directoriesBelow_store (path : FilePath) :
    Glob.directoriesBelow (system.store place bytes) path = Glob.directoriesBelow system path := by
  simp only [Glob.directoriesBelow, locate_store, entries_store, List.filterMap_map]
  cases system.locate path with
  | error error => rfl
  | ok found =>
      simp only
      congr 2
      funext entry
      have same : (if entry.1 = place then entry.2.withBytes bytes else entry.2) = .directory ↔
          entry.2 = .directory := by
        split
        · exact withBytes_eq_directory_iff
        · rfl
      simp only [Function.comp_apply, same]

theorem select_store (directoriesOnly : Bool) (segments : List Glob.Segment) (path : FilePath) :
    Glob.select (system.store place bytes) directoriesOnly segments path =
      Glob.select system directoriesOnly segments path := by
  have leads : ∀ inner found, Glob.leads (system.store place bytes) inner found =
      Glob.leads system inner found := by
    intro inner found
    simp only [Glob.leads, isDirectory_store, isSome_find?_store]
  induction segments generalizing path with
  | nil => rfl
  | cons segment segments ih =>
      have next : Glob.select (system.store place bytes) directoriesOnly segments =
          Glob.select system directoriesOnly segments := funext ih
      cases segment with
      | exact name => simp only [Glob.select, leads, next]
      | wild pieces => simp only [Glob.select, leads, next, listDirectory_store]
      | recursive => simp only [Glob.select, next, directoriesBelow_store]

theorem sourceFiles_store (path : FilePath) :
    (system.store place bytes).sourceFiles path = system.sourceFiles path := by
  have sameFiles : (system.store place bytes).isFile = system.isFile := funext isFile_store
  simp only [sourceFiles, Glob.paths, isDirectory_store, select_store, sameFiles]

end Listing

/-- The same file system with other bytes at some places. -/
def storeAll (system : FileSystem) (writes : List (Place × Utf8.Bytes)) : FileSystem :=
  writes.foldl (fun system write => system.store write.1 write.2) system

section Writes

variable {system : FileSystem} {writes : List (Place × Utf8.Bytes)}

theorem storeAll_append (writes others : List (Place × Utf8.Bytes)) :
    system.storeAll (writes ++ others) = (system.storeAll writes).storeAll others :=
  List.foldl_append

theorem working_storeAll : (system.storeAll writes).working = system.working := by
  induction writes generalizing system with
  | nil => rfl
  | cons write writes ih => exact ih

theorem locate_storeAll (path : FilePath) :
    (system.storeAll writes).locate path = system.locate path := by
  induction writes generalizing system with
  | nil => rfl
  | cons write writes ih => exact ih.trans (locate_store path)

theorem sourceFiles_storeAll (path : FilePath) :
    (system.storeAll writes).sourceFiles path = system.sourceFiles path := by
  induction writes generalizing system with
  | nil => rfl
  | cons write writes ih => exact ih.trans (sourceFiles_store path)

theorem entryAt_storeAll_of_ne {place : Place} (elsewhere : ∀ write ∈ writes, place ≠ write.1) :
    (system.storeAll writes).entryAt place = system.entryAt place := by
  induction writes generalizing system with
  | nil => rfl
  | cons write writes ih =>
      have first := elsewhere write (List.mem_cons_self ..)
      have kept : (system.store write.1 write.2).entryAt place = system.entryAt place := by
        rw [entryAt_store, if_neg first]
      rw [← kept]
      apply ih
      intro other isOther
      exact elsewhere other (List.mem_cons_of_mem _ isOther)

section Elsewhere

variable {path : FilePath} (elsewhere : ∀ write ∈ writes, system.locate path ≠ .ok write.1)

include elsewhere

theorem entryAt_storeAll_of_locate {place : Place} (located : system.locate path = .ok place) :
    (system.storeAll writes).entryAt place = system.entryAt place := by
  apply entryAt_storeAll_of_ne
  rintro write isWrite rfl
  exact elsewhere write isWrite located

theorem openFile_storeAll_of_ne :
    (system.storeAll writes).openFile path = system.openFile path := by
  simp only [openFile, locate_storeAll, bind, Except.bind]
  cases located : system.locate path with
  | error error => rfl
  | ok place => simp only [entryAt_storeAll_of_locate elsewhere located]

theorem find?_storeAll_of_ne : (system.storeAll writes).find? path = system.find? path := by
  simp only [find?, locate_storeAll]
  cases located : system.locate path with
  | error error => rfl
  | ok place => exact entryAt_storeAll_of_locate elsewhere located

end Elsewhere

theorem store_store {place other : Place} (different : place ≠ other)
    (bytes otherBytes : Utf8.Bytes) :
    (system.store place bytes).store other otherBytes =
      (system.store other otherBytes).store place bytes := by
  have sameEntries : ((system.store place bytes).store other otherBytes).entries =
      ((system.store other otherBytes).store place bytes).entries := by
    simp only [entries_store, List.map_map]
    apply List.map_congr_left
    rintro ⟨found, entry⟩ -
    simp only [Function.comp_apply]
    by_cases isPlace : found = place
    · subst isPlace
      simp [different]
    · simp [isPlace]
  simp only [store, FileSystem.mk.injEq, and_true] at sameEntries ⊢
  exact sameEntries

/-- Files at different places can be written in any order. -/
theorem storeAll_perm {others : List (Place × Utf8.Bytes)} (permuted : writes.Perm others)
    (different : writes.Pairwise fun write other => write.1 ≠ other.1) :
    system.storeAll writes = system.storeAll others := by
  have symmetric : Std.Symm fun write other : Place × Utf8.Bytes => write.1 ≠ other.1 :=
    ⟨fun _ _ => Ne.symm⟩
  apply permuted.foldl_eq'
  intro write isWrite other isOther state
  by_cases same : write = other
  · rw [same]
  · have apart := different.forall isWrite isOther same
    exact store_store apart _ _

end Writes

end FileSystem

end IntraDoc
