import IntraDoc.File.System
import IntraDoc.Proofs.Text.Utf8

/-!
# What storing a file changes

Other bytes at one place change the entry at that place, and nothing else: every path still leads
where it led, and what it leads to is the same unless it is that place.
-/

namespace IntraDoc

/-- The same entry with other bytes, if it is a file. -/
def Entry.withBytes (bytes : Utf8.Bytes) : Entry → Entry
  | file content => file { content with bytes := bytes }
  | directory => directory

namespace FileSystem

/-- The bytes of the file at the end of a path, if there is one. -/
def bytesAt? (system : FileSystem) (path : FilePath) : Option Utf8.Bytes :=
  match system.find? path with
  | some (.file content) => some content.bytes
  | _ => none

section Store

variable {system : FileSystem} {place : Place} {bytes : Utf8.Bytes}

theorem lookup_store (entries : List (Place × Entry)) (place : Place) (bytes : Utf8.Bytes)
    (other : Place) :
    (store { entries := entries } place bytes).entries.lookup other =
      if other = place then (entries.lookup other).map (Entry.withBytes bytes)
      else entries.lookup other := by
  induction entries with
  | nil => simp [store]
  | cons first entries ih =>
      rcases first with ⟨found, entry⟩
      simp only [store, List.map_cons] at ih ⊢
      by_cases here : other = found
      · subst here
        cases entry <;> split <;> simp [Entry.withBytes]
      · have different : (other == found) = false := beq_false_of_ne here
        cases entry <;> split <;> simp [List.lookup_cons, different, ih]

theorem entryAt_store (system : FileSystem) (place : Place) (bytes : Utf8.Bytes) (other : Place) :
    (system.store place bytes).entryAt other =
      if other = place then (system.entryAt other).map (Entry.withBytes bytes)
      else system.entryAt other := by
  have found := lookup_store system.entries place bytes other
  simp only [entryAt, store] at found ⊢
  rw [found]
  split
  · simp [Entry.withBytes]
  · rfl

theorem walk_store (path : FilePath) (here : Place) (names : List Text) :
    (system.store place bytes).walk path here names = system.walk path here names := by
  induction names generalizing here with
  | nil =>
      simp only [walk, entryAt_store]
      split <;> simp
  | cons name names ih =>
      rw [walk, walk, entryAt_store, ih, ih]
      by_cases isPlace : here = place
      · rw [if_pos isPlace]
        rcases system.entryAt here with _ | _ | _ <;> rfl
      · rw [if_neg isPlace]

@[simp]
theorem locate_store (path : FilePath) :
    (system.store place bytes).locate path = system.locate path :=
  walk_store path _ _

theorem find?_store_of_ne {path : FilePath} (elsewhere : system.locate path ≠ .ok place) :
    (system.store place bytes).find? path = system.find? path := by
  simp only [find?, locate_store]
  cases located : system.locate path with
  | error error => rfl
  | ok other =>
      have different : other ≠ place := by
        rintro rfl
        exact elsewhere located
      simp only [entryAt_store, if_neg different]

end Store

section Files

variable {system : FileSystem} {path : FilePath}

theorem openFile_eq_ok_iff {place : Place} {content : FileContent} :
    system.openFile path = .ok (place, content) ↔
      system.locate path = .ok place ∧ system.entryAt place = some (.file content) := by
  simp only [openFile, bind, Except.bind]
  cases system.locate path with
  | error error => simp
  | ok found =>
      dsimp only
      rcases entry : system.entryAt found with _ | content' | _ <;>
        grind

theorem find?_eq_file_iff {content : FileContent} :
    system.find? path = some (.file content) ↔
      ∃ place, system.openFile path = .ok (place, content) := by
  simp only [openFile_eq_ok_iff, find?]
  cases system.locate path <;> simp

theorem bytesAt?_eq_some_iff {bytes : Utf8.Bytes} :
    system.bytesAt? path = some bytes ↔
      ∃ content, system.find? path = some (.file content) ∧ content.bytes = bytes := by
  simp only [bytesAt?]
  rcases system.find? path with _ | _ | _ <;> simp

theorem readText_eq_ok_iff {text : Text} :
    system.readText path = .ok text ↔ system.bytesAt? path = some (Utf8.encode text) := by
  simp only [bytesAt?_eq_some_iff, find?_eq_file_iff, readText, bind, Except.bind]
  cases system.openFile path with
  | error error => simp
  | ok opened =>
      rcases opened with ⟨place, content⟩
      have read : Utf8.decode content.bytes = .ok text ↔ content.bytes = Utf8.encode text := by
        rw [Utf8.decode_eq_ok_iff, eq_comm]
      simp only [Except.ok.injEq, Prod.mk.injEq, exists_eq_left', ← read]
      cases Utf8.decode content.bytes <;> simp

theorem writeText_of_openFile {place : Place} {content : FileContent}
    (opened : system.openFile path = .ok (place, content)) (text : Text) :
    system.writeText path text =
      if content.writable then .ok (system.store place (Utf8.encode text))
      else .error (.denied path) := by
  rw [writeText, opened]
  rfl

theorem bytesAt?_store {place : Place} {content : FileContent}
    (opened : system.openFile path = .ok (place, content)) (bytes : Utf8.Bytes) :
    (system.store place bytes).bytesAt? path = some bytes := by
  obtain ⟨located, found⟩ := openFile_eq_ok_iff.mp opened
  simp [bytesAt?, find?, located, entryAt_store, found, Entry.withBytes]

end Files

end FileSystem

end IntraDoc
