import IntraDoc.Conversion.Batch
import IntraDoc.Proofs.Conversion.Accounting
import IntraDoc.Proofs.File.Store

/-!
# Converting a file is all or nothing

A file is left as it is or holds the whole converted text; nothing else in the file system changes.
It is written exactly when its bytes change, since reading and writing UTF-8 undo each other and a
change of a line is a change of the text.
-/

namespace IntraDoc

namespace FileSystem

section Steps

variable (system : FileSystem) (options : Options) (ignore : Option IgnoreTable) (apply : Bool)
  (path : FilePath)

/-- What converting a file can do. -/
inductive Converts : FileOutcome → FileSystem → Prop where
  | unreadable {error : FileError} (read : system.actionsFor options ignore path = .error error) :
      Converts { path := path, error := some error } system
  | unwritten {actions : List Action} (read : system.actionsFor options ignore path = .ok actions)
      (keeps : (apply && Action.anyChange actions) = false) :
      Converts { path := path, actions := actions } system
  | denied {actions : List Action} {place : Place} {content : FileContent}
      (read : system.actionsFor options ignore path = .ok actions)
      (writes : (apply && Action.anyChange actions) = true)
      (opened : system.openFile path = .ok (place, content))
      (locked : content.writable = false) :
      Converts { path := path, actions := actions, error := some (.denied path) } system
  | written {actions : List Action} {place : Place} {content : FileContent}
      (read : system.actionsFor options ignore path = .ok actions)
      (writes : (apply && Action.anyChange actions) = true)
      (opened : system.openFile path = .ok (place, content))
      (writable : content.writable = true) :
      Converts { path := path, actions := actions, written := true }
        (system.store place (Utf8.encode (Action.newText actions)))

end Steps

section Conversion

variable {system : FileSystem} {options : Options} {ignore : Option IgnoreTable} {apply : Bool}
  {path : FilePath}

theorem actionsFor_eq_ok_iff {actions : List Action} :
    system.actionsFor options ignore path = .ok actions ↔
      ∃ text, system.bytesAt? path = some (Utf8.encode text) ∧
        convertLines ⟨options, some (system.workingPath.resolve path), ignore⟩
          (Text.splitLines text) = actions := by
  simp only [← readText_eq_ok_iff, actionsFor]
  cases system.readText path <;> simp [Except.map]

theorem exists_converts (usable : path.isUsable = true) :
    ∃ outcome after, system.convertFile options ignore apply path = .ok (outcome, after) ∧
      system.Converts options ignore apply path outcome after := by
  rw [convertFile, if_neg (by simp [usable])]
  cases read : system.actionsFor options ignore path with
  | error error => exact ⟨_, _, rfl, .unreadable read⟩
  | ok actions =>
      dsimp only
      by_cases writes : (apply && Action.anyChange actions) = true
      · obtain ⟨text, isText, -⟩ := actionsFor_eq_ok_iff.mp read
        obtain ⟨content, found, -⟩ := bytesAt?_eq_some_iff.mp isText
        obtain ⟨place, opened⟩ := find?_eq_file_iff.mp found
        rw [if_pos writes, writeText_of_openFile opened]
        cases writable : content.writable with
        | false => exact ⟨_, _, rfl, .denied read writes opened writable⟩
        | true => exact ⟨_, _, rfl, .written read writes opened writable⟩
      · rw [if_neg writes]
        exact ⟨_, _, rfl, .unwritten read (by simpa using writes)⟩

section Result

variable {outcome : FileOutcome} {after : FileSystem}

theorem Converts.working_eq (converts : system.Converts options ignore apply path outcome after) :
    after.working = system.working := by
  cases converts <;> rfl

theorem Converts.locate_eq (converts : system.Converts options ignore apply path outcome after)
    (other : FilePath) : after.locate other = system.locate other := by
  cases converts with
  | unreadable | unwritten | denied => rfl
  | written => exact locate_store other

theorem Converts.find?_eq (converts : system.Converts options ignore apply path outcome after)
    {other : FilePath} (elsewhere : system.locate other ≠ system.locate path) :
    after.find? other = system.find? other := by
  cases converts with
  | unreadable | unwritten | denied => rfl
  | written _ _ opened _ =>
      rw [(openFile_eq_ok_iff.mp opened).1] at elsewhere
      exact find?_store_of_ne elsewhere

theorem Converts.of_written (converts : system.Converts options ignore apply path outcome after)
    (written : outcome.written = true) :
    apply = true ∧ outcome.changed = true ∧ outcome.error = none ∧
      after.bytesAt? path = some (Utf8.encode (Action.newText outcome.actions)) := by
  cases converts with
  | unreadable | unwritten | denied => simp at written
  | written _ writes opened _ =>
      rw [Bool.and_eq_true] at writes
      exact ⟨writes.1, writes.2, rfl, bytesAt?_store opened _⟩

theorem Converts.written_iff (converts : system.Converts options ignore apply path outcome after) :
    outcome.written = true ↔ after.bytesAt? path ≠ system.bytesAt? path := by
  cases converts with
  | unreadable | unwritten | denied => simp
  | written read writes opened _ =>
      obtain ⟨text, isText, rfl⟩ := actionsFor_eq_ok_iff.mp read
      rw [bytesAt?_store opened, isText]
      simp only [ne_eq, Option.some.injEq, true_iff]
      intro same
      have unchanged := (newText_convertLines_eq_iff _ text).mp (Utf8.encode_injective same)
      simp [unchanged] at writes

theorem Converts.of_unreadable
    (converts : system.Converts options ignore apply path outcome after)
    (noText : ∀ text, system.bytesAt? path ≠ some (Utf8.encode text)) :
    outcome.actions = [] ∧ outcome.failed = true ∧ after = system := by
  have notRead : ∀ actions, system.actionsFor options ignore path ≠ .ok actions := by
    intro actions read
    obtain ⟨text, isText, -⟩ := actionsFor_eq_ok_iff.mp read
    exact noText text isText
  cases converts with
  | unreadable => exact ⟨rfl, rfl, rfl⟩
  | unwritten read | denied read | written read => exact absurd read (notRead _)

theorem Converts.of_readable
    (converts : system.Converts options ignore apply path outcome after)
    {content : FileContent} {text : Text} (found : system.find? path = some (.file content))
    (isText : content.bytes = Utf8.encode text) :
    outcome.actions = convertLines ⟨options, some (system.workingPath.resolve path), ignore⟩
        (Text.splitLines text) ∧
      outcome.failed = (apply && outcome.changed && !content.writable) ∧
      outcome.written = (apply && outcome.changed && content.writable) := by
  obtain ⟨place, opens⟩ := find?_eq_file_iff.mp found
  have expected : system.actionsFor options ignore path = .ok (convertLines _ _) :=
    actionsFor_eq_ok_iff.mpr ⟨text, bytesAt?_eq_some_iff.mpr ⟨content, found, isText⟩, rfl⟩
  cases converts with
  | unreadable read => simp [expected] at read
  | unwritten read keeps =>
      rw [expected, Except.ok.injEq] at read
      simp [read, FileOutcome.failed, FileOutcome.changed, keeps]
  | denied read writes opened locked =>
      rw [expected, Except.ok.injEq] at read
      rw [opens, Except.ok.injEq, Prod.mk.injEq] at opened
      simp [read, FileOutcome.failed, FileOutcome.changed, writes, opened.2, locked]
  | written read writes opened writable =>
      rw [expected, Except.ok.injEq] at read
      rw [opens, Except.ok.injEq, Prod.mk.injEq] at opened
      simp [read, FileOutcome.failed, FileOutcome.changed, writes, opened.2, writable]

theorem Converts.eq_of_not_written
    (converts : system.Converts options ignore apply path outcome after)
    (notWritten : outcome.written = false) : after = system := by
  cases converts with
  | unreadable | unwritten | denied => rfl
  | written => simp at notWritten

/-- Only a file that was read has changes. -/
theorem Converts.exists_text (converts : system.Converts options ignore apply path outcome after)
    (isChanged : outcome.changed = true) :
    ∃ content text, system.find? path = some (.file content) ∧
      content.bytes = Utf8.encode text := by
  cases converts with
  | unreadable => simp [FileOutcome.changed, Action.anyChange] at isChanged
  | unwritten read | denied read | written read =>
      obtain ⟨text, isText, -⟩ := actionsFor_eq_ok_iff.mp read
      obtain ⟨content, found, same⟩ := bytesAt?_eq_some_iff.mp isText
      exact ⟨content, text, found, same⟩

end Result

end Conversion

/--
What converting a file may leave behind: the file as it was or the whole converted text in it, and
everything else unchanged.
-/
structure AllOrNothing (system : FileSystem) (options : Options) (ignore : Option IgnoreTable)
    (apply : Bool) (path : FilePath) (outcome : FileOutcome) (after : FileSystem) : Prop where
  working_eq : after.working = system.working
  locate_eq : ∀ other, after.locate other = system.locate other
  find?_eq : ∀ other, system.locate other ≠ system.locate path →
    after.find? other = system.find? other
  of_changed : after.bytesAt? path ≠ system.bytesAt? path →
    apply = true ∧ outcome.changed = true ∧ outcome.written = true ∧ outcome.error = none ∧
      after.bytesAt? path = some (Utf8.encode (Action.newText outcome.actions))
  of_unreadable : (∀ text, system.bytesAt? path ≠ some (Utf8.encode text)) →
    outcome.actions = [] ∧ outcome.failed = true ∧ after = system
  of_readable : ∀ content text, system.find? path = some (.file content) →
    content.bytes = Utf8.encode text →
    outcome.actions = convertLines ⟨options, some (system.workingPath.resolve path), ignore⟩
        (Text.splitLines text) ∧
      outcome.failed = (apply && outcome.changed && !content.writable) ∧
      outcome.written = (apply && outcome.changed && content.writable)
  of_denied : ∀ content, system.find? path = some (.file content) → content.writable = false →
    apply = true → outcome.changed = true →
    outcome.failed = true ∧ outcome.written = false ∧ after = system
  written_iff : outcome.written = true ↔ after.bytesAt? path ≠ system.bytesAt? path

/-- At a path that a file can have, a conversion has an outcome, and is all or nothing. -/
theorem convertFile_allOrNothing (system : FileSystem) (options : Options)
    (ignore : Option IgnoreTable) (apply : Bool) (path : FilePath)
    (usable : path.isUsable = true) :
    ∃ outcome after, system.convertFile options ignore apply path = .ok (outcome, after) ∧
      AllOrNothing system options ignore apply path outcome after := by
  obtain ⟨outcome, after, result, converts⟩ := exists_converts usable
  refine ⟨outcome, after, result, ?_⟩
  exact {
    working_eq := converts.working_eq
    locate_eq := converts.locate_eq
    find?_eq := fun other elsewhere => converts.find?_eq elsewhere
    of_changed := by
      intro changed
      have written := converts.written_iff.mpr changed
      obtain ⟨isApplied, isChanged, noError, bytes⟩ := converts.of_written written
      exact ⟨isApplied, isChanged, written, noError, bytes⟩
    of_unreadable := converts.of_unreadable
    of_readable := fun content text found isText => converts.of_readable found isText
    of_denied := by
      intro content found locked isApplied isChanged
      obtain ⟨content', text, found', isText⟩ := converts.exists_text isChanged
      obtain rfl : content = content' := by simpa [found] using found'
      obtain ⟨-, failed, written⟩ := converts.of_readable found isText
      simp only [isApplied, isChanged, locked, Bool.not_false, Bool.and_self,
        Bool.and_false] at failed written
      exact ⟨failed, written, converts.eq_of_not_written written⟩
    written_iff := converts.written_iff }

/-- A file with a character of two bytes and a line feed behind a carriage return. -/
theorem convertFile_allOrNothing_rewritten :
    let before := "[é](struct.A.html)\r\n".toList
    let system : FileSystem :=
      { entries := [(["a.rs".toList], .file ⟨Utf8.encode before, true⟩)] }
    let path := FilePath.parse "a.rs".toList
    ∃ outcome after, system.convertFile {} none true path = .ok (outcome, after) ∧
      outcome.written = true ∧ outcome.error = none ∧
      after.bytesAt? path = some (Utf8.encode "[é](A)\r\n".toList) := by
  intro before system path
  obtain ⟨outcome, after, result, allOrNothing⟩ :=
    convertFile_allOrNothing system {} none true path (by decide +kernel)
  have found : system.find? path = some (.file ⟨Utf8.encode before, true⟩) := by decide +kernel
  obtain ⟨actions, -, written⟩ := allOrNothing.of_readable _ before found rfl
  have isChanged : outcome.changed = true := by
    rw [FileOutcome.changed, actions]
    decide +kernel
  rw [isChanged] at written
  obtain ⟨-, -, -, noError, bytes⟩ :=
    allOrNothing.of_changed (allOrNothing.written_iff.mp written)
  refine ⟨outcome, after, result, written, noError, ?_⟩
  rw [bytes, actions]
  decide +kernel

end FileSystem

end IntraDoc
