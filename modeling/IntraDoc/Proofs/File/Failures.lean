import IntraDoc.Proofs.File.Store
import IntraDoc.Text.Lines

/-!
# First failures

What goes through its input from front to back fails at the first thing that is wrong. Of a failure
it is said what is wrong with one thing, and that nothing is wrong before it. What is read from a
file is a text, unless the bytes of the file are none.
-/

namespace IntraDoc

section FirstFailures

variable {α ε σ : Type} {fails : α → ε → Prop} {item : α} {items : List α} {error : ε}

/-- An item fails with this error, and none before it fails. -/
def FirstFails (fails : α → ε → Prop) (items : List α) (error : ε) : Prop :=
  ∃ before item after, items = before ++ item :: after ∧ fails item error ∧
    ∀ earlier ∈ before, ∀ other, ¬fails earlier other

end FirstFailures

namespace FileSystem

/-- The file at the end of a path is the text, with all its line breaks alike. -/
def Holds (system : FileSystem) (path : FilePath) (text : Text) : Prop :=
  ∃ content raw, system.find? path = some (.file content) ∧
    Utf8.decode content.bytes = .ok raw ∧ Text.unifyBreaks raw = text

variable {system : FileSystem} {path : FilePath}

theorem readText_of_file {content : FileContent}
    (found : system.find? path = some (.file content)) :
    system.readText path =
      match Utf8.decode content.bytes with
      | .ok text => .ok text
      | .error error => .error (.undecodable error) := by
  obtain ⟨place, opened⟩ := find?_eq_file_iff.mp found
  cases decoded : Utf8.decode content.bytes <;>
    simp [readText, opened, decoded, bind, Except.bind]

theorem isFile_iff :
    system.isFile path = true ↔ ∃ content, system.find? path = some (.file content) := by
  unfold isFile
  rcases system.find? path with _ | _ | _ <;> simp

theorem holds_iff {content : FileContent} {raw text : Text}
    (found : system.find? path = some (.file content))
    (decoded : Utf8.decode content.bytes = .ok raw) :
    system.Holds path text ↔ text = Text.unifyBreaks raw := by
  simp [Holds, found, decoded, eq_comm]

end FileSystem

end IntraDoc
