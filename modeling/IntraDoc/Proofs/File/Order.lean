import IntraDoc.File.Glob
import Mathlib.Data.Char
import Mathlib.Data.List.Lex
import Mathlib.Order.Lattice

/-!
# Laws of the order of file paths

Texts are ordered character by character and paths part by part, as lists are. The paths that a
pattern matches are listed in this order.
-/

namespace IntraDoc

section Lists

variable {α : Type} [LinearOrder α] {a b : α} {l m : List α}

theorem nil_le_list (l : List α) : [] ≤ l := by
  rw [← not_lt]
  exact List.not_lt_nil l

/-- The order of lists goes by the first elements, and only then by the others. -/
theorem cons_le_cons_iff_lt_or : a :: l ≤ b :: m ↔ a < b ∨ a = b ∧ l ≤ m := by
  rw [le_iff_lt_or_eq, le_iff_lt_or_eq, List.cons_lt_cons_iff, List.cons.injEq, or_assoc,
    ← and_or_left]

end Lists

theorem Text.le_iff {text other : Text} : Text.le text other = true ↔ text ≤ other := by
  induction text generalizing other with
  | nil => simp [Text.le, nil_le_list]
  | cons char text ih =>
      cases other with
      | nil => simp [Text.le, ← not_lt]
      | cons char' other => simp [Text.le, ih, cons_le_cons_iff_lt_or]

namespace FilePath

theorem partsLe_iff {parts others : List Text} : partsLe parts others = true ↔ parts ≤ others := by
  induction parts generalizing others with
  | nil => simp [partsLe, nil_le_list]
  | cons part parts ih =>
      cases others with
      | nil => simp [partsLe, ← not_lt]
      | cons part' others =>
          rw [partsLe, cons_le_cons_iff_lt_or]
          by_cases same : part = part'
          · simp [same, ih]
          · simp [same, Text.le_iff, le_iff_lt_or_eq]

theorem le_iff {path other : FilePath} : path.le other = true ↔ path.parts ≤ other.parts :=
  partsLe_iff

theorem pairwise_sort (paths : List FilePath) :
    (sort paths).Pairwise fun path other => path.parts ≤ other.parts := by
  have sorted := @List.pairwise_mergeSort FilePath le
    (fun a b c first second => le_iff.mpr ((le_iff.mp first).trans (le_iff.mp second)))
    (fun a b => by simpa [le_iff] using le_total a.parts b.parts) paths
  exact sorted.imp le_iff.mp

end FilePath

/-- The paths that a pattern matches come in order. -/
theorem Glob.pairwise_paths (system : FileSystem) (directory : FilePath) (pattern : Pattern) :
    (paths system directory pattern).Pairwise fun path other => path.parts ≤ other.parts := by
  unfold paths
  split
  · exact FilePath.pairwise_sort _
  · exact List.Pairwise.nil

end IntraDoc
