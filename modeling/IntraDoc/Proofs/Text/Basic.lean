import IntraDoc.Text.Basic
import IntraDoc.Text.Word
import Mathlib.Data.List.TakeWhile

/-!
# Laws of the text cuts

What the scanners rely on: each cut of `IntraDoc.Text.Basic` is pinned down by the concatenation
that it undoes. Splitting and joining are `List.splitOn` and `List.intercalate`, and have their laws
from there. Later files cite these laws and do not open the cuts again.
-/

namespace IntraDoc

section Runs

variable {α : Type} {test : α → Bool}

/-- A run of elements of a class ends where the first element outside the class stands. -/
theorem takeWhile_append_stop {run rest : List α} (inside : ∀ element ∈ run, test element = true)
    (stop : ∀ element ∈ rest.head?, test element = false) :
    (run ++ rest).takeWhile test = run := by
  rw [List.takeWhile_append_of_pos inside]
  cases rest with
  | nil => simp
  | cons element rest => simp [stop element (by simp)]

theorem dropWhile_append_stop {run rest : List α} (inside : ∀ element ∈ run, test element = true)
    (stop : ∀ element ∈ rest.head?, test element = false) :
    (run ++ rest).dropWhile test = rest := by
  rw [List.dropWhile_append_of_pos inside]
  cases rest with
  | nil => simp
  | cons element rest => simp [stop element (by simp)]

/-- A run that goes as far as it can is told from what follows it. -/
theorem append_stop_inj {run rest otherRun otherRest : List α}
    (inside : ∀ element ∈ run, test element = true)
    (stop : ∀ element ∈ rest.head?, test element = false)
    (otherInside : ∀ element ∈ otherRun, test element = true)
    (otherStop : ∀ element ∈ otherRest.head?, test element = false)
    (same : run ++ rest = otherRun ++ otherRest) : run = otherRun ∧ rest = otherRest := by
  have sameRun := congrArg (List.takeWhile test) same
  rw [takeWhile_append_stop inside stop, takeWhile_append_stop otherInside otherStop] at sameRun
  rw [sameRun, List.append_cancel_left_eq] at same
  exact ⟨sameRun, same⟩

theorem forall_ne_of_notMem [DecidableEq α] {stop : α} {run : List α} (free : stop ∉ run) :
    ∀ element ∈ run, decide (element ≠ stop) = true := by
  intro element inside
  rw [decide_eq_true_eq]
  rintro rfl
  exact free inside

theorem takeWhile_ne_append [DecidableEq α] {stop : α} {run : List α} (free : stop ∉ run)
    (rest : List α) : (run ++ stop :: rest).takeWhile (· ≠ stop) = run :=
  takeWhile_append_stop (forall_ne_of_notMem free) (by simp)

theorem dropWhile_ne_append [DecidableEq α] {stop : α} {run : List α} (free : stop ∉ run)
    (rest : List α) : (run ++ stop :: rest).dropWhile (· ≠ stop) = stop :: rest :=
  dropWhile_append_stop (forall_ne_of_notMem free) (by simp)

theorem head?_dropWhile {elements : List α} :
    ∀ element ∈ (elements.dropWhile test).head?, test element = false := by
  intro element found
  have kept := List.head?_dropWhile_not test elements
  simp only [Option.mem_def] at found
  simpa [found] using kept

end Runs

namespace Text

/-- A text without a line feed has none to lose at its end. -/
theorem chomp_of_notMem {text : Text} (free : '\n' ∉ text) : chomp text = text := by
  induction text with
  | nil => rfl
  | cons char rest ih =>
      simp only [List.mem_cons, not_or] at free
      have kept : chomp (char :: rest) = char :: chomp rest := by
        cases rest with
        | nil => simp [chomp, Ne.symm free.1]
        | cons next others => simp [chomp]
      rw [kept, ih free.2]

theorem mem_chomp_or_newline {text : Text} {char : Char} (inside : char ∈ text) :
    char ∈ chomp text ∨ char = '\n' := by
  fun_induction chomp text with
  | case1 => simp at inside
  | case2 => exact Or.inr (by simpa using inside)
  | case3 first rest notFinal ih =>
      rcases List.mem_cons.mp inside with rfl | inRest
      · exact Or.inl List.mem_cons_self
      · exact (ih inRest).imp_left (List.mem_cons_of_mem _)

theorem after?_eq_some_iff {start text rest : Text} :
    after? start text = some rest ↔ text = start ++ rest := by
  induction start generalizing text with
  | nil => simp [after?]
  | cons expected start ih =>
      cases text with
      | nil => simp [after?]
      | cons char text =>
          by_cases same : expected = char
          · simp [after?, same, ih]
          · simp [after?, same, Ne.symm same]

theorem after?_eq_none {start text : Text} (apart : ∀ rest, text ≠ start ++ rest) :
    after? start text = none := by
  cases found : after? start text with
  | none => rfl
  | some rest => exact absurd (after?_eq_some_iff.mp found) (apart rest)

@[simp]
theorem after?_append (start rest : Text) : after? start (start ++ rest) = some rest :=
  after?_eq_some_iff.mpr rfl

theorem startsWith_iff {text start : Text} :
    startsWith text start = true ↔ ∃ rest, text = start ++ rest := by
  simp [startsWith, Option.isSome_iff_exists, after?_eq_some_iff]

theorem exists_eq_trimRight_append (drop : Char → Bool) (text : Text) :
    ∃ tail, text = trimRight drop text ++ tail ∧ ∀ char ∈ tail, drop char = true := by
  induction text with
  | nil => exact ⟨[], rfl, by simp⟩
  | cons char rest ih =>
      rcases ih with ⟨tail, shape, dropped⟩
      unfold trimRight
      split
      · rename_i nothing
        rw [nothing, List.nil_append] at shape
        subst shape
        split
        · rename_i dropsFirst
          exact ⟨char :: rest, rfl, List.forall_mem_cons.mpr ⟨dropsFirst, dropped⟩⟩
        · exact ⟨rest, rfl, dropped⟩
      · exact ⟨tail, by rw [List.cons_append, ← shape], dropped⟩

section Splitting

variable {separator : Char}

/-- Splitting a text is splitting the list of its characters. -/
theorem splitOn_eq (text : Text) : splitOn separator text = List.splitOn separator text := by
  induction text with
  | nil => simp [splitOn]
  | cons char rest ih =>
      rw [splitOn, ih, List.splitOn_cons_eq_if_modifyHead]
      rcases cut : List.splitOn separator rest with _ | ⟨piece, pieces⟩
      · exact absurd cut (List.splitOn_ne_nil separator rest)
      · simp

theorem splitOn_ne_nil (text : Text) : splitOn separator text ≠ [] := by
  rw [splitOn_eq]
  exact List.splitOn_ne_nil separator text

theorem splitOn_of_notMem {piece : Text} (free : separator ∉ piece) :
    splitOn separator piece = [piece] := by
  rw [splitOn_eq, List.splitOn_eq_singleton free]

theorem splitOn_append {piece : Text} (free : separator ∉ piece) (rest : Text) :
    splitOn separator (piece ++ separator :: rest) = piece :: splitOn separator rest := by
  rw [splitOn_eq, splitOn_eq, List.splitOn_append_cons_self_of_not_mem free]

/-- The pieces of a text are made of its characters, the separator excepted. -/
theorem mem_of_mem_splitOn {text piece : Text} {char : Char}
    (isPiece : piece ∈ splitOn separator text) (inPiece : char ∈ piece) :
    char ∈ text ∧ char ≠ separator := by
  induction text generalizing piece with
  | nil =>
      simp only [splitOn, List.mem_singleton] at isPiece
      simp [isPiece] at inPiece
  | cons first rest ih =>
      simp only [splitOn] at isPiece
      split at isPiece
      · rcases List.mem_cons.mp isPiece with rfl | isPiece
        · simp at inPiece
        · exact ⟨List.mem_cons_of_mem _ (ih isPiece inPiece).1, (ih isPiece inPiece).2⟩
      · rename_i different
        split at isPiece
        · rename_i nothing
          exact absurd nothing (splitOn_ne_nil rest)
        · rename_i head others pieces
          rw [pieces] at ih
          rcases List.mem_cons.mp isPiece with rfl | isPiece
          · rcases List.mem_cons.mp inPiece with rfl | inPiece
            · exact ⟨List.mem_cons_self, different⟩
            · have inRest := ih List.mem_cons_self inPiece
              exact ⟨List.mem_cons_of_mem _ inRest.1, inRest.2⟩
          · have inRest := ih (List.mem_cons_of_mem _ isPiece) inPiece
            exact ⟨List.mem_cons_of_mem _ inRest.1, inRest.2⟩

end Splitting

section Joining

variable {separator : Text}

/-- Joining texts is joining the lists of their characters. -/
theorem joinWith_eq (pieces : List Text) :
    joinWith separator pieces = List.intercalate separator pieces := by
  fun_induction joinWith separator pieces with
  | case1 => rw [List.intercalate_nil]
  | case2 piece => rw [List.intercalate_singleton]
  | case3 piece pieces several ih => rw [List.intercalate_cons_of_ne_nil several, ih]

@[simp]
theorem joinWith_nil : joinWith separator [] = [] := rfl

@[simp]
theorem joinWith_singleton (piece : Text) : joinWith separator [piece] = piece := rfl

theorem joinWith_cons {piece : Text} {pieces : List Text} (nonempty : pieces ≠ []) :
    joinWith separator (piece :: pieces) = piece ++ separator ++ joinWith separator pieces := by
  simp only [joinWith_eq, List.intercalate_cons_of_ne_nil nonempty]

/-- Every piece but the first one has the separator in front. -/
theorem joinWith_eq_flatMap (piece : Text) (pieces : List Text) :
    joinWith separator (piece :: pieces) =
      piece ++ pieces.flatMap fun other => separator ++ other := by
  induction pieces generalizing piece with
  | nil => simp
  | cons next pieces ih =>
      rw [joinWith_cons (by simp), ih]
      simp

theorem exists_joinWith_cons (piece : Text) (pieces : List Text) :
    ∃ rest, joinWith separator (piece :: pieces) = piece ++ rest := by
  cases pieces with
  | nil => exact ⟨[], by simp⟩
  | cons next others => exact ⟨_, by rw [joinWith_cons (by simp), List.append_assoc]⟩

theorem joinWith_concat {pieces : List Text} (nonempty : pieces ≠ []) (piece : Text) :
    joinWith separator (pieces ++ [piece]) = joinWith separator pieces ++ separator ++ piece := by
  induction pieces with
  | nil => exact absurd rfl nonempty
  | cons first others ih =>
      cases others with
      | nil => simp [joinWith]
      | cons next others =>
          have longer : joinWith separator (first :: (next :: others ++ [piece])) =
              first ++ separator ++ joinWith separator (next :: others ++ [piece]) :=
            joinWith_cons (by simp)
          have shorter : joinWith separator (first :: next :: others) =
              first ++ separator ++ joinWith separator (next :: others) :=
            joinWith_cons (by simp)
          rw [List.cons_append, longer, ih (by simp), shorter]
          simp only [List.append_assoc]

/-- The last piece may as well be extended after the pieces have been joined. -/
theorem joinWith_concat_append (pieces : List Text) (piece rest : Text) :
    joinWith separator (pieces ++ [piece]) ++ rest =
      joinWith separator (pieces ++ [piece ++ rest]) := by
  cases pieces with
  | nil => simp
  | cons first others =>
      rw [joinWith_concat (by simp), joinWith_concat (by simp)]
      simp

theorem mem_joinWith {pieces : List Text} {char : Char}
    (inside : char ∈ joinWith separator pieces) :
    char ∈ separator ∨ ∃ piece ∈ pieces, char ∈ piece := by
  induction pieces with
  | nil => simp at inside
  | cons first others ih =>
      cases others with
      | nil => exact Or.inr ⟨first, by simp, by simpa using inside⟩
      | cons next others =>
          rw [joinWith_cons (by simp), List.mem_append, List.mem_append] at inside
          rcases inside with (inFirst | inSeparator) | inOthers
          · exact Or.inr ⟨first, by simp, inFirst⟩
          · exact Or.inl inSeparator
          · rcases ih inOthers with inSeparator | ⟨piece, isPiece, inPiece⟩
            · exact Or.inl inSeparator
            · exact Or.inr ⟨piece, List.mem_cons_of_mem _ isPiece, inPiece⟩

theorem joinWith_ne_nil {pieces : List Text} (nonempty : pieces ≠ [])
    (filled : ∀ piece ∈ pieces, piece ≠ []) : joinWith separator pieces ≠ [] := by
  cases pieces with
  | nil => exact absurd rfl nonempty
  | cons first others =>
      have firstFilled := filled first (by simp)
      cases others with
      | nil => simpa using firstFilled
      | cons next others => simp [joinWith_cons, firstFilled]

/-- Joining pieces that are free of the separator and splitting again gives them back. -/
theorem splitOn_joinWith {separator : Char} {pieces : List Text} (nonempty : pieces ≠ [])
    (free : ∀ piece ∈ pieces, separator ∉ piece) :
    splitOn separator (joinWith [separator] pieces) = pieces := by
  rw [splitOn_eq, joinWith_eq]
  exact List.splitOn_intercalate separator free nonempty

/-- The pieces of a text, joined again, are the text. -/
theorem joinWith_splitOn {separator : Char} (text : Text) :
    joinWith [separator] (splitOn separator text) = text := by
  rw [splitOn_eq, joinWith_eq]
  exact List.intercalate_splitOn separator

end Joining

end Text

end IntraDoc
