import IntraDoc.Proofs.Text.Basic
import IntraDoc.Text.Lines
import Mathlib.Data.List.Forall2

/-!
# Laws of lines

The lines of a text are unbroken up to the break that ends them, and only the last line may lack
one. Texts of this kind, put together and cut again, are the same lines: a cut undoes a
concatenation as long as no lone carriage return meets a line feed. Hence exchanging the contents of
lines, but not their breaks, leaves the cuts where they were.
-/

namespace IntraDoc

namespace Text

/-- The characters that break a line. -/
def lineBreaks : List Char :=
  ['\n', '\x0b', '\x0c', '\r', '\x1c', '\x1d', '\x1e', '\u0085', '\u2028', '\u2029']

theorem mem_lineBreaks {char : Char} (breaks : isLineBreak char = true) : char ∈ lineBreaks := by
  have codes : char.toNat ∈ lineBreaks.map Char.toNat := by
    have listed : lineBreaks.map Char.toNat =
        [10, 11, 12, 13, 28, 29, 30, 0x85, 0x2028, 0x2029] := by
      decide
    simp only [isLineBreak, Bool.or_eq_true, Bool.and_eq_true, decide_eq_true_eq] at breaks
    rw [listed]
    simp only [List.mem_cons, List.not_mem_nil, or_false]
    omega
  obtain ⟨other, isBreak, same⟩ := List.mem_map.mp codes
  rwa [← Char.toNat_inj.mp same]

/-- What holds of every breaking character holds of a character that breaks a line. -/
theorem forall_isLineBreak {test : Char → Bool} (all : lineBreaks.all test = true) {char : Char}
    (breaks : isLineBreak char = true) : test char = true :=
  List.all_eq_true.mp all char (mem_lineBreaks breaks)

/-- A text without a line break. -/
def IsUnbroken (text : Text) : Prop :=
  ∀ char ∈ text, isLineBreak char = false

instance (text : Text) : Decidable (IsUnbroken text) :=
  decidable_of_iff (text.all fun char => !isLineBreak char) (by simp [IsUnbroken])

/-- What may end a line: a breaking character, or a carriage return and a line feed. -/
inductive IsBreak : Text → Prop where
  | single {char : Char} (breaks : isLineBreak char = true) : IsBreak [char]
  | pair : IsBreak ['\r', '\n']

/-- Texts that are the lines of one text. -/
inductive AreLines : List Text → Prop where
  | nil : AreLines []
  | last {content : Text} (unbroken : IsUnbroken content) (nonempty : content ≠ []) :
      AreLines [content]
  | cons {content ending : Text} {lines : List Text} (unbroken : IsUnbroken content)
      (isBreak : IsBreak ending) (apart : ending = ['\r'] → lines.flatten.head? ≠ some '\n')
      (areLines : AreLines lines) : AreLines ((content ++ ending) :: lines)

/-- What ends a line: everything from the first breaking character on. -/
def lineBreak (line : Text) : Text :=
  line.dropWhile fun char => !isLineBreak char

/-- What stands before the end of a line. -/
def lineContent (line : Text) : Text :=
  line.takeWhile fun char => !isLineBreak char

theorem isUnbroken_iff {text : Text} :
    IsUnbroken text ↔ ∀ char ∈ text, (!isLineBreak char) = true := by
  simp [IsUnbroken]

theorem lineContent_append_lineBreak (line : Text) : lineContent line ++ lineBreak line = line :=
  List.takeWhile_append_dropWhile

theorem isUnbroken_lineContent (line : Text) : IsUnbroken (lineContent line) := by
  rw [isUnbroken_iff]
  intro char inside
  exact List.mem_takeWhile_imp (p := fun char => !isLineBreak char) inside

section Ends

variable {content ending : Text}

theorem IsBreak.isLineBreak (isBreak : IsBreak ending) :
    ∀ char ∈ ending, Text.isLineBreak char = true := by
  cases isBreak with
  | single breaks =>
      intro char inside
      rwa [List.mem_singleton.mp inside]
  | pair => simp [Text.isLineBreak]

theorem isLineBreak_of_ending (isEnding : ending = [] ∨ IsBreak ending) :
    ∀ char ∈ ending, Text.isLineBreak char = true := by
  rcases isEnding with rfl | isBreak
  · simp
  · exact isBreak.isLineBreak

theorem IsBreak.ne_nil (isBreak : IsBreak ending) : ending ≠ [] := by
  cases isBreak <;> simp

theorem lineBreak_append (unbroken : IsUnbroken content)
    (broken : ∀ char ∈ ending.head?, Text.isLineBreak char = true) :
    lineBreak (content ++ ending) = ending := by
  apply dropWhile_append_stop (isUnbroken_iff.mp unbroken)
  intro char first
  simp [broken char first]

theorem lineBreak_of_unbroken (unbroken : IsUnbroken content) : lineBreak content = [] :=
  List.dropWhile_eq_nil_iff.mpr (isUnbroken_iff.mp unbroken)

theorem lineContent_append (unbroken : IsUnbroken content)
    (broken : ∀ char ∈ ending.head?, Text.isLineBreak char = true) :
    lineContent (content ++ ending) = content := by
  apply takeWhile_append_stop (isUnbroken_iff.mp unbroken)
  intro char first
  simp [broken char first]

theorem IsBreak.isLineBreak_head (isBreak : IsBreak ending) :
    ∀ char ∈ ending.head?, Text.isLineBreak char = true := by
  intro char first
  exact isBreak.isLineBreak char (List.mem_of_mem_head? first)

end Ends

section Cutting

variable {content ending : Text} {rest : Text}

theorem splitLines_cons_of_unbroken {char : Char} (unbroken : Text.isLineBreak char = false) :
    splitLines (char :: rest) =
      match splitLines rest with
      | [] => [[char]]
      | line :: lines => (char :: line) :: lines := by
  have notReturn : char ≠ '\r' := by
    rintro rfl
    simp [Text.isLineBreak] at unbroken
  rw [splitLines]
  · exact if_neg (by simp [unbroken])
  · intro _ isReturn
    exact absurd isReturn notReturn

theorem splitLines_of_unbroken (unbroken : IsUnbroken content) (nonempty : content ≠ []) :
    splitLines content = [content] := by
  induction content with
  | nil => exact absurd rfl nonempty
  | cons char others ih =>
      rw [splitLines_cons_of_unbroken (unbroken char List.mem_cons_self)]
      by_cases alone : others = []
      · rw [alone]
        rfl
      · rw [ih (fun other inside => unbroken other (List.mem_cons_of_mem _ inside)) alone]

/-- A break is cut off as a line of its own, unless it is half of a pair. -/
theorem splitLines_break (isBreak : IsBreak ending)
    (apart : ending = ['\r'] → rest.head? ≠ some '\n') :
    splitLines (ending ++ rest) = ending :: splitLines rest := by
  cases isBreak with
  | pair => rfl
  | @single char breaks =>
      rw [List.singleton_append, splitLines]
      · simp [breaks]
      · rintro others rfl rfl
        exact apart rfl rfl

theorem splitLines_append (unbroken : IsUnbroken content) (isBreak : IsBreak ending)
    (apart : ending = ['\r'] → rest.head? ≠ some '\n') :
    splitLines (content ++ ending ++ rest) = (content ++ ending) :: splitLines rest := by
  induction content with
  | nil => exact splitLines_break isBreak apart
  | cons char others ih =>
      rw [List.cons_append, List.cons_append,
        splitLines_cons_of_unbroken (unbroken char List.mem_cons_self),
        ih fun other inside => unbroken other (List.mem_cons_of_mem _ inside)]

/-- Lines that are put together and cut again are the same lines. -/
theorem AreLines.splitLines_flatten {lines : List Text} (areLines : AreLines lines) :
    splitLines lines.flatten = lines := by
  induction areLines with
  | nil => rfl
  | last unbroken nonempty => simpa using splitLines_of_unbroken unbroken nonempty
  | cons unbroken isBreak apart _ ih =>
      rw [List.flatten_cons, splitLines_append unbroken isBreak apart, ih]

theorem flatten_splitLines (text : Text) : (splitLines text).flatten = text := by
  fun_induction splitLines text with
  | case1 => rfl
  | case2 rest ih => simp [ih]
  | case3 char rest _ breaks ih => simp [ih]
  | case4 char rest _ notBreak nothing ih =>
      rw [nothing] at ih
      simp [← ih]
  | case5 char rest _ notBreak line lines cut ih =>
      rw [cut] at ih
      simp [← ih]

/-- A further character in front of lines belongs to the first of them. -/
theorem AreLines.cons_unbroken {char : Char} {line : Text} {lines : List Text}
    (areLines : AreLines (line :: lines)) (unbroken : Text.isLineBreak char = false) :
    AreLines ((char :: line) :: lines) := by
  have extended : ∀ {content : Text}, IsUnbroken content → IsUnbroken (char :: content) := by
    intro content others other inside
    rcases List.mem_cons.mp inside with rfl | later
    · exact unbroken
    · exact others other later
  cases areLines with
  | last others _ => exact .last (extended others) (by simp)
  | cons others isBreak apart areLines => exact .cons (extended others) isBreak apart areLines

theorem AreLines.cons_break {lines : List Text} (isBreak : IsBreak ending)
    (apart : ending = ['\r'] → lines.flatten.head? ≠ some '\n') (areLines : AreLines lines) :
    AreLines (ending :: lines) := by
  have empty : IsUnbroken [] := by simp [IsUnbroken]
  exact .cons empty isBreak apart areLines

theorem areLines_splitLines (text : Text) : AreLines (splitLines text) := by
  fun_induction splitLines text with
  | case1 => exact .nil
  | case2 rest ih => exact .cons_break .pair (by simp) ih
  | case3 char rest notPair breaks ih =>
      refine .cons_break (.single breaks) ?_ ih
      intro isReturn
      rw [flatten_splitLines]
      intro first
      cases rest with
      | nil => simp at first
      | cons next others =>
          simp only [List.head?_cons, Option.some.injEq] at first
          exact notPair others (by simpa using isReturn) (by rw [first])
  | case4 char rest _ notBreak nothing ih =>
      refine .last ?_ (by simp)
      intro other inside
      rw [List.mem_singleton.mp inside]
      simpa using notBreak
  | case5 char rest _ notBreak line lines cut ih =>
      rw [cut] at ih
      exact ih.cons_unbroken (by simpa using notBreak)

end Cutting

section Exchanging

variable {line new : Text} {lines news : List Text}

/-- Every line is a content and a break, and only the last may do without a break. -/
theorem AreLines.exists_content (areLines : AreLines lines) (isLine : line ∈ lines) :
    ∃ content ending, line = content ++ ending ∧ IsUnbroken content ∧
      (ending = [] ∨ IsBreak ending) := by
  induction areLines with
  | nil => simp at isLine
  | @last content unbroken _ =>
      exact ⟨content, [], by simpa using isLine, unbroken, Or.inl rfl⟩
  | @cons content ending _ unbroken isBreak _ _ ih =>
      rcases List.mem_cons.mp isLine with rfl | later
      · exact ⟨content, ending, rfl, unbroken, Or.inr isBreak⟩
      · exact ih later

theorem AreLines.ne_nil (areLines : AreLines lines) (isLine : line ∈ lines) : line ≠ [] := by
  induction areLines with
  | nil => simp at isLine
  | last _ nonempty => rwa [List.mem_singleton.mp isLine]
  | cons _ isBreak _ _ ih =>
      rcases List.mem_cons.mp isLine with rfl | later
      · simp [isBreak.ne_nil]
      · exact ih later

/-- A line with another content and the same break; a content is not taken away. -/
def SameBreak (line new : Text) : Prop :=
  lineBreak new = lineBreak line ∧ (lineContent new = [] → lineContent line = [])

theorem SameBreak.eq_of_lineContent_eq_nil (same : SameBreak line new)
    (empty : lineContent new = []) : new = line := by
  rw [← lineContent_append_lineBreak new, ← lineContent_append_lineBreak line, same.1, empty,
    same.2 empty]

theorem SameBreak.eq_of_head? (same : SameBreak line new) {char : Char}
    (breaks : isLineBreak char = true) (first : new.head? = some char) : new = line := by
  apply same.eq_of_lineContent_eq_nil
  cases new with
  | nil => rfl
  | cons other others =>
      simp only [List.head?_cons, Option.some.injEq] at first
      simp [lineContent, first, breaks]

/-- Texts that keep the breaks of lines are lines again. -/
theorem AreLines.exchange (areLines : AreLines lines) (same : List.Forall₂ SameBreak lines news) :
    AreLines news := by
  induction areLines generalizing news with
  | nil =>
      cases same
      exact .nil
  | @last content unbroken nonempty =>
      obtain ⟨new, _, sameBreak, rest, rfl⟩ := List.forall₂_cons_left_iff.mp same
      cases rest
      have whole : lineContent new = new := by
        rw [← List.append_nil (lineContent new), ← lineBreak_of_unbroken unbroken, ← sameBreak.1,
          lineContent_append_lineBreak]
      refine .last (whole ▸ isUnbroken_lineContent new) ?_
      rintro rfl
      exact nonempty (sameBreak.eq_of_lineContent_eq_nil rfl).symm
  | @cons content ending lines unbroken isBreak apart areLines ih =>
      obtain ⟨new, others, sameBreak, rest, rfl⟩ := List.forall₂_cons_left_iff.mp same
      have ownBreak : lineBreak new = ending := by
        rw [sameBreak.1, lineBreak_append unbroken isBreak.isLineBreak_head]
      rw [← lineContent_append_lineBreak new, ownBreak]
      refine .cons (isUnbroken_lineContent new) isBreak ?_ (ih rest)
      intro isReturn startsWithFeed
      -- A line feed at the front of the next line was there before.
      apply apart isReturn
      cases rest with
      | nil => simp at startsWithFeed
      | @cons next newNext _ _ sameNext _ =>
          have filled : newNext ≠ [] := by
            rintro rfl
            exact areLines.ne_nil List.mem_cons_self
              (sameNext.eq_of_lineContent_eq_nil rfl).symm
          rw [List.flatten_cons, List.head?_append_of_ne_nil _ filled] at startsWithFeed
          rw [← sameNext.eq_of_head? (by decide) startsWithFeed, List.flatten_cons,
            List.head?_append_of_ne_nil _ filled, startsWithFeed]

end Exchanging

section CarriageReturns

/-- The text with a carriage return in front of every line feed. -/
def withReturns (text : Text) : Text :=
  text.flatMap fun char => if char = '\n' then ['\r', '\n'] else [char]

theorem withReturns_append (first second : Text) :
    withReturns (first ++ second) = withReturns first ++ withReturns second :=
  List.flatMap_append

theorem withReturns_of_notMem {text : Text} (free : '\n' ∉ text) : withReturns text = text := by
  induction text with
  | nil => rfl
  | cons char rest ih =>
      simp only [List.mem_cons, not_or] at free
      rw [← List.singleton_append, withReturns_append, ih free.2]
      simp [withReturns, Ne.symm free.1]

theorem flatten_map_withReturns (lines : List Text) :
    (lines.map withReturns).flatten = withReturns lines.flatten := by
  induction lines with
  | nil => rfl
  | cons line lines ih =>
      rw [List.map_cons, List.flatten_cons, ih, List.flatten_cons, withReturns_append]

theorem IsUnbroken.newline_notMem {content : Text} (unbroken : IsUnbroken content) :
    '\n' ∉ content := by
  intro inside
  exact absurd (unbroken '\n' inside) (by decide)

theorem AreLines.map_withReturns {lines : List Text} (areLines : AreLines lines)
    (free : '\r' ∉ lines.flatten) : AreLines (lines.map withReturns) := by
  induction areLines with
  | nil => exact .nil
  | last unbroken nonempty =>
      rw [List.map_singleton, withReturns_of_notMem unbroken.newline_notMem]
      exact .last unbroken nonempty
  | @cons content ending lines unbroken isBreak apart _ ih =>
      simp only [List.flatten_cons, List.mem_append, not_or] at free
      rw [List.map_cons, withReturns_append, withReturns_of_notMem unbroken.newline_notMem]
      cases isBreak with
      | pair => simp at free
      | @single char breaks =>
          by_cases isFeed : char = '\n'
          · have paired : withReturns [char] = ['\r', '\n'] := by
              simp [withReturns, isFeed]
            rw [paired]
            exact .cons unbroken .pair (by simp) (ih free.2)
          · have alone : withReturns [char] = [char] := by
              simp [withReturns, isFeed]
            rw [alone]
            refine .cons unbroken (.single breaks) ?_ (ih free.2)
            intro isReturn
            exact absurd (by rw [isReturn]; simp) free.1.2

/-- A text without carriage returns has the same lines, up to their ends, with them. -/
theorem splitLines_withReturns {text : Text} (free : '\r' ∉ text) :
    splitLines (withReturns text) = (splitLines text).map withReturns := by
  have areLines : AreLines ((splitLines text).map withReturns) := by
    apply (areLines_splitLines text).map_withReturns
    rwa [flatten_splitLines]
  rw [← areLines.splitLines_flatten, flatten_map_withReturns, flatten_splitLines]

end CarriageReturns

end Text

end IntraDoc
