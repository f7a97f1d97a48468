import IntraDoc.Line.Converted
import IntraDoc.Proofs.Line.LongForm
import IntraDoc.Proofs.Link.Path

/-!
# The one way to split a long-form line

The grammar of a long-form line leaves open which bracket ends the name: a name may hold brackets,
and even `]:`. All that follows the name is free of brackets, though, so in every way to match the
grammar the name ends at the last bracket of the line. Around that bracket each part ends where the
next one has to begin, and no line matches in two ways.
-/

namespace IntraDoc

/-- A long-form line in parts. -/
@[ext]
structure LongSplit where
  /-- The blanks at the beginning. -/
  indent : Text
  /-- The marker of a doc comment, or nothing. -/
  marker : Text
  /-- The blanks behind the marker. -/
  markerGap : Text
  /-- The text between the brackets. -/
  name : Text
  /-- The blanks before the target. -/
  gap : Text
  /-- The scheme of the target, or nothing. -/
  scheme : Text
  /-- The rest of the target. -/
  path : Text
  /-- The line break, or nothing. -/
  lineEnd : Text
deriving DecidableEq

namespace LongSplit

def target (parts : LongSplit) : Text :=
  parts.scheme ++ parts.path

/-- The line up to the bracket that ends the name. -/
def before (parts : LongSplit) : Text :=
  parts.indent ++ (parts.marker ++ (parts.markerGap ++ '[' :: parts.name))

/-- The line behind that bracket. -/
def after (parts : LongSplit) : Text :=
  ':' :: (parts.gap ++ (parts.target ++ parts.lineEnd))

def text (parts : LongSplit) : Text :=
  parts.before ++ ']' :: parts.after

/-- The link with this name and target, in the places that the parts give them. -/
def candidate (parts : LongSplit) : Candidate :=
  let start := parts.before.length + 2 + parts.gap.length
  ⟨parts.name, parts.target, .long, ⟨start, start + parts.target.length⟩, ⟨0, parts.text.length⟩⟩

/-- The parts are those of the grammar, which does not say where the last bracket stands. -/
structure IsMatch (parts : LongSplit) : Prop where
  indent : ∀ char ∈ parts.indent, Text.isBlank char = true
  marker : parts.marker = [] ∨ parts.marker = "///".toList ∨ parts.marker = "//!".toList
  markerGap : ∀ char ∈ parts.markerGap, Text.isBlank char = true
  unmarked : parts.marker = [] → parts.markerGap = []
  name : '\n' ∉ parts.name
  gap : ∀ char ∈ parts.gap, Text.isBlank char = true
  scheme : parts.scheme = [] ∨ parts.scheme = "http:".toList ∨ parts.scheme = "https:".toList
  path : parts.path ≠ []
  allowed : ∀ char ∈ parts.path, LinkTarget.isChar char = true
  lineEnd : parts.lineEnd = [] ∨ parts.lineEnd = ['\n'] ∨ parts.lineEnd = ['\r', '\n']

/-- The parts as the reader cuts them, the front and the target in one piece each. -/
def line (parts : LongSplit) : LongLine :=
  ⟨parts.indent ++ (parts.marker ++ parts.markerGap), parts.name, parts.gap, parts.target,
    parts.lineEnd⟩

theorem text_line (parts : LongSplit) : parts.line.text = parts.text := by
  simp [line, LongLine.text, LongLine.body, text, before, after]

theorem candidate_line (parts : LongSplit) : parts.line.candidate = parts.candidate := by
  have start : parts.line.header.length = parts.before.length + 2 + parts.gap.length := by
    simp only [line, LongLine.header, before, List.length_append, List.length_cons]
    omega
  unfold LongLine.candidate
  rw [start, text_line]
  rfl

variable {parts other : LongSplit}

theorem exists_isMatch {line : LongLine} (wellFormed : line.WellFormed) :
    ∃ parts : LongSplit, parts.IsMatch ∧ parts.line = line := by
  rcases line with ⟨front, name, gap, target, lineEnd⟩
  rcases wellFormed with ⟨isFront, unbroken, blank, isWhole, isEnd⟩
  rcases isWhole with ⟨scheme, path, shape, isScheme, filled, allowed⟩
  have isEnd := LongForm.isLineEnd_iff.mp isEnd
  cases isFront with
  | blank indented =>
      exact ⟨⟨front, [], [], name, gap, scheme, path, lineEnd⟩,
        ⟨indented, Or.inl rfl, by simp, fun _ => rfl, unbroken, blank, isScheme, filled, allowed,
          isEnd⟩,
        by simpa [line, LongSplit.target] using shape.symm⟩
  | @marked indent marker markerGap indented isMarker apart =>
      have filledMarker : marker ≠ [] := by
        rcases isMarker with rfl | rfl <;> simp
      exact ⟨⟨indent, marker, markerGap, name, gap, scheme, path, lineEnd⟩,
        ⟨indented, Or.inr isMarker, apart, fun unmarked => absurd unmarked filledMarker, unbroken,
          blank, isScheme, filled, allowed, isEnd⟩,
        by simpa [line, LongSplit.target] using shape.symm⟩

namespace IsMatch

theorem isWhole (isMatch : parts.IsMatch) : LinkTarget.IsWhole parts.target :=
  ⟨parts.scheme, parts.path, rfl, isMatch.scheme, isMatch.path, isMatch.allowed⟩

theorem isFront (isMatch : parts.IsMatch) :
    LongForm.IsFront (parts.indent ++ (parts.marker ++ parts.markerGap)) := by
  rcases isMatch.marker with unmarked | isMarker
  · rw [isMatch.unmarked unmarked, unmarked, List.append_nil, List.append_nil]
    exact .blank isMatch.indent
  · exact .marked isMatch.indent isMarker isMatch.markerGap

theorem wellFormed (isMatch : parts.IsMatch) : parts.line.WellFormed :=
  ⟨isMatch.isFront, isMatch.name, isMatch.gap, isMatch.isWhole,
    LongForm.isLineEnd_iff.mpr isMatch.lineEnd⟩

/-- No part behind the name can hold a bracket, so the name ends at the last one. -/
theorem bracket_notMem_after (isMatch : parts.IsMatch) : ']' ∉ parts.after :=
  isMatch.wellFormed.bracket_notMem

theorem read?_text (isMatch : parts.IsMatch) :
    LongForm.read? parts.text = some parts.candidate := by
  rw [← text_line, ← candidate_line]
  exact isMatch.wellFormed.read?_text

/-- Behind the indent stands a marker or a bracket. -/
theorem stop_indent (isMatch : parts.IsMatch) :
    ∀ char ∈ (parts.marker ++ (parts.markerGap ++ '[' :: parts.name)).head?,
      Text.isBlank char = false := by
  intro char first
  rcases isMatch.marker with unmarked | marked | marked
  · rw [isMatch.unmarked unmarked, unmarked] at first
    simp only [List.nil_append, List.head?_cons, Option.mem_some_iff] at first
    exact first ▸ by decide
  · rw [marked] at first
    exact Option.mem_some_iff.mp first ▸ by decide
  · rw [marked] at first
    exact Option.mem_some_iff.mp first ▸ by decide

theorem isMarkerChar (isMatch : parts.IsMatch) :
    ∀ char ∈ parts.marker, (char = '/' || char = '!' : Bool) = true := by
  apply List.all_eq_true.mp
  rcases isMatch.marker with marked | marked | marked
  all_goals
    rw [marked]
    decide

/-- A marker ends at a blank or at the bracket. -/
theorem stop_marker (isMatch : parts.IsMatch) :
    ∀ char ∈ (parts.markerGap ++ '[' :: parts.name).head?,
      (char = '/' || char = '!' : Bool) = false := by
  have apart : Text.blanks.all (fun char => !(char = '/' || char = '!' : Bool)) = true := by decide
  intro char first
  rcases shape : parts.markerGap with - | ⟨blank, rest⟩
  · rw [shape] at first
    exact Option.mem_some_iff.mp first ▸ by decide
  · rw [shape] at first
    have isBlank := isMatch.markerGap char (by simp_all)
    simpa using Text.forall_isBlank apart isBlank

section Unique

variable (isMatch : parts.IsMatch) (isOther : other.IsMatch)
include isMatch isOther

theorem before_after_eq (same : parts.text = other.text) :
    parts.before = other.before ∧ parts.after = other.after := by
  have cut : Text.splitAtLast? ']' parts.text = some (parts.before, parts.after) :=
    Text.splitAtLast?_eq_some_iff.mpr ⟨rfl, isMatch.bracket_notMem_after⟩
  have otherCut : Text.splitAtLast? ']' other.text = some (other.before, other.after) :=
    Text.splitAtLast?_eq_some_iff.mpr ⟨rfl, isOther.bracket_notMem_after⟩
  rw [same, otherCut] at cut
  simp only [Option.some.injEq, Prod.mk.injEq] at cut
  exact ⟨cut.1.symm, cut.2.symm⟩

theorem front_eq (same : parts.before = other.before) :
    parts.indent = other.indent ∧ parts.marker = other.marker ∧
      parts.markerGap = other.markerGap ∧ parts.name = other.name := by
  have bracketed (name : Text) : ∀ char ∈ ('[' :: name).head?, Text.isBlank char = false := by
    intro char first
    exact Option.mem_some_iff.mp first ▸ by decide
  obtain ⟨sameIndent, behindIndent⟩ :=
    append_stop_inj isMatch.indent isMatch.stop_indent isOther.indent isOther.stop_indent same
  obtain ⟨sameMarker, behindMarker⟩ :=
    append_stop_inj isMatch.isMarkerChar isMatch.stop_marker isOther.isMarkerChar
      isOther.stop_marker behindIndent
  obtain ⟨sameGap, behindGap⟩ :=
    append_stop_inj isMatch.markerGap (bracketed _) isOther.markerGap (bracketed _) behindMarker
  exact ⟨sameIndent, sameMarker, sameGap, (List.cons.inj behindGap).2⟩

theorem scheme_path_eq (same : parts.target = other.target) :
    parts.scheme = other.scheme ∧ parts.path = other.path := by
  have stop : ∀ char ∈ ([] : Text).head?, LinkTarget.isChar char = false ∧ char ≠ ':' := by simp
  have cut := LinkTarget.splitScheme_append_body isMatch.scheme isMatch.allowed stop
  have otherCut := LinkTarget.splitScheme_append_body isOther.scheme isOther.allowed stop
  simp only [List.append_nil] at cut otherCut
  unfold target at same
  rw [same, otherCut, Prod.mk.injEq] at cut
  exact ⟨cut.1.symm, cut.2.symm⟩

theorem back_eq (same : parts.after = other.after) :
    parts.gap = other.gap ∧ parts.target = other.target ∧ parts.lineEnd = other.lineEnd := by
  obtain ⟨sameGap, behind⟩ :=
    append_stop_inj isMatch.gap (isMatch.isWhole.head?_append_isBlank _) isOther.gap
      (isOther.isWhole.head?_append_isBlank _) (List.cons.inj same).2
  have read := LinkTarget.read?_of_isWhole isMatch.isWhole
    (LongForm.stop_of_isLineEnd (LongForm.isLineEnd_iff.mpr isMatch.lineEnd))
  have otherRead := LinkTarget.read?_of_isWhole isOther.isWhole
    (LongForm.stop_of_isLineEnd (LongForm.isLineEnd_iff.mpr isOther.lineEnd))
  rw [behind, otherRead] at read
  simp only [Option.some.injEq, Prod.mk.injEq] at read
  exact ⟨sameGap, read.1.symm, read.2.symm⟩

/-- No line matches in two ways. -/
theorem unique (same : parts.text = other.text) : parts = other := by
  obtain ⟨sameBefore, sameAfter⟩ := isMatch.before_after_eq isOther same
  obtain ⟨indent, marker, markerGap, name⟩ := isMatch.front_eq isOther sameBefore
  obtain ⟨gap, target, lineEnd⟩ := isMatch.back_eq isOther sameAfter
  obtain ⟨scheme, path⟩ := isMatch.scheme_path_eq isOther target
  exact LongSplit.ext indent marker markerGap name gap scheme path lineEnd

end Unique

end IsMatch

end LongSplit

namespace LongForm

theorem isSome_read?_iff {line : Text} :
    (read? line).isSome = true ↔ ∃ parts : LongSplit, parts.IsMatch ∧ line = parts.text := by
  rw [Option.isSome_iff_exists]
  constructor
  · rintro ⟨candidate, read⟩
    obtain ⟨whole, wellFormed, rfl, -⟩ := read?_eq_some_iff.mp read
    obtain ⟨parts, isMatch, rfl⟩ := LongSplit.exists_isMatch wellFormed
    exact ⟨parts, isMatch, parts.text_line⟩
  · rintro ⟨parts, isMatch, rfl⟩
    exact ⟨parts.candidate, isMatch.read?_text⟩

/--
A line is a long-form link exactly if its last bracket stands between the two halves of a match. It
matches in one way at most, however many brackets its name holds, and the parts of that match make
its only candidate, or none if the target is rooted.
-/
theorem read?_eq_split (line : Text) :
    ((read? line).isSome = true ↔
      ∃ parts : LongSplit, parts.IsMatch ∧ line = parts.before ++ ']' :: parts.after ∧
        ']' ∉ parts.after) ∧
    (∀ parts other : LongSplit, parts.IsMatch → other.IsMatch →
      parts.text = line → other.text = line → parts = other) ∧
    ∀ parts : LongSplit, parts.IsMatch → parts.text = line →
      ']' ∉ parts.after ∧ read? line = some parts.candidate ∧
      candidatesIn line = if parts.target.head? = some '/' then [] else [parts.candidate] := by
  refine ⟨?_, ?_, ?_⟩
  · rw [isSome_read?_iff]
    constructor
    · rintro ⟨parts, isMatch, shape⟩
      exact ⟨parts, isMatch, shape, isMatch.bracket_notMem_after⟩
    · rintro ⟨parts, isMatch, shape, -⟩
      exact ⟨parts, isMatch, shape⟩
  · rintro parts other isMatch isOther rfl same
    exact isMatch.unique isOther same.symm
  · rintro parts isMatch rfl
    refine ⟨isMatch.bracket_notMem_after, isMatch.read?_text, ?_⟩
    have sameTarget : parts.candidate.target = parts.target := rfl
    unfold candidatesIn
    simp only [isMatch.read?_text, sameTarget, LinkPath.isRooted_iff]

theorem read?_eq_split_bracketedName :
    candidatesIn "\t/// [a]: [b]]: https:c.html\r\n".toList =
        [⟨"a]: [b]".toList, "https:c.html".toList, .long, ⟨16, 28⟩, ⟨0, 30⟩⟩] ∧
      candidatesIn "[[a](b)]:/c".toList = [] := by
  have marked : LongSplit.IsMatch
      ⟨['\t'], "///".toList, [' '], "a]: [b]".toList, [' '], "https:".toList, "c.html".toList,
        ['\r', '\n']⟩ :=
    ⟨List.all_eq_true.mp (by decide), by decide, List.all_eq_true.mp (by decide), by decide,
      by decide, List.all_eq_true.mp (by decide), by decide, by decide,
      List.all_eq_true.mp (by decide), by decide⟩
  have rooted : LongSplit.IsMatch ⟨[], [], [], "[a](b)".toList, [], [], "/c".toList, []⟩ :=
    ⟨by simp, by decide, by simp, by decide, by decide, by simp, by decide, by decide,
      List.all_eq_true.mp (by decide), by decide⟩
  exact ⟨((read?_eq_split _).2.2 _ marked rfl).2.2, ((read?_eq_split _).2.2 _ rooted rfl).2.2⟩

end LongForm

end IntraDoc
