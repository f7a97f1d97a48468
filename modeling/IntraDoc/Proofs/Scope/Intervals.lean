import IntraDoc.Conversion.Lines
import IntraDoc.Proofs.Scope.Block

/-!
# What a tracker means

A block of a file is an interval of lines, from its declaration to the first later line that begins
with its end marker. Of the declared blocks those are active that a greedy choice from the top of
the file takes: the first one, then the first one behind its interval, and so on. This file shows
that a tracker, wherever it was before, sees exactly the active blocks, each on its own interval.

The proof carries one invariant through a run. It says how the active blocks fall apart into those
that are over and those that the tracker still holds, and it has two forms: `Behind` holds between
two lines, `Reached` holds while a line is converted.
-/

namespace IntraDoc

namespace Block

/--
The last line of a block: its own line if it has one line only, and otherwise the first later line
that begins with the end marker, or the last line of the file if there is none.
-/
def lastLine (lines : List Text) (block : Block) : Int :=
  if block.isSingleLine then block.line
  else
    match (lines.drop block.line.toNat).findIdx? (Text.startsWith · block.endMarker) with
    | some distance => block.line + 1 + distance
    | none => lines.length

/-- Whether a line belongs to a block. -/
def covers (lines : List Text) (position : Int) (block : Block) : Bool :=
  block.line ≤ position && position ≤ block.lastLine lines

/-- The first block behind the limit, then the first one behind its last line, and so on. -/
def activeAfter (lines : List Text) (limit : Int) : List Block → List Block
  | [] => []
  | block :: others =>
    if limit < block.line then block :: activeAfter lines (block.lastLine lines) others
    else activeAfter lines limit others

/-- The blocks of a file that a greedy choice takes. -/
def active (lines : List Text) : List Block :=
  activeAfter lines 0 (declared lines)

section Intervals

variable {lines : List Text} {block : Block}

theorem line_le_length (isDeclared : block ∈ declared lines) :
    1 ≤ block.line ∧ block.line ≤ lines.length := by
  rcases mem_declared isDeclared with ⟨index, line, found, number, -⟩
  have inside := (List.getElem?_eq_some_iff.mp found).1
  omega

theorem line_le_lastLine (isDeclared : block ∈ declared lines) :
    block.line ≤ block.lastLine lines := by
  have bounds := line_le_length isDeclared
  unfold lastLine
  split
  · exact Int.le_refl _
  · split
    · omega
    · exact bounds.2

theorem lastLine_of_some {nearest : Nat} (several : block.isSingleLine = false)
    (first : (lines.drop block.line.toNat).findIdx? (Text.startsWith · block.endMarker) =
      some nearest) : block.lastLine lines = block.line + 1 + nearest := by
  simp [lastLine, several, first]

theorem lastLine_of_none (several : block.isSingleLine = false)
    (noEnd : (lines.drop block.line.toNat).findIdx? (Text.startsWith · block.endMarker) = none) :
    block.lastLine lines = lines.length := by
  simp [lastLine, several, noEnd]

section Behind

variable {line : Text} {distance : Nat} (several : block.isSingleLine = false)
  (found : (lines.drop block.line.toNat)[distance]? = some line)
  (within : block.line + 1 + distance ≤ block.lastLine lines)

include several found within

theorem lastLine_eq_of_startsWith (ends : Text.startsWith line block.endMarker = true) :
    block.lastLine lines = block.line + 1 + distance := by
  obtain ⟨inside, located⟩ := List.getElem?_eq_some_iff.mp found
  cases first : (lines.drop block.line.toNat).findIdx? (Text.startsWith · block.endMarker) with
  | none =>
      have noEnd := List.findIdx?_eq_none_iff.mp first line (List.mem_of_getElem? found)
      simp [ends] at noEnd
  | some nearest =>
      have last := lastLine_of_some several first
      rcases List.findIdx?_eq_some_iff_getElem.mp first with ⟨bound, -, earlier⟩
      by_contra different
      have before : distance < nearest := by omega
      exact earlier distance before (by rw [located]; exact ends)

theorem lt_lastLine_of_not_startsWith (goesOn : Text.startsWith line block.endMarker = false)
    (notLast : block.line + 1 + distance < lines.length) :
    block.line + 1 + distance < block.lastLine lines := by
  obtain ⟨inside, located⟩ := List.getElem?_eq_some_iff.mp found
  cases first : (lines.drop block.line.toNat).findIdx? (Text.startsWith · block.endMarker) with
  | none =>
      have last := lastLine_of_none several first
      omega
  | some nearest =>
      have last := lastLine_of_some several first
      rcases List.findIdx?_eq_some_iff_getElem.mp first with ⟨bound, ends, -⟩
      by_contra reached
      have same : distance = nearest := by omega
      subst same
      rw [located, goesOn] at ends
      simp at ends

end Behind

/-- A line inside a block is the line of its declaration or stands behind it. -/
theorem declaration_or_behind {index : Nat} {line : Text} (isDeclared : block ∈ declared lines)
    (found : lines[index]? = some line) (opened : block.line ≤ index + 1) :
    (block.line = index + 1 ∧ ofLine? line block.line = some block) ∨
      ∃ distance : Nat, (index : Int) + 1 = block.line + 1 + distance ∧
        (lines.drop block.line.toNat)[distance]? = some line := by
  rcases mem_declared isDeclared with ⟨own, declaration, ownFound, number, declares⟩
  by_cases same : own = index
  · subst same
    rw [found, Option.some.injEq] at ownFound
    exact Or.inl ⟨number, ownFound ▸ declares⟩
  · refine Or.inr ⟨index - (own + 1), by omega, ?_⟩
    have shifted : block.line.toNat + (index - (own + 1)) = index := by omega
    rw [List.getElem?_drop, shifted, found]

theorem lastLine_eq_of_closes {index : Nat} {line : Text} (isDeclared : block ∈ declared lines)
    (found : lines[index]? = some line) (opened : block.line ≤ index + 1)
    (within : (index : Int) + 1 ≤ block.lastLine lines)
    (closed : Tracker.closes block line = true) : block.lastLine lines = index + 1 := by
  rw [Tracker.closes, Bool.or_eq_true] at closed
  by_cases single : block.isSingleLine = true
  · have own : block.lastLine lines = block.line := if_pos single
    omega
  · rw [Bool.not_eq_true] at single
    have ends := closed.resolve_left (by simp [single])
    rcases declaration_or_behind isDeclared found opened with
      ⟨-, declares⟩ | ⟨distance, place, behind⟩
    · simp [startsWith_endMarker_eq_false declares single] at ends
    · rw [place] at within ⊢
      exact lastLine_eq_of_startsWith single behind within ends

/-- A block that a line leaves open goes on, unless the file ends there. -/
theorem lt_lastLine_of_not_closes {index : Nat} {line : Text} (isDeclared : block ∈ declared lines)
    (found : lines[index]? = some line) (opened : block.line ≤ index + 1)
    (within : (index : Int) + 1 ≤ block.lastLine lines)
    (notClosed : Tracker.closes block line = false) (notLast : index + 1 < lines.length) :
    (index : Int) + 1 < block.lastLine lines := by
  rw [Tracker.closes, Bool.or_eq_false_iff] at notClosed
  rcases declaration_or_behind isDeclared found opened with ⟨number, -⟩ | ⟨distance, place, behind⟩
  · cases first : (lines.drop block.line.toNat).findIdx? (Text.startsWith · block.endMarker) with
    | none =>
        have last := lastLine_of_none notClosed.1 first
        omega
    | some nearest =>
        have last := lastLine_of_some notClosed.1 first
        omega
  · rw [place] at within ⊢
    exact lt_lastLine_of_not_startsWith notClosed.1 behind within notClosed.2 (by omega)

end Intervals

section Greedy

variable {lines : List Text} {blocks : List Block} {block : Block} {limit : Int}

theorem limit_lt_of_mem_activeAfter (areDeclared : ∀ block ∈ blocks, block ∈ declared lines)
    (chosen : block ∈ activeAfter lines limit blocks) : limit < block.line := by
  induction blocks generalizing limit with
  | nil => simp [activeAfter] at chosen
  | cons first others ih =>
      have firstDeclared := areDeclared first (by simp)
      have othersDeclared : ∀ block ∈ others, block ∈ declared lines := by
        intro other isOther
        exact areDeclared other (List.mem_cons_of_mem _ isOther)
      unfold activeAfter at chosen
      split at chosen
      · rename_i later
        rcases List.mem_cons.mp chosen with rfl | behind
        · exact later
        · have next := ih othersDeclared behind
          have grows := line_le_lastLine firstDeclared
          omega
      · exact ih othersDeclared chosen

theorem pairwise_activeAfter (areDeclared : ∀ block ∈ blocks, block ∈ declared lines) :
    (activeAfter lines limit blocks).Pairwise fun earlier later =>
      earlier.lastLine lines < later.line := by
  induction blocks generalizing limit with
  | nil => simp [activeAfter]
  | cons first others ih =>
      have othersDeclared : ∀ block ∈ others, block ∈ declared lines := by
        intro other isOther
        exact areDeclared other (List.mem_cons_of_mem _ isOther)
      unfold activeAfter
      split
      · refine List.pairwise_cons.mpr ⟨?_, ih othersDeclared⟩
        intro later chosen
        exact limit_lt_of_mem_activeAfter othersDeclared chosen
      · exact ih othersDeclared

theorem pairwise_active :
    (active lines).Pairwise fun earlier later => earlier.lastLine lines < later.line :=
  pairwise_activeAfter fun _ isDeclared => isDeclared

/-- A block that is declared inside an active block is not active. -/
theorem notMem_active_of_inside {inner : Block} (isActive : block ∈ active lines)
    (isDeclared : inner ∈ declared lines) (behind : block.line < inner.line)
    (within : inner.line ≤ block.lastLine lines) : inner ∉ active lines := by
  intro innerActive
  have grows := line_le_lastLine isDeclared
  obtain ⟨place, bound, rfl⟩ := List.mem_iff_getElem.mp isActive
  obtain ⟨innerPlace, innerBound, rfl⟩ := List.mem_iff_getElem.mp innerActive
  have disjoint : (active lines).Pairwise fun earlier later =>
      earlier.lastLine lines < later.line := pairwise_active
  have follow := List.pairwise_iff_getElem.mp disjoint
  rcases Nat.lt_trichotomy place innerPlace with before | same | after
  · have later := follow place innerPlace bound innerBound before
    omega
  · subst same
    omega
  · have earlier := follow innerPlace place innerBound bound after
    omega

/-- Passing over the blocks up to a line is what the greedy choice does first. -/
theorem activeAfter_eq_dropWhile :
    activeAfter lines limit blocks =
      match blocks.dropWhile fun block => block.line < limit + 1 with
      | [] => []
      | block :: others => block :: activeAfter lines (block.lastLine lines) others := by
  induction blocks with
  | nil => rfl
  | cons first others ih =>
      by_cases later : limit < first.line
      · have notPassed : ¬first.line < limit + 1 := by omega
        simp only [activeAfter, later, if_true, notPassed, decide_false, Bool.false_eq_true,
          not_false_eq_true, List.dropWhile_cons_of_neg]
      · have passed : first.line < limit + 1 := by omega
        simp only [activeAfter, later, if_false, passed, decide_true, List.dropWhile_cons_of_pos]
        exact ih

end Greedy

end Block

namespace Tracker

section Steps

variable {lines : List Text} {tracker : Tracker} {count : Nat}

/-- The active blocks that are not over: the current one and those that will be chosen behind it. -/
def upcoming (lines : List Text) (tracker : Tracker) : List Block :=
  match tracker.current with
  | some block => block :: Block.activeAfter lines (block.lastLine lines) tracker.pending
  | none => Block.activeAfter lines tracker.position tracker.pending

/-- What holds behind the first `count` lines of a file; the current block is not over. -/
structure Behind (lines : List Text) (count : Nat) (tracker : Tracker) : Prop where
  position : tracker.position = count
  pending : ∀ block ∈ tracker.pending, block ∈ Block.declared lines
  active : ∃ passed, Block.active lines = passed ++ tracker.upcoming lines ∧
    ∀ block ∈ passed, block.lastLine lines ≤ count
  current : ∀ block ∈ tracker.current, block ∈ Block.declared lines ∧
    (count < lines.length → count < block.lastLine lines)

/--
What holds when a tracker has reached the line behind the first `count` lines. The line is not
behind the current block, and without a current block there are no blocks left.
-/
structure Reached (lines : List Text) (count : Nat) (tracker : Tracker) : Prop where
  position : tracker.position = count + 1
  pending : ∀ block ∈ tracker.pending, block ∈ Block.declared lines
  active : ∃ passed, Block.active lines = passed ++ tracker.upcoming lines ∧
    ∀ block ∈ passed, block.lastLine lines ≤ count
  current : ∀ block ∈ tracker.current, block ∈ Block.declared lines ∧
    count + 1 ≤ block.lastLine lines
  finished : tracker.current = none → tracker.pending = []

/-- What the step to the next line can do. -/
theorem advance_cases (tracker : Tracker) :
    (∃ block, tracker.current = some block ∧
      tracker.advance = ⟨tracker.position + 1, some block, tracker.pending⟩) ∨
    (tracker.current = none ∧
      (tracker.pending.dropWhile fun block => block.line < tracker.position + 1) = [] ∧
      tracker.advance = ⟨tracker.position + 1, none, []⟩) ∨
    (tracker.current = none ∧ ∃ block others,
      (tracker.pending.dropWhile fun block => block.line < tracker.position + 1) =
        block :: others ∧
      tracker.advance = ⟨tracker.position + 1, some block, others⟩) := by
  rcases tracker with ⟨position, _ | block, pending⟩
  · cases left : pending.dropWhile fun block => block.line < position + 1 with
    | nil => exact Or.inr (Or.inl ⟨rfl, rfl, by simp only [advance, enter, left]⟩)
    | cons block others =>
        exact Or.inr (Or.inr ⟨rfl, block, others, rfl, by simp only [advance, enter, left]⟩)
  · exact Or.inl ⟨block, rfl, rfl⟩

/-- What leaving a line can do. -/
theorem leave_cases (tracker : Tracker) (line : Text) :
    (∃ block, tracker.current = some block ∧ block.line ≤ tracker.position ∧
      closes block line = true ∧
      tracker.leave line = ⟨tracker.position, none, tracker.pending⟩) ∨
    ((∀ block ∈ tracker.current, block.line ≤ tracker.position → closes block line = false) ∧
      tracker.leave line = tracker) := by
  rcases tracker with ⟨position, _ | block, pending⟩
  · exact Or.inr ⟨by simp, rfl⟩
  · by_cases ends : block.line ≤ position ∧ closes block line = true
    · exact Or.inl ⟨block, rfl, ends.1, ends.2, by simp [leave, ends.1, ends.2]⟩
    · refine Or.inr ⟨?_, by simp only [leave, Bool.and_eq_true, decide_eq_true_eq, ends, if_false]⟩
      rintro _ ⟨⟩ opened
      rw [Bool.eq_false_iff]
      exact fun closed => ends ⟨opened, closed⟩

theorem behind_reset (prior : Tracker) (lines : List Text) :
    Behind lines 0 (prior.reset lines) := by
  refine ⟨rfl, fun block isPending => isPending, ⟨[], rfl, by simp⟩, ?_⟩
  simp [reset]

theorem Behind.reached (behind : Behind lines count tracker) (more : count < lines.length) :
    Reached lines count tracker.advance := by
  rcases behind with ⟨position, pending, ⟨passed, active, isOver⟩, current⟩
  have chosen : Block.activeAfter lines tracker.position tracker.pending = _ :=
    Block.activeAfter_eq_dropWhile
  rcases advance_cases tracker with ⟨block, isCurrent, next⟩ | ⟨noCurrent, nothing, next⟩ |
    ⟨noCurrent, block, others, left, next⟩
  · have blockFacts := current block isCurrent
    rw [next]
    refine ⟨by simp [position], pending, ⟨passed, ?_, isOver⟩, ?_, by simp⟩
    · simpa [upcoming, isCurrent] using active
    · rintro _ ⟨⟩
      exact ⟨blockFacts.1, blockFacts.2 more⟩
  · rw [nothing] at chosen
    rw [next]
    refine ⟨by simp [position], by simp, ⟨passed, ?_, isOver⟩, by simp, fun _ => rfl⟩
    simpa [upcoming, noCurrent, chosen, Block.activeAfter] using active
  · rw [left] at chosen
    have remaining : ∀ other ∈ block :: others, other ∈ Block.declared lines := by
      intro other isOther
      exact pending other ((List.dropWhile_sublist _).subset (left ▸ isOther))
    have blockDeclared := remaining block (by simp)
    have notPassed : decide (block.line < tracker.position + 1) = false :=
      head?_dropWhile block (by rw [left]; rfl)
    rw [decide_eq_false_iff_not] at notPassed
    rw [next]
    refine ⟨by simp [position], ?_, ⟨passed, ?_, isOver⟩, ?_, by simp⟩
    · exact fun other isOther => remaining other (List.mem_cons_of_mem _ isOther)
    · simpa [upcoming, noCurrent, chosen] using active
    · rintro _ ⟨⟩
      have grows := Block.line_le_lastLine blockDeclared
      exact ⟨blockDeclared, by omega⟩

theorem Reached.behind {line : Text} (reached : Reached lines count tracker)
    (found : lines[count]? = some line) : Behind lines (count + 1) (tracker.leave line) := by
  rcases reached with ⟨position, pending, ⟨passed, active, isOver⟩, current, finished⟩
  rcases leave_cases tracker line with ⟨block, isCurrent, opened, closed, next⟩ | ⟨goesOn, next⟩
  · have ⟨blockDeclared, within⟩ := current block isCurrent
    have last := Block.lastLine_eq_of_closes blockDeclared found (by omega) within closed
    rw [next]
    refine ⟨by simp [position], pending, ⟨passed ++ [block], ?_, ?_⟩, by simp⟩
    · simpa [upcoming, isCurrent, last, position] using active
    · intro other isOther
      rcases List.mem_append.mp isOther with earlier | isBlock
      · have ended := isOver other earlier
        omega
      · rw [List.mem_singleton.mp isBlock, last]
        omega
  · rw [next]
    refine ⟨by simp [position], pending, ⟨passed, active, ?_⟩, ?_⟩
    · intro other isOther
      have ended := isOver other isOther
      omega
    · intro block isCurrent
      have ⟨blockDeclared, within⟩ := current block isCurrent
      refine ⟨blockDeclared, ?_⟩
      intro more
      by_cases opened : block.line ≤ count + 1
      · have notClosed := goesOn block isCurrent (by omega)
        have later :=
          Block.lt_lastLine_of_not_closes blockDeclared found opened within notClosed more
        omega
      · have grows := Block.line_le_lastLine blockDeclared
        omega

theorem Reached.mem_active (reached : Reached lines count tracker) :
    ∀ block ∈ tracker.current, block ∈ Block.active lines := by
  intro block isCurrent
  rcases reached.active with ⟨passed, active, -⟩
  rw [Option.mem_def] at isCurrent
  simp [active, upcoming, isCurrent]

/-- On a line that has been reached, the type in scope is that of the active block around it. -/
theorem Reached.currentType_eq (reached : Reached lines count tracker) :
    tracker.currentType =
      ((Block.active lines).find? (Block.covers lines (count + 1))).map Block.name := by
  rcases reached with ⟨position, pending, ⟨passed, active, isOver⟩, current, finished⟩
  have passedOver : passed.find? (Block.covers lines (count + 1)) = none := by
    rw [List.find?_eq_none]
    intro block isPassed
    have ended := isOver block isPassed
    simp only [Block.covers, Bool.and_eq_true, decide_eq_true_eq, not_and]
    omega
  rw [active, List.find?_append, passedOver, Option.none_or]
  cases isCurrent : tracker.current with
  | none => simp [currentType, upcoming, isCurrent, finished isCurrent, Block.activeAfter]
  | some block =>
      have ⟨blockDeclared, within⟩ := current block isCurrent
      by_cases opened : block.line ≤ count + 1
      · have covered : Block.covers lines (count + 1) block = true := by
          simp [Block.covers, opened, within]
        have notBefore : ¬tracker.position < block.line := by omega
        simp [currentType, upcoming, isCurrent, notBefore, covered]
      · have grows := Block.line_le_lastLine blockDeclared
        have noneCovers :
            (tracker.upcoming lines).find? (Block.covers lines (count + 1)) = none := by
          rw [List.find?_eq_none]
          intro other isUpcoming
          simp only [upcoming, isCurrent, List.mem_cons] at isUpcoming
          simp only [Block.covers, Bool.and_eq_true, decide_eq_true_eq, not_and]
          rcases isUpcoming with rfl | later
          · omega
          · have behind := Block.limit_lt_of_mem_activeAfter pending later
            omega
        have before : tracker.position < block.line := by omega
        simp [noneCovers, currentType, isCurrent, before]

theorem Reached.isWord_currentType (reached : Reached lines count tracker) :
    ∀ name ∈ tracker.currentType, ∀ char ∈ name, Text.isWord char = true := by
  intro name inScope
  unfold currentType at inScope
  split at inScope
  · rename_i block isCurrent
    split at inScope
    · simp at inScope
    · rw [Option.mem_def, Option.some.injEq] at inScope
      obtain ⟨index, line, -, -, declares⟩ :=
        Block.mem_declared (reached.current block isCurrent).1
      exact inScope ▸ Block.isWord_of_ofLine? declares
  · simp at inScope

end Steps

section Runs

variable (settings : Settings)

theorem run_append (tracker : Tracker) (before after : List Text) :
    tracker.run settings (before ++ after) =
      ((tracker.run settings before).1 ++
          ((tracker.run settings before).2.run settings after).1,
        ((tracker.run settings before).2.run settings after).2) := by
  induction before generalizing tracker with
  | nil => rfl
  | cons line before ih => simp [run, ih]

theorem length_run (tracker : Tracker) (lines : List Text) :
    (tracker.run settings lines).1.length = lines.length := by
  induction lines generalizing tracker with
  | nil => rfl
  | cons line lines ih => simp [run, ih]

/-- The invariant holds behind every line of a run. -/
theorem behind_run (prior : Tracker) {lines : List Text} {count : Nat}
    (bound : count ≤ lines.length) :
    Behind lines count ((prior.reset lines).run settings (lines.take count)).2 := by
  induction count with
  | zero => simpa [run] using behind_reset prior lines
  | succ count ih =>
      have found : lines[count]? = some lines[count] := List.getElem?_eq_getElem bound
      have reached := (ih (by omega)).reached bound
      rw [List.take_add_one, found, Option.toList_some, run_append]
      exact reached.behind found

/-- The action for a line is the one that the tracker gives when it has reached the line. -/
theorem getElem?_run (tracker : Tracker) {lines : List Text} {index : Nat} {line : Text}
    (found : lines[index]? = some line) :
    (tracker.run settings lines).1[index]? =
      some ((tracker.run settings (lines.take index)).2.advance.actionFor settings line) := by
  obtain ⟨bound, located⟩ := List.getElem?_eq_some_iff.mp found
  have split : lines = lines.take index ++ line :: lines.drop (index + 1) := by
    rw [← located, List.getElem_cons_drop, List.take_append_drop]
  have short : (tracker.run settings (lines.take index)).1.length = index := by
    rw [length_run, List.length_take]
    omega
  have whole := run_append settings tracker (lines.take index) (line :: lines.drop (index + 1))
  rw [← split] at whole
  rw [whole, List.getElem?_append_right (by omega), short]
  simp [run, step]

/-- Every action of a conversion is that of a tracker which has reached the line. -/
theorem exists_reached {lines : List Text} {index : Nat} {action : Action}
    (found : (convertLines settings lines)[index]? = some action) :
    ∃ line tracker, lines[index]? = some line ∧ Reached lines index tracker ∧
      action = tracker.actionFor settings line := by
  have bound : index < lines.length := by
    rw [← length_run settings (start lines) lines]
    exact (List.getElem?_eq_some_iff.mp found).1
  have isLine : lines[index]? = some lines[index] := List.getElem?_eq_getElem bound
  refine ⟨lines[index], ((start lines).run settings (lines.take index)).2.advance, isLine,
    (behind_run settings {} (Nat.le_of_lt bound)).reached bound, ?_⟩
  rw [convertLines, getElem?_run settings (start lines) isLine, Option.some.injEq] at found
  exact found.symm

/--
A tracker sees the active blocks, each on its own interval. For every line of a file, whatever the
tracker did before: the line is converted in the scope of the active block around it; a block that
has been taken up is active and stays invisible before its own line; the intervals of the active
blocks are disjoint; and a declaration inside one of them is never taken up.
-/
theorem currentType_eq_active (prior : Tracker) {lines : List Text} {index : Nat} {line : Text}
    (found : lines[index]? = some line) :
    let reached := ((prior.reset lines).run settings (lines.take index)).2.advance
    let position : Int := index + 1
    ((prior.reset lines).run settings lines).1[index]? = some (reached.actionFor settings line) ∧
      reached.currentType =
        ((Block.active lines).find? (Block.covers lines position)).map Block.name ∧
      (∀ block ∈ reached.current, block ∈ Block.active lines ∧
        (position < block.line → reached.currentType = none)) ∧
      (Block.active lines).Pairwise (fun earlier later => earlier.lastLine lines < later.line) ∧
      ∀ block ∈ Block.active lines, ∀ inner ∈ Block.declared lines, block.line < inner.line →
        inner.line ≤ block.lastLine lines →
        inner ∉ Block.active lines ∧ reached.current ≠ some inner := by
  intro reached position
  have bound := (List.getElem?_eq_some_iff.mp found).1
  have invariant : Reached lines index reached :=
    (behind_run settings prior (by omega)).reached bound
  refine ⟨getElem?_run settings _ found, invariant.currentType_eq, ?_, Block.pairwise_active, ?_⟩
  · intro block isCurrent
    refine ⟨invariant.mem_active block isCurrent, ?_⟩
    intro early
    rw [Option.mem_def] at isCurrent
    have before : reached.position < block.line := by rw [invariant.position]; exact early
    simp [currentType, isCurrent, before]
  · intro block isActive inner isDeclared behind within
    have notActive := Block.notMem_active_of_inside isActive isDeclared behind within
    refine ⟨notActive, ?_⟩
    intro isCurrent
    exact notActive (invariant.mem_active inner isCurrent)

/-- A declaration inside another block, behind a tracker that comes from another file. -/
theorem currentType_eq_active_nested :
    let lines := ["struct Outer(\n".toList, "    struct Inner(\n".toList, "    )\n".toList,
      ")\n".toList, "trait Open\n".toList]
    let prior : Tracker := ⟨7, some ⟨"Old".toList, ")".toList, 3⟩, []⟩
    let reached := ((prior.reset lines).run {} (lines.take 2)).2.advance
    lines[2]? = some "    )\n".toList ∧
      reached.currentType = ((Block.active lines).find? (Block.covers lines 3)).map Block.name ∧
      ((Block.active lines).find? (Block.covers lines 3)).map Block.name =
        some "Outer".toList := by
  intro lines prior reached
  have found : lines[2]? = some "    )\n".toList := by decide +kernel
  exact ⟨found, (currentType_eq_active {} prior found).2.1, by decide +kernel⟩

end Runs

end Tracker

end IntraDoc
