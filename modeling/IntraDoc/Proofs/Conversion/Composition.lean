import IntraDoc.Proofs.Scope.Intervals

/-!
# Converting a file in parts

Although a conversion looks for the declarations of all lines before it starts, no action depends on
a later line, and where no block is open a file can be cut in two and converted part by part.

The proof compares the run over a file with the runs over its parts. Over the first part, the
tracker of the whole file carries declarations that are still ahead and may have taken up the first
of them early: `Extends` says so, and a step keeps it. Behind the first part, the declarations that
were passed are dropped with the next step, and what remains is the tracker of the second part,
further down by the lines of the first.
-/

namespace IntraDoc

namespace Block

/-- The block, `count` lines further down. -/
def shift (count : Int) (block : Block) : Block :=
  { block with line := block.line + count }

theorem ofLine?_shift (line : Text) (position count : Int) :
    ofLine? line (position + count) = (ofLine? line position).map (shift count) := by
  simp only [ofLine?, Option.map_map]
  rfl

theorem declaredFrom_shift (position count : Int) (lines : List Text) :
    declaredFrom (position + count) lines = (declaredFrom position lines).map (shift count) := by
  induction lines generalizing position with
  | nil => rfl
  | cons line lines ih =>
      have next : position + count + 1 = position + 1 + count := by omega
      rw [declaredFrom, declaredFrom, List.map_append, next, ih, ofLine?_shift]
      cases ofLine? line position <;> rfl

theorem declaredFrom_append (position : Int) (before after : List Text) :
    declaredFrom position (before ++ after) =
      declaredFrom position before ++ declaredFrom (position + before.length) after := by
  induction before generalizing position with
  | nil => simp [declaredFrom]
  | cons line before ih =>
      have same : position + 1 + before.length = position + ((before.length + 1 : Nat) : Int) := by
        omega
      rw [List.cons_append, declaredFrom, declaredFrom, ih, List.append_assoc, List.length_cons,
        same]

theorem declared_append (before after : List Text) :
    declared (before ++ after) =
      declared before ++ (declared after).map (shift before.length) := by
  rw [declared, declaredFrom_append, declaredFrom_shift]
  rfl

end Block

/-- The action, `count` lines further down. -/
def Action.shift (count : Int) : Action → Action
  | kept line => kept line
  | dropped line position reason => dropped line (position + count) reason
  | replaced line new position => replaced line new (position + count)

namespace Tracker

/-- The tracker, `count` lines further down. -/
def shift (count : Int) (tracker : Tracker) : Tracker :=
  ⟨tracker.position + count, tracker.current.map (Block.shift count),
    tracker.pending.map (Block.shift count)⟩

section Shifting

variable (settings : Settings) (count : Int) (tracker : Tracker) (line : Text)

/-- The action for a line depends on the position and on the type in scope only. -/
theorem actionFor_congr {first second : Tracker} (samePosition : first.position = second.position)
    (sameType : first.currentType = second.currentType) :
    first.actionFor settings line = second.actionFor settings line := by
  simp only [actionFor, samePosition, sameType]

theorem currentType_shift : (tracker.shift count).currentType = tracker.currentType := by
  rcases tracker with ⟨position, _ | block, pending⟩
  · rfl
  · have same : position + count < block.line + count ↔ position < block.line := by omega
    simp only [currentType, shift, Option.map_some, Block.shift, same]

theorem advance_shift : (tracker.shift count).advance = tracker.advance.shift count := by
  rcases tracker with ⟨position, _ | block, pending⟩
  · have next : position + count + 1 = position + 1 + count := by omega
    have passed : ((fun block : Block => decide (block.line < position + 1 + count)) ∘
        Block.shift count) = fun block => decide (block.line < position + 1) := by
      funext block
      simp [Block.shift]
    have remaining : ((pending.map (Block.shift count)).dropWhile fun block =>
        block.line < position + 1 + count) =
        (pending.dropWhile fun block => block.line < position + 1).map (Block.shift count) := by
      rw [List.dropWhile_map, passed]
    simp only [advance, enter, shift, Option.map_none, next, remaining]
    cases pending.dropWhile fun block => block.line < position + 1 <;> rfl
  · have next : position + count + 1 = position + 1 + count := by omega
    simp only [advance, enter, shift, Option.map_some, next]

theorem leave_shift : (tracker.shift count).leave line = (tracker.leave line).shift count := by
  rcases tracker with ⟨position, _ | block, pending⟩
  · rfl
  · have same : block.line + count ≤ position + count ↔ block.line ≤ position := by omega
    have closed : closes (block.shift count) line = closes block line := rfl
    simp only [leave, shift, Option.map_some, closed]
    simp only [Block.shift, same]
    split <;> rfl

theorem actionFor_shift :
    (tracker.shift count).actionFor settings line =
      (tracker.actionFor settings line).shift count := by
  simp only [actionFor, currentType_shift]
  split
  · rfl
  · split <;> rfl

theorem run_shift (lines : List Text) :
    (tracker.shift count).run settings lines =
      ((tracker.run settings lines).1.map (Action.shift count),
        (tracker.run settings lines).2.shift count) := by
  induction lines generalizing tracker with
  | nil => rfl
  | cons line lines ih =>
      simp only [run, step, advance_shift, actionFor_shift, leave_shift, ih, List.map_cons]

end Shifting

section Positions

variable (settings : Settings) (tracker : Tracker)

theorem position_advance : tracker.advance.position = tracker.position + 1 := by
  rcases advance_cases tracker with ⟨block, -, next⟩ | ⟨-, -, next⟩ | ⟨-, block, others, -, next⟩
  all_goals rw [next]

theorem position_leave (line : Text) : (tracker.leave line).position = tracker.position := by
  rcases leave_cases tracker line with ⟨block, -, -, -, next⟩ | ⟨-, next⟩
  all_goals rw [next]

theorem position_run (lines : List Text) :
    (tracker.run settings lines).2.position = tracker.position + lines.length := by
  induction lines generalizing tracker with
  | nil => simp [run]
  | cons line lines ih =>
      simp only [run, step, ih, position_leave, position_advance, List.length_cons]
      omega

end Positions

/--
The second tracker is the first with the blocks in `later` still to come behind all others; if the
first has nothing left, the second may have taken up the first of `later`.
-/
inductive Extends (later : List Block) : Tracker → Tracker → Prop where
  | waiting (position : Int) (current : Option Block) (pending : List Block) :
      Extends later ⟨position, current, pending⟩ ⟨position, current, pending ++ later⟩
  | early {block : Block} {others : List Block} (first : later = block :: others)
      (position : Int) : Extends later ⟨position, none, []⟩ ⟨position, some block, others⟩

theorem dropWhile_ahead {blocks : List Block} {position : Int}
    (ahead : ∀ block ∈ blocks, position < block.line) :
    blocks.dropWhile (fun block => block.line < position + 1) = blocks := by
  rw [List.dropWhile_eq_self_iff]
  intro nonempty
  have first := ahead _ (List.getElem_mem nonempty)
  rw [decide_eq_true_eq]
  omega

namespace Extends

variable {later : List Block} {short long : Tracker}

/-- The blocks in `later` are not seen before their lines. -/
theorem actionFor_eq (related : Extends later short long)
    (ahead : ∀ block ∈ later, short.position < block.line) (settings : Settings) (line : Text) :
    long.actionFor settings line = short.actionFor settings line := by
  cases related with
  | waiting position current pending => rfl
  | early first position =>
      subst first
      apply actionFor_congr
      · rfl
      · exact if_pos (ahead _ List.mem_cons_self)

theorem advance (related : Extends later short long)
    (ahead : ∀ block ∈ later, short.position < block.line) :
    Extends later short.advance long.advance := by
  cases related with
  | early first position => exact early first (position + 1)
  | waiting position current pending =>
      cases current with
      | some block => exact waiting (position + 1) (some block) pending
      | none =>
          cases left : pending.dropWhile fun block => block.line < position + 1 with
          | cons block others =>
              have remaining : (pending ++ later).dropWhile
                  (fun block => block.line < position + 1) = block :: (others ++ later) := by
                rw [List.dropWhile_append, left]
                rfl
              simp only [Tracker.advance, enter, left, remaining]
              exact waiting (position + 1) (some block) others
          | nil =>
              have remaining : (pending ++ later).dropWhile
                  (fun block => block.line < position + 1) = later := by
                rw [List.dropWhile_append, left]
                exact dropWhile_ahead ahead
              simp only [Tracker.advance, enter, left, remaining]
              -- The declarations of the short run are used up: the long run goes on to `later`.
              cases later with
              | nil => exact waiting (position + 1) none []
              | cons block others => exact early rfl (position + 1)

theorem leave (related : Extends later short long)
    (ahead : ∀ block ∈ later, short.position < block.line) (line : Text) :
    Extends later (short.leave line) (long.leave line) := by
  cases related with
  | early first position =>
      subst first
      have notReached := ahead _ List.mem_cons_self
      simp only at notReached
      have stays : ∀ block : Block, position < block.line → ∀ others,
          Tracker.leave ⟨position, some block, others⟩ line = ⟨position, some block, others⟩ := by
        intro block before others
        have notOpen : ¬block.line ≤ position := by omega
        simp [Tracker.leave, notOpen]
      rw [stays _ notReached]
      exact early rfl position
  | waiting position current pending =>
      cases current with
      | none => exact waiting position none pending
      | some block =>
          simp only [Tracker.leave]
          split
          · exact waiting position none pending
          · exact waiting position (some block) pending

/-- As long as the blocks in `later` are ahead, two runs give the same actions. -/
theorem run (settings : Settings) (related : Extends later short long) {lines : List Text}
    (ahead : ∀ block ∈ later, short.position + lines.length < block.line) :
    (long.run settings lines).1 = (short.run settings lines).1 ∧
      Extends later (short.run settings lines).2 (long.run settings lines).2 := by
  induction lines generalizing short long with
  | nil => exact ⟨rfl, related⟩
  | cons line lines ih =>
      simp only [List.length_cons] at ahead
      have reached : Extends later short.advance long.advance := by
        apply related.advance
        intro block isLater
        have far := ahead block isLater
        omega
      have invisible : ∀ block ∈ later, short.advance.position < block.line := by
        intro block isLater
        have far := ahead block isLater
        rw [position_advance]
        omega
      have left := reached.leave invisible line
      have rest : ∀ block ∈ later,
          (short.advance.leave line).position + lines.length < block.line := by
        intro block isLater
        have far := ahead block isLater
        rw [position_leave, position_advance]
        omega
      obtain ⟨sameActions, stillRelated⟩ := ih left rest
      simp only [Tracker.run, step]
      exact ⟨by rw [reached.actionFor_eq invisible, sameActions], stillRelated⟩

/-- With no block open, the declarations that were passed do not count any more. -/
theorem advance_eq (related : Extends later short long) (closed : short.current = none)
    (passed : ∀ block ∈ short.pending, block.line ≤ short.position)
    (ahead : ∀ block ∈ later, short.position < block.line) :
    long.advance = Tracker.advance ⟨short.position, none, later⟩ := by
  cases related with
  | early first position =>
      have remaining := dropWhile_ahead ahead
      subst first
      simp only [Tracker.advance, enter, remaining]
  | waiting position current pending =>
      simp only at closed passed
      subst closed
      have dropped : pending.dropWhile (fun block => block.line < position + 1) = [] := by
        rw [List.dropWhile_eq_nil_iff]
        intro block isPending
        have before := passed block isPending
        rw [decide_eq_true_eq]
        omega
      simp only [Tracker.advance, enter, List.dropWhile_append, dropped, List.isEmpty_nil, if_true]

end Extends

/-- The tracker of a file, seen from one of its first parts. -/
theorem extends_start (before after : List Text) :
    Extends ((Block.declared after).map (Block.shift before.length)) (start before)
      (start (before ++ after)) := by
  have whole : start (before ++ after) = ⟨0, none, Block.declared before ++
      (Block.declared after).map (Block.shift before.length)⟩ := by
    simp only [start, reset, Block.declared_append]
  rw [whole]
  exact .waiting 0 none (Block.declared before)

theorem lt_line_of_shift {before after : List Text} :
    ∀ block ∈ (Block.declared after).map (Block.shift before.length),
      (before.length : Int) < block.line := by
  intro block isLater
  obtain ⟨own, isDeclared, rfl⟩ := List.mem_map.mp isLater
  have bounds := Block.line_le_length isDeclared
  simp only [Block.shift]
  omega

theorem run_actions_congr (settings : Settings) {first second : Tracker}
    (sameNext : first.advance = second.advance) (lines : List Text) :
    (first.run settings lines).1 = (second.run settings lines).1 := by
  cases lines with
  | nil => rfl
  | cons line lines => simp only [run, step, sameNext]

end Tracker

/--
No action depends on a later line: the actions for a file begin with those for any first part of
it. If no block is open behind the first part, the other actions are those for the rest as a file of
its own, further down by the lines of the first part.
-/
theorem convertLines_append (settings : Settings) (before after : List Text) :
    convertLines settings before <+: convertLines settings (before ++ after) ∧
      (((Tracker.start before).run settings before).2.current = none →
        convertLines settings (before ++ after) =
          convertLines settings before ++
            (convertLines settings after).map (Action.shift before.length)) := by
  have start := Tracker.extends_start before after
  have ahead : ∀ block ∈ (Block.declared after).map (Block.shift before.length),
      (Tracker.start before).position + before.length < block.line := by
    intro block isLater
    have behind := Tracker.lt_line_of_shift block isLater
    simpa [Tracker.start, Tracker.reset] using behind
  obtain ⟨sameActions, related⟩ := start.run settings ahead
  have whole : convertLines settings (before ++ after) = convertLines settings before ++
      (((Tracker.start (before ++ after)).run settings before).2.run settings after).1 := by
    rw [convertLines, Tracker.run_append, sameActions]
    rfl
  refine ⟨?_, ?_⟩
  · rw [whole]
    exact List.prefix_append _ _
  · intro closed
    have place : ((Tracker.start before).run settings before).2.position = before.length := by
      rw [Tracker.position_run]
      simp [Tracker.start, Tracker.reset]
    have behind : Tracker.Behind before before.length
        ((Tracker.start before).run settings before).2 := by
      have invariant := Tracker.behind_run settings {} (Nat.le_refl before.length)
      rwa [List.take_length] at invariant
    have passed : ∀ block ∈ ((Tracker.start before).run settings before).2.pending,
        block.line ≤ ((Tracker.start before).run settings before).2.position := by
      intro block isPending
      rw [place]
      exact (Block.line_le_length (behind.pending block isPending)).2
    have sameNext := related.advance_eq closed passed (by
      intro block isLater
      rw [place]
      exact Tracker.lt_line_of_shift block isLater)
    have shifted : (⟨((Tracker.start before).run settings before).2.position, none,
        (Block.declared after).map (Block.shift before.length)⟩ : Tracker) =
        (Tracker.start after).shift before.length := by
      rw [place]
      simp [Tracker.start, Tracker.reset, Tracker.shift]
    rw [whole, Tracker.run_actions_congr settings sameNext, shifted, Tracker.run_shift]
    rfl

/-- A file cut behind a block that has passed over a declaration inside it. -/
theorem convertLines_append_nested :
    let before := ["struct Outer(\n".toList, "struct Inner;\n".toList, ")\n".toList]
    let after := ["impl Next \x7b\n".toList, "/// [x]: #method.y\n".toList]
    ((Tracker.start before).run {} before).2.current = none ∧
      convertLines {} (before ++ after) = convertLines {} before ++
        (convertLines {} after).map (Action.shift 3) := by
  intro before after
  have closed : ((Tracker.start before).run {} before).2.current = none := by decide +kernel
  exact ⟨closed, (convertLines_append {} before after).2 closed⟩

end IntraDoc
