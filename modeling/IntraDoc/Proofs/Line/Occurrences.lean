import IntraDoc.Proofs.Line.LongForm
import IntraDoc.Proofs.Line.Substitution
import IntraDoc.Proofs.Link.Path

/-!
# The short-form links of a line

What counts as a short-form link is said of a span of the line alone: its characters are a name in
brackets and a target in parentheses. Two such links may overlap, as an image within a link does,
but no two begin at the same character, so going through the line from left to right and taking
every link that begins behind the last one taken leaves no choice. The scanner takes these links.
-/

namespace IntraDoc

namespace ShortForm

/-- How many brackets a text opens that it does not close. -/
def openBrackets (text : Text) : Int :=
  text.count '[' - text.count ']'

/-- How many brackets a character opens, a closed one counting against it. -/
def bracketStep (char : Char) : Int :=
  if char = '[' then 1 else if char = ']' then -1 else 0

/-- The text is on one line and closes the `depth` brackets before it, never two being open. -/
structure ClosesFrom (depth : Int) (text : Text) : Prop where
  unbroken : '\n' ∉ text
  nested : ∀ front, front <+: text →
    0 ≤ depth + openBrackets front ∧ depth + openBrackets front ≤ 1
  closed : depth + openBrackets text = 0

/-- A name: text on one line whose brackets balance and nest one level deep at most. -/
def IsName (name : Text) : Prop :=
  ClosesFrom 0 name

/-- The text before the first closing bracket with no bracket open, however deep others nest. -/
def beforeClosing? (depth : Int) : Text → Option Text
  | [] => none
  | char :: rest =>
    if char = ']' ∧ depth = 0 then some []
    else (beforeClosing? (depth + bracketStep char) rest).map (char :: ·)

section Names

variable {depth : Int} {char : Char} {text name rest : Text}

theorem openBrackets_cons (char : Char) (text : Text) :
    openBrackets (char :: text) = bracketStep char + openBrackets text := by
  unfold openBrackets bracketStep
  by_cases opening : char = '['
  · rw [opening, List.count_cons_self, List.count_cons_of_ne (by decide), if_pos rfl]
    omega
  · by_cases closing : char = ']'
    · rw [closing, List.count_cons_of_ne (by decide), List.count_cons_self, if_neg (by decide),
        if_pos rfl]
      omega
    · rw [List.count_cons_of_ne opening, List.count_cons_of_ne closing, if_neg opening,
        if_neg closing]
      omega

theorem bracketStep_eq_zero (notOpening : char ≠ '[') (notClosing : char ≠ ']') :
    bracketStep char = 0 := by
  rw [bracketStep, if_neg notOpening, if_neg notClosing]

theorem ClosesFrom.bounds (closes : ClosesFrom depth text) : 0 ≤ depth ∧ depth ≤ 1 := by
  simpa [openBrackets] using closes.nested [] List.nil_prefix

theorem closesFrom_nil : ClosesFrom depth [] ↔ depth = 0 := by
  constructor
  · intro closes
    simpa [openBrackets] using closes.closed
  · rintro rfl
    refine ⟨by simp, ?_, by simp [openBrackets]⟩
    intro front isFront
    simp [List.prefix_nil.mp isFront, openBrackets]

theorem closesFrom_cons :
    ClosesFrom depth (char :: rest) ↔
      char ≠ '\n' ∧ (0 ≤ depth ∧ depth ≤ 1) ∧ ClosesFrom (depth + bracketStep char) rest := by
  constructor
  · intro closes
    have unbroken := closes.unbroken
    rw [List.mem_cons, not_or] at unbroken
    refine ⟨Ne.symm unbroken.1, closes.bounds, unbroken.2, ?_, ?_⟩
    · intro front isFront
      have longer := closes.nested (char :: front) (List.cons_prefix_cons.mpr ⟨rfl, isFront⟩)
      rwa [openBrackets_cons, ← Int.add_assoc] at longer
    · have closed := closes.closed
      rwa [openBrackets_cons, ← Int.add_assoc] at closed
  · rintro ⟨notFeed, bounds, closes⟩
    refine ⟨?_, ?_, ?_⟩
    · rw [List.mem_cons, not_or]
      exact ⟨Ne.symm notFeed, closes.unbroken⟩
    · intro front isFront
      rcases List.prefix_cons_iff.mp isFront with rfl | ⟨shorter, rfl, isShorter⟩
      · simpa [openBrackets] using bounds
      · rw [openBrackets_cons, ← Int.add_assoc]
        exact closes.nested shorter isShorter
    · rw [openBrackets_cons, ← Int.add_assoc]
      exact closes.closed

/-- Inside a name every closing bracket has an open one, so the scan does not stop there. -/
theorem beforeClosing?_append (closes : ClosesFrom depth name) (rest : Text) :
    beforeClosing? depth (name ++ ']' :: rest) = some name := by
  induction name generalizing depth with
  | nil =>
      rw [closesFrom_nil.mp closes]
      simp [beforeClosing?]
  | cons char name ih =>
      obtain ⟨-, -, later⟩ := closesFrom_cons.mp closes
      have goesOn : ¬(char = ']' ∧ depth = 0) := by
        rintro ⟨rfl, rfl⟩
        exact absurd later.bounds.1 (by decide)
      rw [List.cons_append, beforeClosing?, if_neg goesOn, ih later]
      rfl

theorem closesFrom_of_name? {inner : Bool} (read : name? inner text = some (name, rest)) :
    ClosesFrom inner.toNat name := by
  -- Only the bracket that ends the scan is no part of the name.
  fun_induction name? inner text generalizing name with
  | case1 => simp at read
  | case2 => simp at read
  | case3 => simp at read
  | case4 inner others outer _ ih =>
      obtain ⟨shorter, isRead, rfl⟩ := exists_of_map_cons read
      rw [Bool.eq_false_iff.mpr outer]
      exact closesFrom_cons.mpr ⟨by decide, by decide, ih isRead⟩
  | case5 others _ _ ih =>
      obtain ⟨shorter, isRead, rfl⟩ := exists_of_map_cons read
      exact closesFrom_cons.mpr ⟨by decide, by decide, ih isRead⟩
  | case6 inner others outer =>
      simp only [Option.some.injEq, Prod.mk.injEq] at read
      rw [← read.1, Bool.eq_false_iff.mpr outer]
      exact closesFrom_nil.mpr rfl
  | case7 inner char others notFeed notOpening notClosing ih =>
      obtain ⟨shorter, isRead, rfl⟩ := exists_of_map_cons read
      have later := ih isRead
      refine closesFrom_cons.mpr ⟨notFeed, later.bounds, ?_⟩
      rwa [bracketStep_eq_zero notOpening notClosing, Int.add_zero]

theorem name?_of_closesFrom {inner : Bool} (closes : ClosesFrom inner.toNat name) (rest : Text) :
    name? inner (name ++ ']' :: rest) = some (name, rest) := by
  induction name generalizing inner with
  | nil =>
      have outer : inner = false := by simpa using closesFrom_nil.mp closes
      simp [name?, outer]
  | cons char name ih =>
      obtain ⟨notFeed, -, later⟩ := closesFrom_cons.mp closes
      rw [List.cons_append, name?, if_neg notFeed]
      by_cases opening : char = '['
      · subst opening
        -- A second open bracket would be one too many.
        have outer : inner = false := by
          cases inner with
          | false => rfl
          | true => exact absurd later.bounds.2 (by decide)
        subst outer
        have read : name? true (name ++ ']' :: rest) = some (name, rest) := ih later
        simp [read]
      · by_cases closing : char = ']'
        · subst closing
          have isInner : inner = true := by
            cases inner with
            | false => exact absurd later.bounds.1 (by decide)
            | true => rfl
          subst isInner
          have read : name? false (name ++ ']' :: rest) = some (name, rest) := ih later
          simp [read]
        · rw [bracketStep_eq_zero opening closing, Int.add_zero] at later
          simp [opening, closing, ih later]

theorem name?_eq_some_iff :
    name? false text = some (name, rest) ↔ IsName name ∧ text = name ++ ']' :: rest := by
  constructor
  · intro read
    exact ⟨closesFrom_of_name? read, name?_eq_some read⟩
  · rintro ⟨isName, rfl⟩
    have closes : ClosesFrom false.toNat name := isName
    exact name?_of_closesFrom closes rest

end Names

theorem stop_candidate (start : Nat) (name target : Text) :
    (candidate start name target).linkSpan.stop =
      start + (Piece.link name target).text.length := by
  rw [length_link]
  simp only [candidate]
  omega

theorem read?_eq_some_iff {text name target : Text} :
    read? text = some (name, target) ↔
      IsName name ∧ LinkTarget.IsWhole target ∧
        ∃ back, text = (Piece.link name target).text ++ back := by
  rw [read?_eq]
  simp only [Option.bind_eq_some_iff, Option.map_eq_some_iff, Text.after?_eq_some_iff, Prod.exists,
    Prod.mk.injEq, name?_eq_some_iff]
  constructor
  · rintro ⟨body, rfl, _, _, ⟨isName, rfl⟩, linked, rfl, _, _, isRead, back, rfl, rfl, rfl⟩
    obtain ⟨rfl, -⟩ := LinkTarget.read?_eq_some isRead
    exact ⟨isName, LinkTarget.isWhole_of_read? isRead, back, by simp [Piece.text]⟩
  · rintro ⟨isName, isWhole, back, rfl⟩
    have isRead : LinkTarget.read? (target ++ ([')'] ++ back)) = some (target, [')'] ++ back) :=
      LinkTarget.read?_of_isWhole isWhole (by simp; decide)
    refine ⟨_, rfl, name, _, ⟨isName, ?_⟩, _, rfl, target, _, isRead, back, rfl, rfl, rfl⟩
    simp

end ShortForm

namespace Candidate

/-- The line spells the link of the candidate where the candidate says. -/
structure OccursIn (candidate : Candidate) (line : Text) : Prop where
  form : candidate.form = .short
  within : candidate.linkSpan.stop ≤ line.length
  spelled : candidate.linkSpan.textIn line = (Piece.link candidate.name candidate.target).text
  name : ShortForm.IsName candidate.name
  target : LinkTarget.IsWhole candidate.target
  targetStart :
    candidate.targetSpan.start = candidate.linkSpan.start + candidate.name.length + 3
  targetStop : candidate.targetSpan.stop = candidate.targetSpan.start + candidate.target.length

variable {line : Text} {candidate other : Candidate}

theorem OccursIn.stop_eq (occurs : candidate.OccursIn line) :
    candidate.linkSpan.stop =
      candidate.linkSpan.start + (candidate.name.length + candidate.target.length + 4) := by
  have length := congrArg List.length occurs.spelled
  have within := occurs.within
  rw [Span.textIn, List.length_drop, List.length_take, ShortForm.length_link] at length
  omega

theorem OccursIn.eq_candidate (occurs : candidate.OccursIn line) :
    candidate = ShortForm.candidate candidate.linkSpan.start candidate.name candidate.target := by
  have stop := occurs.stop_eq
  have form := occurs.form
  have targetStart := occurs.targetStart
  have targetStop := occurs.targetStop
  rcases candidate with ⟨name, target, form, ⟨first, last⟩, ⟨start, stop⟩⟩
  simp only at stop form targetStart targetStop
  simp only [ShortForm.candidate, Candidate.mk.injEq, Span.mk.injEq, true_and]
  refine ⟨form, ⟨?_, ?_⟩, ?_⟩ <;> omega

/-- A link occurs where the reader finds it. -/
theorem occursIn_candidate_iff {start : Nat} {name target : Text} :
    (ShortForm.candidate start name target).OccursIn line ↔
      ShortForm.read? (line.drop start) = some (name, target) := by
  have stop := ShortForm.stop_candidate start name target
  have textIn : (ShortForm.candidate start name target).linkSpan.textIn line =
      (line.drop start).take (Piece.link name target).text.length := by
    have first : (ShortForm.candidate start name target).linkSpan.start = start := rfl
    rw [Span.textIn, stop, first, List.drop_take, Nat.add_sub_cancel_left]
  rw [ShortForm.read?_eq_some_iff]
  constructor
  · intro occurs
    have spelled := textIn.symm.trans occurs.spelled
    have whole := List.take_append_drop (Piece.link name target).text.length (line.drop start)
    rw [spelled] at whole
    exact ⟨occurs.name, occurs.target, _, whole.symm⟩
  · rintro ⟨isName, isWhole, back, shape⟩
    refine ⟨rfl, ?_, ?_, isName, isWhole, rfl, rfl⟩
    · have length := congrArg List.length shape
      rw [List.length_drop, List.length_append, ShortForm.length_link] at length
      rw [stop, ShortForm.length_link]
      omega
    · rw [textIn, shape, List.take_left]
      rfl

theorem OccursIn.read?_drop (occurs : candidate.OccursIn line) :
    ShortForm.read? (line.drop candidate.linkSpan.start) =
      some (candidate.name, candidate.target) := by
  apply occursIn_candidate_iff.mp
  rw [← occurs.eq_candidate]
  exact occurs

/-- No two links begin at the same character. -/
theorem OccursIn.unique (occurs : candidate.OccursIn line) (otherOccurs : other.OccursIn line)
    (sameStart : candidate.linkSpan.start = other.linkSpan.start) : candidate = other := by
  have read := occurs.read?_drop
  rw [sameStart, otherOccurs.read?_drop] at read
  simp only [Option.some.injEq, Prod.mk.injEq] at read
  rw [occurs.eq_candidate, otherOccurs.eq_candidate, sameStart, read.1, read.2]

/-- The name of a link ends at the first closing bracket with no bracket open. -/
theorem OccursIn.beforeClosing?_drop (occurs : candidate.OccursIn line) :
    ShortForm.beforeClosing? 0 (line.drop (candidate.linkSpan.start + 1)) =
      some candidate.name := by
  obtain ⟨isName, -, back, shape⟩ := ShortForm.read?_eq_some_iff.mp occurs.read?_drop
  have behind := congrArg (List.drop 1) shape
  rw [List.drop_drop] at behind
  rw [behind]
  simp only [Piece.text, List.cons_append, List.append_assoc, List.drop_succ_cons, List.drop_zero]
  exact ShortForm.beforeClosing?_append isName _

end Candidate

namespace ShortForm

/--
Taking links from left to right, from the character `start` on: always the first one that begins
behind those taken before.
-/
inductive Selects (line : Text) : Nat → List Candidate → Prop where
  | done {start : Nat}
      (nothing : ∀ candidate : Candidate, candidate.OccursIn line →
        candidate.linkSpan.start < start) :
      Selects line start []
  | next {start : Nat} {candidate : Candidate} {others : List Candidate}
      (occurs : candidate.OccursIn line) (behind : start ≤ candidate.linkSpan.start)
      (leftmost : ∀ other : Candidate, other.OccursIn line → start ≤ other.linkSpan.start →
        candidate.linkSpan.start ≤ other.linkSpan.start)
      (later : Selects line candidate.linkSpan.stop others) :
      Selects line start (candidate :: others)

namespace Selects

variable {line : Text} {start : Nat} {selected : List Candidate}

theorem unique {others : List Candidate} (selects : Selects line start selected)
    (otherSelects : Selects line start others) : selected = others := by
  induction selects generalizing others with
  | done nothing =>
      cases otherSelects with
      | done => rfl
      | next occurs behind => exact absurd (nothing _ occurs) (by omega)
  | next occurs behind leftmost _ ih =>
      cases otherSelects with
      | done nothing => exact absurd (nothing _ occurs) (by omega)
      | next otherOccurs otherBehind otherLeftmost later =>
          have sameStart := Nat.le_antisymm (leftmost _ otherOccurs otherBehind)
            (otherLeftmost _ occurs behind)
          obtain rfl := occurs.unique otherOccurs sameStart
          rw [ih later]

theorem occursIn (selects : Selects line start selected) :
    ∀ candidate ∈ selected, candidate.OccursIn line ∧ start ≤ candidate.linkSpan.start := by
  induction selects with
  | done => simp
  | next occurs behind _ _ ih =>
      intro candidate found
      rcases List.mem_cons.mp found with rfl | isLater
      · exact ⟨occurs, behind⟩
      · obtain ⟨laterOccurs, further⟩ := ih candidate isLater
        have stop := occurs.stop_eq
        exact ⟨laterOccurs, by omega⟩

theorem pairwise (selects : Selects line start selected) :
    selected.Pairwise Candidate.Precedes := by
  induction selects with
  | done => exact .nil
  | next _ _ _ later ih =>
      exact .cons (fun candidate isLater => (later.occursIn candidate isLater).2) ih

/-- What is passed over begins within what was taken. -/
theorem mem_or_overlaps (selects : Selects line start selected) {candidate : Candidate}
    (occurs : candidate.OccursIn line) (behind : start ≤ candidate.linkSpan.start) :
    candidate ∈ selected ∨
      ∃ earlier ∈ selected, earlier.linkSpan.start < candidate.linkSpan.start ∧
        candidate.linkSpan.start < earlier.linkSpan.stop := by
  induction selects with
  | done nothing => exact absurd (nothing _ occurs) (by omega)
  | @next start first others firstOccurs _ leftmost _ ih =>
      rcases Nat.eq_or_lt_of_le (leftmost _ occurs behind) with sameStart | further
      · exact Or.inl (firstOccurs.unique occurs sameStart ▸ List.mem_cons_self)
      · by_cases inside : candidate.linkSpan.start < first.linkSpan.stop
        · exact Or.inr ⟨first, List.mem_cons_self, further, inside⟩
        · rcases ih (by omega) with taken | ⟨earlier, taken, overlaps⟩
          · exact Or.inl (List.mem_cons_of_mem _ taken)
          · exact Or.inr ⟨earlier, List.mem_cons_of_mem _ taken, overlaps⟩

/-- A character at which no link begins is passed over. -/
theorem of_succ (selects : Selects line (start + 1) selected)
    (nothing : ∀ candidate : Candidate, candidate.OccursIn line →
      candidate.linkSpan.start ≠ start) :
    Selects line start selected := by
  cases selects with
  | done earlier =>
      apply done
      intro candidate occurs
      have apart := nothing candidate occurs
      have before := earlier candidate occurs
      omega
  | next occurs behind leftmost later =>
      apply next occurs (by omega) _ later
      intro other otherOccurs otherBehind
      have apart := nothing other otherOccurs
      exact leftmost other otherOccurs (by omega)

end Selects

section Scan

variable {line : Text} {start : Nat}

theorem scan_drop_of_none (nothing : read? (line.drop start) = none) :
    scan start 0 (line.drop start) = scan (start + 1) 0 (line.drop (start + 1)) := by
  rw [← List.drop_drop]
  cases shape : line.drop start with
  | nil => rfl
  | cons char rest =>
      rw [shape] at nothing
      rw [scan, nothing]
      rfl

theorem scan_drop_of_some {name target : Text}
    (found : read? (line.drop start) = some (name, target)) :
    scan start 0 (line.drop start) =
      candidate start name target ::
        scan (candidate start name target).linkSpan.stop 0
          (line.drop (candidate start name target).linkSpan.stop) := by
  have stop := stop_candidate start name target
  obtain ⟨-, -, back, shape⟩ := read?_eq_some_iff.mp found
  have behind : line.drop (candidate start name target).linkSpan.stop = back := by
    rw [stop, ← List.drop_drop, shape, List.drop_left]
  rw [behind, stop, shape, scan_link (shape ▸ found), length_link]

/-- The scanner takes the links from left to right. -/
theorem selects_scan (line : Text) (start : Nat) :
    Selects line start (scan start 0 (line.drop start)) := by
  induction remaining : line.length - start using Nat.strongRecOn generalizing start with
  | ind size ih =>
      rcases Nat.lt_or_ge start line.length with inside | atEnd
      · cases found : read? (line.drop start) with
        | none =>
            rw [scan_drop_of_none found]
            apply (ih _ (by omega) (start + 1) rfl).of_succ
            rintro candidate occurs rfl
            simp [occurs.read?_drop] at found
        | some link =>
            rcases link with ⟨name, target⟩
            have occurs := Candidate.occursIn_candidate_iff.mpr found
            have stop : (candidate start name target).linkSpan.stop = _ := occurs.stop_eq
            have first : (candidate start name target).linkSpan.start = start := rfl
            rw [scan_drop_of_some found]
            apply Selects.next occurs le_rfl
            · exact fun other _ behind => behind
            · exact ih _ (by omega) _ rfl
      · rw [List.drop_eq_nil_of_le atEnd, scan]
        apply Selects.done
        intro candidate occurs
        have within := occurs.within
        have stop := occurs.stop_eq
        omega

end Scan

end ShortForm

/--
In a line that is no long-form link no two short-form links begin at the same character, and the
name of each ends at the first closing bracket with none open. Taking them from left to right gives
one list, all of them occurring and none overlapping another, that has every link or one that
overlaps it and begins earlier. The candidates are those of the list whose target is not rooted.
-/
theorem candidatesIn_eq_selected {line : Text} (notLong : LongForm.read? line = none) :
    (∀ candidate other : Candidate, candidate.OccursIn line → other.OccursIn line →
      candidate.linkSpan.start = other.linkSpan.start → candidate = other) ∧
    (∀ candidate : Candidate, candidate.OccursIn line →
      ShortForm.beforeClosing? 0 (line.drop (candidate.linkSpan.start + 1)) =
        some candidate.name) ∧
    ∃ selected, ShortForm.Selects line 0 selected ∧
      (∀ others, ShortForm.Selects line 0 others → others = selected) ∧
      candidatesIn line = selected.filter (fun candidate => candidate.target.head? ≠ some '/') ∧
      (∀ candidate ∈ selected, candidate.OccursIn line) ∧
      selected.Pairwise Candidate.Precedes ∧
      ∀ candidate : Candidate, candidate.OccursIn line →
        candidate ∈ selected ∨
          ∃ earlier ∈ selected, earlier.linkSpan.start < candidate.linkSpan.start ∧
            candidate.linkSpan.start < earlier.linkSpan.stop := by
  have selects : ShortForm.Selects line 0 (ShortForm.scan 0 0 line) :=
    ShortForm.selects_scan line 0
  refine ⟨?_, ?_, ShortForm.scan 0 0 line, selects, ?_, ?_, ?_, selects.pairwise, ?_⟩
  · intro candidate other occurs otherOccurs sameStart
    exact occurs.unique otherOccurs sameStart
  · intro candidate occurs
    exact occurs.beforeClosing?_drop
  · intro others otherSelects
    exact otherSelects.unique selects
  · simp only [candidatesIn, notLong]
    apply List.filter_congr
    intro candidate _
    rw [Bool.eq_iff_iff]
    simp [← LinkPath.isRooted_iff]
  · intro candidate taken
    exact (selects.occursIn candidate taken).1
  · intro candidate occurs
    exact selects.mem_or_overlaps occurs (Nat.zero_le _)

theorem candidatesIn_eq_selected_imageInLink :
    LongForm.read? "[a] [![b](c)](d) [e](/f)".toList = none ∧
      ∃ selected, ShortForm.Selects "[a] [![b](c)](d) [e](/f)".toList 0 selected ∧
        selected.filter (fun candidate => candidate.target.head? ≠ some '/') =
          [ShortForm.candidate 4 "![b](c)".toList "d".toList] ∧
        (ShortForm.candidate 6 "b".toList "c".toList ∈ selected ∨
          ∃ earlier ∈ selected, earlier.linkSpan.start < 6 ∧ 6 < earlier.linkSpan.stop) := by
  have notLong : LongForm.read? "[a] [![b](c)](d) [e](/f)".toList = none := by decide
  have image : (ShortForm.candidate 6 "b".toList "c".toList).OccursIn
      "[a] [![b](c)](d) [e](/f)".toList :=
    Candidate.occursIn_candidate_iff.mpr (by decide)
  obtain ⟨-, -, selected, selects, -, candidates, -, -, overlaps⟩ :=
    candidatesIn_eq_selected notLong
  refine ⟨notLong, selected, selects, ?_, overlaps _ image⟩
  rw [← candidates]
  decide

end IntraDoc
