import IntraDoc.Proofs.Conversion.SecondRun
import IntraDoc.Proofs.Line.LineBreaks

/-!
# Actions account for lines

Every line of a text is answered by one action, which carries the line and its position. A line that
is exchanged keeps its break, and a line that is dropped ends the text or takes a line feed with it.
Hence changes never make up for each other: the converted text is the text itself only if every line
is kept.
-/

namespace IntraDoc

namespace Action

/-- The position that an action names; a line that is kept needs none. -/
def position? : Action → Option Int
  | kept _ => none
  | dropped _ position _ => some position
  | replaced _ _ position => some position

/-- Whether the line is dropped. -/
def isDropped : Action → Bool
  | dropped _ _ _ => true
  | _ => false

/-- What can become of a line of a text. -/
inductive Accounts (line : Text) : Action → Prop where
  | kept : Accounts line (kept line)
  | dropped {position : Int} {reason : Text}
      (isEnd : LongForm.isLineEnd (Text.lineBreak line) = true) :
      Accounts line (dropped line position reason)
  | replaced {new : Text} {position : Int} (different : new ≠ line)
      (same : Text.SameBreak line new) : Accounts line (replaced line new position)

section Lines

variable {line : Text} {action : Action}

theorem Accounts.line_eq (accounts : Accounts line action) : action.line = line := by
  cases accounts <;> rfl

theorem Accounts.sameBreak (accounts : Accounts line action)
    (notDropped : action.isDropped = false) : Text.SameBreak line action.newLine := by
  cases accounts with
  | kept => exact ⟨rfl, id⟩
  | dropped => simp [isDropped] at notDropped
  | replaced _ same => exact same

/-- No action brings in a line feed. -/
theorem Accounts.count_newline_le (accounts : Accounts line action) :
    action.newLine.count '\n' ≤ line.count '\n' := by
  cases accounts with
  | kept => exact Nat.le_refl _
  | dropped => exact Nat.zero_le _
  | @replaced new _ _ same =>
      have inBreak : ∀ text : Text, text.count '\n' = (Text.lineBreak text).count '\n' := by
        intro text
        conv_lhs => rw [← Text.lineContent_append_lineBreak text]
        rw [List.count_append,
          List.count_eq_zero_of_not_mem (Text.isUnbroken_lineContent text).newline_notMem,
          Nat.zero_add]
      rw [newLine, inBreak new, inBreak line, same.1]

end Lines

section Texts

variable {lines : List Text} {actions : List Action}

theorem map_line_of_accounts (accounts : List.Forall₂ Accounts lines actions) :
    actions.map line = lines := by
  induction accounts with
  | nil => rfl
  | cons first _ ih => rw [List.map_cons, first.line_eq, ih]

theorem accounts_line (accounts : List.Forall₂ Accounts lines actions) :
    ∀ action ∈ actions, Accounts action.line action := by
  induction accounts with
  | nil => simp
  | cons first _ ih =>
      intro action isAction
      rcases List.mem_cons.mp isAction with rfl | later
      · rwa [first.line_eq]
      · exact ih action later

theorem forall₂_sameBreak (accounts : List.Forall₂ Accounts lines actions)
    (noneDropped : ∀ action ∈ actions, action.isDropped = false) :
    List.Forall₂ Text.SameBreak lines (actions.map newLine) := by
  induction accounts with
  | nil => exact .nil
  | cons first _ ih =>
      exact .cons (first.sameBreak (noneDropped _ List.mem_cons_self))
        (ih fun action isAction => noneDropped action (List.mem_cons_of_mem _ isAction))

theorem count_newline_newText_le (accounts : List.Forall₂ Accounts lines actions) :
    (newText actions).count '\n' ≤ lines.flatten.count '\n' := by
  induction accounts with
  | nil => exact Nat.le_refl _
  | cons first _ ih =>
      have own := first.count_newline_le
      simp only [newText, List.flatMap_cons, List.flatten_cons, List.count_append] at ih ⊢
      omega

theorem anyChange_cons (action : Action) (actions : List Action) :
    anyChange (action :: actions) = (!action.isKept || anyChange actions) :=
  rfl

/-- Changes do not make up for each other. -/
theorem anyChange_eq_false_of_newText_eq (areLines : Text.AreLines lines)
    (accounts : List.Forall₂ Accounts lines actions) (same : newText actions = lines.flatten) :
    anyChange actions = false := by
  induction areLines generalizing actions with
  | nil =>
      cases accounts
      rfl
  | last unbroken nonempty =>
      obtain ⟨action, others, first, rest, rfl⟩ := List.forall₂_cons_left_iff.mp accounts
      cases rest
      simp only [newText, List.flatMap_cons, List.flatMap_nil, List.append_nil,
        List.flatten_cons, List.flatten_nil] at same
      cases first with
      | kept => rfl
      | dropped _ => exact absurd same.symm nonempty
      | replaced different _ => exact absurd same different
  | @cons content ending lines unbroken isBreak _ _ ih =>
      obtain ⟨action, others, first, rest, rfl⟩ := List.forall₂_cons_left_iff.mp accounts
      have ownBreak := Text.lineBreak_append unbroken isBreak.isLineBreak_head
      simp only [newText, List.flatMap_cons, List.flatten_cons] at same
      cases first with
      | kept =>
          rw [anyChange_cons, ih rest (List.append_cancel_left same)]
          rfl
      | dropped isEnd =>
          -- The line feed of the dropped line is missing in the converted text.
          have fewer := count_newline_newText_le rest
          have counted := congrArg (List.count '\n') same
          have oneFeed : ending.count '\n' = 1 := by
            rw [ownBreak] at isEnd
            rcases LongForm.isLineEnd_iff.mp isEnd with rfl | rfl | rfl
            · exact absurd rfl isBreak.ne_nil
            · decide
            · decide
          simp only [newLine, newText, List.nil_append, List.count_append] at fewer counted
          omega
      | @replaced new _ different sameBreak =>
          -- Both texts go on with the same break, so the contents before it are the same.
          exfalso
          apply different
          have broken : ∀ (rest : Text), ∀ char ∈ (ending ++ rest).head?,
              Text.isLineBreak char = true := by
            intro rest char starts
            rw [List.head?_append_of_ne_nil _ isBreak.ne_nil] at starts
            exact isBreak.isLineBreak_head char starts
          have newShape : new = Text.lineContent new ++ ending := by
            rw [← ownBreak, ← sameBreak.1, Text.lineContent_append_lineBreak]
          have contents := congrArg Text.lineContent same
          simp only [newLine] at contents
          rw [newShape, List.append_assoc, List.append_assoc,
            Text.lineContent_append (Text.isUnbroken_lineContent new) (broken _),
            Text.lineContent_append unbroken (broken _)] at contents
          rw [newShape, contents]

theorem newText_eq_of_not_anyChange (accounts : List.Forall₂ Accounts lines actions)
    (unchanged : anyChange actions = false) : newText actions = lines.flatten := by
  induction accounts with
  | nil => rfl
  | cons first _ ih =>
      rw [anyChange_cons, Bool.or_eq_false_iff] at unchanged
      cases first with
      | kept =>
          simp only [newText, List.flatMap_cons, List.flatten_cons] at ih ⊢
          rw [ih unchanged.2]
          rfl
      | dropped _ => simp [isKept] at unchanged
      | replaced _ _ => simp [isKept] at unchanged

end Texts

end Action

section Conversion

variable {settings : Settings}

theorem exists_read?_of_isLong {line : Text} {options : Options} {currentType : Option Text}
    {ignored : Text → Text → Bool}
    (isLong : (ConvertedLine.ofLine line options currentType ignored).isLong = true) :
    ∃ candidate, LongForm.read? line = some candidate := by
  obtain ⟨candidate, found, longForm⟩ := isLong_iff.mp isLong
  cases read : LongForm.read? line with
  | some candidate => exact ⟨candidate, rfl⟩
  | none =>
      simp only [candidatesIn, read, List.mem_filter] at found
      rcases ShortForm.exists_pieces 0 line with ⟨pieces, -, links, -⟩
      rw [links] at found
      rcases Piece.mem_candidates found.1 with ⟨place, name, target, -, rfl⟩
      simp [ShortForm.candidate] at longForm

theorem accounts_actionFor {tracker : Tracker} {content ending : Text}
    (unbroken : Text.IsUnbroken content) (isEnding : ending = [] ∨ Text.IsBreak ending)
    (areWords : ∀ name ∈ tracker.currentType, ∀ char ∈ name, Text.isWord char = true) :
    Action.Accounts (content ++ ending) (tracker.actionFor settings (content ++ ending)) := by
  simp only [Tracker.actionFor]
  split
  · rename_i isDropped
    simp only [Bool.and_eq_true] at isDropped
    obtain ⟨candidate, read⟩ := exists_read?_of_isLong isDropped.1.2
    apply Action.Accounts.dropped
    rw [Text.lineBreak_append unbroken fun char first =>
      Text.isLineBreak_of_ending isEnding char (List.mem_of_mem_head? first)]
    exact LongForm.isLineEnd_of_read? unbroken isEnding read
  · split
    · exact .kept
    · rename_i different
      exact .replaced different (sameBreak_ofLine unbroken isEnding areWords)

theorem forall₂_accounts (settings : Settings) (text : Text) :
    List.Forall₂ Action.Accounts (Text.splitLines text)
      (convertLines settings (Text.splitLines text)) := by
  rw [List.forall₂_iff_get]
  refine ⟨(Tracker.length_run settings _ _).symm, ?_⟩
  intro index lineBound actionBound
  obtain ⟨line, tracker, isLine, reached, isAction⟩ :=
    Tracker.exists_reached settings (List.getElem?_eq_getElem actionBound)
  rw [List.getElem?_eq_getElem lineBound, Option.some.injEq] at isLine
  obtain ⟨content, ending, shape, unbroken, isEnding⟩ :=
    (Text.areLines_splitLines text).exists_content (List.getElem_mem lineBound)
  rw [List.get_eq_getElem, List.get_eq_getElem, isAction, ← isLine, shape]
  exact accounts_actionFor unbroken isEnding reached.isWord_currentType

/-- A change is reported exactly when the text changes. -/
theorem newText_convertLines_eq_iff (settings : Settings) (text : Text) :
    Action.newText (convertLines settings (Text.splitLines text)) = text ↔
      Action.anyChange (convertLines settings (Text.splitLines text)) = false := by
  have accounts := forall₂_accounts settings text
  have unsplit : (Text.splitLines text).flatten = text := Text.flatten_splitLines text
  constructor
  · intro same
    apply Action.anyChange_eq_false_of_newText_eq (Text.areLines_splitLines text) accounts
    rw [same, unsplit]
  · intro unchanged
    rw [Action.newText_eq_of_not_anyChange accounts unchanged, unsplit]

end Conversion

/--
Every line of a text is answered by one action that carries the line and, unless it is kept, its
position. If no line is dropped, the converted text has the new lines for its lines, each with the
break that it had. A change is reported exactly when the text changes.
-/
theorem convertLines_accounts (settings : Settings) (text : Text) :
    let lines := Text.splitLines text
    let actions := convertLines settings lines
    actions.length = lines.length ∧
      actions.map Action.line = lines ∧
      (∀ (index : Nat) (action : Action), actions[index]? = some action →
        action.position? = if action.isKept then none else some (index + 1)) ∧
      ((∀ action ∈ actions, action.isDropped = false) →
        Text.splitLines (Action.newText actions) = actions.map Action.newLine ∧
        ∀ action ∈ actions, Text.lineBreak action.newLine = Text.lineBreak action.line) ∧
      (Action.newText actions = text ↔ Action.anyChange actions = false) := by
  intro lines actions
  have accounts : List.Forall₂ Action.Accounts lines actions := forall₂_accounts settings text
  have areLines : Text.AreLines lines := Text.areLines_splitLines text
  refine ⟨accounts.length_eq.symm, Action.map_line_of_accounts accounts, ?_, ?_, ?_⟩
  · intro index action found
    obtain ⟨line, tracker, -, reached, rfl⟩ := Tracker.exists_reached settings found
    simp only [Tracker.actionFor]
    split
    · simp [Action.position?, Action.isKept, reached.position]
    · split
      · rfl
      · simp [Action.position?, Action.isKept, reached.position]
  · intro noneDropped
    have sameBreaks := Action.forall₂_sameBreak accounts noneDropped
    refine ⟨?_, ?_⟩
    · rw [Action.newText, List.flatMap_def]
      exact (areLines.exchange sameBreaks).splitLines_flatten
    · intro action isAction
      exact ((Action.accounts_line accounts action isAction).sameBreak
        (noneDropped action isAction)).1
  · exact newText_convertLines_eq_iff settings text

/-- A text whose lines end in a vertical tab, a lone carriage return and nothing. -/
theorem convertLines_accounts_mixedBreaks :
    let text := "[x](struct.A.html)\x0b\r[`B`](struct.B.html)".toList
    let actions := convertLines {} (Text.splitLines text)
    (∀ action ∈ actions, action.isDropped = false) ∧
      Text.splitLines (Action.newText actions) = actions.map Action.newLine ∧
      actions.map Action.newLine = ["[x](A)\x0b".toList, "\r".toList, "[`B`]".toList] := by
  intro text actions
  have noneDropped : ∀ action ∈ actions, action.isDropped = false := by decide +kernel
  exact ⟨noneDropped, ((convertLines_accounts {} text).2.2.2.1 noneDropped).1, by decide +kernel⟩

end IntraDoc
