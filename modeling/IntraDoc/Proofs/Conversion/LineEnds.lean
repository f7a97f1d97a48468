import IntraDoc.Proofs.Line.LineBreaks
import IntraDoc.Proofs.Scope.Intervals

/-!
# Line ends and conversions

A conversion does not depend on how the lines end: with a line feed, with a carriage return and a
line feed, or not at all. Declarations are read, blocks are closed and links are converted alike, so
two runs over the same contents with different line ends go on in step, and every line keeps its own
end. A file with carriage returns is converted like the file without them.
-/

namespace IntraDoc

namespace Block

/-- What the blocks of lines without carriage returns and line feeds have in common. -/
structure IsPlain (block : Block) : Prop where
  isWord_name : ∀ char ∈ block.name, Text.isWord char = true
  endMarker : block.isSingleLine = true ∨ ('\r' ∉ block.endMarker ∧ '\n' ∉ block.endMarker)

variable {content ending : Text}

theorem ofLine?_append (free : '\r' ∉ content ∧ '\n' ∉ content)
    (isEnd : LongForm.isLineEnd ending = true) (position : Int) :
    ofLine? (content ++ ending) position = ofLine? content position := by
  have bare : Text.trimLineEnd content = content := by
    simpa using Text.trimLineEnd_append free (show ∀ char ∈ [], char = '\r' ∨ char = '\n' by simp)
  rw [ofLine?, ofLine?, bare,
    Text.trimLineEnd_append free (LongForm.return_or_feed_of_isLineEnd isEnd)]

theorem isPlain_of_ofLine? (free : '\r' ∉ content ∧ '\n' ∉ content) {position : Int} {block : Block}
    (declares : ofLine? content position = some block) : block.IsPlain := by
  refine ⟨isWord_of_ofLine? declares, ?_⟩
  simp only [ofLine?, Option.map_eq_some_iff] at declares
  rcases declares with ⟨⟨name, parenthesis⟩, -, rfl⟩
  simp only [isSingleLine]
  split
  · exact Or.inl (by simp)
  · obtain ⟨tail, shape, -⟩ :=
      Text.exists_eq_trimRight_append (fun char => char = '\r' || char = '\n') content
    have notIndented : ∀ {char : Char}, char ∉ content →
        char ∉ (Text.trimLineEnd content).takeWhile Text.isBlank := by
      intro char notIn inside
      apply notIn
      rw [shape]
      exact List.mem_append_left _ ((List.takeWhile_prefix _).subset inside)
    refine Or.inr ⟨?_, ?_⟩
    all_goals
      rw [List.mem_append, not_or]
      cases parenthesis <;> simp [notIndented, free]

theorem closes_append {block : Block} (isPlain : block.IsPlain)
    (isEnd : LongForm.isLineEnd ending = true) (line : Text) :
    Tracker.closes block (line ++ ending) = Tracker.closes block line := by
  rcases isPlain.endMarker with single | free
  · simp [Tracker.closes, single]
  · have apart : ∀ char ∈ block.endMarker, char ∉ ending := by
      intro char inMarker inEnding
      rcases LongForm.return_or_feed_of_isLineEnd isEnd char inEnding with rfl | rfl
      · exact free.1 inMarker
      · exact free.2 inMarker
    rw [Tracker.closes, Tracker.closes, Text.startsWith_append_ending apart]

end Block

/-- The lines with these contents and ends. -/
def Text.withLineEnds (contents ends : List Text) : List Text :=
  List.zipWith (· ++ ·) contents ends

/-- The action for a line with this end, made from the one for the line without an end. -/
def Action.withLineEnd (action : Action) (ending : Text) : Action :=
  match action with
  | kept line => kept (line ++ ending)
  | dropped line position reason => dropped (line ++ ending) position reason
  | replaced line new position => replaced (line ++ ending) (new ++ ending) position

namespace Tracker

/-- Every block that the tracker is in or that is still to come satisfies `P`. -/
structure Knows (P : Block → Prop) (tracker : Tracker) : Prop where
  current : ∀ block ∈ tracker.current, P block
  pending : ∀ block ∈ tracker.pending, P block

section Knowing

variable {P : Block → Prop} {tracker : Tracker}

theorem knows_start {lines : List Text} (all : ∀ block ∈ Block.declared lines, P block) :
    (start lines).Knows P :=
  ⟨by simp [start, reset], all⟩

theorem Knows.advance (knows : tracker.Knows P) : tracker.advance.Knows P := by
  rcases advance_cases tracker with ⟨block, isCurrent, next⟩ | ⟨-, -, next⟩ |
    ⟨-, block, others, left, next⟩
  · rw [next]
    exact ⟨isCurrent ▸ knows.current, knows.pending⟩
  · rw [next]
    exact ⟨by simp, by simp⟩
  · have remaining : ∀ other ∈ block :: others, P other := by
      intro other isOther
      exact knows.pending other ((List.dropWhile_sublist _).subset (left ▸ isOther))
    rw [next]
    refine ⟨?_, fun other isOther => remaining other (List.mem_cons_of_mem _ isOther)⟩
    rintro _ ⟨⟩
    exact remaining block List.mem_cons_self

theorem Knows.leave (knows : tracker.Knows P) (line : Text) : (tracker.leave line).Knows P := by
  rcases leave_cases tracker line with ⟨block, -, -, -, next⟩ | ⟨-, next⟩
  · rw [next]
    exact ⟨by simp, knows.pending⟩
  · rwa [next]

theorem Knows.isWord_currentType (knows : tracker.Knows P)
    (areWords : ∀ block, P block → ∀ char ∈ block.name, Text.isWord char = true) :
    ∀ name ∈ tracker.currentType, ∀ char ∈ name, Text.isWord char = true := by
  intro name inScope
  unfold currentType at inScope
  split at inScope
  · rename_i block isCurrent
    split at inScope
    · simp at inScope
    · rw [Option.mem_def, Option.some.injEq] at inScope
      exact inScope ▸ areWords block (knows.current block isCurrent)
  · simp at inScope

end Knowing

section Ends

variable (settings : Settings) {tracker : Tracker} {content ending : Text}

theorem actionFor_append (free : '\r' ∉ content ∧ '\n' ∉ content)
    (isEnd : LongForm.isLineEnd ending = true)
    (areWords : ∀ name ∈ tracker.currentType, ∀ char ∈ name, Text.isWord char = true) :
    tracker.actionFor settings (content ++ ending) =
      (tracker.actionFor settings content).withLineEnd ending := by
  have convertedFree : '\r' ∉ (ConvertedLine.ofLine content settings.options tracker.currentType
      settings.ignores).text ∧ '\n' ∉ (ConvertedLine.ofLine content settings.options
      tracker.currentType settings.ignores).text :=
    ⟨notMem_ofLine_text (by decide) areWords free.1,
      notMem_ofLine_text (by decide) areWords free.2⟩
  simp only [actionFor, ofLine_append free isEnd, linksToItself_append convertedFree isEnd,
    List.append_cancel_right_eq]
  split
  · rfl
  · split <;> rfl

omit settings in
theorem leave_append (knows : tracker.Knows Block.IsPlain)
    (isEnd : LongForm.isLineEnd ending = true) :
    tracker.leave (content ++ ending) = tracker.leave content := by
  unfold leave
  split
  · rename_i block isCurrent
    rw [Block.closes_append (knows.current block isCurrent) isEnd]
  · rfl

/-- Runs over the same contents with and without line ends go on in step. -/
theorem run_withLineEnds (knows : tracker.Knows Block.IsPlain) {contents ends : List Text}
    (free : ∀ content ∈ contents, '\r' ∉ content ∧ '\n' ∉ content)
    (areEnds : ∀ ending ∈ ends, LongForm.isLineEnd ending = true)
    (sameLength : ends.length = contents.length) :
    tracker.run settings (Text.withLineEnds contents ends) =
      (List.zipWith Action.withLineEnd (tracker.run settings contents).1 ends,
        (tracker.run settings contents).2) := by
  induction contents generalizing tracker ends with
  | nil =>
      rw [List.length_eq_zero_iff.mp sameLength]
      rfl
  | cons content contents ih =>
      obtain ⟨ending, ends, rfl⟩ := List.exists_cons_of_length_eq_add_one sameLength
      have isEnd := areEnds ending List.mem_cons_self
      have areWords := knows.advance.isWord_currentType fun _ isPlain => isPlain.isWord_name
      have left : tracker.advance.leave (content ++ ending) = tracker.advance.leave content :=
        leave_append knows.advance isEnd
      have rest := ih (knows.advance.leave content)
        (fun other isOther => free other (List.mem_cons_of_mem _ isOther))
        (fun other isOther => areEnds other (List.mem_cons_of_mem _ isOther))
        (by simpa using sameLength)
      have action := actionFor_append settings (free content List.mem_cons_self) isEnd areWords
      simp only [Text.withLineEnds, List.zipWith_cons_cons, run, step] at rest ⊢
      rw [left, rest, action]

end Ends

end Tracker

theorem Block.declaredFrom_withLineEnds {contents ends : List Text}
    (free : ∀ content ∈ contents, '\r' ∉ content ∧ '\n' ∉ content)
    (areEnds : ∀ ending ∈ ends, LongForm.isLineEnd ending = true)
    (sameLength : ends.length = contents.length) (position : Int) :
    declaredFrom position (Text.withLineEnds contents ends) = declaredFrom position contents := by
  induction contents generalizing ends position with
  | nil =>
      rw [List.length_eq_zero_iff.mp sameLength]
      rfl
  | cons content contents ih =>
      obtain ⟨ending, ends, rfl⟩ := List.exists_cons_of_length_eq_add_one sameLength
      have rest := ih (fun other isOther => free other (List.mem_cons_of_mem _ isOther))
        (fun other isOther => areEnds other (List.mem_cons_of_mem _ isOther))
        (by simpa using sameLength) (position + 1)
      simp only [Text.withLineEnds, List.zipWith_cons_cons, declaredFrom] at rest ⊢
      rw [rest,
        ofLine?_append (free content List.mem_cons_self) (areEnds ending List.mem_cons_self)]

section Contents

variable (settings : Settings) {contents : List Text}
  (free : ∀ content ∈ contents, '\r' ∉ content ∧ '\n' ∉ content)

include free

theorem Block.isPlain_of_mem_declared : ∀ block ∈ declared contents, block.IsPlain := by
  intro block isDeclared
  rcases mem_declared isDeclared with ⟨index, line, found, -, declares⟩
  exact isPlain_of_ofLine? (free line (List.mem_of_getElem? found)) declares

theorem convertLines_lineEnds {ends : List Text}
    (areEnds : ∀ ending ∈ ends, LongForm.isLineEnd ending = true)
    (sameLength : ends.length = contents.length) :
    convertLines settings (Text.withLineEnds contents ends) =
      List.zipWith Action.withLineEnd (convertLines settings contents) ends := by
  have sameStart : Tracker.start (Text.withLineEnds contents ends) = Tracker.start contents := by
    simp only [Tracker.start, Tracker.reset, Block.declared,
      Block.declaredFrom_withLineEnds free areEnds sameLength]
  have knows := Tracker.knows_start (Block.isPlain_of_mem_declared free)
  rw [convertLines, sameStart, Tracker.run_withLineEnds settings knows free areEnds sameLength]
  rfl

/-- The new lines of contents have no line feed either. -/
theorem newline_notMem_newLine :
    ∀ action ∈ convertLines settings contents, '\n' ∉ action.newLine := by
  intro action isAction
  obtain ⟨index, found⟩ := List.mem_iff_getElem?.mp isAction
  obtain ⟨line, tracker, isLine, reached, rfl⟩ := Tracker.exists_reached settings found
  have lineFree := (free line (List.mem_of_getElem? isLine)).2
  simp only [Tracker.actionFor]
  split
  · simp [Action.newLine]
  · split
    · exact lineFree
    · exact notMem_ofLine_text (by decide) reached.isWord_currentType lineFree

end Contents

section CarriageReturns

/-- A line without a carriage return is cut into its content and a line feed or nothing. -/
theorem exists_feed_or_nothing {lines : List Text} {line : Text} (areLines : Text.AreLines lines)
    (isLine : line ∈ lines) (free : '\r' ∉ line) :
    ∃ content ending, line = content ++ ending ∧ ('\r' ∉ content ∧ '\n' ∉ content) ∧
      (ending = [] ∨ ending = ['\n']) := by
  obtain ⟨content, ending, rfl, unbroken, isEnding⟩ := areLines.exists_content isLine
  have returnFree : '\r' ∉ content := fun inside => free (List.mem_append_left _ inside)
  have feedFree : '\n' ∉ content := unbroken.newline_notMem
  rcases isEnding with rfl | isBreak
  · exact ⟨content, [], rfl, ⟨returnFree, feedFree⟩, Or.inl rfl⟩
  · cases isBreak with
    | pair => simp at free
    | @single char breaks =>
        by_cases isFeed : char = '\n'
        · exact ⟨content, [char], rfl, ⟨returnFree, feedFree⟩, Or.inr (by rw [isFeed])⟩
        · refine ⟨content ++ [char], [], (List.append_nil _).symm, ⟨free, ?_⟩, Or.inl rfl⟩
          simp [feedFree, Ne.symm isFeed]

theorem exists_withLineEnds {lines : List Text} (areLines : Text.AreLines lines)
    (free : ∀ line ∈ lines, '\r' ∉ line) :
    ∃ contents ends, Text.withLineEnds contents ends = lines ∧ ends.length = contents.length ∧
      (∀ content ∈ contents, '\r' ∉ content ∧ '\n' ∉ content) ∧
      ∀ ending ∈ ends, ending = [] ∨ ending = ['\n'] := by
  have cuts := fun line isLine => exists_feed_or_nothing areLines isLine (free line isLine)
  clear areLines free
  induction lines with
  | nil => exact ⟨[], [], rfl, rfl, by simp, by simp⟩
  | cons line lines ih =>
      obtain ⟨content, ending, shape, contentFree, isFeed⟩ := cuts line List.mem_cons_self
      obtain ⟨contents, ends, cut, sameLength, contentsFree, areFeeds⟩ :=
        ih fun other isOther => cuts other (List.mem_cons_of_mem _ isOther)
      refine ⟨content :: contents, ending :: ends, ?_, by simp [sameLength],
        List.forall_mem_cons.mpr ⟨contentFree, contentsFree⟩,
        List.forall_mem_cons.mpr ⟨isFeed, areFeeds⟩⟩
      rw [← cut, shape]
      rfl

theorem map_withReturns_withLineEnds {contents : List Text}
    (free : ∀ content ∈ contents, '\n' ∉ content) (ends : List Text) :
    (Text.withLineEnds contents ends).map Text.withReturns =
      Text.withLineEnds contents (ends.map Text.withReturns) := by
  induction contents generalizing ends with
  | nil => rfl
  | cons content contents ih =>
      cases ends with
      | nil => rfl
      | cons ending ends =>
          have rest := ih (fun other isOther => free other (List.mem_cons_of_mem _ isOther)) ends
          simp only [Text.withLineEnds, List.map_cons, List.zipWith_cons_cons] at rest ⊢
          rw [rest, Text.withReturns_append,
            Text.withReturns_of_notMem (free content List.mem_cons_self)]

theorem newLine_withReturns {action : Action} (free : '\n' ∉ action.newLine) (ending : Text) :
    (action.withLineEnd (Text.withReturns ending)).newLine =
      Text.withReturns (action.withLineEnd ending).newLine := by
  cases action with
  | dropped line position reason => rfl
  | kept line =>
      simp only [Action.newLine] at free
      simp only [Action.withLineEnd, Action.newLine, Text.withReturns_append,
        Text.withReturns_of_notMem free]
  | replaced line new position =>
      simp only [Action.newLine] at free
      simp only [Action.withLineEnd, Action.newLine, Text.withReturns_append,
        Text.withReturns_of_notMem free]

theorem newText_withReturns {actions : List Action}
    (free : ∀ action ∈ actions, '\n' ∉ action.newLine) (ends : List Text) :
    Action.newText (List.zipWith Action.withLineEnd actions (ends.map Text.withReturns)) =
      Text.withReturns (Action.newText (List.zipWith Action.withLineEnd actions ends)) := by
  induction actions generalizing ends with
  | nil => rfl
  | cons action actions ih =>
      cases ends with
      | nil => rfl
      | cons ending ends =>
          have rest := ih (fun other isOther => free other (List.mem_cons_of_mem _ isOther)) ends
          simp only [Action.newText, List.map_cons, List.zipWith_cons_cons, List.flatMap_cons]
            at rest ⊢
          rw [newLine_withReturns (free action List.mem_cons_self), rest, Text.withReturns_append]

/-- A text with carriage returns is converted like the text without them. -/
theorem newText_splitLines_withReturns (settings : Settings) {text : Text} (free : '\r' ∉ text) :
    Action.newText (convertLines settings (Text.splitLines (Text.withReturns text))) =
      Text.withReturns (Action.newText (convertLines settings (Text.splitLines text))) := by
  have inText : ∀ line ∈ Text.splitLines text, '\r' ∉ line := by
    intro line isLine inside
    apply free
    rw [← Text.flatten_splitLines text]
    exact List.mem_flatten.mpr ⟨line, isLine, inside⟩
  obtain ⟨contents, ends, cut, sameLength, contentsFree, areFeeds⟩ :=
    exists_withLineEnds (Text.areLines_splitLines text) inText
  have areEnds : ∀ ending ∈ ends, LongForm.isLineEnd ending = true := by
    intro ending isEnding
    rcases areFeeds ending isEnding with rfl | rfl <;> rfl
  have areReturnEnds : ∀ ending ∈ ends.map Text.withReturns, LongForm.isLineEnd ending = true := by
    intro ending isEnding
    obtain ⟨feed, isFeed, rfl⟩ := List.mem_map.mp isEnding
    rcases areFeeds feed isFeed with rfl | rfl <;> rfl
  rw [Text.splitLines_withReturns free, ← cut,
    map_withReturns_withLineEnds fun content isContent => (contentsFree content isContent).2,
    convertLines_lineEnds settings contentsFree areReturnEnds (by simp [sameLength]),
    convertLines_lineEnds settings contentsFree areEnds sameLength,
    newText_withReturns (newline_notMem_newLine settings contentsFree)]

end CarriageReturns

/--
Line ends do not influence a conversion. For contents without carriage returns and line feeds and
any two assignments of ends to them, the actions are those for the bare contents, with the ends
behind the lines as they were and as they become. In particular the conversion of a text with
carriage returns is the conversion of the text without them, with carriage returns.
-/
theorem convertLines_withLineEnds (settings : Settings) :
    (∀ contents first second : List Text,
      (∀ content ∈ contents, '\r' ∉ content ∧ '\n' ∉ content) →
      (∀ ending ∈ first ++ second, LongForm.isLineEnd ending = true) →
      first.length = contents.length → second.length = contents.length →
      let actions := convertLines settings contents
      actions.length = contents.length ∧
        convertLines settings (Text.withLineEnds contents first) =
          List.zipWith Action.withLineEnd actions first ∧
        convertLines settings (Text.withLineEnds contents second) =
          List.zipWith Action.withLineEnd actions second) ∧
    ∀ text : Text, '\r' ∉ text →
      Action.newText (convertLines settings (Text.splitLines (Text.withReturns text))) =
        Text.withReturns (Action.newText (convertLines settings (Text.splitLines text))) := by
  refine ⟨?_, fun text free => newText_splitLines_withReturns settings free⟩
  intro contents first second free areEnds firstLength secondLength
  refine ⟨Tracker.length_run settings (Tracker.start contents) contents, ?_, ?_⟩
  · exact convertLines_lineEnds settings free
      (fun ending isFirst => areEnds ending (List.mem_append_left _ isFirst)) firstLength
  · exact convertLines_lineEnds settings free
      (fun ending isSecond => areEnds ending (List.mem_append_right _ isSecond)) secondLength

/-- A block and a link in it, with a line that has no end among lines with both other ends. -/
theorem convertLines_withLineEnds_mixed :
    let contents := ["impl A \x7b".toList, "/// [x]: #method.y".toList, "\x7d".toList]
    let first := ["\n".toList, "\n".toList, []]
    let second := ["\r\n".toList, [], "\r\n".toList]
    (convertLines {} contents)[1]? =
        some (.replaced "/// [x]: #method.y".toList "/// [x]: A::y()".toList 2) ∧
      convertLines {} (Text.withLineEnds contents first) =
        List.zipWith Action.withLineEnd (convertLines {} contents) first ∧
      convertLines {} (Text.withLineEnds contents second) =
        List.zipWith Action.withLineEnd (convertLines {} contents) second := by
  intro contents first second
  refine ⟨by decide +kernel, ?_⟩
  exact ((convertLines_withLineEnds {}).1 contents first second (by decide) (by decide) rfl rfl).2

end IntraDoc
