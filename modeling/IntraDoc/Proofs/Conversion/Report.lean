import IntraDoc.Conversion.Report
import IntraDoc.Proofs.Text.Markup

/-!
# What a report shows

A report is read on a console without its markup. What comes from the file or its path is shown as
it is, whatever brackets are in it, and the markup of the report itself leaves no trace.
-/

namespace IntraDoc

namespace Text

theorem notMem_ofInt {char : Char} (notDigit : char.isDigit = false) (notMinus : char ≠ '-')
    (value : Int) : char ∉ ofInt value := by
  have notNatural : ∀ natural : Nat, char ∉ ofNat natural := by
    intro natural inside
    have isDigit := Nat.isDigit_of_mem_toDigits (by decide) (by decide) inside
    simp [notDigit] at isDigit
  cases value with
  | ofNat natural => exact notNatural natural
  | negSucc natural => simp [ofInt, notMinus, notNatural]

end Text

namespace Report

/-- The texts from a file that the entry of an action holds. -/
def textsOf : Action → List Text
  | .kept _ => []
  | .dropped line _ reason => [line, reason]
  | .replaced line new _ => [line, new]

/-- A line between double quotes, without its line break. -/
def plainQuoted (line : Text) : Text :=
  '"' :: Text.trimLineEnd line ++ ['"']

/-- The position of a line, right-aligned in five columns, and the line as it was. -/
def plainFirstLine (position : Int) (line : Text) : Text :=
  Text.padLeft ' ' 5 (Text.ofInt position) ++ ":  ".toList ++ plainQuoted line

/-- The lines that are shown for an action, an empty one at their end. -/
def plainEntry : Action → List Text
  | .kept _ => []
  | .dropped line position reason =>
    [plainFirstLine position line, List.replicate 8 ' ' ++ reason, []]
  | .replaced line new position =>
    [plainFirstLine position line, List.replicate 8 ' ' ++ plainQuoted new, []]

/-- The lines that are shown of a report. -/
def plainLines (path : Text) (actions : List Action) : List Text :=
  path :: List.replicate path.length '=' :: [] :: actions.flatMap plainEntry

section Entries

variable {line new reason path style : Text} {position : Int} {action : Action}
  {actions : List Action}

theorem isStyle_colours : Markup.IsStyle "red".toList ∧ Markup.IsStyle "green".toList ∧
    Markup.IsStyle "yellow".toList :=
  ⟨⟨by decide, by decide⟩, ⟨by decide, by decide⟩, ⟨by decide, by decide⟩⟩

theorem quoted_eq (line style : Text) :
    quoted line style = '"' :: Markup.styled style (Text.trimLineEnd line) ++ ['"'] := by
  delta quoted
  simp [Markup.styled]

theorem notMem_trimLineEnd {char : Char} (free : char ∉ line) : char ∉ Text.trimLineEnd line := by
  obtain ⟨run, shape, -⟩ :=
    Text.exists_eq_trimRight_append (fun char => char = '\r' || char = '\n') line
  intro inside
  apply free
  rw [shape]
  exact List.mem_append_left _ inside

theorem shows_quoted (isStyle : Markup.IsStyle style) (noSlash : '\\' ∉ line) :
    Markup.Shows (quoted line style) (plainQuoted line) := by
  have quote : Markup.Shows ['"'] ['"'] := Markup.shows_of_notMem (by decide) (by decide)
  rw [quoted_eq]
  exact (quote.append (Markup.shows_styled isStyle (notMem_trimLineEnd noSlash))).append quote

/-- The position of a line, as it stands in front of the line. -/
def positionText (position : Int) : Text :=
  Text.padLeft ' ' 5 (Text.ofInt position) ++ ":  ".toList

theorem notMem_positionText {char : Char} (notDigit : char.isDigit = false)
    (others : char ∉ ['-', ' ', ':']) : char ∉ positionText position := by
  simp only [List.mem_cons, List.not_mem_nil, or_false, not_or] at others
  have notNumber := Text.notMem_ofInt notDigit others.1 position
  simp [positionText, Text.padLeft, List.mem_replicate, notNumber, others]

theorem firstLine_eq (position : Int) (line : Text) :
    firstLine position line = positionText position ++ quoted line "red".toList :=
  rfl

theorem shows_firstLine (position : Int) (noSlash : '\\' ∉ line) :
    Markup.Shows (firstLine position line) (plainFirstLine position line) := by
  have number : Markup.Shows (positionText position) (positionText position) :=
    Markup.shows_of_notMem (notMem_positionText (by decide) (by decide))
      (notMem_positionText (by decide) (by decide))
  exact number.append (shows_quoted isStyle_colours.1 noSlash)

/-- What an action adds to a report. -/
def entryMarkup (action : Action) : Text :=
  if action.isKept then [] else '\n' :: ofAction action ++ ['\n']

theorem shows_entryMarkup (noSlash : ∀ text ∈ textsOf action, '\\' ∉ text) :
    Markup.Shows (entryMarkup action) ((plainEntry action).flatMap fun line => '\n' :: line) := by
  have feed : Markup.Shows ['\n'] ['\n'] := Markup.shows_of_notMem (by decide) (by decide)
  have indented : Markup.Shows ('\n' :: indentation) ('\n' :: indentation) :=
    Markup.shows_of_notMem (by decide) (by decide)
  cases action with
  | kept line => exact fun rest => rfl
  | dropped line position reason =>
      simp only [textsOf, List.mem_cons, List.not_mem_nil, or_false, forall_eq_or_imp,
        forall_eq] at noSlash
      have head := (feed.append (shows_firstLine position noSlash.1)).append indented
      have tail := (Markup.shows_styled isStyle_colours.2.2 noSlash.2).append feed
      simpa [entryMarkup, ofAction, Action.isKept, plainEntry, Markup.styled, indentation] using
        head.append tail
  | replaced line new position =>
      simp only [textsOf, List.mem_cons, List.not_mem_nil, or_false, forall_eq_or_imp,
        forall_eq] at noSlash
      have head := (feed.append (shows_firstLine position noSlash.1)).append indented
      have tail := (shows_quoted isStyle_colours.2.1 noSlash.2).append feed
      simpa [entryMarkup, ofAction, Action.isKept, plainEntry, indentation] using head.append tail

theorem shows_entries (noSlash : ∀ action ∈ actions, ∀ text ∈ textsOf action, '\\' ∉ text) :
    Markup.Shows (actions.flatMap entryMarkup)
      ((actions.flatMap plainEntry).flatMap fun line => '\n' :: line) := by
  induction actions with
  | nil => exact fun rest => rfl
  | cons action actions ih =>
      simp only [List.mem_cons, forall_eq_or_imp] at noSlash
      simpa using (shows_entryMarkup noSlash.1).append (ih noSlash.2)

/-- What stands in front of the first tag of an entry closes no bracket. -/
theorem closing?_entries (actions : List Action) :
    Markup.closing? (actions.flatMap entryMarkup) = none := by
  have firstLine_open : ∀ position line rest,
      Markup.closing? ('\n' :: firstLine position line ++ rest) = none := by
    intro position line rest
    have front : ('\n' :: firstLine position line) ++ rest =
        ('\n' :: positionText position ++ ['"']) ++
          (Markup.styled "red".toList (Text.trimLineEnd line) ++ ['"'] ++ rest) := by
      simp [firstLine_eq, quoted_eq]
    rw [front]
    apply Markup.closing?_append_of_notMem
    · simp [notMem_positionText]
    · simp [notMem_positionText]
    · rfl
  induction actions with
  | nil => rfl
  | cons action actions ih =>
      cases action with
      | kept line => exact ih
      | dropped line position reason =>
          simpa [entryMarkup, ofAction, Action.isKept] using firstLine_open position line _
      | replaced line new position =>
          simpa [entryMarkup, ofAction, Action.isKept] using firstLine_open position line _

theorem ofActions_eq (path : Text) (actions : List Action) :
    ofActions path actions =
      Markup.escape path ++
        ('\n' :: List.replicate path.length '=' ++ '\n' :: actions.flatMap entryMarkup) := by
  have entries : ((actions.filter fun action => !action.isKept).flatMap fun action =>
      [ofAction action, []]).flatMap (fun line => '\n' :: line) = actions.flatMap entryMarkup := by
    induction actions with
    | nil => rfl
    | cons action actions ih =>
        cases kept : action.isKept <;> simp [entryMarkup, kept, ih]
  simp only [ofActions, lines, List.cons_append, List.nil_append, Text.joinWith_eq_flatMap]
  simp [← entries]

end Entries

/--
What a console shows of a report, if there is no backslash in what comes from the file or its path:
the path, a rule of the same length and an empty line, and for every line that is not kept its
position and its text as it was, below it the new text or the reason, and an empty line.
-/
theorem plain_ofActions {path : Text} {actions : List Action} (pathFree : '\\' ∉ path)
    (noSlash : ∀ action ∈ actions, ∀ text ∈ textsOf action, '\\' ∉ text) :
    Markup.plain (ofActions path actions) = Text.joinWith ['\n'] (plainLines path actions) := by
  have rule : Markup.Shows ('\n' :: List.replicate path.length '=' ++ ['\n'])
      ('\n' :: List.replicate path.length '=' ++ ['\n']) :=
    Markup.shows_of_notMem (by simp) (by simp)
  have ruleOpen : Markup.closing? (('\n' :: List.replicate path.length '=' ++ ['\n']) ++
      actions.flatMap entryMarkup) = none :=
    Markup.closing?_append_of_notMem (by simp) (by simp) (closing?_entries actions)
  have behind := rule.append (shows_entries noSlash) []
  rw [List.append_nil, Markup.plain_nil, List.append_nil] at behind
  calc Markup.plain (ofActions path actions)
      = Markup.plain (Markup.escape path ++ (('\n' :: List.replicate path.length '=' ++ ['\n']) ++
          actions.flatMap entryMarkup)) := by simp [ofActions_eq]
    _ = path ++ (('\n' :: List.replicate path.length '=' ++ ['\n']) ++
          (actions.flatMap plainEntry).flatMap fun line => '\n' :: line) := by
        rw [Markup.plain_escape_append pathFree ruleOpen, behind]
    _ = Text.joinWith ['\n'] (plainLines path actions) := by
        simp [plainLines, Text.joinWith_eq_flatMap]

/-- Brackets that look like tags, closed and unclosed ones, in the path, the lines and a reason. -/
theorem plain_ofActions_brackets :
    let path := "src/[bold].rs".toList
    let actions : List Action :=
      [.replaced "[a](fn.a.html) [/red\r\n".toList "[a](a()) [/red\r\n".toList 7,
        .kept "a \\ b\n".toList,
        .dropped "[b]: b\n".toList 123456 "'[b]: b'".toList]
    '\\' ∉ path ∧ (∀ action ∈ actions, ∀ text ∈ textsOf action, '\\' ∉ text) ∧
      Markup.plain (ofActions path actions) = Text.joinWith ['\n']
        ["src/[bold].rs".toList, "=============".toList, [],
          "    7:  \"[a](fn.a.html) [/red\"".toList, "        \"[a](a()) [/red\"".toList, [],
          "123456:  \"[b]: b\"".toList, "        '[b]: b'".toList, []] := by
  intro path actions
  have pathFree : '\\' ∉ path := by decide
  have noSlash : ∀ action ∈ actions, ∀ text ∈ textsOf action, '\\' ∉ text := by decide
  refine ⟨pathFree, noSlash, ?_⟩
  rw [plain_ofActions pathFree noSlash]
  decide

end Report

end IntraDoc
