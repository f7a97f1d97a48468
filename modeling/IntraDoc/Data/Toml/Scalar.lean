import IntraDoc.Data.Numeral
import IntraDoc.Data.Value

/-!
# Scalars of TOML

Strings in their four forms, numbers, truth values, dates and times. A reader takes the text behind
what it has read so far, and gives the value and the text behind it, or an error.
-/

namespace IntraDoc

namespace Toml

/-- Why a text is no document. -/
inductive Error where
  /-- The text breaks the rules of the notation. -/
  | malformed
  /-- A key of a table is given a second time. -/
  | duplicate (key : Text)
  /-- A table made by dotted keys is opened as a table of its own. -/
  | redefined
deriving DecidableEq, Repr

/-- What is said about a text that is no document. -/
def Error.message : Error → Text
  | malformed => "The document is not valid TOML".toList
  | duplicate key => "Key \"".toList ++ key ++ "\" already exists.".toList
  | redefined => "Redefinition of an existing table".toList

/-- Whether a character may not stand in a string or a comment. -/
def isControl (char : Char) : Bool :=
  (char.toNat < 0x20 && char ≠ '\t') || char.toNat = 0x7F

/-- Whether a character is a space or a tab. -/
def isSpace (char : Char) : Bool :=
  char = ' ' || char = '\t'

/-- The text without spaces and tabs in front. -/
def skipSpaces (text : Text) : Text :=
  text.dropWhile isSpace

/-- The character with a code that is given in digits, unless it is none. -/
def unicode? (digits : Text) : Option Char :=
  match Numeral.natural? 16 digits with
  | some code =>
    if code < 0xD800 || (0xDFFF < code && code < 0x110000) then some (Char.ofNat code) else none
  | none => none

/-- The character that an escape stands for, and the number of characters behind the backslash. -/
def escape? : Text → Option (Char × Nat)
  | [] => none
  | char :: rest =>
    if char = 'b' then some ('\x08', 1)
    else if char = 't' then some ('\t', 1)
    else if char = 'n' then some ('\n', 1)
    else if char = 'f' then some ('\x0c', 1)
    else if char = 'r' then some ('\r', 1)
    else if char = 'e' then some ('\x1b', 1)
    else if char = '"' || char = '\\' then some (char, 1)
    else if char = 'x' && 2 ≤ rest.length then (unicode? (rest.take 2)).map fun code => (code, 3)
    else if char = 'u' && 4 ≤ rest.length then (unicode? (rest.take 4)).map fun code => (code, 5)
    else if char = 'U' && 8 ≤ rest.length then (unicode? (rest.take 8)).map fun code => (code, 9)
    else none

/-- Reads a basic string; the first `skipped` characters belong to an escape. -/
def basicFrom (skipped : Nat) : Text → Except Error (Text × Text)
  | [] => .error .malformed
  | char :: rest =>
    match skipped with
    | skipped + 1 => basicFrom skipped rest
    | 0 =>
      if char = '"' then .ok ([], rest)
      else if char = '\\' then
        match escape? rest with
        | some (code, length) =>
          (basicFrom length rest).map fun (value, after) => (code :: value, after)
        | none => .error .malformed
      else if isControl char then .error .malformed
      else (basicFrom 0 rest).map fun (value, after) => (char :: value, after)

/-- Reads a literal string. -/
def literalFrom : Text → Except Error (Text × Text)
  | [] => .error .malformed
  | char :: rest =>
    if char = '\'' then .ok ([], rest)
    else if isControl char then .error .malformed
    else (literalFrom rest).map fun (value, after) => (char :: value, after)

/-- The length of a backslash's line break and of all spaces and breaks behind it. -/
def continuation? (text : Text) : Option Nat :=
  match skipSpaces text with
  | '\n' :: _ =>
    some (text.takeWhile fun char => isSpace char || char = '\n').length
  | _ => none

/--
Reads a string over several lines between three quotes each; the last three of up to five quotes
in a row close it. The first `skipped` characters are dropped.
-/
def multilineFrom (quote : Char) (escapes : Bool) (skipped : Nat) :
    Text → Except Error (Text × Text)
  | [] => .error .malformed
  | char :: rest =>
    match skipped with
    | skipped + 1 => multilineFrom quote escapes skipped rest
    | 0 =>
      let keep (code : Char) (length : Nat) :=
        (multilineFrom quote escapes length rest).map fun (value, after) => (code :: value, after)
      if char = quote then
        let run := ((char :: rest).takeWhile (· = quote)).length
        if run < 3 then keep char 0
        else if run ≤ 5 then .ok (List.replicate (run - 3) quote, rest.drop (run - 1))
        else .error .malformed
      else if char = '\\' && escapes then
        match escape? rest, continuation? rest with
        | some (code, length), _ => keep code length
        | none, some length => multilineFrom quote escapes length rest
        | none, none => .error .malformed
      else if isControl char && char ≠ '\n' then .error .malformed
      else keep char 0

/-- The text without a line feed in front. -/
def skipBreak : Text → Text
  | '\n' :: rest => rest
  | text => text

/-- Reads a string of any form. -/
def readString : Text → Except Error (Text × Text)
  | '"' :: '"' :: '"' :: rest => multilineFrom '"' true 0 (skipBreak rest)
  | '\'' :: '\'' :: '\'' :: rest => multilineFrom '\'' false 0 (skipBreak rest)
  | '"' :: rest => basicFrom 0 rest
  | '\'' :: rest => literalFrom rest
  | _ => .error .malformed

/-- Whether a character ends a bare value. -/
def endsBare (char : Char) : Bool :=
  isSpace char || char = '\n' || char = '\r' || char = '#' || char = ',' || char = ']' ||
    char = '}'

/-- The numeral without the underscores between digits, unless there are others. -/
def dropUnderscores? (isDigit : Char → Bool) : Text → Option Text
  | [] => some []
  | first :: '_' :: second :: rest =>
    if isDigit first && isDigit second then
      (dropUnderscores? isDigit (second :: rest)).map (first :: ·)
    else none
  | char :: rest =>
    if char = '_' then none else (dropUnderscores? isDigit rest).map (char :: ·)

/-- The base that a numeral announces. -/
def baseOf (text : Text) : Nat :=
  if Text.startsWith text "0x".toList then 16
  else if Text.startsWith text "0o".toList then 8
  else if Text.startsWith text "0b".toList then 2
  else 10

/-- What a numeral may begin with that begins with a zero and goes on. -/
def zeroStarts : List Text :=
  ["0.".toList, "0o".toList, "0x".toList, "0b".toList, "0e".toList, "0E".toList]

/-- Whether a numeral has a zero in front that it may not have. -/
def hasLeadingZero (text : Text) : Bool :=
  1 < text.length && text.head? = some '0' && !zeroStarts.any (Text.startsWith text)

/-- Whether a numeral to the base ten spells a fraction. -/
def isFraction (text : Text) : Bool :=
  text.contains '.' || text.contains 'e' || text = "inf".toList || text = "nan".toList

/-- The number that a bare value spells. -/
def number? (raw : Text) : Option Value :=
  let signed := raw.head? = some '+' || raw.head? = some '-'
  let (negative, text) := Numeral.splitSign raw
  let base := baseOf text
  if hasLeadingZero text || (signed && text.head? = some '.') || (signed && base ≠ 10) then none
  else
    let isDigit (char : Char) : Bool :=
      match Numeral.digitValue? char with
      | some digit => digit < base
      | none => false
    (dropUnderscores? isDigit text).bind fun clean =>
      let clean := clean.map Char.toLower
      let digits := (Text.trimRight Numeral.isMargin clean).map Text.asciiDigit
      if base ≠ 10 then
        (Numeral.natural? base (digits.drop 2)).map fun value => .int value
      else if (clean.takeWhile (· ≠ 'e')).getLast? = some '.' then none
      else if isFraction digits then (Numeral.fraction? negative digits).map .real
      else if Value.digitLimit < digits.length then none
      else
        (Numeral.natural? 10 digits).map fun value =>
          .int (if negative then -(value : Int) else value)

/-- The numbers in `YYYY-MM-DD`, with a year of any length, and what follows. -/
def readDay? (text : Text) : Option (Day × Text) :=
  let year := text.takeWhile Text.isAsciiDigit
  match text.dropWhile Text.isAsciiDigit with
  | '-' :: m₁ :: m₂ :: '-' :: d₁ :: d₂ :: rest =>
    match Numeral.natural? 10 year, Numeral.natural? 10 [m₁, m₂],
      Numeral.natural? 10 [d₁, d₂] with
    | some year, some month, some day => some (⟨year, month, day⟩, rest)
    | _, _, _ => none
  | _ => none

/-- The millionths that the digits behind the point of a second stand for. -/
def micros? (digits : Text) : Option Nat :=
  Numeral.natural? 10 ((digits ++ List.replicate 6 '0').take 6)

/-- The seconds in `:SS`, possibly with a fraction, and what follows; both may be left out. -/
def readSeconds? : Text → Option (Nat × Nat × Text)
  | ':' :: s₁ :: s₂ :: rest =>
    (Numeral.natural? 10 [s₁, s₂]).bind fun second =>
      match rest with
      | '.' :: fraction =>
        let digits := fraction.takeWhile Text.isAsciiDigit
        if digits.isEmpty then none
        else (micros? digits).map fun micro =>
          (second, micro, fraction.dropWhile Text.isAsciiDigit)
      | _ => some (second, 0, rest)
  | rest => some (0, 0, rest)

/-- The numbers in `HH:MM:SS`, possibly without the seconds, and what follows. -/
def readClock? : Text → Option (Clock × Text)
  | h₁ :: h₂ :: ':' :: m₁ :: m₂ :: rest =>
    match Numeral.natural? 10 [h₁, h₂], Numeral.natural? 10 [m₁, m₂], readSeconds? rest with
    | some hour, some minute, some (second, micro, rest) =>
      some (⟨hour, minute, second, micro⟩, rest)
    | _, _, _ => none
  | _ => none

/-- The distance from universal time that a text spells: absent, `Z`, or hours and minutes. -/
def offset? : Text → Option (Option Offset)
  | [] => some none
  | ['Z'] => some (some ⟨0, some "UTC".toList⟩)
  | ['z'] => some (some ⟨0, some "UTC".toList⟩)
  | [sign, h₁, h₂, ':', m₁, m₂] =>
    match Numeral.natural? 10 [h₁, h₂], Numeral.natural? 10 [m₁, m₂] with
    | some hour, some minute =>
      let minutes : Int := hour * 60 + minute
      let name : Text := [sign, h₁, h₂, ':', m₁, m₂]
      if 23 < hour || 59 < minute then none
      else if sign = '+' then some (some ⟨minutes, some name⟩)
      else if sign = '-' then some (some ⟨-minutes, some name⟩)
      else none
    | _, _ => none
  | _ => none

/-- The time of a day, with its distance from universal time, that a text spells. -/
def dateTime? (day : Day) (text : Text) : Option Moment :=
  match readClock? text with
  | none => none
  | some (clock, rest) => (offset? rest).map fun offset => .dateTime day clock offset

/-- The date or time that a bare value spells, if it has that form. -/
def moment? (text : Text) : Option Moment :=
  match readDay? text with
  | some (day, []) => some (.date day)
  | some (day, separator :: rest) =>
    if separator = 'T' || separator = 't' || separator = ' ' then dateTime? day rest else none
  | none =>
    match readClock? text with
    | some (clock, []) => some (.time clock)
    | _ => none

/-- Whether a bare value begins as a number, a date or a time does, or is a word for a number. -/
def startsBare (raw : Text) : Bool :=
  match raw with
  | [] => false
  | char :: _ =>
    Text.isAsciiDigit char || char = '+' || char = '-' || raw = "inf".toList || raw = "nan".toList

/-- The value of a date or time, unless the calendar has no such moment. -/
def momentValue (moment : Moment) (rest : Text) : Except Error (Value × Text) :=
  if moment.isValid then .ok (.moment moment, rest) else .error .malformed

/-- The value of a date, or of a date and the time behind a space after it. -/
def dateValue (day : Day) (rest : Text) : Except Error (Value × Text) :=
  let goesOn (char : Char) : Bool := char = ' ' || !endsBare char
  match Text.trimBlanksRight (rest.takeWhile goesOn) with
  | [] => momentValue (.date day) (rest.dropWhile goesOn)
  | separator :: time =>
    match if separator = ' ' then dateTime? day time else none with
    | some moment => momentValue moment (rest.dropWhile goesOn)
    | none => .error .malformed

/-- Reads a bare value: a number, a date or a time. -/
def readBare (text : Text) : Except Error (Value × Text) :=
  let raw := text.takeWhile fun char => !endsBare char
  let rest := text.dropWhile fun char => !endsBare char
  if startsBare raw then
    match moment? raw with
    | some (.date day) => dateValue day rest
    | some moment => momentValue moment rest
    | none =>
      match number? raw with
      | some value => .ok (value, rest)
      | none => .error .malformed
  else .error .malformed

end Toml

end IntraDoc
