import IntraDoc.Data.Base64
import IntraDoc.Data.Yaml.Scalar

/-!
# The meaning of YAML scalars

What a node means follows from its kind, which its tag names. A plain scalar without a tag has the
kind that its text looks like: nothing, a truth value, a number, a date, or a text. Older documents
have more words for truth values and write numbers to the bases 8 and 60 in ways of their own.
-/

namespace IntraDoc

namespace Yaml

/-- What a node means. -/
inductive Kind where
  /-- Nothing. -/
  | null
  /-- A truth value. -/
  | bool
  /-- An integer. -/
  | int
  /-- A decimal fraction. -/
  | real
  /-- A date, or a date with a time. -/
  | moment
  /-- A text. -/
  | text
  /-- Bytes. -/
  | bytes
  /-- A list. -/
  | list
  /-- A table. -/
  | table
  /-- A set: the keys of a table. -/
  | set
  /-- A table that is written as a list of its entries. -/
  | orderedTable
  /-- A list of entries. -/
  | pairs
  /-- The key under which other tables are merged in. -/
  | merge
  /-- The key of the value that stands for a whole table. -/
  | default
  /-- Something that no tag of the common ones names. -/
  | unknown
deriving DecidableEq, Repr

/-- What the common tags begin with. -/
def commonTags : Text := "tag:yaml.org,2002:".toList

/-- The names of the kinds in the common tags. -/
def kindNames : List (Text × Kind) :=
  [("null".toList, .null), ("bool".toList, .bool), ("int".toList, .int), ("float".toList, .real),
   ("timestamp".toList, .moment), ("str".toList, .text), ("binary".toList, .bytes),
   ("seq".toList, .list), ("map".toList, .table), ("set".toList, .set),
   ("omap".toList, .orderedTable), ("pairs".toList, .pairs), ("merge".toList, .merge),
   ("value".toList, .default)]

/-- The kind that a tag names. -/
def Kind.ofTag (tag : Text) : Kind :=
  match Text.after? commonTags tag with
  | some name => (kindNames.lookup name).getD .unknown
  | none => .unknown

/-! ## What plain scalars look like -/

/-- Whether a text is digits and underscores. -/
def isGrouped (text : Text) : Bool :=
  text.all fun char => Text.isAsciiDigit char || char = '_'

/-- Whether a text is digits and underscores beginning with a digit. -/
def isGroupedDigits (text : Text) : Bool :=
  (text.head?.map Text.isAsciiDigit).getD false && isGrouped text

/-- Whether a text is the power of ten of a fraction. -/
def isPower (text : Text) : Bool :=
  let (_, digits) := Numeral.splitSign text
  !digits.isEmpty && digits.all Text.isAsciiDigit

/--
Whether a text without its sign spells a decimal fraction. Without digits before the point, the
power of ten needs a sign.
-/
def isFraction (text : Text) : Bool :=
  let mantissa := text.takeWhile fun char => char ≠ 'e' && char ≠ 'E'
  let power := text.dropWhile fun char => char ≠ 'e' && char ≠ 'E'
  let whole := mantissa.takeWhile (· ≠ '.')
  let fraction := mantissa.dropWhile (· ≠ '.')
  let isSigned (power : Text) : Bool := power.head? = some '+' || power.head? = some '-'
  match fraction, power with
  | '.' :: digits, [] =>
    isGrouped digits && (isGroupedDigits whole || (whole.isEmpty && !digits.isEmpty))
  | '.' :: digits, _ :: power =>
    isGrouped digits && isPower power &&
      (isGroupedDigits whole || (whole.isEmpty && !digits.isEmpty && isSigned power))
  | _, _ :: power => isGroupedDigits whole && isPower power
  | _, [] => false

/-- Whether a text is a part of a number to the base 60 behind the first one. -/
def isSixtieth (text : Text) : Bool :=
  match text with
  | [ones] => Text.isAsciiDigit ones
  | [tens, ones] => '0' ≤ tens && tens ≤ '5' && Text.isAsciiDigit ones
  | _ => false

/-- Whether a text without its sign spells an integer to the base 60. -/
def isSexagesimal (text : Text) : Bool :=
  match Text.splitOn ':' text with
  | first :: second :: others =>
    isGroupedDigits first && first.head? ≠ some '0' && (second :: others).all isSixtieth
  | _ => false

/-- Whether a text without its sign spells a fraction to the base 60. -/
def isSexagesimalFraction (text : Text) : Bool :=
  match text.dropWhile (· ≠ '.'), Text.splitOn ':' (text.takeWhile (· ≠ '.')) with
  | '.' :: digits, first :: second :: others =>
    isGrouped digits && isGroupedDigits first && (second :: others).all isSixtieth
  | _, _ => false

/-- Whether a plain scalar looks like a fraction. -/
def looksReal (isOld : Bool) (text : Text) : Bool :=
  let (_, digits) := Numeral.splitSign text
  let isBare := digits.length = text.length
  [".inf".toList, ".Inf".toList, ".INF".toList].contains digits ||
    [".nan".toList, ".NaN".toList, ".NAN".toList].contains text ||
    (isFraction digits && !(isOld && !isBare && digits.head? = some '.')) ||
    (isOld && isSexagesimalFraction digits)

/-- Whether all characters are digits to the base or underscores, and there are some. -/
def isNatural (base : Nat) (text : Text) : Bool :=
  !text.isEmpty && text.all fun char =>
    char = '_' || ((Numeral.digitValue? char).map fun digit => decide (digit < base)).getD false

/-- Whether a plain scalar looks like an integer. -/
def looksInteger (isOld : Bool) (text : Text) : Bool :=
  let (_, digits) := Numeral.splitSign text
  if text.head? = some '_' then false
  else
    match digits with
    | '0' :: 'b' :: digits => isNatural 2 digits
    | '0' :: 'x' :: digits => isNatural 16 digits
    | '0' :: 'o' :: digits => !isOld && isNatural 8 digits
    | _ =>
      if isOld then
        isNatural 8 digits || (isGroupedDigits digits && digits.head? ≠ some '0') ||
          isSexagesimal digits
      else isNatural 10 digits

/-- Whether a plain scalar means nothing. -/
def looksNull (text : Text) : Bool :=
  [[], "~".toList, "null".toList, "Null".toList, "NULL".toList].contains text

/-- The words for truth values, and what they mean. -/
def truthWords : List (Text × Bool) :=
  [("true".toList, true), ("false".toList, false), ("yes".toList, true), ("no".toList, false),
   ("on".toList, true), ("off".toList, false), ("y".toList, true), ("n".toList, false)]

/-- A word with its first letter in upper case. -/
def capitalized : Text → Text
  | [] => []
  | char :: rest => char.toUpper :: rest

/-- Whether a plain scalar looks like a truth value; the newer documents know two words for it. -/
def looksBool (isOld : Bool) (text : Text) : Bool :=
  (if isOld then truthWords else truthWords.take 2).any fun (word, _) =>
    text = word || text = capitalized word || text = word.map Char.toUpper

/-! ## Dates -/

/-- The millionths of a second that the digits behind its point stand for, rounded. -/
def roundedMicros (digits : Text) : Nat :=
  let micros := (Numeral.natural? 10 ((digits ++ List.replicate 6 '0').take 6)).getD 0
  match Numeral.natural? 10 ((digits.drop 6).take 1) with
  | some next => if 4 < next then micros + 1 else micros
  | none => micros

/-- A number of one or two digits in front, and what follows. -/
def readTwo? : Text → Option (Nat × Text)
  | [] => none
  | char :: rest =>
    match Numeral.natural? 10 [char], rest with
    | some tens, char' :: rest' =>
      match Numeral.natural? 10 [char'] with
      | some ones => some (10 * tens + ones, rest')
      | none => some (tens, rest)
    | some value, [] => some (value, [])
    | none, _ => none

/-- The distance from universal time at the end of a date. -/
def zone? (text : Text) : Option (Option Offset) :=
  match text.dropWhile isSpace with
  | [] => if text.isEmpty then some none else none
  | ['Z'] => some (some ⟨0, none⟩)
  | sign :: rest =>
    if sign = '+' || sign = '-' then
      let signed (minutes : Nat) : Option (Option Offset) :=
        some (some ⟨if sign = '-' then -(minutes : Int) else minutes, some (sign :: rest)⟩)
      match readTwo? rest with
      | some (hour, []) => signed (60 * hour)
      | some (hour, [':', m₁, m₂]) =>
        (Numeral.natural? 10 [m₁, m₂]).bind fun minute => signed (60 * hour + minute)
      | _ => none
    else none

/-- The time of the day behind a date, and what follows it. -/
def clock? (text : Text) : Option (Clock × Text) :=
  match readTwo? text with
  | some (hour, ':' :: m₁ :: m₂ :: ':' :: s₁ :: s₂ :: rest) =>
    match Numeral.natural? 10 [m₁, m₂], Numeral.natural? 10 [s₁, s₂] with
    | some minute, some second =>
      match rest with
      | '.' :: fraction =>
        let digits := fraction.takeWhile Text.isAsciiDigit
        some (⟨hour, minute, second, roundedMicros digits⟩,
          fraction.dropWhile Text.isAsciiDigit)
      | _ => some (⟨hour, minute, second, 0⟩, rest)
    | _, _ => none
  | _ => none

/-- The day in front of a date, what follows, and whether month and day have two digits each. -/
def day? (text : Text) : Option (Day × Text × Bool) :=
  let year := text.takeWhile Text.isAsciiDigit
  if year.length ≠ 4 then none
  else
    match text.drop 4 with
    | '-' :: rest =>
      match readTwo? rest with
      | some (month, '-' :: rest') =>
        match Numeral.natural? 10 year, readTwo? rest' with
        | some year, some (day, after) =>
          some (⟨year, month, day⟩, after, rest.length - after.length = 5)
        | _, _ => none
      | _ => none
    | _ => none

/-- The date that a text spells, and whether it is written in full. -/
def moment? (text : Text) : Option (Moment × Bool) :=
  match day? text with
  | some (day, [], full) => some (.date day, full)
  | some (day, rest, _) =>
    let time? : Option Text :=
      match rest with
      | 'T' :: time => some time
      | 't' :: time => some time
      | char :: _ => if isSpace char then some (rest.dropWhile isSpace) else none
      | [] => none
    match time?.bind clock? with
    | some (clock, after) => (zone? after).map fun offset => (.dateTime day clock offset, true)
    | none => none
  | none => none

/-- Whether a plain scalar looks like a date. -/
def looksMoment (text : Text) : Bool :=
  ((moment? text).map (·.2)).getD false

/-- The kind of a plain scalar. -/
def Kind.ofPlain (isOld : Bool) (text : Text) : Kind :=
  if looksNull text then .null
  else if looksBool isOld text then .bool
  else if looksReal isOld text then .real
  else if looksInteger isOld text then .int
  else if text = "<<".toList then .merge
  else if looksMoment text then .moment
  else if text = "=".toList then .default
  else .text

/-! ## What scalars mean -/

/-- What a numeral to a base may begin with. -/
def baseMark (base : Nat) : Text :=
  if base = 2 then "0b".toList
  else if base = 8 then "0o".toList
  else if base = 16 then "0x".toList
  else []

/-- The integer that a numeral spells to a base. -/
def integerOf (base : Nat) (numeral : Text) : Except Error Int :=
  let (negative, digits) := Numeral.splitSign (Numeral.plain numeral)
  let lower := digits.map Char.toLower
  let start := baseMark base
  let digits := if start.isEmpty then lower else (Text.after? start lower).getD lower
  if base = 10 && Value.digitLimit < digits.length && digits.all Text.isAsciiDigit then
    .error (.longInteger digits.length)
  else
    match Numeral.natural? base digits with
    | some value => .ok (if negative then -(value : Int) else value)
    | none => .error (.integer base numeral)

/-- The integer that a scalar spells. -/
def integerValue (isOld : Bool) (text : Text) : Except Error Int :=
  let clean := text.filter (· ≠ '_')
  let (negative, digits) := Numeral.splitSign clean
  let signed (value : Int) : Int := if negative then -value else value
  if clean.isEmpty then .error .emptyNumeral
  else if digits = ['0'] then .ok 0
  else if Text.startsWith digits "0b".toList then (integerOf 2 (digits.drop 2)).map signed
  else if Text.startsWith digits "0x".toList then (integerOf 16 (digits.drop 2)).map signed
  else if Text.startsWith digits "0o".toList then (integerOf 8 (digits.drop 2)).map signed
  else if isOld && digits.isEmpty then .error .emptyNumeral
  else if isOld && digits.head? = some '0' then (integerOf 8 digits).map signed
  else if isOld && digits.contains ':' then do
    let parts ← (Text.splitOn ':' digits).mapM (integerOf 10)
    .ok (signed (parts.foldl (fun value part => 60 * value + part) 0))
  else (integerOf 10 digits).map signed

/-- The fraction that a numeral spells, in lower case. -/
def fractionOf (numeral : Text) : Except Error Binary64 :=
  let (negative, digits) := Numeral.splitSign (Numeral.plain numeral)
  match Numeral.fraction? negative digits with
  | some value => .ok value
  | none => .error (.fraction numeral)

/-- The fraction that a scalar spells. -/
def fractionValue (isOld : Bool) (text : Text) : Except Error Binary64 :=
  let clean := (text.filter (· ≠ '_')).map Char.toLower
  let (negative, digits) := Numeral.splitSign clean
  let signed (value : Binary64) : Binary64 := if negative then value.negate else value
  if clean.isEmpty then .error .emptyNumeral
  else if digits = ".inf".toList then .ok (.infinite negative)
  else if digits = ".nan".toList then .ok .undefined
  else if isOld && digits.contains ':' then do
    let parts ← (Text.splitOn ':' digits).mapM fractionOf
    .ok (signed (Binary64.sexagesimal parts.reverse))
  else (fractionOf digits).map signed

/-- The date that a scalar spells; a full second of millionths counts as the next second. -/
def momentValue (text : Text) : Except Error Moment :=
  match moment? text with
  | none => .error .malformed
  | some (.dateTime day clock offset, _) => do
    if clock.micro < 1000000 then
      let moment : Moment := .dateTime day clock offset
      (moment.check).mapError .moment
      .ok moment
    else
      let moment : Moment := .dateTime day { clock with micro := 0 } offset
      (moment.check).mapError .moment
      moment.nextSecond.mapError .moment
  | some (moment, _) => do
    (moment.check).mapError .moment
    .ok moment

/-- The value of a scalar of a kind. -/
def scalarValue (isOld : Bool) (kind : Kind) (text : Text) : Except Error Value :=
  match kind with
  | .null => .ok .null
  | .bool =>
    let word := text.map Char.toLower
    match truthWords.lookup word with
    | some value => .ok (.bool value)
    | none => .error (.truth word)
  | .int => (integerValue isOld text).map .int
  | .real => (fractionValue isOld text).map .real
  | .moment => (momentValue text).map .moment
  | .text => .ok (.text text)
  | .bytes =>
    if text.all fun char => char.toNat < 0x80 then
      (Error.ofOption (Base64.decode? text)).map .bytes
    else .error .malformed
  | _ => .error .malformed

end Yaml

end IntraDoc
