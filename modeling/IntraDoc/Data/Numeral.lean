import IntraDoc.Data.Binary64
import IntraDoc.Text.Blank
import IntraDoc.Text.Digit

/-!
# Reading numerals

Numbers as documents spell them: integers to a base, decimal fractions with a power of ten, and the
words for what is no finite number.
-/

namespace IntraDoc

namespace Numeral

/-- The value of a hexadecimal digit. -/
def digitValue? (char : Char) : Option Nat :=
  let code := char.toNat
  if '0' ≤ char && char ≤ '9' then some (code - '0'.toNat)
  else if 'a' ≤ char && char ≤ 'f' then some (code - 'a'.toNat + 10)
  else if 'A' ≤ char && char ≤ 'F' then some (code - 'A'.toNat + 10)
  else none

/-- The number that the digits spell after `value`, if all of them are digits to the base. -/
def naturalFrom? (base value : Nat) : Text → Option Nat
  | [] => some value
  | char :: rest =>
    match digitValue? char with
    | some digit => if digit < base then naturalFrom? base (value * base + digit) rest else none
    | none => none

/-- The number that the text spells to the base. -/
def natural? (base : Nat) (text : Text) : Option Nat :=
  if text.isEmpty then none else naturalFrom? base 0 text

/-- The integer that the text spells in decimal notation, possibly with a sign. -/
def integer? : Text → Option Int
  | '-' :: text => (natural? 10 text).map fun value => -(value : Int)
  | '+' :: text => (natural? 10 text).map fun value => (value : Int)
  | text => (natural? 10 text).map fun value => (value : Int)

/-- The sign of a numeral, and what follows it. -/
def splitSign : Text → Bool × Text
  | '-' :: text => (true, text)
  | '+' :: text => (false, text)
  | text => (false, text)

/-- The digits before and behind the point; one of the two sides may be empty. -/
def mantissa? (text : Text) : Option (Text × Text) :=
  let whole := text.takeWhile Text.isAsciiDigit
  match text.dropWhile Text.isAsciiDigit with
  | [] => if whole.isEmpty then none else some (whole, [])
  | '.' :: fraction =>
    if fraction.all Text.isAsciiDigit && !(whole.isEmpty && fraction.isEmpty) then
      some (whole, fraction)
    else none
  | _ => none

/-- The mantissa and the power of ten, if an `e` divides the text. -/
def splitPower? (text : Text) : Option (Text × Int) :=
  match text.dropWhile (· ≠ 'e') with
  | 'e' :: power => (integer? power).map fun power => (text.takeWhile (· ≠ 'e'), power)
  | _ => some (text, 0)

/-- The number that the text spells as a decimal fraction without a sign, all in lower case. -/
def fraction? (negative : Bool) (text : Text) : Option Binary64 :=
  if text = "inf".toList || text = "infinity".toList then some (.infinite negative)
  else if text = "nan".toList then some .undefined
  else
    match splitPower? text with
    | none => none
    | some (digits, power) =>
      match mantissa? digits with
      | none => none
      | some (whole, fraction) =>
        (natural? 10 (whole ++ fraction)).map fun value =>
          .ofDecimal negative value (power - fraction.length)

/-- Whether a character around a numeral is passed over. -/
def isMargin (char : Char) : Bool :=
  let code := char.toNat
  if code < 127 then (9 ≤ code && code ≤ 13) || code = 32 else Text.isBlank char

/-- The numeral without the blanks around it, in ASCII digits. -/
def plain (text : Text) : Text :=
  (Text.trim isMargin text).map Text.asciiDigit

/-- The numeral without underscores, if each of them stands between two digits. -/
def joinGroups? (previous : Option Char) : Text → Option Text
  | [] => some []
  | '_' :: rest =>
    if (previous.map Text.isAsciiDigit).getD false && (rest.head?.map Text.isAsciiDigit).getD false
    then joinGroups? (some '_') rest
    else none
  | char :: rest => (joinGroups? (some char) rest).map (char :: ·)

/-- What follows the power of ten at the beginning of the text, if there is one. -/
def skipPower : Text → Text
  | [] => []
  | char :: rest =>
    let (_, digits) := splitSign rest
    if char = 'e' && (digits.head?.map Text.isAsciiDigit).getD false then
      digits.dropWhile Text.isAsciiDigit
    else char :: rest

/-- What follows the longest real number at the beginning of the text, all in lower case. -/
def skipReal? (text : Text) : Option Text :=
  let (_, magnitude) := splitSign text
  let words := ["infinity".toList, "inf".toList, "nan".toList]
  match words.findSome? fun word => Text.after? word magnitude with
  | some rest => some rest
  | none =>
    let whole := magnitude.takeWhile Text.isAsciiDigit
    match magnitude.dropWhile Text.isAsciiDigit with
    | '.' :: rest =>
      let fraction := rest.takeWhile Text.isAsciiDigit
      if whole.isEmpty && fraction.isEmpty then none
      else some (skipPower (rest.dropWhile Text.isAsciiDigit))
    | rest => if whole.isEmpty then none else some (skipPower rest)

/-- Whether a text spells a complex number `x`, `yj` or `x+yj`, all in lower case. -/
def isComplex (text : Text) : Bool :=
  let unit : Text := ['j']
  match skipReal? text with
  | none => (splitSign text).2 = unit
  | some [] => true
  | some (char :: rest) =>
    if char = '+' || char = '-' then ((skipReal? (char :: rest)).getD rest) = unit
    else char :: rest = unit

/-- Whether a text spells a number, which may be complex. -/
def isNumber (text : Text) : Bool :=
  ((joinGroups? none (plain text)).map fun digits => isComplex (digits.map Char.toLower)).getD false

end Numeral

end IntraDoc
