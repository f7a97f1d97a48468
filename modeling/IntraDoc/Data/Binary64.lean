import IntraDoc.Text.Numeral

/-!
# Binary floating-point numbers

Decimal fractions of a document are kept as the nearest binary number of 53 significant bits, and
written back with the fewest digits that lead to the same number again. All of it is exact
arithmetic on natural numbers.
-/

namespace IntraDoc

/-- A binary floating-point number of 64 bits. -/
inductive Binary64 where
  /-- The number `mantissa * 2 ^ exponent`, or its opposite. -/
  | finite (negative : Bool) (mantissa : Nat) (exponent : Int)
  /-- A number too large to be represented. -/
  | infinite (negative : Bool)
  /-- No number. -/
  | undefined
deriving DecidableEq, Repr

namespace Binary64

/-- A positive fraction. -/
structure Fraction where
  /-- The numerator. -/
  numerator : Nat
  /-- The denominator. -/
  denominator : Nat

/-- The fraction `value * base ^ exponent`. -/
def scaled (value base : Nat) : Int → Fraction
  | .ofNat exponent => ⟨value * base.pow exponent, 1⟩
  | .negSucc exponent => ⟨value, base.pow (exponent + 1)⟩

/-- The fraction divided by `2 ^ exponent`. -/
def Fraction.shift (fraction : Fraction) : Int → Fraction
  | .ofNat exponent => ⟨fraction.numerator, fraction.denominator * Nat.pow 2 exponent⟩
  | .negSucc exponent => ⟨fraction.numerator * Nat.pow 2 (exponent + 1), fraction.denominator⟩

/-- The natural number nearest to a fraction; a half goes to the even neighbour. -/
def Fraction.round (fraction : Fraction) : Nat :=
  let quotient := fraction.numerator / fraction.denominator
  let rest := 2 * (fraction.numerator % fraction.denominator)
  if fraction.denominator < rest || (fraction.denominator = rest && quotient % 2 = 1) then
    quotient + 1
  else quotient

/-- The least mantissa of 53 bits. -/
def leastMantissa : Nat := Nat.pow 2 52

/-- The exponent that leaves a fraction 53 bits before the point, or the least there is. -/
def exponentFor (fraction : Fraction) : Int :=
  let guess := (Nat.log2 fraction.numerator : Int) - Nat.log2 fraction.denominator - 52
  let whole := fraction.shift guess
  let exponent := if whole.numerator < leastMantissa * whole.denominator then guess - 1 else guess
  max exponent (-1074)

/-- The number nearest to a fraction. -/
def ofFraction (negative : Bool) (fraction : Fraction) : Binary64 :=
  let exponent := exponentFor fraction
  let mantissa := (fraction.shift exponent).round
  let (mantissa, exponent) :=
    if mantissa = 2 * leastMantissa then (leastMantissa, exponent + 1) else (mantissa, exponent)
  if 971 < exponent then .infinite negative else .finite negative mantissa exponent

/-- The number nearest to `digits * 10 ^ exponent`. -/
def ofDecimal (negative : Bool) (digits : Nat) (exponent : Int) : Binary64 :=
  let magnitude := exponent + (Nat.toDigits 10 digits).length
  if digits = 0 || magnitude < -400 then .finite negative 0 0
  else if 400 < magnitude then .infinite negative
  else ofFraction negative (scaled digits 10 exponent)

/-- The opposite number. -/
def negate : Binary64 → Binary64
  | finite negative mantissa exponent => .finite (!negative) mantissa exponent
  | infinite negative => .infinite (!negative)
  | undefined => .undefined

/-- The sum of two fractions. -/
def Fraction.add (fraction fraction' : Fraction) : Fraction :=
  ⟨fraction.numerator * fraction'.denominator + fraction'.numerator * fraction.denominator,
    fraction.denominator * fraction'.denominator⟩

/-- The number nearest to a fraction that may be zero. -/
def ofAnyFraction (fraction : Fraction) : Binary64 :=
  if fraction.numerator = 0 then .finite false 0 0 else ofFraction false fraction

/-- A number plus the multiple of another, both rounded; neither of them is negative. -/
def addMultiple (value digit : Binary64) (factor : Nat) : Binary64 :=
  match value, digit with
  | finite false mantissa exponent, finite false mantissa' exponent' =>
    match ofAnyFraction (scaled (mantissa' * factor) 2 exponent') with
    | finite false mantissa' exponent' =>
      ofAnyFraction ((scaled mantissa 2 exponent).add (scaled mantissa' 2 exponent'))
    | other => other
  | finite _ _ _, other => other
  | other, _ => other

/-- The number with these digits to the base 60, the last one first. -/
def sexagesimal (digits : List Binary64) : Binary64 :=
  (digits.foldl (fun (value, factor) digit => (addMultiple value digit factor, 60 * factor))
    (.finite false 0 0, 1)).1

/-- Whether two fractions are in order. -/
def Fraction.le (fraction fraction' : Fraction) : Bool :=
  fraction.numerator * fraction'.denominator ≤ fraction'.numerator * fraction.denominator

/-- Whether a decimal lies among the numbers that are rounded to a mantissa and an exponent. -/
def leadsTo (mantissa : Nat) (exponent : Int) (decimal : Fraction) : Bool :=
  let narrow := mantissa = leastMantissa && -1074 < exponent
  let low := scaled (4 * mantissa - (if narrow then 1 else 2)) 2 (exponent - 2)
  let high := scaled (4 * mantissa + 2) 2 (exponent - 2)
  if mantissa % 2 = 0 then low.le decimal && decimal.le high
  else !decimal.le low && !high.le decimal

/-- The least power of ten that a fraction is below. -/
def placeOf (fraction : Fraction) : Int :=
  let guess := (Nat.toDigits 10 fraction.numerator).length -
    ((Nat.toDigits 10 fraction.denominator).length : Int)
  if (scaled 1 10 guess).le fraction then guess + 1 else guess

/-- The decimal with `count` digits that leads to the number, nearest first, if there is one. -/
def withDigits? (mantissa : Nat) (exponent : Int) (count : Nat) : Option (Nat × Int) :=
  let value := scaled mantissa 2 exponent
  let place := placeOf value - count
  let unit := scaled 1 10 place
  let grid : Fraction :=
    ⟨value.numerator * unit.denominator, value.denominator * unit.numerator⟩
  let below := grid.numerator / grid.denominator
  let nearest := grid.round
  let candidates := [nearest, below, below + 1]
  (candidates.find? fun digits => leadsTo mantissa exponent (scaled digits 10 place)).map
    fun digits => (digits, place)

/-- The fewest digits that lead to the number, and the power of ten they are counted in. -/
def shortest (mantissa : Nat) (exponent : Int) : Nat × Int :=
  ((List.range 17).findSome? fun count => withDigits? mantissa exponent (count + 1)).getD
    (mantissa, 0)

/-- The digits without the zeros at their end, and the power of ten they are counted in then. -/
def dropZeros (digits : Text) (place : Int) : Text × Int :=
  let kept := Text.trimRight (· = '0') digits
  (kept, place + (digits.length - kept.length : Nat))

/--
A decimal is written without an exponent from `0.0001` up to sixteen digits before the point, and
then has at least one digit behind the point.
-/
def display : Binary64 → Text
  | undefined => "nan".toList
  | infinite negative => (if negative then "-inf" else "inf").toList
  | finite negative mantissa exponent =>
    let sign := if negative then ['-'] else []
    if mantissa = 0 then sign ++ "0.0".toList
    else
      let (digits, place) := shortest mantissa exponent
      let (digits, place) := dropZeros (Text.ofNat digits) place
      let point : Int := digits.length + place
      let body :=
        if point < -3 || 16 < point then
          let power := point - 1
          let fraction := if digits.length = 1 then [] else '.' :: digits.drop 1
          digits.take 1 ++ fraction ++ ['e', if power < 0 then '-' else '+'] ++
            Text.padLeft '0' 2 (Text.ofNat power.natAbs)
        else if point ≤ 0 then
          "0.".toList ++ List.replicate point.natAbs '0' ++ digits
        else if digits.length ≤ point.toNat then
          digits ++ List.replicate (point.toNat - digits.length) '0' ++ ".0".toList
        else digits.take point.toNat ++ '.' :: digits.drop point.toNat
      sign ++ body

/-- The integer that a number is equal to, if there is one. -/
def integer? : Binary64 → Option Int
  | finite negative mantissa exponent =>
    let value := scaled mantissa 2 exponent
    if value.numerator % value.denominator = 0 then
      let magnitude : Int := value.numerator / value.denominator
      some (if negative then -magnitude else magnitude)
    else none
  | _ => none

end Binary64

end IntraDoc
