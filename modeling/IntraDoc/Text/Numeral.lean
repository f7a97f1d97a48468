import IntraDoc.Text.Basic

/-!
# Decimal numerals

Integers in decimal notation, and texts filled up to a width.
-/

namespace IntraDoc

namespace Text

/-- A natural number in decimal notation. -/
def ofNat (value : Nat) : Text :=
  Nat.toDigits 10 value

/-- An integer in decimal notation, with a minus sign in front if it is negative. -/
def ofInt : Int → Text
  | .ofNat value => ofNat value
  | .negSucc value => '-' :: ofNat (value + 1)

/-- A text with the filler in front that makes it `width` characters long, if it is shorter. -/
def padLeft (filler : Char) (width : Nat) (text : Text) : Text :=
  List.replicate (width - text.length) filler ++ text

end Text

end IntraDoc
