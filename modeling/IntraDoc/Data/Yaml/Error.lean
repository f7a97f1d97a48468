import IntraDoc.Data.Moment
import IntraDoc.Data.Value

/-!
# Errors of YAML

A text may break the rules of the notation, or keep them and still mean nothing: a numeral without
digits, a date that the calendar has not, a key that cannot be compared.
-/

namespace IntraDoc

namespace Yaml

/-- Why a text is no document. -/
inductive Error where
  /-- The text breaks the rules of the notation. -/
  | malformed
  /-- The document is written to rules that are not known. -/
  | version (major minor : Nat)
  /-- An escape stands for half of a character, which no text can hold here. -/
  | halfCharacter
  /-- An escape stands for a number that is no character. -/
  | noCharacter
  /-- An escape stands for a number that is far from any character. -/
  | hugeCharacter
  /-- A numeral is no integer to the base. -/
  | integer (base : Nat) (numeral : Text)
  /-- An integer has too many digits. -/
  | longInteger (digits : Nat)
  /-- A numeral is no fraction. -/
  | fraction (numeral : Text)
  /-- A numeral is empty. -/
  | emptyNumeral
  /-- A word is no truth value. -/
  | truth (word : Text)
  /-- There is no such date or time. -/
  | moment (error : MomentError)
  /-- A key holds a value that cannot be in a key. -/
  | unhashable (sort : Text)
  /-- A key is listed twice. -/
  | repeatedKey
deriving DecidableEq, Repr

namespace Error

/-- What is said about the text. -/
def message : Error → Text
  | malformed => "The document is not valid YAML".toList
  | version major minor =>
    '(' :: Text.ofNat major ++ ", ".toList ++ Text.ofNat minor ++ [')']
  | halfCharacter => "surrogates not allowed".toList
  | noCharacter => "chr() arg not in range(0x110000)".toList
  | hugeCharacter => "Python int too large to convert to C int".toList
  | integer base numeral =>
    "invalid literal for int() with base ".toList ++ Text.ofNat base ++ ": ".toList ++
      (Text.quoted numeral).take 200
  | longInteger digits =>
    "Exceeds the limit (".toList ++ Text.ofNat Value.digitLimit ++
      " digits) for integer string conversion: value has ".toList ++ Text.ofNat digits ++
      " digits; use sys.set_int_max_str_digits() to increase the limit".toList
  | fraction numeral => "could not convert string to float: ".toList ++ Text.quoted numeral
  | emptyNumeral => "string index out of range".toList
  | truth word => Text.quoted word
  | moment error => error.message
  | unhashable sort => "unhashable type: ".toList ++ Text.quoted sort
  | repeatedKey => []

/-- The result of a reader that gives nothing for a broken notation. -/
def ofOption : Option α → Except Error α
  | some value => .ok value
  | none => .error .malformed

end Error

end Yaml

end IntraDoc
