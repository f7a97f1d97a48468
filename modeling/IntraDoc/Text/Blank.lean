import IntraDoc.Text.Basic

/-!
# Blank characters

The characters that separate words without being seen: the ASCII controls from tab to carriage
return and from file separator to unit separator, the space, and the spaces and line separators of
the other scripts.
-/

namespace IntraDoc

namespace Text

/-- Whether a character is white space, of any script. -/
def isBlank (char : Char) : Bool :=
  let code := char.toNat
  (9 ≤ code && code ≤ 13) || (28 ≤ code && code ≤ 32) || code = 0x85 || code = 0xA0 ||
    code = 0x1680 || (0x2000 ≤ code && code ≤ 0x200A) || code = 0x2028 || code = 0x2029 ||
    code = 0x202F || code = 0x205F || code = 0x3000

/-- The text without the blanks in front. -/
def skipBlanks (text : Text) : Text :=
  text.dropWhile isBlank

/-- The text without the blanks at its end. -/
def trimBlanksRight (text : Text) : Text :=
  trimRight isBlank text

end Text

end IntraDoc
