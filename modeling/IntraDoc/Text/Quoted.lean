import IntraDoc.Text.Numeral
import IntraDoc.Text.Printable

/-!
# Quoted texts

A text is quoted so that it can be told where it begins and ends and what is in it: in single
quotes, or in double ones if it holds single quotes and no double ones. The quotes, backslashes and
unprintable characters inside are escaped.
-/

namespace IntraDoc

namespace Text

/-- A number in hexadecimal notation with at least `width` digits. -/
def hexadecimal (width value : Nat) : Text :=
  padLeft '0' width (Nat.toDigits 16 value)

/-- A character as it is written between quotes of the given kind. -/
def escapeChar (quote char : Char) : Text :=
  let code := char.toNat
  if char = quote || char = '\\' then ['\\', char]
  else if char = '\n' then ['\\', 'n']
  else if char = '\r' then ['\\', 'r']
  else if char = '\t' then ['\\', 't']
  else if isPrintable char then [char]
  else if code < 0x100 then '\\' :: 'x' :: hexadecimal 2 code
  else if code < 0x10000 then '\\' :: 'u' :: hexadecimal 4 code
  else '\\' :: 'U' :: hexadecimal 8 code

/-- The quotes that need the fewest escapes. -/
def quoteFor (text : Text) : Char :=
  if List.contains text '\'' && !List.contains text '"' then '"' else '\''

/-- The text in quotes. -/
def quoted (text : Text) : Text :=
  let quote := quoteFor text
  quote :: text.flatMap (escapeChar quote) ++ [quote]

end Text

end IntraDoc
