import IntraDoc.Text.Basic

/-!
# Lines

A text is cut into lines behind every line break: line feed, carriage return, both in this order,
the other vertical spaces and separators of ASCII, and the line and paragraph separators beyond it.
The lines keep their breaks, so that put together they are the text.
-/

namespace IntraDoc

namespace Text

/-- Whether a character breaks a line. -/
def isLineBreak (char : Char) : Bool :=
  let code := char.toNat
  (10 ≤ code && code ≤ 13) || (28 ≤ code && code ≤ 30) || code = 0x85 || code = 0x2028 ||
    code = 0x2029

/-- The lines of a text, each with its break. -/
def splitLines : Text → List Text
  | [] => []
  | '\r' :: '\n' :: rest => ['\r', '\n'] :: splitLines rest
  | char :: rest =>
    if isLineBreak char then [char] :: splitLines rest
    else
      match splitLines rest with
      | [] => [[char]]
      | line :: lines => (char :: line) :: lines

/-- The text with a line feed for every carriage return, alone or before a line feed. -/
def unifyBreaks : Text → Text
  | [] => []
  | '\r' :: '\n' :: rest => '\n' :: unifyBreaks rest
  | '\r' :: rest => '\n' :: unifyBreaks rest
  | char :: rest => char :: unifyBreaks rest

end Text

end IntraDoc
