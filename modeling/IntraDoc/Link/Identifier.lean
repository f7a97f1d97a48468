import IntraDoc.Text.Basic
import IntraDoc.Text.Word

/-!
# Identifiers

Names of crates, modules and items are ASCII identifiers. The check lets one final line feed pass,
as the page names of a link may be cut from the end of a line.
-/

namespace IntraDoc

namespace Identifier

/-- Whether a character may begin an identifier. -/
def isStart (char : Char) : Bool :=
  Text.isAsciiLetter char || char = '_'

/-- The identifier at the beginning of a text, as long as possible, and what follows it. -/
def read? : Text → Option (Text × Text)
  | [] => none
  | char :: rest =>
    if isStart char then
      some (char :: rest.takeWhile Text.isAsciiWord, rest.dropWhile Text.isAsciiWord)
    else none

/-- Whether the whole text is an identifier. -/
def isPlain : Text → Bool
  | [] => false
  | char :: rest => isStart char && rest.all Text.isAsciiWord

end Identifier

/-- Whether a text is an identifier, one final line feed aside. -/
def isIdentifier (name : Text) : Bool :=
  Identifier.isPlain (Text.chomp name)

end IntraDoc
