import IntraDoc.Text.Markup
import IntraDoc.Text.Width

/-!
# Markup on a console

A console shows markup without its tags, drops the control characters that would move its cursor,
and fills every tab up to the next multiple of eight columns.
-/

namespace IntraDoc

namespace Console

/-- Whether a control character is dropped: bell, backspace, the vertical moves and return. -/
def isDropped (char : Char) : Bool :=
  let code := char.toNat
  code = 7 || code = 8 || code = 11 || code = 12 || code = 13

/--
The pieces of a line between its tabs, behind `column` columns, with a blank for each tab and as
many more as lead to a multiple of eight columns.
-/
def fillTabs (column : Nat) : List Text → Text
  | [] => []
  | [piece] => piece
  | piece :: pieces =>
    let piece := piece ++ [' ']
    let column := column + Text.width piece
    let missing := (8 - column % 8) % 8
    piece ++ List.replicate missing ' ' ++ fillTabs (column + missing) pieces

/-- A line with its tabs filled up. -/
def expandTabs (line : Text) : Text :=
  fillTabs 0 (Text.splitOn '\t' line)

/-- What a console shows of some markup, with a line feed at the end. -/
def print (markup : Text) : Text :=
  let shown := (Markup.plain markup).filter fun char => !isDropped char
  Text.joinWith ['\n'] ((Text.splitOn '\n' shown).map expandTabs) ++ ['\n']

end Console

end IntraDoc
