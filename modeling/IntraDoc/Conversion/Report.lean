import IntraDoc.Conversion.Action
import IntraDoc.Text.Markup
import IntraDoc.Text.Numeral

/-!
# Reports

The report of a file shows its path and, for every line that is not kept, the position, the line as
it was and what becomes of it. It is written in console markup, with everything that comes from
the file or its path escaped.
-/

namespace IntraDoc

namespace Report

/-- A line in double quotes and a colour, without its line break. -/
def quoted (line colour : Text) : Text :=
  "\"[".toList ++ colour ++ "]".toList ++ Markup.escape (Text.trimLineEnd line) ++
    "[/".toList ++ colour ++ "]\"".toList

/-- The position of a line, right-aligned in five columns, and the line as it was. -/
def firstLine (position : Int) (line : Text) : Text :=
  Text.padLeft ' ' 5 (Text.ofInt position) ++ ":  ".toList ++ quoted line "red".toList

/-- What the second line of an entry begins with. -/
def indentation : Text := List.replicate 8 ' '

/-- The entry of an action; a line that is kept has none. -/
def ofAction : Action → Text
  | .kept _ => []
  | .dropped line position reason =>
    firstLine position line ++ '\n' :: indentation ++ "[yellow]".toList ++ Markup.escape reason ++
      "[/yellow]".toList
  | .replaced line new position =>
    firstLine position line ++ '\n' :: indentation ++ quoted new "green".toList

/-- The lines of a report: the path, a rule below it, and the entries with blank lines between. -/
def lines (path : Text) (actions : List Action) : List Text :=
  [Markup.escape path, List.replicate path.length '=', []] ++
    (actions.filter fun action => !action.isKept).flatMap fun action => [ofAction action, []]

/-- The report of a file. -/
def ofActions (path : Text) (actions : List Action) : Text :=
  Text.joinWith ['\n'] (lines path actions)

end Report

end IntraDoc
