import IntraDoc.Line.Candidate
import IntraDoc.Text.Blank

/-!
# Long-form links

A long-form link is a line `[name]: target`. Blanks and the marker of a doc comment may stand in
front. The target holds no bracket, so the last closing bracket of the line ends the name.
-/

namespace IntraDoc

namespace LongForm

/-- The text without the marker of a doc comment and the blanks behind it. -/
def skipMarker : Text → Text
  | '/' :: '/' :: '/' :: rest => Text.skipBlanks rest
  | '/' :: '/' :: '!' :: rest => Text.skipBlanks rest
  | text => text

/-- What follows the bracket that opens the name. -/
def body? (line : Text) : Option Text :=
  match skipMarker (Text.skipBlanks line) with
  | '[' :: body => some body
  | _ => none

/-- Whether a text is what may end a line: nothing, or one line break. -/
def isLineEnd (text : Text) : Bool :=
  text = [] || text = ['\n'] || text = ['\r', '\n']

/-- The name, and the text from the target on. -/
def nameAndRest? (line : Text) : Option (Text × Text) :=
  match (body? line).bind (Text.splitAtLast? ']') with
  | some (name, ':' :: rest) =>
    if name.contains '\n' then none else some (name, Text.skipBlanks rest)
  | _ => none

/-- The long-form link that a line consists of. -/
def read? (line : Text) : Option Candidate :=
  match nameAndRest? line with
  | none => none
  | some (name, rest) =>
    match LinkTarget.read? rest with
    | none => none
    | some (target, lineEnd) =>
      if isLineEnd lineEnd then
        let start := line.length - rest.length
        some ⟨name, target, .long, ⟨start, start + target.length⟩, ⟨0, line.length⟩⟩
      else none

end LongForm

end IntraDoc
