import IntraDoc.Line.LongForm

/-!
# Local links

A line `[name]: name` links a name to itself. Intra-doc links resolve without it, so a conversion
that ends in one deletes the line. One backtick on either side of the bracketed name does not
count.
-/

namespace IntraDoc

namespace LocalLink

/-- The name without a backtick in front. -/
def dropOpening : Text → Text
  | '`' :: rest => rest
  | text => text

/-- The name without a backtick at its end. -/
def dropClosing (name : Text) : Text :=
  if name.getLast? = some '`' then name.dropLast else name

/-- The text of a line that has nothing behind its line break. -/
def lineText? (text : Text) : Option Text :=
  let content :=
    match text.reverse with
    | '\n' :: '\r' :: rest => rest.reverse
    | '\n' :: rest => rest.reverse
    | _ => text
  if content.contains '\n' then none else some content

/-- The two names in a split of a line at `]:`, when both are on one line. -/
def names? : Text × Text → Option (Text × Text)
  | (name, rest) =>
    if name.contains '\n' then none
    else (lineText? (Text.skipBlanks rest)).map fun target => (dropClosing name, target)

end LocalLink

/-- Whether a line is a link of a name to itself. -/
def linksToItself (line : Text) : Bool :=
  match LongForm.body? line with
  | none => false
  | some body =>
    match (Text.splitsAt "]:".toList (LocalLink.dropOpening body)).findSome? LocalLink.names? with
    | some (name, target) => name = target
    | none => false

end IntraDoc
