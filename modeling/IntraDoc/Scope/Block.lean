import IntraDoc.Text.Blank
import IntraDoc.Text.Word

/-!
# Type blocks

A declaration of a type, or an `impl`, opens a block in which a bare `#method.name` belongs to that
type. The block is recognised by the line of its declaration: its visibility, keyword, the name of
the type and a parenthesis behind it. Where a declaration can be read in several ways, the readings
are tried in a fixed order and the first that yields a name counts.
-/

namespace IntraDoc

/-- A block that belongs to a type. -/
structure Block where
  /-- The type, without its parameters. -/
  name : Text
  /-- What the last line of the block begins with; a line feed if the block has one line only. -/
  endMarker : Text
  /-- The number of the line of the declaration. -/
  line : Int
deriving DecidableEq, Repr

namespace Block

/-- The end marker of a block of one line. -/
def singleLineEnd : Text := ['\n']

/-- Whether the block has one line only. -/
def isSingleLine (block : Block) : Bool :=
  block.endMarker = singleLineEnd

/-- The name behind a space, and what follows it. -/
def nameAndRest? : Text → Option (Text × Text)
  | ' ' :: text =>
    let name := text.takeWhile Text.isWord
    if name.isEmpty then none else some (name, text.dropWhile Text.isWord)
  | _ => none

/-- The rests behind parameters `<…>`: behind the nearest `>` first, and without any last. -/
def afterParameters (text : Text) : List Text :=
  match text with
  | '<' :: rest => (Text.splitsAt ['>'] rest).map (·.2) ++ [text]
  | _ => [text]

/-- The rests behind a trait and `for`: behind the nearest `for` first, and without any last. -/
def afterTrait (text : Text) : List Text :=
  match text with
  | ' ' :: rest => (Text.splitsAt " for".toList rest).map (·.2) ++ [text]
  | _ => [text]

/-- The name in what follows `impl`, and what follows the name. -/
def implemented? (text : Text) : Option (Text × Text) :=
  (afterParameters text).findSome? fun rest => (afterTrait rest).findSome? nameAndRest?

/-- The keywords that are followed by the name at once. -/
def plainKeywords : List Text :=
  ["struct".toList, "trait".toList, "enum".toList, "union".toList]

/-- The name in a declaration without its visibility, and what follows the name. -/
def declared? (text : Text) : Option (Text × Text) :=
  match plainKeywords.findSome? fun keyword => Text.after? keyword text with
  | some rest => nameAndRest? rest
  | none => (Text.after? "impl".toList text).bind implemented?

/--
The rests behind a visibility: behind the farthest parenthesis of `pub(…)` first, then behind a
plain `pub`, and without any last.
-/
def afterVisibility (text : Text) : List Text :=
  let restricted :=
    match Text.after? "pub(".toList text with
    | some rest =>
      ((Text.splitsAt ") ".toList rest).filter fun split => !split.1.isEmpty).reverse.map (·.2)
    | none => []
  restricted ++ (Text.after? "pub ".toList text).toList ++ [text]

/-- Whether a parenthesis follows the name, parameters aside. -/
def opensParenthesis (text : Text) : Bool :=
  match (afterParameters text).head? with
  | some ('(' :: _) => true
  | _ => false

/-- The name in a declaration, and whether a parenthesis follows it. -/
def header? (text : Text) : Option (Text × Bool) :=
  if text.contains '\n' then none
  else
    ((afterVisibility text).findSome? declared?).map fun (name, rest) =>
      (name, opensParenthesis rest)

/-- Whether a declaration ends on its own line. -/
def endsAtOnce (content : Text) : Bool :=
  match (Text.trimBlanksRight content).getLast? with
  | some char => char = ';' || char = '}'
  | none => false

/-- The block that a line declares. -/
def ofLine? (line : Text) (position : Int) : Option Block :=
  let content := Text.trimLineEnd line
  let indentation := content.takeWhile Text.isBlank
  (header? (Text.skipBlanks content)).map fun (name, parenthesis) =>
    let bracket := if parenthesis then ')' else '}'
    let endMarker := if endsAtOnce content then singleLineEnd else indentation ++ [bracket]
    ⟨name, endMarker, position⟩

/-- The blocks that the lines declare, the first of them being line `position`. -/
def declaredFrom (position : Int) : List Text → List Block
  | [] => []
  | line :: lines => (ofLine? line position).toList ++ declaredFrom (position + 1) lines

/-- The blocks that the lines of a file declare, in the order of the file. -/
def declared (lines : List Text) : List Block :=
  declaredFrom 1 lines

end Block

end IntraDoc
