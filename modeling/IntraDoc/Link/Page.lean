import IntraDoc.Link.Identifier
import IntraDoc.Link.DocLink

/-!
# Page names

The last component of a link path names a page: the page of an item (`struct.Vec.html`), the index
of a module (`index.html`), a module by its bare name, each possibly followed by an anchor, or an
anchor alone. One final line feed is never part of the name.
-/

namespace IntraDoc

namespace Page

/-- Whether a character may stand in an anchor. -/
def isAnchorChar (char : Char) : Bool :=
  Text.isAsciiWord char || char = '-' || char = '.'

/-- The name in `#name`. -/
def anchor? : Text → Option Text
  | '#' :: name => if !name.isEmpty && name.all isAnchorChar then some name else none
  | _ => none

/-- The kind and the name in `kind.name`, and what follows. A kind has no dot in it. -/
def kindAndName? (text : Text) : Option (Text × Text × Text) :=
  let kind := text.takeWhile (· ≠ '.')
  if kind ∈ itemKinds then
    match text.dropWhile (· ≠ '.') with
    | '.' :: rest => (Identifier.read? rest).map fun (name, rest) => (kind, name, rest)
    | _ => none
  else none

/-- The kind and the name in `#kind.name`. -/
def associated? : Text → Option (Text × Text)
  | '#' :: text =>
    match kindAndName? text with
    | some (kind, name, []) => some (kind, name)
    | _ => none
  | _ => none

/-- What the anchor behind a page name adds to the item of that page. -/
def fragment? (text : Text) : Option Fragment :=
  match associated? text with
  | some (kind, name) => some (.associated (.ofKind kind) name)
  | none => (anchor? text).map .anchor

/-- The item in `kind.Name.html`, with what an anchor adds to it. -/
def item? (text : Text) : Option Finish :=
  match kindAndName? text with
  | none => none
  | some (kind, name, rest) =>
    match Text.after? ".html".toList rest with
    | none => none
    | some [] => some (.item kind (.ofKind kind) name none)
    | some anchor =>
      (fragment? anchor).map fun added => .item kind (.ofKind kind) name (some added)

/-- The anchor at the end of a page name: absent, or a well-formed one. -/
def optionalAnchor? : Text → Option (Option Text)
  | [] => some none
  | text => (anchor? text).map some

/-- The anchor in `index.html` or `index.html#anchor`. -/
def index? (text : Text) : Option (Option Text) :=
  (Text.after? "index.html".toList text).bind optionalAnchor?

/-- The name and the anchor in `name` or `name#anchor`. -/
def bareModule? (text : Text) : Option (Text × Option Text) :=
  (Identifier.read? text).bind fun (name, rest) =>
    (optionalAnchor? rest).map fun anchor => (name, anchor)

end Page

end IntraDoc
