import IntraDoc.Link.Disambiguator

/-!
# Links into documentation

The target `../mod1/struct.Type.html#method.call` starts one module up, goes through `mod1` and
finishes at the item `Type` with the associated item `call`. `DocLink.render` writes such a link as
an intra-doc path, here `super::mod1::Type::call()`.
-/

namespace IntraDoc

/-- Where a link starts from. -/
inductive Start where
  /-- No marker of its own. -/
  | empty
  /-- The current module, or the current type for a bare associated item. -/
  | here
  /-- The root of the crate that is being converted. -/
  | crate
  /-- A module beside the current one. -/
  | sibling (name : Text)
  /-- The module `count` levels up. -/
  | supers (count : Nat)
deriving DecidableEq, Repr

/-- What an anchor adds to the page of an item. -/
inductive Fragment where
  /-- A section of the page. -/
  | anchor (name : Text)
  /-- An item that belongs to the item of the page. -/
  | associated (disambiguator : Disambiguator) (name : Text)
deriving DecidableEq, Repr

/-- What a link finishes at. -/
inductive Finish where
  /-- A section of a page. -/
  | anchor (name : Text)
  /-- An associated item without the page of its owner. -/
  | associated (disambiguator : Disambiguator) (name : Text)
  /-- An item with a page of its own, and what an anchor adds to it. -/
  | item (kind : Text) (disambiguator : Disambiguator) (name : Text) (added : Option Fragment)
  /-- A module, and possibly a section of its page. -/
  | mod (name : Text) (anchor : Option Text)
deriving DecidableEq, Repr

/-- A link target taken apart. -/
structure DocLink where
  /-- Where the link starts from. -/
  start : Start
  /-- The modules on the way. -/
  modules : List Text
  /-- What the link finishes at. -/
  finish : Finish
deriving DecidableEq, Repr

namespace Finish

/-- The disambiguator of the innermost part that has one. -/
def disambiguator : Finish → Disambiguator
  | anchor _ => .none
  | mod _ _ => .mod
  | associated disambiguator _ => disambiguator
  | item _ _ _ (some (.associated disambiguator _)) => disambiguator
  | item _ disambiguator _ _ => disambiguator

/-- Whether this is an associated item without the page of its owner. -/
def isAssociated : Finish → Bool
  | associated _ _ => true
  | _ => false

end Finish

namespace DocLink

/-- The disambiguator of the innermost part that has one. -/
def disambiguator (link : DocLink) : Disambiguator :=
  link.finish.disambiguator

/-- Whether the link leads to the page of a primitive type, which no path can name. -/
def isPrimitive (link : DocLink) : Bool :=
  match link.finish with
  | .item kind _ _ _ => kind = "primitive".toList
  | _ => false

/-- A path with one more segment; an empty path has no separator. -/
def joinSegment (path segment : Text) : Text :=
  if path.isEmpty then segment else path ++ "::".toList ++ segment

/-- The type that bare associated items belong to: the current one if it has a name. -/
def ownerName : Option Text → Text
  | some (char :: rest) => char :: rest
  | _ => "Self".toList

/-- The first segments of the path. -/
def renderStart (link : DocLink) (currentType : Option Text) : Text :=
  match link.start with
  | .empty => []
  | .here =>
    if link.finish.isAssociated && link.modules.isEmpty then ownerName currentType else []
  | .crate => "crate".toList
  | .sibling name => name
  | .supers count => Text.joinWith "::".toList (List.replicate count "super".toList)

/-- The path up to the finish. -/
def renderLead (link : DocLink) (currentType : Option Text) : Text :=
  link.modules.foldl joinSegment (link.renderStart currentType)

/-- The token behind the path, if the disambiguator has one. -/
def trailingToken (link : DocLink) : Text :=
  if link.disambiguator.placement = .trailing then link.disambiguator.token else []

/-- The token in front of the path, if the disambiguator has one. -/
def leadingToken (link : DocLink) : Text :=
  if link.disambiguator.placement = .leading then link.disambiguator.token else []

/--
The path without a token in front. A trailing token follows the name it belongs to, so it stands
before the section of an item's page.
-/
def renderPath (link : DocLink) (currentType : Option Text) : Text :=
  let lead := link.renderLead currentType
  match link.finish with
  | .anchor name => lead ++ '#' :: name ++ link.trailingToken
  | .associated _ name => joinSegment lead name ++ link.trailingToken
  | .mod name none => joinSegment lead name ++ link.trailingToken
  | .mod name (some anchor) => joinSegment lead name ++ '#' :: anchor ++ link.trailingToken
  | .item _ _ name none => joinSegment lead name ++ link.trailingToken
  | .item _ _ name (some (.anchor anchor)) =>
    joinSegment lead name ++ link.trailingToken ++ '#' :: anchor
  | .item _ _ name (some (.associated _ member)) =>
    joinSegment lead name ++ "::".toList ++ member ++ link.trailingToken

/-- The intra-doc path, with the leading token when `disambiguate` asks for it. -/
def render (link : DocLink) (currentType : Option Text) (disambiguate : Bool) : Text :=
  (if disambiguate then link.leadingToken else []) ++ link.renderPath currentType

end DocLink

end IntraDoc
