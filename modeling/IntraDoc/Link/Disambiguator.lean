import IntraDoc.Text.Basic

/-!
# Item kinds and disambiguators

The page of an item begins with the item's kind (`struct.Vec.html`), and so does the anchor of an
associated item (`#method.push`). The kind decides how an intra-doc link tells apart items that
share a name: by a token in front (`type@Vec`) or behind (`push()`).
-/

namespace IntraDoc

/-- The kinds of items that have pages or anchors. -/
def itemKinds : List Text :=
  ["associatedconstant".toList, "associatedtype".toList, "attr".toList, "constant".toList,
   "derive".toList, "enum".toList, "externcrate".toList, "fn".toList, "foreigntype".toList,
   "impl".toList, "import".toList, "keyword".toList, "macro".toList, "method".toList, "mod".toList,
   "opaque".toList, "primitive".toList, "static".toList, "struct".toList, "structfield".toList,
   "trait".toList, "traitalias".toList, "tymethod".toList, "type".toList, "union".toList,
   "variant".toList]

/-- Where the token of a disambiguator goes. -/
inductive Placement where
  /-- Nowhere: the token is not written. -/
  | bare
  /-- In front of the path, and only on request. -/
  | leading
  /-- Behind the path. -/
  | trailing
deriving DecidableEq, Repr

/-- How an item is told apart from others of its name. -/
structure Disambiguator where
  /-- Where the token goes. -/
  placement : Placement
  /-- What is written there. -/
  token : Text
deriving DecidableEq, Repr

namespace Disambiguator

/-- No disambiguator. -/
def none : Disambiguator := ⟨.bare, []⟩

/-- The token `mod@`, for modules. -/
def mod : Disambiguator := ⟨.leading, "mod@".toList⟩

/-- The kinds that have a disambiguator, each with it. -/
def table : List (Text × Disambiguator) :=
  [("struct".toList, ⟨.leading, "type@".toList⟩),
   ("enum".toList, ⟨.leading, "type@".toList⟩),
   ("trait".toList, ⟨.leading, "type@".toList⟩),
   ("union".toList, ⟨.leading, "type@".toList⟩),
   ("type".toList, ⟨.leading, "type@".toList⟩),
   ("const".toList, ⟨.leading, "value@".toList⟩),
   ("static".toList, ⟨.leading, "value@".toList⟩),
   ("value".toList, ⟨.leading, "value@".toList⟩),
   ("derive".toList, ⟨.leading, "macro@".toList⟩),
   ("attr".toList, ⟨.leading, "macro@".toList⟩),
   ("mod".toList, mod),
   ("fn".toList, ⟨.trailing, "()".toList⟩),
   ("method".toList, ⟨.trailing, "()".toList⟩),
   ("macro".toList, ⟨.trailing, "!".toList⟩)]

/-- The disambiguator of a kind; a kind without one, known or not, gets none. -/
def ofKind (kind : Text) : Disambiguator :=
  (table.lookup kind).getD none

end Disambiguator

end IntraDoc
