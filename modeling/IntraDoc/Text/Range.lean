/-!
# Sets of characters by ranges

A set of characters is written as the increasing list of the code points at which membership
changes: the first number opens a range, the second closes it, and so on.
-/

namespace IntraDoc

namespace Text

/-- Whether a code point lies in one of the half-open ranges that a list of bounds describes. -/
def withinBounds : List Nat → Nat → Bool
  | low :: high :: bounds, code =>
    if code < low then false else code < high || withinBounds bounds code
  | _, _ => false

end Text

end IntraDoc
