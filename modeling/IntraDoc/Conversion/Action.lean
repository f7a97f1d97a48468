import IntraDoc.Text.Basic

/-!
# Actions

A conversion answers every line with one action. The new lines of the actions, put together, are
the converted text.
-/

namespace IntraDoc

/-- What becomes of a line. -/
inductive Action where
  /-- The line is kept. -/
  | kept (line : Text)
  /-- The line at this position is dropped, for this reason. -/
  | dropped (line : Text) (position : Int) (reason : Text)
  /-- The line at this position is exchanged for a new one. -/
  | replaced (line new : Text) (position : Int)
deriving DecidableEq, Repr

namespace Action

/-- Why a link of a name to itself is dropped. -/
def localLinkReason : Text :=
  "Deleted local link (of the form '[name]: name')".toList

/-- The line as it was. -/
def line : Action → Text
  | kept line => line
  | dropped line _ _ => line
  | replaced line _ _ => line

/-- What stands in the place of the line. -/
def newLine : Action → Text
  | kept line => line
  | dropped _ _ _ => []
  | replaced _ new _ => new

/-- Whether the line is kept. -/
def isKept : Action → Bool
  | kept _ => true
  | _ => false

/-- The converted text. -/
def newText (actions : List Action) : Text :=
  actions.flatMap newLine

/-- Whether some line is not kept. -/
def anyChange (actions : List Action) : Bool :=
  actions.any fun action => !action.isKept

end Action

end IntraDoc
