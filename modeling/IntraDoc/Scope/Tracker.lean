import IntraDoc.Scope.Block

/-!
# Following type scopes

A tracker goes through a file line by line and knows the block that it is in. Blocks do not nest:
while one is open, the declarations in it are passed over, and a declaration that was passed is
never entered later. The next block is taken up before its own line is reached and stays invisible
until then.
-/

namespace IntraDoc

/-- The place in a file that a conversion has reached. -/
structure Tracker where
  /-- The number of the last line, the first line being line 1. -/
  position : Int := 0
  /-- The block that is open, or that will be at its line. -/
  current : Option Block := none
  /-- The blocks that are still to come, in the order of the file. -/
  pending : List Block := []
deriving DecidableEq, Repr

namespace Tracker

/-- The tracker made ready for the first of these lines, wherever it was. -/
def reset (tracker : Tracker) (lines : List Text) : Tracker :=
  { tracker with position := 0, current := none, pending := Block.declared lines }

/-- The tracker before the first of these lines. -/
def start (lines : List Text) : Tracker :=
  reset {} lines

/-- The type in scope. -/
def currentType (tracker : Tracker) : Option Text :=
  match tracker.current with
  | some block => if tracker.position < block.line then none else some block.name
  | none => none

/-- The same place inside another block. -/
def setBlock (tracker : Tracker) (block : Block) : Tracker :=
  { tracker with current := some block }

/-- Takes up the next block that has not been passed, unless there is one already. -/
def enter (tracker : Tracker) : Tracker :=
  match tracker.current with
  | some _ => tracker
  | none =>
    match tracker.pending.dropWhile fun block => block.line < tracker.position with
    | [] => { tracker with pending := [] }
    | block :: pending => { tracker with current := some block, pending := pending }

/-- Goes on to the next line. -/
def advance (tracker : Tracker) : Tracker :=
  enter { tracker with position := tracker.position + 1 }

/-- Whether a line ends a block that it belongs to. -/
def closes (block : Block) (line : Text) : Bool :=
  block.isSingleLine || Text.startsWith line block.endMarker

/-- Leaves the block that the line ends. -/
def leave (tracker : Tracker) (line : Text) : Tracker :=
  match tracker.current with
  | some block =>
    if block.line ≤ tracker.position && closes block line then { tracker with current := none }
    else tracker
  | none => tracker

end Tracker

end IntraDoc
