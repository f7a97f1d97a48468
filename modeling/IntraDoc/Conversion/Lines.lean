import IntraDoc.Conversion.Action
import IntraDoc.Ignore.Basic
import IntraDoc.Line.LocalLink
import IntraDoc.Line.Converted
import IntraDoc.Scope.Tracker

/-!
# Converting a file

The lines of a file are converted one after the other, each in the type scope that a tracker has
reached. A long-form link that a conversion makes link to its own name is dropped.
-/

namespace IntraDoc

/-- What the conversion of a file depends on besides its lines. -/
structure Settings where
  /-- The options of the conversion. -/
  options : Options := {}
  /-- The path of the file, if it is known. -/
  file : Option FilePath := none
  /-- The links to keep, if there are any. -/
  ignore : Option IgnoreTable := none

namespace Settings

/-- Whether a link is to be kept; without a file no link is. -/
def ignores (settings : Settings) (name target : Text) : Bool :=
  match settings.ignore, settings.file with
  | some table, some file => table.ignores file name target
  | _, _ => false

end Settings

namespace Tracker

/-- What becomes of a line at the place that the tracker has reached. -/
def actionFor (settings : Settings) (tracker : Tracker) (line : Text) : Action :=
  let result := ConvertedLine.ofLine line settings.options tracker.currentType settings.ignores
  if 0 < result.converted && result.isLong && linksToItself result.text then
    .dropped line tracker.position Action.localLinkReason
  else if result.text = line then .kept line
  else .replaced line result.text tracker.position

/-- The action for the next line, and the tracker behind it. -/
def step (settings : Settings) (tracker : Tracker) (line : Text) : Action × Tracker :=
  let reached := tracker.advance
  (reached.actionFor settings line, reached.leave line)

/-- The actions for the lines that follow, and the tracker behind them. -/
def run (settings : Settings) (tracker : Tracker) : List Text → List Action × Tracker
  | [] => ([], tracker)
  | line :: lines =>
    let (action, tracker) := tracker.step settings line
    let (actions, tracker) := tracker.run settings lines
    (action :: actions, tracker)

end Tracker

/-- The actions for the lines of a file. -/
def convertLines (settings : Settings) (lines : List Text) : List Action :=
  ((Tracker.start lines).run settings lines).1

end IntraDoc
