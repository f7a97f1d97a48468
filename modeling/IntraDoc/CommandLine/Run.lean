import IntraDoc.CommandLine.Arguments
import IntraDoc.Conversion.Batch
import IntraDoc.Conversion.Report
import IntraDoc.Ignore.Load
import IntraDoc.Text.Console

/-!
# Running the command line

A run converts the sources that its arguments name, prints a report of every file with changes, and
logs warnings and errors. Its status is 1 when the arguments make no sense, a setting is invalid, a
file could not be converted or a failure ends the run that it does not deal with.
-/

namespace IntraDoc

namespace CommandLine

/-- The version of the program. -/
def version : Text := "0.1.0".toList

/-- How grave a record of the log is. -/
inductive Level where
  /-- Something was passed over. -/
  | warning
  /-- Something failed. -/
  | error
deriving DecidableEq, Repr

/-- A record of the log. -/
structure Record where
  /-- How grave it is. -/
  level : Level
  /-- What it says. -/
  message : Text
deriving DecidableEq, Repr

namespace Record

/-- The record as a line of the log. -/
def line (record : Record) : Text :=
  let level :=
    match record.level with
    | .warning => "WARNING".toList
    | .error => "ERROR".toList
  level ++ ": ".toList ++ record.message ++ ['\n']

end Record

/-- A failure that no run deals with. -/
inductive Failure where
  /-- Of loading the links to keep. -/
  | ignore (error : IgnoreError)
  /-- Of discovering crates. -/
  | discovery (error : DiscoveryError)
  /-- Of a name or path among what was discovered. -/
  | batch (error : BatchError)
deriving DecidableEq, Repr

/-- What is said about the failure. -/
def Failure.message : Failure → Text
  | ignore error => error.message
  | discovery error => error.message
  | batch error => error.message

/-- The outcome of a run. -/
structure Outcome where
  /-- The status that the run ends with. -/
  status : Nat
  /-- What is printed besides reports. -/
  printed : Text := []
  /-- The reports as they are printed. -/
  report : Text := []
  /-- The records of the log, in order. -/
  log : List Record := []
  /-- The file system behind the run. -/
  system : FileSystem
  /-- The failure that ended the run, if it was none that a run deals with. -/
  failure : Option Failure := none

namespace Outcome

/-- The log as it is written. -/
def logText (outcome : Outcome) : Text :=
  outcome.log.flatMap Record.line

end Outcome

/-- Whether a run reports this failure and ends with status 1. -/
def reportsIgnore : IgnoreError → Bool
  | .unreadable _ => false
  | .clash _ => false
  | .meaningless _ => false
  | .unshowable => false
  | .unusableKey _ => false
  | _ => true

/-- Whether a run reports this failure and ends with status 1. -/
def reportsDiscovery : DiscoveryError → Bool
  | .noManifest _ => true
  | .invalidManifest _ => true
  | _ => false

/-- The record about a manifest that was passed over. -/
def skippedRecord (manifest : FilePath) : Record :=
  ⟨.warning,
    "skipping ".toList ++ manifest.text ++ ": package name is not usable".toList⟩

/-- The record about a file that could not be read or written. -/
def failedRecord? (result : FileOutcome) : Option Record :=
  result.error.map fun error =>
    let deed :=
      match error with
      | .denied _ => "could not write ".toList
      | _ => "could not convert ".toList
    ⟨.error, deed ++ result.path.text ++ ": ".toList ++ error.message⟩

/-- The path in the head of a report: from the working directory, if it is below. -/
def shownPath (system : FileSystem) (path : FilePath) : Text :=
  if path.isAbsolute then ((path.relativeTo? system.workingPath).getD path).text else path.text

/-- The report of a file as it is printed; a file without changes has none. -/
def printedReport (system : FileSystem) (result : FileOutcome) : Text :=
  if result.changed then
    Console.print (Report.ofActions (shownPath system result.path) result.actions)
  else []

/-- The outcome of a run that stops at an error. -/
def failed (system : FileSystem) (log : List Record) (message : Text) : Outcome :=
  { status := 1, log := log ++ [⟨.error, message⟩], system := system }

/-- The outcome of a run that stops at a failure that no run deals with. -/
def stopped (system : FileSystem) (log : List Record) (failure : Failure) : Outcome :=
  { status := 1, log := log, system := system, failure := some failure }

/-- The outcome of a run that has converted its files, or some of them. -/
def finished (invocation : Invocation) (log : List Record) (batch : Batch) : Outcome :=
  let report :=
    if invocation.quiet then [] else batch.outcomes.flatMap (printedReport batch.system)
  let log := log ++ batch.outcomes.filterMap failedRecord?
  let count := (batch.outcomes.filter FileOutcome.failed).length
  match batch.failure with
  | some error => { stopped batch.system log (.batch error) with report := report }
  | none =>
    if count = 0 then { status := 0, report := report, log := log, system := batch.system }
    else
      { failed batch.system log (Text.ofNat count ++ " file(s) could not be converted".toList) with
        report := report }

/-- Converts what is asked for, with the links to keep. -/
def convert (invocation : Invocation) (options : Options) (ignore : Option IgnoreTable)
    (log : List Record) (system : FileSystem) : Outcome :=
  let found := Discovery.ofArguments system options.crateName invocation.paths
  let log := log ++ found.skipped.map skippedRecord
  match found.outcome with
  | .error error =>
    if reportsDiscovery error then failed system log error.message
    else stopped system log (.discovery error)
  | .ok crates =>
    finished invocation log (system.convertCrates options ignore invocation.apply crates)

/-- Does what is asked for. -/
def perform (invocation : Invocation) (system : FileSystem) : Outcome :=
  match (CrateName.ofPackage invocation.crateName).bind fun crateName =>
    Options.make crateName invocation.disambiguate invocation.hosted with
  | .error error => failed system [] error.message
  | .ok options =>
    let log :=
      if options.crateName = invocation.crateName then []
      else
        [⟨.warning, "crate name '".toList ++ invocation.crateName ++ "' read as '".toList ++
          options.crateName ++ "'".toList⟩]
    match invocation.ignoreFile with
    | none => convert invocation options none log system
    | some path =>
      match IgnoreTable.load system path with
      | .ok table => convert invocation options (some table) log system
      | .error error =>
        if reportsIgnore error then failed system log error.message
        else stopped system log (.ignore error)

/-- Runs the program: its outcome, with a log as quiet as the arguments ask for. -/
def run (arguments : List Text) (environment : List (Text × Text)) (system : FileSystem) :
    Outcome :=
  if arguments.contains "--version".toList then
    { status := 0, printed := version ++ ['\n'], system := system }
  else
    match Invocation.parse? arguments environment with
    | none => { status := 1, system := system }
    | some invocation =>
      let outcome := perform invocation system
      { outcome with
        log := outcome.log.filter fun record => !invocation.quiet || record.level = .error }

end CommandLine

end IntraDoc
