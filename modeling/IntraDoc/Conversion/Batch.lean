import IntraDoc.Conversion.Lines
import IntraDoc.Crate.Discovery
import IntraDoc.File.Sources
import IntraDoc.Text.Lines

/-!
# Converting files

A file is read, converted and, when asked for, written back if some line changed. A file that
cannot be read or written yields a failure and no change; the other files of a batch go on. A path
that no file can have, or a name that no crate can have, ends the batch, and what was converted
before it stays converted.
-/

namespace IntraDoc

/-- The outcome of converting one file. -/
structure FileOutcome where
  /-- The path of the file. -/
  path : FilePath
  /-- What becomes of its lines. -/
  actions : List Action := []
  /-- Whether the file was written. -/
  written : Bool := false
  /-- What kept the file from being read or written. -/
  error : Option FileError := none
deriving DecidableEq, Repr

/-- What ends a batch. -/
inductive BatchError where
  /-- A name that no crate can have. -/
  | crateName (error : InvalidCrateName)
  /-- A path that no file can have. -/
  | path (error : PathError)
deriving DecidableEq, Repr

/-- What is said about it. -/
def BatchError.message : BatchError → Text
  | crateName error => error.message
  | path error => error.message

/-- What becomes of a batch of files. -/
structure Batch where
  /-- The outcomes of the files, in order, up to what ended the batch. -/
  outcomes : List FileOutcome := []
  /-- The file system that the batch leaves behind. -/
  system : FileSystem
  /-- What put an end to it. -/
  failure : Option BatchError := none
deriving DecidableEq, Repr

/-- The same batch with files that were converted before it. -/
def Batch.behind (batch : Batch) (earlier : List FileOutcome) : Batch :=
  { batch with outcomes := earlier ++ batch.outcomes }

namespace FileOutcome

/-- Whether some line changes. -/
def changed (result : FileOutcome) : Bool :=
  Action.anyChange result.actions

/-- Whether the file could not be read or written. -/
def failed (result : FileOutcome) : Bool :=
  result.error.isSome

end FileOutcome

namespace FileSystem

/-- The actions for the lines of a file. -/
def actionsFor (system : FileSystem) (options : Options) (ignore : Option IgnoreTable)
    (path : FilePath) : Except FileError (List Action) :=
  (system.readText path).map fun text =>
    convertLines ⟨options, some (system.workingPath.resolve path), ignore⟩
      (Text.splitLines text)

/-- Converts a file, and writes it back if `apply` says so. -/
def convertFile (system : FileSystem) (options : Options) (ignore : Option IgnoreTable)
    (apply : Bool) (path : FilePath) : Except PathError (FileOutcome × FileSystem) :=
  if !path.isUsable then .error .nullByte
  else
    match system.actionsFor options ignore path with
    | .error error => .ok ({ path := path, error := some error }, system)
    | .ok actions =>
      if apply && Action.anyChange actions then
        match system.writeText path (Action.newText actions) with
        | .error error => .ok ({ path := path, actions := actions, error := some error }, system)
        | .ok system => .ok ({ path := path, actions := actions, written := true }, system)
      else .ok ({ path := path, actions := actions }, system)

/-- Converts files one after the other, up to a path that no file can have. -/
def convertFiles (system : FileSystem) (options : Options) (ignore : Option IgnoreTable)
    (apply : Bool) : List FilePath → Batch
  | [] => { system := system }
  | path :: paths =>
    match system.convertFile options ignore apply path with
    | .error error => { system := system, failure := some (.path error) }
    | .ok (outcome, after) => (after.convertFiles options ignore apply paths).behind [outcome]

/-- Converts the sources of crates, each with its own name, up to a name or path that is invalid. -/
def convertCrates (system : FileSystem) (options : Options) (ignore : Option IgnoreTable)
    (apply : Bool) : List Crate → Batch
  | [] => { system := system }
  | crate :: crates =>
    match options.forCrate crate.name with
    | .error error => { system := system, failure := some (.crateName error) }
    | .ok own =>
      let batch := system.convertFiles own ignore apply (system.sourceFiles crate.path)
      match batch.failure with
      | some _ => batch
      | none => (batch.system.convertCrates options ignore apply crates).behind batch.outcomes

end FileSystem

end IntraDoc
