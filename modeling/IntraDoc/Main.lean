import IntraDoc.CommandLine.Run

/-!
# The command line on a disk

The program itself runs on a file system that is a value. This file takes such a value from the
disk before a run, and puts what the run has printed and changed where it belongs.
-/

namespace IntraDoc

namespace CommandLine

/-- How many directories deep a tree is read. -/
def treeDepth : Nat := 64

/-- The absolute path of a place on the disk. -/
def diskPath (place : Place) : String :=
  String.ofList (FilePath.text ⟨.single, place⟩)

/-- Whether a run may look into a file: a source, a manifest, or a file that is named. -/
def isRead (named : List Place) (place : Place) : Bool :=
  named.contains place ||
    match place.getLast? with
    | some name => name = Manifest.fileName || Text.endsWith name ".rs".toList
    | none => false

/-- Whether a file on the disk can be opened for writing. -/
def isWritable (path : String) : IO Bool := do
  try
    let _ ← IO.FS.Handle.mk path .append
    return true
  catch _ => return false

/-- The file at a place of the disk; what no run looks into counts as empty. -/
def readFile (named : List Place) (place : Place) : IO FileContent := do
  if isRead named place then
    let bytes ← IO.FS.readBinFile (diskPath place)
    return ⟨bytes.toList, ← isWritable (diskPath place)⟩
  else return ⟨[], false⟩

/-- What is found at a place of the disk and below it, up to a depth. -/
def readTree (named : List Place) : (depth : Nat) → Place → IO (List (Place × Entry))
  | 0, _ => return []
  | depth + 1, place => do
    try
      let path ← IO.FS.realPath (diskPath place)
      if ← path.isDir then
        let children ← path.readDir
        let below ← children.toList.mapM fun child =>
          readTree named depth (place ++ [child.fileName.toList])
        return (place, .directory) :: below.flatten
      else return [(place, .file (← readFile named place))]
    catch _ => return []

/-- The places that are not below another one. -/
def outermost (places : List Place) : List Place :=
  (places.filter fun place =>
    !places.any fun other => other ≠ place && other.isPrefixOf place).eraseDups

/-- The directories above a place. -/
def directoriesAbove (place : Place) : List (Place × Entry) :=
  ((List.range place.length).drop 1).map fun count => (place.take count, .directory)

/-- The part of the disk that a run is about: the working directory and what the arguments name. -/
def readDisk (invocation : Invocation) : IO FileSystem := do
  let current ← IO.currentDir
  let working := FilePath.parse current.toString.toList
  let named := (invocation.paths ++ invocation.ignoreFile.toList).map fun path =>
    (working.resolve path).names
  let trees := outermost (working.names :: named)
  let entries ← trees.mapM (readTree named treeDepth)
  return {
    entries := (trees.flatMap directoriesAbove).eraseDups ++ entries.flatten
    working := working.names }

/-- Writes the files that a run has changed. -/
def writeDisk (before after : FileSystem) : IO Unit := do
  for ((place, old), (_, new)) in before.entries.zip after.entries do
    match old, new with
    | .file old, .file new =>
      if old.bytes ≠ new.bytes then
        IO.FS.writeBinFile (diskPath place) new.bytes.toByteArray
    | _, _ => pure ()

/-- The variables of the environment that are read. -/
def readEnvironment : IO (List (Text × Text)) := do
  let values ← Arguments.readVariables.mapM fun name => do
    return (← IO.getEnv (String.ofList name)).map fun value => (name, value.toList)
  return values.filterMap id

/-- Runs the program on the disk, and gives its status. -/
def runOnDisk (arguments : List Text) : IO UInt32 := do
  let environment ← readEnvironment
  let before ←
    match Invocation.parse? arguments environment with
    | some invocation => readDisk invocation
    | none => pure {}
  let outcome := run arguments environment before
  writeDisk before outcome.system
  IO.print (String.ofList (outcome.printed ++ outcome.report))
  IO.eprint (String.ofList outcome.logText)
  if let some failure := outcome.failure then
    IO.eprintln (String.ofList failure.message)
  return outcome.status.toUInt32

end CommandLine

end IntraDoc

/-- Converts the links of the sources that the arguments name. -/
def main (arguments : List String) : IO UInt32 :=
  IntraDoc.CommandLine.runOnDisk (arguments.map String.toList)
