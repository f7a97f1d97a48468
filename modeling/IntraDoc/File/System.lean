import IntraDoc.File.Path
import IntraDoc.Text.Quoted
import IntraDoc.Text.Utf8

/-!
# File systems

A file system maps the absolute places below the root to files and directories, and has a working
directory from which relative paths are read. A path is walked name by name through directories
that exist; `..` goes back one directory.
-/

namespace IntraDoc

/-- A file: its content, and whether it can be opened for writing. -/
structure FileContent where
  /-- The bytes of the file. -/
  bytes : Utf8.Bytes
  /-- Whether the file can be opened for writing. -/
  writable : Bool := true
deriving DecidableEq, Repr

/-- What is found at a place. -/
inductive Entry where
  /-- A file. -/
  | file (content : FileContent)
  /-- A directory. -/
  | directory
deriving DecidableEq, Repr

/-- A place: the names from the root down. -/
abbrev Place := List Text

/-- Why a file cannot be read or written. -/
inductive FileError where
  /-- There is nothing at the end of the path, or on the way. -/
  | notFound (path : FilePath)
  /-- The path leads through a file. -/
  | notDirectory (path : FilePath)
  /-- A file was expected. -/
  | isDirectory (path : FilePath)
  /-- The file cannot be opened for writing. -/
  | denied (path : FilePath)
  /-- The content is not UTF-8. -/
  | undecodable (error : Utf8.DecodeError)
deriving DecidableEq, Repr

namespace FileError

/-- What is said about the failure. -/
def message : FileError → Text
  | notFound path =>
    "[Errno 2] No such file or directory: ".toList ++ Text.quoted path.text
  | notDirectory path => "[Errno 20] Not a directory: ".toList ++ Text.quoted path.text
  | isDirectory path => "[Errno 21] Is a directory: ".toList ++ Text.quoted path.text
  | denied path => "[Errno 13] Permission denied: ".toList ++ Text.quoted path.text
  | undecodable error => error.message

end FileError

/-- The files and directories below the root. -/
structure FileSystem where
  /-- What is found where; the root itself is always a directory. -/
  entries : List (Place × Entry) := []
  /-- The working directory. -/
  working : Place := []
deriving DecidableEq, Repr

namespace FileSystem

/-- What is found at a place. -/
def entryAt (system : FileSystem) (place : Place) : Option Entry :=
  if place.isEmpty then some .directory else system.entries.lookup place

/-- The working directory as a path. -/
def workingPath (system : FileSystem) : FilePath :=
  ⟨.single, system.working⟩

/-- The place at the end of a walk, or what stops it. -/
def walk (system : FileSystem) (path : FilePath) (here : Place) :
    List Text → Except FileError Place
  | [] => if (system.entryAt here).isSome then .ok here else .error (.notFound path)
  | name :: names =>
    match system.entryAt here with
    | none => .error (.notFound path)
    | some (.file _) => .error (.notDirectory path)
    | some .directory =>
      if name = ['.', '.'] then system.walk path here.dropLast names
      else system.walk path (here ++ [name]) names

/-- The place that a path leads to. -/
def locate (system : FileSystem) (path : FilePath) : Except FileError Place :=
  system.walk path (if path.isAbsolute then [] else system.working) path.names

/-- What a path leads to, if it leads anywhere. -/
def find? (system : FileSystem) (path : FilePath) : Option Entry :=
  match system.locate path with
  | .ok place => system.entryAt place
  | .error _ => none

/-- Whether a path leads to a directory. -/
def isDirectory (system : FileSystem) (path : FilePath) : Bool :=
  system.find? path = some .directory

/-- Whether a path leads to a file. -/
def isFile (system : FileSystem) (path : FilePath) : Bool :=
  match system.find? path with
  | some (.file _) => true
  | _ => false

/-- The file at the end of a path, and its place. -/
def openFile (system : FileSystem) (path : FilePath) :
    Except FileError (Place × FileContent) := do
  let place ← system.locate path
  match system.entryAt place with
  | some (.file content) => .ok (place, content)
  | some .directory => .error (.isDirectory path)
  | none => .error (.notFound path)

/-- The text of the file at the end of a path. -/
def readText (system : FileSystem) (path : FilePath) : Except FileError Text := do
  let (_, content) ← system.openFile path
  match Utf8.decode content.bytes with
  | .ok text => .ok text
  | .error error => .error (.undecodable error)

/-- The same file system with other bytes at a place. -/
def store (system : FileSystem) (place : Place) (bytes : Utf8.Bytes) : FileSystem :=
  { system with
    entries := system.entries.map fun (found, entry) =>
      if found = place then
        match entry with
        | .file content => (found, .file { content with bytes := bytes })
        | .directory => (found, .directory)
      else (found, entry) }

/-- Writes a text to the file at the end of a path; a failure leaves everything as it is. -/
def writeText (system : FileSystem) (path : FilePath) (text : Text) :
    Except FileError FileSystem := do
  let (place, content) ← system.openFile path
  if content.writable then .ok (system.store place (Utf8.encode text)) else .error (.denied path)

/-- The names of what a directory holds directly. -/
def children (system : FileSystem) (directory : Place) : List Text :=
  system.entries.filterMap fun (place, _) =>
    if place.dropLast = directory then place.getLast? else none

/-- The same file system with an entry at a place, and directories on the way to it. -/
def insert (system : FileSystem) (place : Place) (entry : Entry) : FileSystem :=
  let above := (List.range place.length).map fun count => (place.take count, Entry.directory)
  let missing := above.filter fun (place, _) => (system.entryAt place).isNone
  let others := system.entries.filter fun (found, _) => found ≠ place
  { system with entries := others ++ missing ++ [(place, entry)] }

end FileSystem

end IntraDoc
