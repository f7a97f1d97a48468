import IntraDoc.Data.Toml.Document
import IntraDoc.Data.Yaml.Document
import IntraDoc.File.System
import IntraDoc.Ignore.Basic
import IntraDoc.Text.Lines

/-!
# Loading ignored links

The links to keep are listed in a document, in YAML if the name of its file says so and in TOML
otherwise. Its table `ignore` counts for every file; the key of any other table is the path of the
file that it counts for. A key of several parts is resolved against the directory of the document.
-/

namespace IntraDoc

/-- Why no ignored links can be loaded. -/
inductive IgnoreError where
  /-- There is no such file. -/
  | missing (path : FilePath)
  /-- The file cannot be read. -/
  | unreadable (error : FileError)
  /-- The file is no YAML document. -/
  | invalidYaml (path : FilePath)
  /-- The file is no TOML document. -/
  | invalidToml (path : FilePath)
  /-- The tables of a TOML document clash. -/
  | clash (error : Toml.Error)
  /-- Something in a YAML document means nothing. -/
  | meaningless (error : Yaml.Error)
  /-- The document is no table. -/
  | notTable (path : FilePath)
  /-- An entry of the document is no table. -/
  | sectionNotTable (key : Text)
  /-- An entry of such a table is no list. -/
  | targetsNotList (name key : Text)
  /-- A value is too long to be shown. -/
  | unshowable
  /-- The key of a table is a path that no file can have. -/
  | unusableKey (error : PathError)
deriving DecidableEq, Repr

namespace IgnoreError

/-- What is said about the failure. -/
def message : IgnoreError → Text
  | missing path => "Ignore file '".toList ++ path.text ++ "' not found.".toList
  | unreadable error => error.message
  | invalidYaml path => "Ignore file '".toList ++ path.text ++ "' is not valid YAML".toList
  | invalidToml path => "Ignore file '".toList ++ path.text ++ "' is not valid TOML".toList
  | clash error => error.message
  | meaningless error => error.message
  | notTable path =>
    "Ignore file '".toList ++ path.text ++ "' must contain a mapping at the top level.".toList
  | sectionNotTable key =>
    "Section '".toList ++ key ++ "' must map link names to lists of links.".toList
  | targetsNotList name key =>
    "Ignored links for '".toList ++ name ++ "' in '".toList ++ key ++ "' must be a list.".toList
  | unshowable => Value.unshowableMessage
  | unusableKey error => error.message

end IgnoreError

namespace IgnoreTable

/-- The key of the table that counts for every file. -/
def everywhereKey : Text := "ignore".toList

/-- Whether the name of a file says that it holds YAML. -/
def isYaml (path : FilePath) : Bool :=
  let suffix := path.suffix.map Char.toLower
  suffix = ".yaml".toList || suffix = ".yml".toList

/-- The entries of the document in a file; a YAML document that counts as nothing has none. -/
def readDocument (path : FilePath) (text : Text) :
    Except IgnoreError (List (Value × Value)) := do
  let value ←
    if isYaml path then
      match Yaml.parse text with
      | .ok value => .ok (if value.isVoid then .table [] else value)
      | .error .malformed => .error (.invalidYaml path)
      | .error error => .error (.meaningless error)
    else
      match Toml.parse text with
      | .ok value => .ok value
      | .error .malformed => .error (.invalidToml path)
      | .error error => .error (.clash error)
  match value.entries? with
  | some entries => .ok entries
  | none => .error (.notTable path)

/-- A value as it is shown by itself. -/
def shown (value : Value) : Except IgnoreError Text :=
  match value.display? with
  | some text => .ok text
  | none => .error .unshowable

/-- The links that the entries of a table list. -/
def linksOf (key : Text) : List (Value × Value) → TargetTable → Except IgnoreError TargetTable
  | [], table => .ok table
  | (name, .list targets) :: entries, table => do
    let targets ← targets.mapM shown
    let name ← shown name
    linksOf key entries (insertEntry name targets.eraseDups table)
  | (name, _) :: _, _ => do
    let name ← shown name
    .error (.targetsNotList name key)

/-- The links that an entry of the document lists. -/
def sectionLinks (key : Text) (payload : Value) : Except IgnoreError TargetTable :=
  match payload.entries? with
  | some entries => linksOf key entries []
  | none => .error (.sectionNotTable key)

/-- The path that a key means, seen from the directory of the document. -/
def resolveKey (directory : FilePath) (key : Text) : Except IgnoreError FilePath :=
  let path := FilePath.parse key
  if path.parts.length < 2 then .ok path
  else if path.isUsable then .ok (directory.resolve path)
  else .error (.unusableKey .nullByte)

/-- Whether a key is that of the table which counts for every file. -/
def isEverywhere : Value → Bool
  | .text key => key = everywhereKey
  | _ => false

/-- The ignored links with one more entry of the document. -/
def addSection (directory : FilePath) (table : IgnoreTable) (key payload : Value) :
    Except IgnoreError IgnoreTable := do
  let name ← shown key
  let links ← sectionLinks name payload
  if isEverywhere key then return { table with everywhere := links }
  else
    let path ← resolveKey directory name
    return { table with perFile := insertEntry path links table.perFile }

/-- The ignored links that the entries of a document list. -/
def ofEntries (directory : FilePath) :
    List (Value × Value) → IgnoreTable → Except IgnoreError IgnoreTable
  | [], table => .ok table
  | (key, payload) :: entries, table => do
    let table ← addSection directory table key payload
    ofEntries directory entries table

/-- The text of a document, with all its line breaks alike. -/
def readText (system : FileSystem) (path : FilePath) : Except IgnoreError Text :=
  match system.readText path with
  | .ok text => .ok (Text.unifyBreaks text)
  | .error error => .error (.unreadable error)

/-- Loads the ignored links that a file lists. -/
def load (system : FileSystem) (path : FilePath) : Except IgnoreError IgnoreTable := do
  if (system.find? path).isNone then .error (.missing path)
  else
    let text ← readText system path
    let entries ← readDocument path text
    ofEntries (system.workingPath.resolve path).parent entries {}

end IgnoreTable

end IntraDoc
