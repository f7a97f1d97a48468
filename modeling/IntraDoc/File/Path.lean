import IntraDoc.Text.Basic

/-!
# File paths

A file path is a root, or none for a relative path, and the names below it. Repeated slashes, `.`
and a final slash mean nothing; `..` stays until the path is resolved. Exactly two slashes in front
are a root of their own, which a resolved path does not keep.
-/

namespace IntraDoc

/-- What a file path begins with. -/
inductive PathRoot where
  /-- Nothing: the path is relative. -/
  | relative
  /-- One slash, or three and more slashes. -/
  | single
  /-- Two slashes. -/
  | double
deriving DecidableEq, Repr

/-- A path to a file or directory. -/
structure FilePath where
  /-- What the path begins with. -/
  root : PathRoot
  /-- The names below the root. -/
  names : List Text
deriving DecidableEq, Repr

/-- Why no file can be at a path. -/
inductive PathError where
  /-- A name holds the character that ends every name. -/
  | nullByte
deriving DecidableEq, Repr

/-- What is said about the path. -/
def PathError.message : PathError → Text
  | nullByte => "embedded null byte".toList

namespace FilePath

/-- The root that a text begins with. -/
def rootOf : Text → PathRoot
  | '/' :: '/' :: '/' :: _ => .single
  | '/' :: '/' :: _ => .double
  | '/' :: _ => .single
  | _ => .relative

/-- Whether a segment of a path means a name. -/
def isName (segment : Text) : Bool :=
  !segment.isEmpty && segment ≠ ['.']

/-- The path that a text spells. -/
def parse (raw : Text) : FilePath :=
  ⟨rootOf raw, (Text.splitOn '/' raw).filter isName⟩

/-- The root as it is written. -/
def rootText : PathRoot → Text
  | .relative => []
  | .single => ['/']
  | .double => ['/', '/']

/-- The path as it is written; a path without parts is `.`. -/
def text (path : FilePath) : Text :=
  if path.root = .relative && path.names.isEmpty then ['.']
  else rootText path.root ++ Text.joinWith ['/'] path.names

/-- The root, if there is one, and the names: what two paths are compared by. -/
def parts (path : FilePath) : List Text :=
  if path.root = .relative then path.names else rootText path.root :: path.names

/-- Whether a file can be at the path: no name holds the null character, which ends every name. -/
def isUsable (path : FilePath) : Bool :=
  !path.names.any fun name => name.contains '\x00'

/-- Whether the path begins at a root. -/
def isAbsolute (path : FilePath) : Bool :=
  path.root ≠ .relative

/-- The path to something below a directory. -/
def child (directory : FilePath) (name : Text) : FilePath :=
  ⟨directory.root, directory.names ++ [name]⟩

/-- A path read from a directory: an absolute one stays as it is. -/
def join (directory path : FilePath) : FilePath :=
  if path.isAbsolute then path else ⟨directory.root, directory.names ++ path.names⟩

/-- The directory that holds what the path leads to. -/
def parent (path : FilePath) : FilePath :=
  ⟨path.root, path.names.dropLast⟩

/-- The names with every `..` taking back the name before it, below what was already walked. -/
def fold (walked : List Text) : List Text → List Text
  | [] => walked
  | name :: names =>
    if name = ['.', '.'] then fold walked.dropLast names else fold (walked ++ [name]) names

/-- The absolute path without `..`, from a working directory. -/
def resolve (working path : FilePath) : FilePath :=
  ⟨.single, fold [] (join working path).names⟩

/-- Whether the last parts of the path are the parts of `ending`, which has some. -/
def endsWith (path ending : FilePath) : Bool :=
  !ending.parts.isEmpty && ending.parts.isSuffixOf path.parts

/-- The path from a directory above, if that is one. -/
def relativeTo? (path directory : FilePath) : Option FilePath :=
  if path.root = directory.root && directory.names.isPrefixOf path.names then
    some ⟨.relative, path.names.drop directory.names.length⟩
  else none

/-- The last name behind its last dot, the dot included, if it is not the first character. -/
def suffix (path : FilePath) : Text :=
  match path.names.getLast? with
  | none => []
  | some name =>
    match Text.splitAtLast? '.' name with
    | some (stem, extension) =>
      if stem.isEmpty || extension.isEmpty then [] else '.' :: extension
    | none => []

end FilePath

end IntraDoc
