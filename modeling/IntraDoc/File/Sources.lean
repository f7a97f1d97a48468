import IntraDoc.File.Glob

/-!
# Source files

The sources at a path are the path itself, or every `.rs` file below it if it is a directory.
-/

namespace IntraDoc

/-- The pattern of all source files below a directory. -/
def sourcePattern : Glob.Pattern :=
  ⟨[.recursive, .wild [.any, .char '.', .char 'r', .char 's']], false⟩

/-- The source files at a path, in order. -/
def FileSystem.sourceFiles (system : FileSystem) (path : FilePath) : List FilePath :=
  if system.isDirectory path then (Glob.paths system path sourcePattern).filter system.isFile
  else [path]

end IntraDoc
