import IntraDoc.File.Path

/-!
# Ignored links

Links that a conversion keeps as they are, listed by name and target: some in every file, some in
the files whose path ends in a given path.
-/

namespace IntraDoc

/-- The targets to keep, by the name of the link. -/
abbrev TargetTable := List (Text × List Text)

namespace TargetTable

/-- Whether a table lists the target for the name. -/
def lists (table : TargetTable) (name target : Text) : Bool :=
  match table.lookup name with
  | some targets => targets.contains target
  | none => false

end TargetTable

/-- The links to keep. -/
structure IgnoreTable where
  /-- Those of every file. -/
  everywhere : TargetTable := []
  /-- Those of the files whose path ends in the given one. -/
  perFile : List (FilePath × TargetTable) := []
deriving DecidableEq, Repr

namespace IgnoreTable

/-- Whether a link of a file is to be kept. -/
def ignores (table : IgnoreTable) (file : FilePath) (name target : Text) : Bool :=
  table.everywhere.lists name target ||
    table.perFile.any fun (path, links) => file.endsWith path && links.lists name target

end IgnoreTable

/-- The entries with one more: an equal key keeps its place and takes the new value. -/
def insertEntry [DecidableEq κ] (key : κ) (value : β) : List (κ × β) → List (κ × β)
  | [] => [(key, value)]
  | (found, old) :: entries =>
    if found = key then (key, value) :: entries else (found, old) :: insertEntry key value entries

end IntraDoc
