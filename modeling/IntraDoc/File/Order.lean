import IntraDoc.File.Path

/-!
# The order of file paths

Paths are listed by their parts: the first part that differs decides, by the first character that
differs, and a path comes before the paths below it.
-/

namespace IntraDoc

/-- Whether a text comes before another or is equal to it, by code points. -/
def Text.le : Text → Text → Bool
  | [], _ => true
  | _ :: _, [] => false
  | char :: rest, char' :: rest' => char < char' || (char = char' && Text.le rest rest')

namespace FilePath

/-- Whether a list of parts comes before another or is equal to it. -/
def partsLe : List Text → List Text → Bool
  | [], _ => true
  | _ :: _, [] => false
  | part :: parts, part' :: parts' =>
    if part = part' then partsLe parts parts' else Text.le part part'

/-- Whether a path comes before another or is equal to it. -/
def le (path path' : FilePath) : Bool :=
  partsLe path.parts path'.parts

/-- The paths in order. -/
def sort (paths : List FilePath) : List FilePath :=
  paths.mergeSort le

end FilePath

end IntraDoc
