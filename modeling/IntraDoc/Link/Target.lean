import IntraDoc.Link.Hosted
import IntraDoc.Options

/-!
# Link targets

A target is read as a page on a documentation host, if the options ask for it, and otherwise as a
relative path. A target that neither reading recognises is kept as it is.
-/

namespace IntraDoc

/-- A target of no known shape. -/
structure UnclassifiableTarget where
  /-- The target as it was written. -/
  target : Text
deriving DecidableEq, Repr

namespace UnclassifiableTarget

/-- What is said about the target. -/
def message (error : UnclassifiableTarget) : Text :=
  "Cannot classify link target '".toList ++ error.target ++ "'.".toList

end UnclassifiableTarget

namespace DocLink

/-- Reads a path on a documentation host, when such paths are read at all. -/
def ofHostedWith? (path : LinkPath) (options : Options) : Option DocLink :=
  if options.hosted then ofHosted? path options.crateName else none

/-- Reads a target under the given options. -/
def ofTarget? (target : Text) (options : Options) : Option DocLink :=
  let path := LinkPath.parse target
  (ofHostedWith? path options).or (ofRelative? path options.crateName)

/-- Takes a target apart, or says that it has no known shape. -/
def classify (target : Text) (options : Options) : Except UnclassifiableTarget DocLink :=
  match ofTarget? target options with
  | some link => .ok link
  | none => .error ⟨target⟩

end DocLink

end IntraDoc
