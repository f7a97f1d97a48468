import IntraDoc.Text.Basic

/-!
# Link paths

A link target is read as a slash-separated path, addresses of web pages included: the first
component of `https://docs.rs/regex` is `https:`. Empty segments are dropped, `.` is kept only as
the very first component, and a leading `/` is kept as a component of its own, so that rooted
targets can be recognised and refused.
-/

namespace IntraDoc

/-- A component of a link path. -/
inductive Component where
  /-- The leading `/`. -/
  | root
  /-- The leading `.`. -/
  | here
  /-- A step `..` to the parent. -/
  | up
  /-- Any other segment. -/
  | named (name : Text)
deriving DecidableEq, Repr

namespace Component

/-- The component as it is written. -/
def text : Component → Text
  | root => ['/']
  | here => ['.']
  | up => ['.', '.']
  | named name => name

/-- The component that a nonempty segment other than `.` stands for. -/
def ofSegment (segment : Text) : Component :=
  if segment = ['.', '.'] then up else named segment

/-- What the first segment of a path contributes. -/
def ofFirst? (segment : Text) : Option Component :=
  if segment.isEmpty then none
  else if segment = ['.'] then some here
  else some (ofSegment segment)

/-- What a later segment of a path contributes: a `.` there means nothing. -/
def ofLater? (segment : Text) : Option Component :=
  if segment.isEmpty || segment = ['.'] then none else some (ofSegment segment)

end Component

/-- A link target as the sequence of its components. -/
structure LinkPath where
  /-- The components, from left to right. -/
  components : List Component
deriving DecidableEq, Repr

namespace LinkPath

/-- Whether a text begins with a slash. -/
def isRooted : Text → Bool
  | '/' :: _ => true
  | _ => false

/-- The path that a target spells. -/
def parse (raw : Text) : LinkPath :=
  let marker := if isRooted raw then [Component.root] else []
  match Text.splitOn '/' raw with
  | [] => ⟨marker⟩
  | first :: others =>
    ⟨marker ++ (Component.ofFirst? first).toList ++ others.filterMap Component.ofLater?⟩

/-- The path as it is written. -/
def text (path : LinkPath) : Text :=
  match path.components with
  | .root :: rest => '/' :: Text.joinWith ['/'] (rest.map Component.text)
  | components => Text.joinWith ['/'] (components.map Component.text)

/-- Whether the path begins at the root. -/
def isAbsolute (path : LinkPath) : Bool :=
  path.components.head? = some .root

/-- The last component, when it names something. -/
def fileName? (path : LinkPath) : Option Text :=
  match path.components.getLast? with
  | some (.named name) => some name
  | _ => none

/-- The path without its last component. -/
def parent (path : LinkPath) : LinkPath :=
  ⟨path.components.dropLast⟩

/-- The first component. -/
def first? (path : LinkPath) : Option Component :=
  path.components.head?

/-- The path without its first `count` components. -/
def dropFirst (path : LinkPath) (count : Nat) : LinkPath :=
  ⟨path.components.drop count⟩

end LinkPath

end IntraDoc
