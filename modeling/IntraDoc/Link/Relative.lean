import IntraDoc.Link.Page
import IntraDoc.Link.Path

/-!
# Relative targets

A relative target is read by the first of four readers that recognises it: a bare associated item,
an anchor, the page of an item, a module. All but the first leave the components before the page
name to `DocLink.withLead?`, which turns them into a start and modules.
-/

namespace IntraDoc

namespace DocLink

/-- The names of the components, when all of them are identifiers. -/
def moduleNames? : List Component → Option (List Text)
  | [] => some []
  | .named name :: rest =>
    if isIdentifier name then (moduleNames? rest).map (name :: ·) else none
  | _ :: _ => none

/-- The link with this start and finish, when the components between are modules. -/
def through? (start : Start) (between : List Component) (finish : Finish) : Option DocLink :=
  (moduleNames? between).map fun modules => ⟨start, modules, finish⟩

/--
The link whose finish is reached through the components of a path. Steps up come first; after
them the crate's own name leads to its root. Without steps up the first component may be `.` or a
module beside the current one. A component that is none of these must be an identifier.
-/
def withLead? (path : LinkPath) (finish : Finish) (crateName : Text) : Option DocLink :=
  let ups := path.components.takeWhile (· = .up)
  match path.components.dropWhile (· = .up) with
  | [] => some ⟨if ups.isEmpty then .empty else .supers ups.length, [], finish⟩
  | .here :: rest => through? .here rest finish
  | .root :: _ => none
  | first :: rest =>
    if first = .named crateName then through? .crate rest finish
    else if ups.isEmpty then
      match first with
      | .named name => if isIdentifier name then through? (.sibling name) rest finish else none
      | _ => none
    else through? (.supers ups.length) (first :: rest) finish

/-- Reads `#kind.name`, possibly after `./`. -/
def ofAssociated? (path : LinkPath) : Option DocLink :=
  let page? : Option Text :=
    match path.components with
    | [.named name] => some name
    | [.here, .named name] => some name
    | _ => none
  (page?.bind fun name => Page.associated? (Text.chomp name)).map fun (kind, name) =>
    ⟨.here, [], .associated (.ofKind kind) name⟩

/-- Reads `#anchor` after any path, unless it is a bare associated item. -/
def ofAnchor? (path : LinkPath) (crateName : Text) : Option DocLink :=
  if (ofAssociated? path).isSome then none
  else
    match path.fileName?.bind fun name => Page.anchor? (Text.chomp name) with
    | none => none
    | some anchor =>
      if path.parent.components.isEmpty then some ⟨.here, [], .anchor anchor⟩
      else withLead? path.parent (.anchor anchor) crateName

/-- Reads the page of an item after any path. -/
def ofItem? (path : LinkPath) (crateName : Text) : Option DocLink :=
  (path.fileName?.bind fun name => Page.item? (Text.chomp name)).bind fun finish =>
    withLead? path.parent finish crateName

/--
Reads a bare `index.html`, which names the directory that holds it. The crate's own directory is
the root of the crate wherever it is, as long as what leads to it can be read.
-/
def ofIndex? (directory : LinkPath) (crateName : Text) : Option DocLink :=
  let self : Finish := .mod "self".toList none
  match directory.components.getLast? with
  | none => withLead? directory.parent self crateName
  | some .here => withLead? directory.parent self crateName
  | some .up => withLead? directory.parent (.mod "super".toList none) crateName
  | some .root => none
  | some (.named name) =>
    if name = crateName then
      let crate : Finish := .mod "crate".toList none
      (withLead? directory.parent crate crateName).map fun _ => ⟨.empty, [], crate⟩
    else if isIdentifier name then withLead? directory.parent (.mod name none) crateName
    else none

/-- Reads the index page of a module or its bare name, possibly with an anchor. -/
def ofModule? (path : LinkPath) (crateName : Text) : Option DocLink :=
  path.fileName?.bind fun last =>
    match Page.index? (Text.chomp last) with
    | some none => ofIndex? path.parent crateName
    | some (some anchor) =>
      if path.components.length = 1 then
        withLead? path.parent (.mod "self".toList (some anchor)) crateName
      else withLead? path.parent (.anchor anchor) crateName
    | none =>
      (Page.bareModule? (Text.chomp last)).bind fun (name, anchor) =>
        withLead? path.parent (.mod name anchor) crateName

/-- Reads a relative target. -/
def ofRelative? (path : LinkPath) (crateName : Text) : Option DocLink :=
  (ofAssociated? path).or <| (ofAnchor? path crateName).or <| (ofItem? path crateName).or <|
    ofModule? path crateName

end DocLink

end IntraDoc
