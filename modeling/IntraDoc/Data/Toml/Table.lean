import IntraDoc.Data.Toml.Scalar

/-!
# Tables of TOML

The tables of a document are put together from assignments and headers. A table that is only
implied, by a dotted key or by the header of a table inside it, may come in several parts, and then
its entry is there several times. The parts are put together when the document is complete; whether
they fit is checked as soon as a part is added.

Every function that works on parts has a bound `fuel` on the depth of the tables.
-/

namespace IntraDoc

namespace Toml

/-- A name under which something stands in a table. -/
structure Key where
  /-- The name. -/
  name : Text
  /-- Whether a dotted key goes on behind it. -/
  isDotted : Bool := false
deriving DecidableEq, Repr

/-- What stands under a key while a document is being put together. -/
inductive Node where
  /-- A finished value. -/
  | leaf (value : Value)
  /-- A table or a part of it, which may be only implied, or an element of an array. -/
  | table (isImplied isElement : Bool) (entries : List (Key × Node))
  /-- An array of tables, given by their entries. -/
  | array (elements : List (List (Key × Node)))

/-- The entries of a table that is being put together. -/
abbrev Entries := List (Key × Node)

namespace Node

/-- Whether the node is a table or a part of one. -/
def isTable : Node → Bool
  | table _ _ _ => true
  | _ => false

/-- The entries of a table; anything else has none. -/
def entries : Node → Entries
  | table _ _ entries => entries
  | _ => []

end Node

namespace Entries

/-- All that stands under a name, in order. -/
def nodes (entries : Entries) (name : Text) : List Node :=
  (entries.filter fun entry => entry.1.name = name).map (·.2)

/-- The last entry under a name. -/
def last? (entries : Entries) (name : Text) : Option (Key × Node) :=
  (entries.filter fun entry => entry.1.name = name).getLast?

/-- The entries with another node in the last one under a name. -/
def setLast (name : Text) (node : Node) : Entries → Entries
  | [] => []
  | (key, old) :: entries =>
    if key.name = name && !(entries.any fun entry => entry.1.name = name) then
      (key, node) :: entries
    else (key, old) :: setLast name node entries

/-- The names in the order in which they appear first. -/
def names (entries : Entries) : List Text :=
  (entries.map fun entry => entry.1.name).eraseDups

/-- The name of the last table. -/
def lastTable? (entries : Entries) : Option Text :=
  ((entries.filter fun entry => entry.2.isTable).getLast?).map fun entry => entry.1.name

/-- The entries with one more, which may only follow a table under the same name. -/
def push (entries : Entries) (key : Key) (node : Node) : Except Error Entries :=
  match entries.last? key.name with
  | none => .ok (entries ++ [(key, node)])
  | some (_, old) =>
    if old.isTable then .ok (entries ++ [(key, node)]) else .error (.duplicate key.name)

/-- The entries of the parts of a table one behind the other. -/
def ofParts (parts : List Node) : Except Error Entries :=
  (parts.flatMap Node.entries).foldlM (fun entries (key, node) => push entries key node) []

end Entries

mutual

/--
The entries with one more. The elements of an array come together, a table below an array goes into
its last element, and two implied tables in a row become one. Other parts of a table stay apart; if
`check` is set, they have to fit.
-/
def append : (fuel : Nat) → (check : Bool) → Entries → Key → Node → Except Error Entries
  | 0, _, _, _, _ => .error .malformed
  | fuel + 1, check, entries, key, node =>
    let clash : Except Error Entries := .error (.duplicate key.name)
    let apart : Except Error Entries := do
      let entries ← entries.push key node
      if check then checkParts fuel (entries.nodes key.name)
      .ok entries
    match entries.last? key.name, node with
    | none, _ => .ok (entries ++ [(key, node)])
    | some (_, .array earlier), .array elements =>
      .ok (entries.setLast key.name (.array (earlier ++ elements)))
    | some (_, .array earlier), .table isImplied isElement inner =>
      if isElement then .ok (entries.setLast key.name (.array (earlier ++ [inner])))
      else if isImplied && !key.isDotted then do
        let last ← addAll fuel (earlier.getLast?.getD []) inner
        .ok (entries.setLast key.name (.array (earlier.dropLast ++ [last])))
      else clash
    | some (oldKey, .table wasImplied wasElement old), .table isImplied isElement inner =>
      if isElement then .ok (entries.setLast key.name (.array [old, inner]))
      else if wasImplied then
        if isImplied then
          if key.isDotted || oldKey.isDotted || entries.lastTable? ≠ some key.name then apart
          else do
            let merged ← addAll fuel old inner
            .ok (entries.setLast key.name (.table wasImplied wasElement merged))
        else if oldKey.isDotted then .error .redefined
        else apart
      else if !isImplied || key.isDotted then clash
      else apart
    | some _, _ => clash

/-- The entries of a table with others, each of which has to fit. -/
def addAll : (fuel : Nat) → Entries → Entries → Except Error Entries
  | 0, _, _ => .error .malformed
  | fuel + 1, entries, others =>
    others.foldlM (fun entries (key, node) => do
      let entries ← append fuel true entries key node
      checkJoin fuel (entries.nodes key.name)
      .ok entries) entries

/-- Checks that the parts of a table fit. -/
def checkParts : (fuel : Nat) → List Node → Except Error Unit
  | 0, _ => .error .malformed
  | fuel + 1, parts =>
    if parts.length < 2 then .ok ()
    else do
      let entries ← (parts.flatMap Node.entries).foldlM (fun entries (key, node) =>
        append fuel false entries key node) []
      checkEntries fuel entries

/-- Checks that the parts of every table among the entries fit. -/
def checkEntries : (fuel : Nat) → Entries → Except Error Unit
  | 0, _ => .error .malformed
  | fuel + 1, entries => entries.names.forM fun name => checkParts fuel (entries.nodes name)

/-- The entries of a table that comes in several parts, which have to fit. -/
def join : (fuel : Nat) → List Node → Except Error Entries
  | 0, _ => .error .malformed
  | fuel + 1, parts => do
    let entries ← Entries.ofParts parts
    checkEntries fuel entries
    .ok entries

/-- Checks that what stands under a name can be put together. -/
def checkJoin : (fuel : Nat) → List Node → Except Error Unit
  | 0, _ => .error .malformed
  | fuel + 1, parts =>
    if parts.length < 2 then .ok () else (join fuel parts).map fun _ => ()

end

/-- The entries of a table with one more from its own lines; its parts have to fit at its end. -/
def addEntry (fuel : Nat) (check : Bool) (entries : Entries) (key : Key) (node : Node) :
    Except Error Entries := do
  let entries ← append fuel check entries key node
  checkJoin fuel (entries.nodes key.name)
  .ok entries

/-- A node below a dotted key, in tables that are only implied. -/
def nest (node : Node) : List Text → Key × Node
  | [] => (⟨[], false⟩, node)
  | [name] => (⟨name, false⟩, node)
  | name :: names => (⟨name, true⟩, .table true false [nest node names])

mutual

/-- The value that a node stands for. -/
def nodeValue : (fuel : Nat) → Node → Except Error Value
  | 0, _ => .error .malformed
  | fuel + 1, node =>
    match node with
    | .leaf value => .ok value
    | .table _ _ entries => (entryValues fuel entries).map .table
    | .array elements =>
      (elements.mapM fun entries => (entryValues fuel entries).map Value.table).map .list

/-- The values that the nodes of a table stand for, under their names. -/
def entryValues : (fuel : Nat) → Entries → Except Error (List (Value × Value))
  | 0, _ => .error .malformed
  | fuel + 1, entries =>
    entries.names.mapM fun name => do
      match entries.nodes name with
      | [node] => return (.text name, ← nodeValue fuel node)
      | parts =>
        let entries ← join fuel parts
        return (.text name, .table (← entryValues fuel entries))

end

end Toml

end IntraDoc
