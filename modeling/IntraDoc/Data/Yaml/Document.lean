import IntraDoc.Data.Yaml.Node

/-!
# Documents of YAML

The value of a node follows from its kind. The keys of a mapping are distinct, unless others are
merged in by `<<`: those give way to the mapping's own keys, and the last value of a key counts.

Values are made in rounds: in each round, those of the items of all lists and tables of the round
before, and those of whole keys. When several things are wrong with a document, the one that is
found in the earliest round is reported.
-/

namespace IntraDoc

namespace Yaml

/-- What is wrong with a value, by rounds, and the first thing in each of them. -/
abbrev Faults := List (Option Error)

namespace Faults

/-- The faults of one value and then another. -/
def merge : Faults → Faults → Faults
  | [], others => others
  | faults, [] => faults
  | fault :: faults, other :: others => fault.or other :: merge faults others

/-- A fault of this round. -/
def now (error : Error) : Faults := [some error]

/-- Faults that are found one round later, unless all is done in this one. -/
def later (atOnce : Bool) (faults : Faults) : Faults :=
  if atOnce then faults else none :: faults

/-- The first of the faults. -/
def first? (faults : Faults) : Option Error :=
  faults.findSome? id

end Faults

/-- Something that was made of nodes, and what is wrong with it. -/
structure Made (α : Type) where
  /-- What was made. -/
  value : α
  /-- What is wrong with it. -/
  faults : Faults := []

namespace Made

/-- The value of a scalar. -/
def ofScalar (result : Except Error Value) : Made Value :=
  match result with
  | .ok value => { value := value }
  | .error error => { value := .null, faults := .now error }

/-- Nothing, because the notation is broken. -/
def malformed : Made Value :=
  { value := .null, faults := .now .malformed }

end Made

/-- An entry of a mapping. -/
structure MadeEntry where
  /-- The key. -/
  key : Made Value
  /-- The value. -/
  value : Made Value

/-- The entries of a mapping, those that are merged in apart. -/
structure MadeEntries where
  /-- The entries that are merged in. -/
  merged : List MadeEntry := []
  /-- The mapping's own entries. -/
  own : List MadeEntry := []
  /-- Whether something is merged in that cannot be, or twice. -/
  broken : Bool := false

namespace MadeEntries

/-- All entries, with those that are merged in first. -/
def all (entries : MadeEntries) : List MadeEntry :=
  entries.merged ++ entries.own

end MadeEntries

/-! ## Keys -/

/-- A value as a key: a list counts as a tuple, and a table or a set is no key. -/
def keyOf (key : Made Value) : Made Value :=
  match key.value with
  | .list items => { key with value := .tuple items }
  | .set _ => { key with faults := key.faults.merge (.now .malformed) }
  | .table _ => { key with faults := key.faults.merge (.now .malformed) }
  | .orderedTable _ => { key with faults := key.faults.merge (.now .malformed) }
  | .enclosing _ => { key with faults := key.faults.merge (.now .malformed) }
  | _ => key

mutual

/-- The sort of the first value in a key that cannot be in one. -/
def unhashable? : Value → Option Text
  | .tuple items => anyUnhashable? items
  | .list _ => some (Value.list []).sort
  | .set _ => some (Value.set []).sort
  | .table _ => some (Value.table []).sort
  | .orderedTable _ => some (Value.orderedTable []).sort
  | .enclosing isTable => some (Value.enclosing isTable).sort
  | _ => none

/-- The sort of the first of some values in a key that cannot be in one. -/
def anyUnhashable? : List Value → Option Text
  | [] => none
  | value :: values => (unhashable? value).or (anyUnhashable? values)

end

/-- What is wrong with looking up a key. -/
def lookupFaults (key : Value) : Faults :=
  match unhashable? key with
  | some sort => .now (.unhashable sort)
  | none => []

/-- Whether some entries have a key. -/
def hasKey (entries : List (Value × Value)) (key : Value) : Bool :=
  entries.any fun known => known.1.sameKey key

/-- The entries with one more, which replaces the value of an equal key. -/
def putEntry (entries : List (Value × Value)) (key value : Value) : List (Value × Value) :=
  if hasKey entries key then
    entries.map fun known => if known.1.sameKey key then (known.1, value) else known
  else entries ++ [(key, value)]

/-- The table of some entries, in which `distinct` says whether every key must be a new one. -/
def tableOf (distinct : Bool) (entries : List MadeEntry) : Made (List (Value × Value)) :=
  entries.foldl (fun table entry =>
    let key := keyOf entry.key
    let again := distinct && hasKey table.value key.value
    let faults :=
      (((table.faults.merge key.faults).merge entry.value.faults).merge
        (lookupFaults key.value)).merge (if again then .now .malformed else [])
    ⟨putEntry table.value key.value entry.value.value, faults⟩) ⟨[], []⟩

/-- The table of the entries of a mapping. -/
def mappingTable (entries : MadeEntries) : Made (List (Value × Value)) :=
  let table :=
    if entries.merged.isEmpty then tableOf true entries.own
    else tableOf false (entries.merged ++ entries.own)
  if entries.broken then { table with faults := Faults.merge (.now .malformed) table.faults }
  else table

/-- The table of a list of entries, in which every key must be a new one. -/
def orderedTableOf (entries : List MadeEntry) : Made (List (Value × Value)) :=
  entries.foldl (fun table entry =>
    let key := entry.key
    let again := hasKey table.value key.value
    let faults :=
      (((table.faults.merge key.faults).merge (lookupFaults key.value)).merge
        (if again then .now .repeatedKey else [])).merge entry.value.faults
    ⟨putEntry table.value key.value entry.value.value, faults⟩) ⟨[], []⟩

/-- The list of some entries. -/
def pairsOf (entries : List MadeEntry) : Made (List Value) :=
  entries.foldl (fun list entry =>
    ⟨list.value ++ [.tuple [entry.key.value, entry.value.value]],
      (list.faults.merge entry.key.faults).merge entry.value.faults⟩) ⟨[], []⟩

/-! ## Nodes -/

/-- The kind of a node that is a key. -/
def keyKind : Node → Kind
  | .scalar kind _ => kind
  | .sequence kind _ => kind
  | .mapping kind _ => kind
  | _ => .unknown

mutual

/-- The text of a scalar, or of the scalar that stands for a whole mapping. -/
def scalarText? : Node → Option Text
  | .scalar _ value => some value
  | .mapping _ entries => defaultText? entries
  | _ => none

/-- The text of the scalar under the key that stands for a whole mapping. -/
def defaultText? : List (Node × Node) → Option Text
  | [] => none
  | (key, value) :: entries =>
    if keyKind key = .default then scalarText? value else defaultText? entries

end

mutual

/-- The value of a node; `atOnce` says whether all of it is made in this round. -/
def valueOf (isOld atOnce : Bool) : Node → Made Value
  | .scalar kind value => .ofScalar (scalarValue isOld kind value)
  | .sequence kind items =>
    match kind with
    | .list =>
      let items := valuesOf isOld atOnce items
      ⟨.list items.value, .later atOnce items.faults⟩
    | .orderedTable =>
      match singleEntries? isOld atOnce items with
      | some entries =>
        let table := orderedTableOf entries
        ⟨.orderedTable table.value, .later atOnce table.faults⟩
      | none => .malformed
    | .pairs =>
      match singleEntries? isOld atOnce items with
      | some entries =>
        let list := pairsOf entries
        ⟨.list list.value, .later atOnce list.faults⟩
      | none => .malformed
    | _ => .malformed
  | .mapping kind entries =>
    match kind with
    | .table =>
      let table := mappingTable (entriesOf isOld atOnce entries)
      ⟨.table table.value, .later atOnce table.faults⟩
    | .set =>
      let table := mappingTable (entriesOf isOld atOnce entries)
      ⟨.set (table.value.map (·.1)), .later atOnce table.faults⟩
    | .moment => .malformed
    | kind =>
      match defaultText? entries with
      | some text => .ofScalar (scalarValue isOld kind text)
      | none => .malformed
  | .numbered _ node => valueOf isOld atOnce node
  | .around _ => { value := .null }
  | .enclosing isMapping => { value := .enclosing isMapping }

/-- The values of the items of a sequence. -/
def valuesOf (isOld atOnce : Bool) : List Node → Made (List Value)
  | [] => { value := [] }
  | node :: nodes =>
    let value := valueOf isOld atOnce node
    let values := valuesOf isOld atOnce nodes
    ⟨value.value :: values.value, value.faults.merge values.faults⟩

/-- The entries of mappings that have one each. -/
def singleEntries? (isOld atOnce : Bool) : List Node → Option (List MadeEntry)
  | [] => some []
  | .mapping _ [(key, value)] :: nodes =>
    (singleEntries? isOld atOnce nodes).map fun entries =>
      ⟨valueOf isOld atOnce key, valueOf isOld atOnce value⟩ :: entries
  | _ => none

/-- The entries of a mapping. -/
def entriesOf (isOld atOnce : Bool) : List (Node × Node) → MadeEntries
  | [] => {}
  | (key, node) :: rest =>
    let entries := entriesOf isOld atOnce rest
    if keyKind key = .merge then
      match mergedEntries? isOld atOnce node with
      | some [] => entries
      | some merged =>
        { entries with merged := merged, broken := entries.broken || !entries.merged.isEmpty }
      | none => { entries with broken := true }
    else
      let key : Made Value :=
        if keyKind key = .default then .ofScalar (Error.ofOption (scalarText? key) |>.map .text)
        else valueOf isOld true key
      { entries with own := ⟨key, valueOf isOld atOnce node⟩ :: entries.own }

/-- The entries that a node merges in: those of a mapping, or of several, the first one last. -/
def mergedEntries? (isOld atOnce : Bool) : Node → Option (List MadeEntry)
  | .mapping _ entries =>
    let entries := entriesOf isOld atOnce entries
    if entries.broken then none else some entries.all
  | .sequence _ nodes => allMergedEntries? isOld atOnce nodes
  | .enclosing true => some []
  | _ => none

/-- The entries that several mappings merge in, the first one last. -/
def allMergedEntries? (isOld atOnce : Bool) : List Node → Option (List MadeEntry)
  | [] => some []
  | .mapping _ entries :: nodes =>
    let entries := entriesOf isOld atOnce entries
    if entries.broken then none
    else (allMergedEntries? isOld atOnce nodes).map fun others => others ++ entries.all
  | _ => none

end

/-- The value of the document that a text spells. -/
def parse (text : Text) : Except Error Value := do
  let tokens ← tokensOf text
  let (node, prologue) ← nodeOf tokens
  let made := valueOf prologue.isOld false node
  match made.faults.first? with
  | some error => .error error
  | none => .ok made.value

end Yaml

end IntraDoc
