import IntraDoc.Data.Toml.Table
import IntraDoc.Text.Word

/-!
# Documents of TOML

A document begins with assignments; then tables follow, each with its header, its assignments and
the tables below it. A clash between tables at the top, or between the assignments before the first
header, makes the text malformed; a clash inside a table names the key that is given twice. A clash
between parts of a table that only shows when they are put together names the key as well.
-/

namespace IntraDoc

namespace Toml

/-- Whether a character may stand in a key without quotes. -/
def isBareKeyChar (char : Char) : Bool :=
  Text.isAsciiWord char || char = '-'

/-- Reads one name of a key. -/
def readName : Text → Except Error (Text × Text)
  | '"' :: rest => basicFrom 0 rest
  | '\'' :: rest => literalFrom rest
  | text =>
    let name := text.takeWhile isBareKeyChar
    if name.isEmpty then .error .malformed else .ok (name, text.dropWhile isBareKeyChar)

/-- Reads a key of at most `fuel` names with dots between, and the spaces behind it. -/
def readKey : (fuel : Nat) → Text → Except Error (List Text × Text)
  | 0, _ => .error .malformed
  | fuel + 1, text => do
    let (name, rest) ← readName (skipSpaces text)
    match skipSpaces rest with
    | '.' :: rest =>
      let (names, rest) ← readKey fuel rest
      .ok (name :: names, rest)
    | rest => .ok ([name], rest)

/-- Skips spaces, line breaks and comments; `inComment` says whether the text begins in one. -/
def skipTrivia (inComment : Bool) : Text → Except Error Text
  | [] => .ok []
  | char :: rest =>
    if char = '\n' then skipTrivia false rest
    else if inComment then
      if isControl char then .error .malformed else skipTrivia true rest
    else if isSpace char then skipTrivia false rest
    else if char = '#' then skipTrivia true rest
    else .ok (char :: rest)

/-- A bound on the depth of the tables that a text can spell. -/
def depthBound (text : Text) : Nat :=
  8 * text.length + 16

/-- The entries with one more assignment. -/
def assign (bound : Nat) (check : Bool) (entries : Entries) (keys : List Text) (value : Value) :
    Except Error Entries :=
  let (key, node) := nest (.leaf value) keys
  addEntry bound (check || key.isDotted) entries key node

mutual

/-- Reads a value. -/
def readValue : (fuel : Nat) → Text → Except Error (Value × Text)
  | 0, _ => .error .malformed
  | fuel + 1, text =>
    match text with
    | [] => .error .malformed
    | '[' :: rest => do
      let (items, rest) ← readItems fuel rest
      .ok (.list items, rest)
    | '{' :: rest => do
      let (entries, rest) ← readPairs fuel [] rest
      .ok (.table (← entryValues (depthBound text) entries), rest)
    | 't' :: 'r' :: 'u' :: 'e' :: rest => .ok (.bool true, rest)
    | 'f' :: 'a' :: 'l' :: 's' :: 'e' :: rest => .ok (.bool false, rest)
    | char :: _ =>
      if char = '"' || char = '\'' then
        (readString text).map fun (value, rest) => (.text value, rest)
      else readBare text

/-- Reads the items of a list up to its closing bracket. -/
def readItems : (fuel : Nat) → Text → Except Error (List Value × Text)
  | 0, _ => .error .malformed
  | fuel + 1, text => do
    match ← skipTrivia false text with
    | ']' :: rest => .ok ([], rest)
    | text =>
      let (item, rest) ← readValue fuel text
      match ← skipTrivia false rest with
      | ',' :: rest =>
        let (items, rest) ← readItems fuel rest
        .ok (item :: items, rest)
      | ']' :: rest => .ok ([item], rest)
      | _ => .error .malformed

/-- Reads the assignments of a table in braces up to its closing brace. -/
def readPairs : (fuel : Nat) → Entries → Text → Except Error (Entries × Text)
  | 0, _, _ => .error .malformed
  | fuel + 1, entries, text => do
    match ← skipTrivia false text with
    | '}' :: rest => .ok (entries, rest)
    | text =>
      let (keys, rest) ← readKey text.length text
      match rest with
      | '=' :: rest =>
        let (value, rest) ← readValue fuel (skipSpaces rest)
        let entries ← assign (depthBound text) true entries keys value
        match ← skipTrivia false rest with
        | ',' :: rest => readPairs fuel entries rest
        | '}' :: rest => .ok (entries, rest)
        | _ => .error .malformed
      | _ => .error .malformed

end

/-- Reads the end of a line: spaces, a comment, and a line break or the end of the text. -/
def readLineEnd (text : Text) : Except Error Text :=
  match skipSpaces text with
  | [] => .ok []
  | '\n' :: rest => .ok rest
  | '#' :: rest =>
    if (rest.takeWhile (· ≠ '\n')).any isControl then .error .malformed
    else .ok ((rest.dropWhile (· ≠ '\n')).drop 1)
  | _ => .error .malformed

/-- Reads an assignment: its key, its value, and what follows its line. -/
def readAssignment (text : Text) : Except Error (List Text × Value × Text) := do
  let (keys, rest) ← readKey text.length text
  match rest with
  | '=' :: rest =>
    let (value, rest) ← readValue (2 * text.length) (skipSpaces rest)
    .ok (keys, value, ← readLineEnd rest)
  | _ => .error .malformed

/-- The header of a table, or of an element of an array of tables. -/
structure Header where
  /-- Whether it is that of an element of an array. -/
  isArray : Bool
  /-- The key of the table. -/
  keys : List Text
deriving DecidableEq, Repr

/-- Reads a header without its closing brackets. -/
def readHeader : Text → Except Error (Header × Text)
  | '[' :: '[' :: rest => (readKey rest.length rest).map fun (keys, rest) => (⟨true, keys⟩, rest)
  | '[' :: rest => (readKey rest.length rest).map fun (keys, rest) => (⟨false, keys⟩, rest)
  | _ => .error .malformed

/-- Whether a key leads below another. -/
def isBelow (keys above : List Text) : Bool :=
  above.isPrefixOf keys && above.length < keys.length

/--
The entry that a table makes above which nothing but these names stands: the tables on the way are
implied. `arrays` are the arrays of tables that are being read.
-/
def entryOf (arrays : List (List Text)) (isArray : Bool) (entries : Entries) :
    List Text → Key × Node
  | [] => (⟨[], false⟩, .table false isArray entries)
  | [name] => (⟨name, false⟩, .table false isArray entries)
  | name :: names =>
    let rec below : List Text → Key × Node
      | [] => (⟨[], false⟩, .table false false entries)
      | [name] =>
        (⟨name, false⟩, if isArray then .array [entries] else .table false false entries)
      | name :: names => (⟨name, false⟩, .table true false [below names])
    (⟨name, false⟩, .table true (isArray && arrays.contains [name]) [below names])

mutual

/--
Reads a table below `above` from its header on: its entry in the table above, and what follows. The
first element of an array is followed by the others.
-/
def readTable (bound : Nat) :
    (fuel : Nat) → (above : List Text) → (arrays : List (List Text)) → Text →
      Except Error (Key × Node × Text)
  | 0, _, _, _ => .error .malformed
  | fuel + 1, above, arrays, text => do
    let (header, rest) ← readHeader text
    match Text.after? (if header.isArray then "]]".toList else "]".toList) rest with
    | none => .error .malformed
    | some rest =>
      let (entries, rest) ← readEntries bound fuel header.keys arrays [] (← readLineEnd rest)
      checkEntries bound entries
      let names := header.keys.drop above.length
      let (key, node) := entryOf arrays header.isArray entries names
      if names.length ≤ 1 && header.isArray && arrays.head? ≠ some header.keys then
        let (others, rest) ← readElements bound fuel header.keys (header.keys :: arrays) rest
        .ok (key, .array (entries :: others), rest)
      else .ok (key, node, rest)

/-- Reads the assignments of a table, and then the tables below it. -/
def readEntries (bound : Nat) :
    (fuel : Nat) → (keys : List Text) → (arrays : List (List Text)) → Entries → Text →
      Except Error (Entries × Text)
  | 0, _, _, _, _ => .error .malformed
  | fuel + 1, keys, arrays, entries, text => do
    match ← skipTrivia false text with
    | [] => .ok (entries, [])
    | '[' :: rest => readBelow bound fuel keys arrays entries ('[' :: rest)
    | text =>
      let (names, value, rest) ← readAssignment text
      let entries ← assign bound false entries names value
      readEntries bound fuel keys arrays entries rest

/-- Reads the tables below a table. -/
def readBelow (bound : Nat) :
    (fuel : Nat) → (keys : List Text) → (arrays : List (List Text)) → Entries → Text →
      Except Error (Entries × Text)
  | 0, _, _, _, _ => .error .malformed
  | fuel + 1, keys, arrays, entries, text => do
    if text.isEmpty then .ok (entries, [])
    else
      let (header, _) ← readHeader text
      if isBelow header.keys keys then
        let (key, node, rest) ← readTable bound fuel keys arrays text
        let entries ← addEntry bound false entries key node
        readBelow bound fuel keys arrays entries rest
      else .ok (entries, text)

/-- Reads the elements of an array that follow the first one. -/
def readElements (bound : Nat) :
    (fuel : Nat) → (keys : List Text) → (arrays : List (List Text)) → Text →
      Except Error (List Entries × Text)
  | 0, _, _, _ => .error .malformed
  | fuel + 1, keys, arrays, text => do
    if text.isEmpty then .ok ([], [])
    else
      let (header, _) ← readHeader text
      if header = ⟨true, keys⟩ then
        let (_, node, rest) ← readTable bound fuel keys arrays text
        let (others, rest) ← readElements bound fuel keys arrays rest
        .ok (node.entries :: others, rest)
      else .ok ([], text)

end

/-- Reports any clash as a malformed text. -/
def strict : Except Error α → Except Error α
  | .ok value => .ok value
  | .error _ => .error .malformed

/-- Reads the assignments before the first header. -/
def readTop (bound : Nat) : (fuel : Nat) → Entries → Text → Except Error (Entries × Text)
  | 0, _, _ => .error .malformed
  | fuel + 1, entries, text => do
    match ← skipTrivia false text with
    | [] => .ok (entries, [])
    | '[' :: rest => .ok (entries, '[' :: rest)
    | text =>
      let (keys, value, rest) ← readAssignment text
      let (key, node) := nest (.leaf value) keys
      let entries ← strict (append bound true entries key node)
      readTop bound fuel entries rest

/-- Reads the tables of a document. -/
def readTables (bound : Nat) : (fuel : Nat) → Entries → Text → Except Error Entries
  | 0, _, _ => .error .malformed
  | fuel + 1, entries, text => do
    if text.isEmpty then .ok entries
    else
      let (key, node, rest) ← readTable bound fuel [] [] text
      let entries ← strict (append bound true entries key node)
      readTables bound fuel entries rest

/-- The table that a document stands for. -/
def parse (text : Text) : Except Error Value := do
  let bound := depthBound text
  let (entries, rest) ← readTop bound (text.length + 1) [] text
  let entries ← readTables bound (2 * text.length + 2) entries rest
  .ok (.table (← entryValues bound entries))

end Toml

end IntraDoc
