import IntraDoc.Data.Yaml.Schema
import IntraDoc.Data.Yaml.Token

/-!
# Nodes of YAML

The tokens of a document make up one node: a scalar, a sequence or a mapping, each with its kind. An
alias is the node that its anchor names. It may stand inside of that node; the nodes of a document
are still finite then, because such an alias only says which of the nodes around it is meant. Tokens
that make up no node, or more than one document, are refused.
-/

namespace IntraDoc

namespace Yaml

/-- A node. -/
inductive Node where
  /-- A scalar. -/
  | scalar (kind : Kind) (value : Text)
  /-- A sequence. -/
  | sequence (kind : Kind) (items : List Node)
  /-- A mapping. -/
  | mapping (kind : Kind) (entries : List (Node × Node))
  /-- A sequence or mapping with the number by which aliases inside of it mean it. -/
  | numbered (number : Nat) (node : Node)
  /-- An alias for the node around it that has a number. -/
  | around (number : Nat)
  /-- The sequence or mapping that this place is inside of. -/
  | enclosing (isMapping : Bool)

namespace Node

/-- The node of a place where nothing is written. -/
def empty : Node := .scalar .null []

/-- Whether the node is a mapping. -/
def isMapping : Node → Bool
  | mapping _ _ => true
  | enclosing isMapping => isMapping
  | numbered _ node => node.isMapping
  | _ => false

/-- The depth at which the values of a document are shown. -/
def shownDepth : Nat := 3

/--
The node with what its aliases mean in place of them. From the depth at which values are shown, a
node that is inside of itself is cut short there. `outer` are the nodes around it, and `entered` the
numbers of those that are shown.
-/
def unfold : (fuel depth : Nat) → (outer : List (Nat × Node)) → (entered : List Nat) → Node → Node
  | 0, _, _, _, _ => empty
  | fuel + 1, depth, outer, entered, node =>
    let enter (number : Nat) (outer : List (Nat × Node)) (node : Node) : Node :=
      if entered.contains number then .enclosing node.isMapping
      else if depth < shownDepth then unfold fuel depth outer entered node
      else unfold fuel depth outer (number :: entered) node
    match node with
    | scalar kind value => .scalar kind value
    | sequence kind items => .sequence kind (items.map (unfold fuel (depth + 1) outer entered))
    | mapping kind entries =>
      .mapping kind (entries.map fun (key, value) =>
        (unfold fuel (depth + 1) outer entered key, unfold fuel (depth + 1) outer entered value))
    | numbered number node => enter number ((number, node) :: outer) node
    | around number =>
      match outer.lookup number with
      | some node => enter number outer node
      | none => empty
    | enclosing isMapping => .enclosing isMapping

end Node

/-- What a document says about itself. -/
structure Prologue where
  /-- The version of the rules that it is written to. -/
  version : Option (Nat × Nat) := none
  /-- What the handles of its tags stand for. -/
  handles : List (Text × Text) := []

namespace Prologue

/-- The handles that every document has unless it redefines them. -/
def commonHandles : List (Text × Text) :=
  [("!".toList, "!".toList), ("!!".toList, commonTags)]

/-- Whether the document is written to the older rules. -/
def isOld (prologue : Prologue) : Bool :=
  prologue.version = some (1, 1)

/-- The kind of a plain scalar; the version must be a known one. -/
def plainKind (prologue : Prologue) (value : Text) : Except Error Kind :=
  match prologue.version with
  | some (major, minor) =>
    if minor = 1 || minor = 2 then .ok (Kind.ofPlain prologue.isOld value)
    else .error (.version major minor)
  | none => .ok (Kind.ofPlain false value)

/-- The tag that a handle and a name make up. -/
def tag (prologue : Prologue) (handle : Option Text) (name : Text) : Except Error Text :=
  match handle with
  | none => .ok name
  | some handle =>
    match (prologue.handles ++ commonHandles).lookup handle with
    | some start => .ok (start ++ name)
    | none => .error .malformed

/-- What a document says about itself, with one more directive. -/
def add (prologue : Prologue) : Directive → Except Error Prologue
  | .version major minor =>
    if prologue.version.isSome || major ≠ 1 then .error .malformed
    else .ok { prologue with version := some (major, minor) }
  | .handle name start =>
    if (prologue.handles.lookup name).isSome then .error .malformed
    else .ok { prologue with handles := prologue.handles ++ [(name, start)] }
  | .other => .ok prologue

end Prologue

/-- What is left to read: the tokens, and the nodes that anchors name. -/
structure Remaining where
  /-- What the document says about itself. -/
  prologue : Prologue
  /-- The tokens that follow. -/
  tokens : List Token
  /-- The nodes with an anchor, the last one first. -/
  anchors : List (Text × Node) := []
  /-- The number of the next collection. -/
  next : Nat := 0

namespace Remaining

/-- What is left behind these tokens. -/
def at' (remaining : Remaining) (tokens : List Token) : Remaining :=
  { remaining with tokens := tokens }

/-- What is left inside a collection, which aliases can mean from now on if it has an anchor. -/
def enter (remaining : Remaining) (anchor : Option Text) : Remaining :=
  let named := (anchor.map fun name => (name, Node.around remaining.next)).toList
  { remaining with anchors := named ++ remaining.anchors, next := remaining.next + 1 }

/-- A collection that has been read, which is what its anchor names behind it. -/
def leave (remaining : Remaining) (number : Nat) (node : Node) : Node × Remaining :=
  let node := .numbered number node
  (node, { remaining with
    anchors := remaining.anchors.map fun (name, found) =>
      match found with
      | .around other => (name, if other = number then node else found)
      | _ => (name, found) })

end Remaining

/-- The anchor and the tag in front of a node, in either order, and the tokens behind them. -/
def properties (prologue : Prologue) :
    List Token → Except Error (Option Text × Option Text × List Token)
  | .anchor anchor :: .tag handle name :: tokens =>
    (prologue.tag handle name).map fun tag => (some anchor, some tag, tokens)
  | .tag handle name :: .anchor anchor :: tokens =>
    (prologue.tag handle name).map fun tag => (some anchor, some tag, tokens)
  | .anchor anchor :: tokens => .ok (some anchor, none, tokens)
  | .tag handle name :: tokens =>
    (prologue.tag handle name).map fun tag => (none, some tag, tokens)
  | tokens => .ok (none, none, tokens)

/-- The tag of a node that has its usual kind in spite of it. -/
def plainTag : Text := "!".toList

/-- The kind of a collection: the usual one unless a tag names another. -/
def collectionKind (usual : Kind) : Option Text → Kind
  | none => usual
  | some tag => if tag = plainTag then usual else Kind.ofTag tag

/-- A scalar with its kind. -/
def scalarNode (prologue : Prologue) (tag : Option Text) (value : Text) (plain : Bool) :
    Except Error Node :=
  match tag with
  | none =>
    if plain then (prologue.plainKind value).map fun kind => .scalar kind value
    else .ok (.scalar .text value)
  | some tag =>
    if tag = plainTag then (prologue.plainKind value).map fun kind => .scalar kind value
    else .ok (.scalar (Kind.ofTag tag) value)

/-- Whether a value is left out before these tokens of a block. -/
def endsBlockValue : List Token → Bool
  | .key :: _ => true
  | .value :: _ => true
  | .blockEnd :: _ => true
  | _ => false

/-- Whether an entry of a sequence is left out before these tokens. -/
def endsEntry : List Token → Bool
  | .blockEntry :: _ => true
  | .blockEnd :: _ => true
  | _ => false

/-- Whether an entry of a sequence without indentation is left out before these tokens. -/
def endsIndentless : List Token → Bool
  | .blockEntry :: _ => true
  | tokens => endsBlockValue tokens

/-- Whether a value is left out before these tokens, up to a comma or a closing mark. -/
def endsFlowValue (closing : Token) : List Token → Bool
  | [] => true
  | token :: _ => token = .flowEntry || token = closing || token = .value

mutual

/--
Reads a node. `block` says whether blocks are allowed, `indentless` whether a sequence may begin
without indentation.
-/
def readNode (block indentless : Bool) : (fuel : Nat) → Remaining → Except Error (Node × Remaining)
  | 0, _ => .error .malformed
  | fuel + 1, remaining =>
    match remaining.tokens with
    | .alias name :: tokens =>
      match remaining.anchors.lookup name with
      | some node => .ok (node, remaining.at' tokens)
      | none => .error .malformed
    | _ => do
      let (anchor, tag, tokens) ← properties remaining.prologue remaining.tokens
      let number := remaining.next
      let outer := remaining.at' tokens
      let inner (tokens : List Token) : Remaining := (outer.enter anchor).at' tokens
      let sequence (result : Except Error (List Node × Remaining)) :
          Except Error (Node × Remaining) :=
        result.map fun (items, rest) =>
          rest.leave number (.sequence (collectionKind .list tag) items)
      let mapping (result : Except Error (List (Node × Node) × Remaining)) :
          Except Error (Node × Remaining) :=
        result.map fun (entries, rest) =>
          rest.leave number (.mapping (collectionKind .table tag) entries)
      let scalar (value : Text) (plain : Bool) (tokens : List Token) :
          Except Error (Node × Remaining) :=
        (scalarNode remaining.prologue tag value plain).map fun node =>
          let anchors := (anchor.map fun name => (name, node)).toList ++ outer.anchors
          (node, { (outer.at' tokens) with anchors := anchors })
      let missing : Except Error (Node × Remaining) :=
        if anchor.isSome || tag.isSome then scalar [] true tokens else .error .malformed
      match tokens with
      | .scalar value plain :: tokens => scalar value plain tokens
      | .flowSequenceStart :: tokens => sequence (readFlowItems fuel (inner tokens))
      | .flowMappingStart :: tokens => mapping (readFlowEntries fuel (inner tokens))
      | .blockEntry :: _ =>
        if indentless then sequence (readIndentless fuel (inner tokens)) else missing
      | .blockSequenceStart :: rest =>
        if block then sequence (readBlockItems fuel (inner rest)) else missing
      | .blockMappingStart :: rest =>
        if block then mapping (readBlockEntries fuel (inner rest)) else missing
      | _ => missing

/-- Reads the entries of an indented sequence up to its end. -/
def readBlockItems : (fuel : Nat) → Remaining → Except Error (List Node × Remaining)
  | 0, _ => .error .malformed
  | fuel + 1, remaining =>
    match remaining.tokens with
    | .blockEnd :: tokens => .ok ([], remaining.at' tokens)
    | .blockEntry :: tokens => do
      let (item, rest) ←
        if endsEntry tokens then .ok (Node.empty, remaining.at' tokens)
        else readNode true false fuel (remaining.at' tokens)
      let (items, rest) ← readBlockItems fuel rest
      return (item :: items, rest)
    | _ => .error .malformed

/-- Reads the entries of a sequence without indentation. -/
def readIndentless : (fuel : Nat) → Remaining → Except Error (List Node × Remaining)
  | 0, _ => .error .malformed
  | fuel + 1, remaining =>
    match remaining.tokens with
    | .blockEntry :: tokens => do
      let (item, rest) ←
        if endsIndentless tokens then .ok (Node.empty, remaining.at' tokens)
        else readNode true false fuel (remaining.at' tokens)
      let (items, rest) ← readIndentless fuel rest
      return (item :: items, rest)
    | _ => .ok ([], remaining)

/-- Reads the entries of an indented mapping up to its end. -/
def readBlockEntries : (fuel : Nat) → Remaining → Except Error (List (Node × Node) × Remaining)
  | 0, _ => .error .malformed
  | fuel + 1, remaining =>
    match remaining.tokens with
    | .blockEnd :: tokens => .ok ([], remaining.at' tokens)
    | .key :: tokens => do
      let (key, rest) ←
        if endsBlockValue tokens then .ok (Node.empty, remaining.at' tokens)
        else readNode true true fuel (remaining.at' tokens)
      let (value, rest) ← readBlockValue fuel rest
      let (entries, rest) ← readBlockEntries fuel rest
      return ((key, value) :: entries, rest)
    | .value :: _ => do
      let (value, rest) ← readBlockValue fuel remaining
      let (entries, rest) ← readBlockEntries fuel rest
      return ((Node.empty, value) :: entries, rest)
    | _ => .error .malformed

/-- Reads the value of a key in an indented mapping, if there is one. -/
def readBlockValue : (fuel : Nat) → Remaining → Except Error (Node × Remaining)
  | 0, _ => .error .malformed
  | fuel + 1, remaining =>
    match remaining.tokens with
    | .value :: tokens =>
      if endsBlockValue tokens then .ok (Node.empty, remaining.at' tokens)
      else readNode true true fuel (remaining.at' tokens)
    | _ => .ok (Node.empty, remaining)

/-- Reads the value of a key between brackets or braces, if there is one. -/
def readFlowValue (closing : Token) : (fuel : Nat) → Remaining → Except Error (Node × Remaining)
  | 0, _ => .error .malformed
  | fuel + 1, remaining =>
    match remaining.tokens with
    | .value :: tokens =>
      if endsFlowValue closing tokens then .ok (Node.empty, remaining.at' tokens)
      else readNode false false fuel (remaining.at' tokens)
    | _ => .ok (Node.empty, remaining)

/-- Reads the items of a sequence in brackets. -/
def readFlowItems : (fuel : Nat) → Remaining → Except Error (List Node × Remaining)
  | 0, _ => .error .malformed
  | fuel + 1, remaining =>
    match remaining.tokens with
    | .flowSequenceEnd :: tokens => .ok ([], remaining.at' tokens)
    | .key :: tokens => do
      let (key, rest) ←
        if endsFlowValue .flowSequenceEnd tokens then .ok (Node.empty, remaining.at' tokens)
        else readNode false false fuel (remaining.at' tokens)
      let (value, rest) ← readFlowValue .flowSequenceEnd fuel rest
      readMoreItems fuel (.mapping .table [(key, value)]) rest
    | _ => do
      let (item, rest) ← readNode false false fuel remaining
      readMoreItems fuel item rest

/-- Reads what follows an item of a sequence in brackets. -/
def readMoreItems : (fuel : Nat) → Node → Remaining → Except Error (List Node × Remaining)
  | 0, _, _ => .error .malformed
  | fuel + 1, item, remaining =>
    match remaining.tokens with
    | .flowSequenceEnd :: tokens => .ok ([item], remaining.at' tokens)
    | .flowEntry :: tokens => do
      let (items, rest) ← readFlowItems fuel (remaining.at' tokens)
      return (item :: items, rest)
    | _ => .error .malformed

/-- Reads the entries of a mapping in braces. -/
def readFlowEntries : (fuel : Nat) → Remaining → Except Error (List (Node × Node) × Remaining)
  | 0, _ => .error .malformed
  | fuel + 1, remaining =>
    match remaining.tokens with
    | .flowMappingEnd :: tokens => .ok ([], remaining.at' tokens)
    | .key :: tokens => do
      let (key, rest) ←
        if endsFlowValue .flowMappingEnd tokens then .ok (Node.empty, remaining.at' tokens)
        else readNode false false fuel (remaining.at' tokens)
      let (value, rest) ← readFlowValue .flowMappingEnd fuel rest
      readMoreEntries fuel (key, value) rest
    | .value :: _ => do
      let (value, rest) ← readFlowValue .flowMappingEnd fuel remaining
      readMoreEntries fuel (Node.empty, value) rest
    | _ => do
      let (key, rest) ← readNode false false fuel remaining
      readMoreEntries fuel (key, Node.empty) rest

/-- Reads what follows an entry of a mapping in braces. -/
def readMoreEntries :
    (fuel : Nat) → Node × Node → Remaining → Except Error (List (Node × Node) × Remaining)
  | 0, _, _ => .error .malformed
  | fuel + 1, entry, remaining =>
    match remaining.tokens with
    | .flowMappingEnd :: tokens => .ok ([entry], remaining.at' tokens)
    | .flowEntry :: tokens => do
      let (entries, rest) ← readFlowEntries fuel (remaining.at' tokens)
      return (entry :: entries, rest)
    | _ => .error .malformed

end

/-- What the directives in front of a document say, and the tokens behind them. -/
def readPrologue (prologue : Prologue) : List Token → Except Error (Prologue × List Token)
  | .directive directive :: tokens => do
    let prologue ← prologue.add directive
    readPrologue prologue tokens
  | tokens => .ok (prologue, tokens)

/-- Whether a document has no content before these tokens. -/
def isBare : List Token → Bool
  | [] => true
  | .documentStart :: _ => true
  | .documentEnd :: _ => true
  | .directive _ :: _ => true
  | _ => false

/-- Whether nothing follows a document but its end; the older rules allow several end marks. -/
def isEnd (prologue : Prologue) (tokens : List Token) : Bool :=
  if prologue.isOld then tokens.all (· = .documentEnd)
  else tokens = [] || tokens = [.documentEnd]

/-- Reads the content of a document, behind which there must be nothing else. -/
def readContent (prologue : Prologue) (tokens : List Token) : Except Error (Node × Prologue) := do
  let (node, rest) ← readNode true false (4 * tokens.length + 4) ⟨prologue, tokens, [], 0⟩
  if isEnd prologue rest.tokens then
    .ok (node.unfold ((tokens.length + 2) * (tokens.length + 2)) 0 [] [], prologue)
  else .error .malformed

/--
The node of the only document that the tokens make up, and what the document says about itself; no
tokens make up an empty one. Directives need a mark where the document starts.
-/
def nodeOf (tokens : List Token) : Except Error (Node × Prologue) := do
  let (prologue, content) ← readPrologue {} tokens
  match content with
  | .documentStart :: content =>
    if isBare content then
      if isEnd prologue content then .ok (Node.empty, prologue) else .error .malformed
    else readContent prologue content
  | [] => if tokens.isEmpty then .ok (Node.empty, prologue) else .error .malformed
  | content => if content = tokens then readContent prologue content else .error .malformed

end Yaml

end IntraDoc
