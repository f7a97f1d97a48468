import IntraDoc.Data.Yaml.Scalar
import IntraDoc.Text.Utf8
import IntraDoc.Text.Word

/-!
# Tokens of YAML

A document is read as a sequence of tokens. Besides what is written, the tokens say where the
blocks that indentation makes begin and end, and which scalars and collections are keys: a key is
known as one only when the `:` behind it is reached, so its token is put in front of it then.
-/

namespace IntraDoc

namespace Yaml

/-- What a directive says about a document. -/
inductive Directive where
  /-- The version of the rules that it is written to. -/
  | version (major minor : Nat)
  /-- What a handle of tags stands for. -/
  | handle (name start : Text)
  /-- Something else. -/
  | other
deriving DecidableEq, Repr

/-- A token of a document. -/
inductive Token where
  /-- A directive. -/
  | directive (value : Directive)
  /-- The mark `---`. -/
  | documentStart
  /-- The mark `...`. -/
  | documentEnd
  /-- A sequence of `-` entries begins. -/
  | blockSequenceStart
  /-- A mapping of indented keys begins. -/
  | blockMappingStart
  /-- The last block that has begun ends. -/
  | blockEnd
  /-- An opening bracket. -/
  | flowSequenceStart
  /-- A closing bracket. -/
  | flowSequenceEnd
  /-- An opening brace. -/
  | flowMappingStart
  /-- A closing brace. -/
  | flowMappingEnd
  /-- A dash `-` before an entry of a sequence. -/
  | blockEntry
  /-- A comma between entries. -/
  | flowEntry
  /-- A key follows. -/
  | key
  /-- A value follows. -/
  | value
  /-- An alias `*name`. -/
  | alias (name : Text)
  /-- An anchor `&name`. -/
  | anchor (name : Text)
  /-- A tag: its handle, if it has one, and what follows it. -/
  | tag (handle : Option Text) (name : Text)
  /-- A scalar, and whether it is written plainly. -/
  | scalar (value : Text) (plain : Bool)
deriving DecidableEq, Repr

/-- A place where a key may have begun. -/
structure PossibleKey where
  /-- The number of tokens in front of it. -/
  tokens : Nat
  /-- Whether nothing but a key can stand there. -/
  required : Bool
  /-- The number of characters in front of it. -/
  index : Nat
  /-- The number of its line. -/
  line : Nat
  /-- The number of characters in front of it on its line. -/
  column : Nat

/-- The place that the reading of tokens has reached. -/
structure Scanner where
  /-- The text that follows. -/
  rest : Text
  /-- The number of characters in front. -/
  index : Nat := 0
  /-- The number of line breaks in front. -/
  line : Nat := 0
  /-- The number of characters in front on the same line. -/
  column : Nat := 0
  /-- The brackets and braces that are open, the innermost first. -/
  flow : List Char := []
  /-- The indentation of the innermost block, -1 outside of all. -/
  indent : Int := -1
  /-- The indentations of the blocks around it, the innermost first. -/
  indents : List Int := []
  /-- Whether a key may begin here. -/
  allowKey : Bool := true
  /-- Where a key may have begun, by the number of brackets and braces that were open there. -/
  keys : List (Nat × PossibleKey) := []
  /-- The tokens so far. -/
  tokens : List Token := []
  /-- The version that a directive has named. -/
  version : Option (Nat × Nat) := none

namespace Scanner

/-- Whether the document is written to the older rules. -/
def isOld (scanner : Scanner) : Bool :=
  scanner.version = some (1, 1)

/-- Whether a bracket or brace is open. -/
def inFlow (scanner : Scanner) : Bool :=
  !scanner.flow.isEmpty

/--
The scanner one character later. Only a line feed begins a new line, although other characters
break lines as well, and a byte order mark takes no column.
-/
def step (scanner : Scanner) (char : Char) (rest : Text) : Scanner :=
  let scanner := { scanner with rest := rest, index := scanner.index + 1 }
  if char = '\n' then { scanner with line := scanner.line + 1, column := 0 }
  else if char = '\ufeff' then scanner
  else { scanner with column := scanner.column + 1 }

/-- The scanner `count` characters later. -/
def skip (scanner : Scanner) : (count : Nat) → Scanner
  | 0 => scanner
  | count + 1 =>
    match scanner.rest with
    | [] => scanner
    | char :: rest => (scanner.step char rest).skip count

/-- The scanner where `rest`, an end of its text, begins. -/
def skipTo (scanner : Scanner) (rest : Text) : Scanner :=
  scanner.skip (scanner.rest.length - rest.length)

/-- The scanner with one more token. -/
def emit (scanner : Scanner) (token : Token) : Scanner :=
  { scanner with tokens := scanner.tokens ++ [token] }

/-! ## Possible keys -/

/-- The scanner without a possible key at this level, unless only a key could have stood there. -/
def dropKey? (scanner : Scanner) : Option Scanner :=
  let level := scanner.flow.length
  match scanner.keys.lookup level with
  | none => some scanner
  | some key =>
    if key.required then none
    else some { scanner with keys := scanner.keys.filter fun entry => entry.1 ≠ level }

/-- Notes that a key may begin here. -/
def markKey? (scanner : Scanner) : Option Scanner :=
  let required := !scanner.inFlow && scanner.indent = scanner.column
  if scanner.allowKey then
    scanner.dropKey?.map fun scanner =>
      let key : PossibleKey :=
        ⟨scanner.tokens.length, required, scanner.index, scanner.line, scanner.column⟩
      { scanner with keys := (scanner.flow.length, key) :: scanner.keys }
  else some scanner

/-- Whether a possible key is too far back: a key ends on its line. -/
def isStale (scanner : Scanner) (key : PossibleKey) : Bool :=
  key.line ≠ scanner.line || 1024 < scanner.index - key.index

/-- The scanner without the keys that are too far back, unless only a key could have stood there. -/
def dropStale? (scanner : Scanner) : Option Scanner :=
  if scanner.keys.any fun (_, key) => scanner.isStale key && key.required then none
  else
    some { scanner with keys := scanner.keys.filter fun (_, key) => !scanner.isStale key }

/-! ## Blocks -/

/-- Ends every block that is indented further than a column; `fuel` blocks at most. -/
def unwindBy (column : Int) : (fuel : Nat) → Scanner → Scanner
  | 0, scanner => scanner
  | fuel + 1, scanner =>
    if scanner.inFlow || scanner.indent ≤ column then scanner
    else
      unwindBy column fuel
        { scanner with
          indent := scanner.indents.head?.getD (-1)
          indents := scanner.indents.drop 1
          tokens := scanner.tokens ++ [.blockEnd] }

/-- Ends every block that is indented further than a column. -/
def unwind (scanner : Scanner) (column : Int) : Scanner :=
  unwindBy column (scanner.indents.length + 1) scanner

/-- The scanner in a new block at a column, or nothing if there is one of that indentation. -/
def openBlock? (scanner : Scanner) (column : Nat) : Option Scanner :=
  if scanner.indent < column then
    some { scanner with indent := column, indents := scanner.indent :: scanner.indents }
  else none

/-- Begins a block at the current column if the last one is indented less. -/
def enterBlock (scanner : Scanner) (token : Token) : Scanner :=
  match scanner.openBlock? scanner.column with
  | some inner => inner.emit token
  | none => scanner

/-! ## Single tokens -/

/-- Reads an indicator of `count` characters, behind which a key may begin or not. -/
def readIndicator? (scanner : Scanner) (token : Token) (count : Nat) (allowKey : Bool) :
    Option Scanner :=
  scanner.dropKey?.map fun scanner => { (scanner.skip count).emit token with allowKey := allowKey }

/-- Reads a document mark. -/
def readDocumentMark? (scanner : Scanner) (token : Token) : Option Scanner :=
  (scanner.unwind (-1)).readIndicator? token 3 false

/-- Whether a text ends or goes on with a space or a line break. -/
def atSpace : Text → Bool
  | [] => true
  | char :: _ => char = ' ' || isBreak char

/-- Whether a character may stand in a tag. -/
def isTagChar (char : Char) : Bool :=
  Text.isAsciiWord char || "-;/?:@&=+$,.!~*'()[]%#".toList.contains char

/-- The bytes that the escapes at the beginning of a text stand for, and what follows. -/
def escapedBytes? : Text → Option (Utf8.Bytes × Text)
  | '%' :: high :: low :: rest => do
    let byte ← Numeral.natural? 16 [high, low]
    let (bytes, rest) ← escapedBytes? rest
    return (UInt8.ofNat byte :: bytes, rest)
  | '%' :: _ => none
  | rest => some ([], rest)

/-- A tag with what its escapes stand for; `fuel` is at least its length. -/
def unescaped? : (fuel : Nat) → Text → Option Text
  | _, [] => some []
  | 0, _ => none
  | fuel + 1, char :: rest =>
    if char = '%' then do
      let (bytes, rest) ← escapedBytes? (char :: rest)
      let start ← (Utf8.decode bytes).toOption
      return start ++ (← unescaped? fuel rest)
    else (unescaped? fuel rest).map (char :: ·)

/-- The name of a tag that a text begins with, and what follows. -/
def tagName? (isOld : Bool) (text : Text) : Option (Text × Text) :=
  let belongs (char : Char) : Bool := isTagChar char && !(isOld && char = '#')
  let raw := text.takeWhile belongs
  if raw.isEmpty then none
  else (unescaped? raw.length raw).map fun name => (name, text.dropWhile belongs)

/-- The handle of tags that a text begins with, with both of its marks, and what follows. -/
def tagHandle? : Text → Option (Text × Text)
  | '!' :: rest =>
    let isName (char : Char) : Bool := Text.isAsciiWord char || char = '-'
    if rest.head? = some ' ' then some (['!'], rest)
    else
      match rest.dropWhile isName with
      | '!' :: after => some ('!' :: rest.takeWhile isName ++ ['!'], after)
      | _ => none
  | _ => none

/-- The number at the beginning of a text, and what follows. -/
def readNumber? (text : Text) : Option (Nat × Text) :=
  (Numeral.natural? 10 (text.takeWhile Text.isAsciiDigit)).map fun value =>
    (value, text.dropWhile Text.isAsciiDigit)

/-- What a directive with a name says in the text behind it, and what follows that. -/
def directiveValue? (name text : Text) : Option (Directive × Text) :=
  let text' := text.dropWhile (· = ' ')
  if name = "YAML".toList then
    match readNumber? text' with
    | some (major, '.' :: rest) =>
      (readNumber? rest).map fun (minor, rest) => (.version major minor, rest)
    | _ => none
  else if name = "TAG".toList then
    match tagHandle? text' with
    | some (handle, ' ' :: rest) =>
      (tagName? false (rest.dropWhile (· = ' '))).map fun (start, rest) =>
        (.handle handle start, rest)
    | _ => none
  else some (.other, text.dropWhile fun char => !isBreak char)

/-- Reads a directive up to the end of its line. -/
def readDirective? (scanner : Scanner) : Option Scanner := do
  let text := scanner.rest.drop 1
  let isName (char : Char) : Bool :=
    Text.isAsciiWord char || char = '-' || char = ':' || char = '.'
  let name := text.takeWhile isName
  let behind := text.dropWhile isName
  if name.isEmpty || !atSpace behind then none
  else
    let (directive, rest) ← directiveValue? name behind
    let rest' := rest.dropWhile (· = ' ')
    let ended :=
      atSpace rest && (rest'.isEmpty || rest'.head? = some '#' || (rest'.head?.any isBreak))
    if ended then
      let version :=
        match directive with
        | .version major minor => some (major, minor)
        | _ => scanner.version
      let length := (scanner.rest.takeWhile fun char => !isBreak char).length
      let scanner ← (scanner.unwind (-1)).readIndicator? (.directive directive) length false
      return { scanner with version := version }
    else none

/-- Reads an opening bracket or brace. -/
def openFlow? (scanner : Scanner) (bracket : Char) (token : Token) : Option Scanner :=
  scanner.markKey?.map fun scanner =>
    { (scanner.skip 1).emit token with flow := bracket :: scanner.flow, allowKey := true }

/-- Reads a closing bracket or brace. -/
def closeFlow? (scanner : Scanner) (token : Token) : Option Scanner :=
  (scanner.readIndicator? token 1 false).map fun scanner =>
    { scanner with flow := scanner.flow.drop 1 }

/-- Reads the `-` of an entry. -/
def readBlockEntry? (scanner : Scanner) : Option Scanner :=
  if scanner.inFlow then scanner.readIndicator? .blockEntry 1 true
  else if scanner.allowKey then
    (scanner.enterBlock .blockSequenceStart).readIndicator? .blockEntry 1 true
  else none

/-- Reads the `?` of a key. -/
def readKeyMark? (scanner : Scanner) : Option Scanner :=
  if scanner.inFlow then scanner.readIndicator? .key 1 false
  else if scanner.allowKey then
    (scanner.enterBlock .blockMappingStart).readIndicator? .key 1 true
  else none

/-- Reads the `:` of a value, and puts a token before the key in front of it. -/
def readValueMark? (scanner : Scanner) : Option Scanner :=
  let level := scanner.flow.length
  match scanner.keys.lookup level with
  | some key =>
    let (before, after) := (scanner.tokens.take key.tokens, scanner.tokens.drop key.tokens)
    let scanner := { scanner with keys := scanner.keys.filter fun entry => entry.1 ≠ level }
    let block? := if scanner.inFlow then none else scanner.openBlock? key.column
    let marks := if block?.isSome then [Token.blockMappingStart, .key] else [.key]
    let scanner := block?.getD scanner
    some { (scanner.skip 1) with
      tokens := before ++ marks ++ after ++ [.value], allowKey := false }
  | none =>
    if scanner.inFlow then scanner.readIndicator? .value 1 false
    else if scanner.allowKey then
      (scanner.enterBlock .blockMappingStart).readIndicator? .value 1 true
    else none

/-- Whether a character may stand in the name of an anchor. -/
def isAnchorChar (char : Char) : Bool :=
  let code := char.toNat
  ((0x21 ≤ code && code ≤ 0x7E) || 0xA0 ≤ code) && !isBreak char && char ≠ ',' && char ≠ '[' &&
    char ≠ ']' && char ≠ '{' && char ≠ '}'

/-- Reads an anchor or an alias. -/
def readAnchor? (scanner : Scanner) (token : Text → Token) : Option Scanner :=
  let name := (scanner.rest.drop 1).takeWhile isAnchorChar
  if name.isEmpty then none
  else
    scanner.markKey?.map fun scanner =>
      { (scanner.skip (name.length + 1)).emit (token name) with allowKey := false }

/-- The handle and the name of the tag that a text begins with, and what follows. -/
def tag? (isOld : Bool) (text : Text) : Option (Option Text × Text × Text) :=
  let short : Text := if Text.startsWith text "!!".toList then "!!".toList else "!".toList
  let behind := text.drop short.length
  match behind with
  | '<' :: rest =>
    match tagName? isOld rest with
    | some (name, '>' :: rest) => some (none, name, rest)
    | _ => none
  | _ =>
    if atGap behind then some (none, short, behind)
    else if (behind.takeWhile fun char => char ≠ ' ' && !isBreak char).contains '!' then
      (tagHandle? ('!' :: behind)).bind fun (handle, rest) =>
        (tagName? isOld rest).map fun (name, rest) => (some handle, name, rest)
    else (tagName? isOld behind).map fun (name, rest) => (some short, name, rest)

/-- Reads a tag. -/
def readTag? (scanner : Scanner) : Option Scanner := do
  let (handle, name, rest) ← tag? scanner.isOld scanner.rest
  if atSpace rest then
    let scanner ← scanner.markKey?
    return { (scanner.skipTo rest).emit (.tag handle name) with allowKey := false }
  else none

/-- Reads a scalar in quotes. -/
def readQuoted (scanner : Scanner) (quote : Char) : Except Error Scanner := do
  let (value, rest) ← quotedFrom quote 0 (scanner.rest.drop 1)
  let scanner ← Error.ofOption scanner.markKey?
  return { (scanner.skipTo rest).emit (.scalar value false) with allowKey := false }

/-! ## Blocks of lines -/

/-- Skips spaces up to a column. -/
def skipIndent (scanner : Scanner) (column : Nat) : Scanner :=
  scanner.skip (min (scanner.rest.takeWhile (· = ' ')).length (column - scanner.column))

/-- The empty lines before the next line of a block, and the scanner there. -/
def emptyLines (indent : Nat) : (fuel : Nat) → Scanner → List Char × Scanner
  | 0, scanner => ([], scanner)
  | fuel + 1, scanner =>
    let scanner := scanner.skipIndent indent
    match scanner.rest with
    | char :: rest =>
      if isBreak char then
        let (breaks, last) := emptyLines indent fuel (scanner.step char rest)
        (breakValue char :: breaks, last)
      else ([], scanner)
    | [] => ([], scanner)

/--
The empty lines before the first line of a block, the largest column in them and before that line,
and the scanner there. The first of them must not be indented less than what follows, unless it is
not indented at all.
-/
def firstLines? (first : Option Nat) (largest : Nat) :
    (fuel : Nat) → Scanner → Option (List Char × Nat × Scanner)
  | 0, _ => none
  | fuel + 1, scanner =>
    let found : Option (List Char × Nat × Scanner) :=
      match first with
      | some column =>
        if 0 < column && column < largest then none else some ([], largest, scanner)
      | none => some ([], largest, scanner)
    match scanner.rest with
    | char :: rest =>
      let next := scanner.step char rest
      if char = ' ' then firstLines? first (max largest next.column) fuel next
      else if isBreak char then
        (firstLines? (first.or (some scanner.column)) largest fuel next).map
          fun (breaks, largest, last) => (breakValue char :: breaks, largest, last)
      else found
    | [] => found

/-- What is read of a block of lines. -/
structure BlockText where
  /-- The lines, without the break behind the last one. -/
  content : Text
  /-- The break behind the last line. -/
  ending : Text
  /-- The breaks of the empty lines that follow. -/
  trailing : List Char
  /-- The scanner behind them. -/
  scanner : Scanner

/--
Reads the lines of a block from behind the empty lines `before`. Lines are folded into one, unless
one of them begins with a blank. A document mark ends a block that has no indentation.
-/
def blockText (fold : Bool) (indent : Nat) :
    (fuel : Nat) → (before : List Char) → Scanner → BlockText
  | 0, before, scanner => ⟨[], [], before, scanner⟩
  | fuel + 1, before, scanner =>
    if scanner.column ≠ indent || scanner.rest.isEmpty then ⟨[], [], before, scanner⟩
    else
      let line := scanner.rest.takeWhile fun char => !isBreak char
      let behind := scanner.skip line.length
      let ending : Text := (behind.rest.head?.map fun char => [breakValue char]).getD []
      let (breaks, next) := emptyLines indent (behind.rest.length + 1) (behind.skip 1)
      let marked := indent = 0 && next.column = 0 && atDocumentMark next.rest
      let startsBlank (text : Text) : Bool := (text.head?.map isSpace).getD false
      if marked || next.column ≠ indent || next.rest.isEmpty then
        ⟨before ++ line, ending, breaks, next⟩
      else
        let folds := fold && ending = ['\n'] && !startsBlank line && !startsBlank next.rest
        let between : Text :=
          if folds then (if breaks.isEmpty then [' '] else []) else ending
        let others := blockText fold indent fuel breaks next
        { others with content := before ++ line ++ between ++ others.content }

/-- Reads a block of lines. -/
def readBlock? (scanner : Scanner) (fold : Bool) : Option Scanner := do
  let (style, text) ← blockStyle? (scanner.rest.drop 1)
  let body ← afterEmptyLine? text
  let least := (scanner.indent + 1).toNat
  let start := scanner.skipTo body
  let fuel := body.length + 1
  let (breaks, indent, first) ←
    match style.increment with
    | some increment =>
      let indent := max least 1 + increment - 1
      let (breaks, first) := emptyLines indent fuel start
      some (breaks, indent, first)
    | none =>
      (firstLines? none 0 fuel start).map fun (breaks, largest, first) =>
        (breaks, max least largest, first)
  let block := blockText fold indent fuel breaks first
  let value :=
    match style.chomping with
    | .strip => block.content
    | .clip => block.content ++ block.ending
    | .keep => block.content ++ block.ending ++ block.trailing
  let last ← scanner.dropKey?
  return { block.scanner.emit (.scalar value false) with keys := last.keys, allowKey := true }

/-! ## Plain scalars -/

/-- Whether a character, before this text, ends a run of characters of a plain scalar. -/
def endsPlain (scanner : Scanner) (char : Char) (rest : Text) : Bool :=
  if char = ':' then atGap rest
  else isSpace char || isBreak char ||
    (scanner.inFlow &&
      (char = ',' || char = '[' || char = ']' || char = '{' || char = '}' ||
        (char = '?' && scanner.isOld)))

/-- The run of characters of a plain scalar that a text begins with. -/
def plainRun (scanner : Scanner) : Text → Text
  | [] => []
  | char :: rest =>
    if scanner.endsPlain char rest then [] else char :: scanner.plainRun rest

/-- The breaks among the blanks that follow a line, and what follows them; none at a mark. -/
def plainBreaks : Text → Option (List Char) × Text
  | [] => (some [], [])
  | char :: rest =>
    if isBreak char then
      if atDocumentMark rest then (none, rest)
      else
        let (breaks, after) := plainBreaks rest
        (breaks.map (breakValue char :: ·), after)
    else if char = ' ' then plainBreaks rest
    else (some [], char :: rest)

/-- Reads a plain scalar of at most `fuel` runs, each `before` which these blanks stand. -/
def plainFrom (indent : Int) : (fuel : Nat) → (before : Text) → Scanner → Text × Scanner
  | 0, _, scanner => ([], scanner)
  | fuel + 1, before, scanner =>
    let run := scanner.plainRun scanner.rest
    if run.isEmpty || scanner.rest.head? = some '#' then ([], scanner)
    else
      let behind := { (scanner.skip run.length) with allowKey := false }
      let spaces := behind.rest.takeWhile (· = ' ')
      let value := before ++ run
      match behind.rest.dropWhile (· = ' ') with
      | [] => (value, behind.skip spaces.length)
      | char :: rest =>
        if isBreak char then
          let (breaks, after) := plainBreaks (char :: rest)
          let next := { (behind.skipTo after) with allowKey := true }
          match breaks with
          | none => (value, next)
          | some breaks =>
            if (!next.inFlow && next.column < indent) || after.head? = some '#' then (value, next)
            else
              let (others, last) := plainFrom indent fuel (folded breaks) next
              (value ++ others, last)
        else if spaces.isEmpty || char = '#' then (value, behind.skip spaces.length)
        else
          let (others, last) := plainFrom indent fuel spaces (behind.skip spaces.length)
          (value ++ others, last)

/-- Reads a plain scalar. -/
def readPlain? (scanner : Scanner) : Option Scanner :=
  scanner.markKey?.map fun scanner =>
    let (value, last) :=
      plainFrom (scanner.indent + 1) (scanner.rest.length + 1) []
        { scanner with allowKey := false }
    last.emit (.scalar value true)

/-- Whether a plain scalar may begin with a character before this text. -/
def startsPlain (inFlow : Bool) (char : Char) (rest : Text) : Bool :=
  if isSpace char || isBreak char then false
  else if char = '-' then !atGap rest
  else if char = '?' then !inFlow && !atGap rest
  else if char = ':' then !atGap rest
  else !",[]{}#&*!|>'\"%@`".toList.contains char

/-! ## The sequence of tokens -/

/-- Whether a `:` before this text marks a value. -/
def marksValue (scanner : Scanner) (rest : Text) : Bool :=
  match scanner.flow with
  | [] => atGap rest
  | bracket :: _ =>
    if scanner.isOld then true
    else if bracket = '[' || scanner.tokens.getLast? = some .value then atGap rest else true

/-- The number of blanks and comment characters before the next token, and if a line ends there. -/
def gapLength (inFlow inComment : Bool) : Text → Nat × Bool
  | [] => (0, false)
  | char :: rest =>
    if isBreak char then ((gapLength inFlow false rest).1 + 1, true)
    else if inComment then
      let (count, broken) := gapLength inFlow true rest
      (count + 1, broken)
    else if char = ' ' || (inFlow && char = '\t') then
      let (count, broken) := gapLength inFlow false rest
      (count + 1, broken)
    else if char = '#' then
      let (count, broken) := gapLength inFlow true rest
      (count + 1, broken)
    else (0, false)

/-- Skips blanks and comments; a key may begin on a new line. -/
def skipGap (scanner : Scanner) : Scanner :=
  let (count, broken) := gapLength scanner.inFlow false scanner.rest
  { (scanner.skip count) with allowKey := scanner.allowKey || (broken && !scanner.inFlow) }

/-- Reads the token that begins with a character before this text, if it is no quote. -/
def readToken? (scanner : Scanner) (char : Char) (rest : Text) : Option Scanner :=
  let atMargin := scanner.column = 0
  if char = '%' && atMargin then scanner.readDirective?
  else if char = '-' && atMargin && atDocumentMark scanner.rest then
    scanner.readDocumentMark? .documentStart
  else if char = '.' && atMargin && atDocumentMark scanner.rest then
    scanner.readDocumentMark? .documentEnd
  else if char = '[' then scanner.openFlow? '[' .flowSequenceStart
  else if char = '{' then scanner.openFlow? '{' .flowMappingStart
  else if char = ']' then scanner.closeFlow? .flowSequenceEnd
  else if char = '}' then scanner.closeFlow? .flowMappingEnd
  else if char = ',' then scanner.readIndicator? .flowEntry 1 true
  else if char = '-' && atGap rest then scanner.readBlockEntry?
  else if char = '?' && (scanner.inFlow || atGap rest) then scanner.readKeyMark?
  else if char = ':' && scanner.marksValue rest then scanner.readValueMark?
  else if char = '*' then scanner.readAnchor? .alias
  else if char = '&' then scanner.readAnchor? .anchor
  else if char = '!' then scanner.readTag?
  else if char = '|' && !scanner.inFlow then scanner.readBlock? false
  else if char = '>' && !scanner.inFlow then scanner.readBlock? true
  else if startsPlain scanner.inFlow char rest then scanner.readPlain?
  else none

/-- Reads at most `fuel` tokens up to the end of the text. -/
def readAll : (fuel : Nat) → Scanner → Except Error Scanner
  | 0, _ => .error .malformed
  | fuel + 1, scanner => do
    let scanner ← Error.ofOption scanner.skipGap.dropStale?
    let scanner := scanner.unwind scanner.column
    match scanner.rest with
    | [] => Error.ofOption (scanner.unwind (-1)).dropKey?
    | char :: rest =>
      let scanner ←
        if char = '\'' || char = '"' then scanner.readQuoted char
        else Error.ofOption (scanner.readToken? char rest)
      readAll fuel scanner

end Scanner

/-- Whether a document may hold a character. -/
def isAllowed (char : Char) : Bool :=
  let code := char.toNat
  code = 0x09 || code = 0x0A || code = 0x0D || (0x20 ≤ code && code ≤ 0x7E) || code = 0x85 ||
    (0xA0 ≤ code && code ≤ 0xD7FF) || (0xE000 ≤ code && code ≤ 0xFFFD) || 0x10000 ≤ code

/-- The tokens of a text; a byte order mark in front means nothing. -/
def tokensOf (text : Text) : Except Error (List Token) :=
  if text.all isAllowed then do
    let text := if text.head? = some '\ufeff' then text.drop 1 else text
    let scanner ← Scanner.readAll (text.length + 1) { rest := text }
    return scanner.tokens
  else .error .malformed

end Yaml

end IntraDoc
