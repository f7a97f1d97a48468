import IntraDoc.Data.Numeral
import IntraDoc.Data.Yaml.Error

/-!
# Scalars of YAML

A scalar is written plainly, in quotes, or as a block of lines. This file reads the text of a
scalar in quotes, and how a block of lines announces itself. A reader that finds the notation broken
gives nothing.
-/

namespace IntraDoc

namespace Yaml

/-- Whether a character breaks a line. -/
def isBreak (char : Char) : Bool :=
  char = '\n' || char.toNat = 0x85 || char.toNat = 0x2028 || char.toNat = 0x2029

/-- Whether a character is a space or a tab. -/
def isSpace (char : Char) : Bool :=
  char = ' ' || char = '\t'

/-- Whether a text ends or goes on with a space, a tab or a line break. -/
def atGap : Text → Bool
  | [] => true
  | char :: _ => isSpace char || isBreak char

/-- A line break as it counts in a scalar: the separators of other scripts stay themselves. -/
def breakValue (char : Char) : Char :=
  if char.toNat = 0x85 then '\n' else char

/-- Whether a text at the beginning of a line marks the beginning or the end of a document. -/
def atDocumentMark (text : Text) : Bool :=
  match text with
  | '-' :: '-' :: '-' :: rest => atGap rest
  | '.' :: '.' :: '.' :: rest => atGap rest
  | _ => false

/-- The spaces that stand for line breaks between two parts of a scalar. -/
def folded (breaks : List Char) : Text :=
  match breaks with
  | [] => []
  | [char] => if char = '\n' then [' '] else [char]
  | char :: others => if char = '\n' then others else char :: others

/-! ## Quoted scalars -/

/--
The character with a number that is given in hexadecimal digits. A surrogate is half of a character:
no text can hold it, and a document that asks for one is not read.
-/
def characterOf (digits : Text) : Except Error Char :=
  match Numeral.natural? 16 digits with
  | none => .error .malformed
  | some code =>
    if code < 0xD800 || (0xDFFF < code && code < 0x110000) then .ok (Char.ofNat code)
    else if code ≤ 0xDFFF then .error .halfCharacter
    else if code < 0x80000000 then .error .noCharacter
    else .error .hugeCharacter

/-- The character that an escape stands for, and the number of characters behind the backslash. -/
def escape : Text → Except Error (Char × Nat)
  | [] => .error .malformed
  | char :: rest =>
    let coded (count : Nat) : Except Error (Char × Nat) :=
      if count ≤ rest.length then
        (characterOf (rest.take count)).map fun code => (code, count + 1)
      else .error .malformed
    match char with
    | '0' => .ok ('\x00', 1)
    | 'a' => .ok ('\x07', 1)
    | 'b' => .ok ('\x08', 1)
    | 't' => .ok ('\t', 1)
    | '\t' => .ok ('\t', 1)
    | 'n' => .ok ('\n', 1)
    | 'v' => .ok ('\x0b', 1)
    | 'f' => .ok ('\x0c', 1)
    | 'r' => .ok ('\r', 1)
    | 'e' => .ok ('\x1b', 1)
    | ' ' => .ok (' ', 1)
    | '"' => .ok ('"', 1)
    | '/' => .ok ('/', 1)
    | '\\' => .ok ('\\', 1)
    | 'N' => .ok ('\u0085', 1)
    | '_' => .ok ('\u00a0', 1)
    | 'L' => .ok ('\u2028', 1)
    | 'P' => .ok ('\u2029', 1)
    | 'x' => coded 2
    | 'u' => coded 4
    | 'U' => coded 8
    | _ => .error .malformed

/--
The line breaks that a text begins with, and the number of characters up to the next visible one;
nothing if a document mark is among them. `lineStart` says whether the text begins a line.
-/
def readBreaks (lineStart : Bool) : Text → Option (List Char × Nat)
  | [] => some ([], 0)
  | char :: rest =>
    if lineStart && atDocumentMark (char :: rest) then none
    else if isBreak char then
      (readBreaks true rest).map fun (breaks, count) => (breakValue char :: breaks, count + 1)
    else if isSpace char then
      (readBreaks false rest).map fun (breaks, count) => (breaks, count + 1)
    else some ([], 0)

/--
What a run of blanks inside quotes stands for, and its length: itself within a line, and otherwise
the line breaks in it, folded.
-/
def quotedBlanks? (text : Text) : Option (Text × Nat) :=
  let spaces := text.takeWhile isSpace
  match text.dropWhile isSpace with
  | char :: _ =>
    if isBreak char then
      (readBreaks false text).map fun (breaks, count) => (folded breaks, count)
    else some (spaces, spaces.length)
  | [] => none

/-- What a backslash before a line break stands for, and its length behind the backslash. -/
def escapedBreak? : Text → Option (Text × Nat)
  | [] => none
  | char :: rest =>
    if isBreak char then
      (readBreaks true rest).map fun (breaks, count) => (breaks, count + 1)
    else none

/--
Reads a scalar up to its closing quote, and gives its value and what follows. The first `skipped`
characters have been read already.
-/
def quotedFrom (quote : Char) (skipped : Nat) : Text → Except Error (Text × Text)
  | [] => .error .malformed
  | char :: rest =>
    match skipped with
    | skipped + 1 => quotedFrom quote skipped rest
    | 0 =>
      let keep (value : Text) (count : Nat) : Except Error (Text × Text) :=
        (quotedFrom quote count rest).map fun (others, after) => (value ++ others, after)
      if char = quote then
        if quote = '\'' && rest.head? = some '\'' then keep ['\''] 1 else .ok ([], rest)
      else if char = '\\' && quote = '"' then
        match escapedBreak? rest with
        | some (value, count) => keep value count
        | none =>
          match escape rest with
          | .ok (code, count) => keep [code] count
          | .error error => .error error
      else if isSpace char || isBreak char then
        match quotedBlanks? (char :: rest) with
        | some (value, count) => keep value (count - 1)
        | none => .error .malformed
      else keep [char] 0

/-! ## Block scalars -/

/-- What happens to the line breaks at the end of a block. -/
inductive Chomping where
  /-- One is kept. -/
  | clip
  /-- None is kept. -/
  | strip
  /-- All are kept. -/
  | keep
deriving DecidableEq, Repr

/-- How a block is written: its chomping and, if it is given, its indentation. -/
structure BlockStyle where
  /-- What happens to the line breaks at the end. -/
  chomping : Chomping := .clip
  /-- The indentation beyond that of the parent. -/
  increment : Option Nat := none

/-- The style that the indicators of a block spell, and what follows them. -/
def blockStyle? (text : Text) : Option (BlockStyle × Text) :=
  let indicators := text.takeWhile fun char => char = '+' || char = '-' || Text.isAsciiDigit char
  let rest := text.dropWhile fun char => char = '+' || char = '-' || Text.isAsciiDigit char
  let chomping (char : Char) : Chomping := if char = '+' then .keep else .strip
  let isSign (char : Char) : Bool := char = '+' || char = '-'
  let increment? (char : Char) : Option Nat :=
    (Numeral.natural? 10 [char]).bind fun value => if value = 0 then none else some value
  match indicators with
  | [] => some ({}, rest)
  | [char] =>
    if isSign char then some (⟨chomping char, none⟩, rest)
    else (increment? char).map fun value => (⟨.clip, some value⟩, rest)
  | [char, char'] =>
    if isSign char then (increment? char').map fun value => (⟨chomping char, some value⟩, rest)
    else if isSign char' then
      (increment? char).map fun value => (⟨chomping char', some value⟩, rest)
    else none
  | _ => none

/-- What follows the rest of a line that holds nothing but blanks and a comment. -/
def afterEmptyLine? (text : Text) : Option Text :=
  let blanks := text.takeWhile (· = ' ')
  match text.dropWhile (· = ' ') with
  | [] => some []
  | '#' :: rest =>
    if blanks.isEmpty then none else some ((rest.dropWhile fun char => !isBreak char).drop 1)
  | char :: rest => if isBreak char then some rest else none

end Yaml

end IntraDoc
