import IntraDoc.File.Order
import IntraDoc.File.System

/-!
# Patterns of paths

A pattern is a path whose names may hold `*` for any characters, `?` for one, `[…]` for one of a
set and `[!…]` for one outside it. A name `**` stands for the directory itself and all directories
below it. A slash at the end admits directories only.
-/

namespace IntraDoc

namespace Glob

/-- A set of characters between two others, both included. -/
structure Interval where
  /-- The first character. -/
  low : Char
  /-- The last character. -/
  high : Char
deriving DecidableEq, Repr

/-- A piece of the pattern of a name. -/
inductive Piece where
  /-- This character. -/
  | char (char : Char)
  /-- Any one character. -/
  | one
  /-- Any characters. -/
  | any
  /-- One character of the intervals, or one of none of them. -/
  | oneOf (negated : Bool) (intervals : List Interval)
deriving DecidableEq, Repr

/-- The intervals that the inside of brackets spells: `a-z`, or single characters. -/
def intervals : Text → List Interval
  | [] => []
  | low :: '-' :: high :: rest => ⟨low, high⟩ :: intervals rest
  | char :: rest => ⟨char, char⟩ :: intervals rest

/-- The number of characters of a set up to its closing bracket, which may not come first. -/
def setLength? (text : Text) : Option Nat :=
  let mark := if text.head? = some '!' then 1 else 0
  let first := if (text.drop mark).head? = some ']' then mark + 1 else mark
  let length := first + ((text.drop first).takeWhile (· ≠ ']')).length
  if length < text.length then some length else none

/-- The piece that the inside of brackets spells. -/
def oneOf : Text → Piece
  | '!' :: inside => .oneOf true (intervals inside)
  | inside => .oneOf false (intervals inside)

/-- The pieces of a pattern; the first `skipped` characters belong to a set already read. -/
def piecesFrom (skipped : Nat) : Text → List Piece
  | [] => []
  | char :: rest =>
    match skipped with
    | skipped + 1 => piecesFrom skipped rest
    | 0 =>
      if char = '*' then .any :: piecesFrom 0 rest
      else if char = '?' then .one :: piecesFrom 0 rest
      else if char = '[' then
        match setLength? rest with
        | some length => oneOf (rest.take length) :: piecesFrom (length + 1) rest
        | none => .char char :: piecesFrom 0 rest
      else .char char :: piecesFrom 0 rest

/-- Whether a piece that stands for one character stands for this one. -/
def Piece.accepts : Piece → Char → Bool
  | char expected, found => expected = found
  | one, _ => true
  | any, _ => true
  | oneOf negated intervals, found =>
    (intervals.any fun interval => interval.low ≤ found && found ≤ interval.high) != negated

/-- The text and every rest of it. -/
def rests : Text → List Text
  | [] => [[]]
  | char :: rest => (char :: rest) :: rests rest

/-- Whether the pieces match a whole name. -/
def matchesName : List Piece → Text → Bool
  | [], name => name.isEmpty
  | .any :: pieces, name => (rests name).any (matchesName pieces)
  | piece :: pieces, name =>
    match name with
    | [] => false
    | char :: rest => piece.accepts char && matchesName pieces rest

/-- A name of a pattern. -/
inductive Segment where
  /-- This name. -/
  | exact (name : Text)
  /-- Any name that the pieces match. -/
  | wild (pieces : List Piece)
  /-- This directory and all below it. -/
  | recursive
deriving DecidableEq, Repr

/-- A pattern of paths below some directory. -/
structure Pattern where
  /-- The names of the pattern. -/
  segments : List Segment
  /-- Whether only directories are meant. -/
  directoriesOnly : Bool
deriving DecidableEq, Repr

/-- Why a text is no pattern. -/
inductive PatternError where
  /-- The text is empty. -/
  | empty
  /-- The pattern begins at the root. -/
  | absolute
  /-- Two stars `**` stand beside other characters. -/
  | misplacedRecursion
  /-- The pattern has no names. -/
  | nameless
  /-- The pattern has no names, but a slash at its end. -/
  | slashAlone
deriving DecidableEq, Repr

/-- What is said about a text that is no pattern. -/
def PatternError.message : PatternError → Text
  | empty => "Unacceptable pattern: ''".toList
  | absolute => "Non-relative patterns are unsupported".toList
  | misplacedRecursion =>
    "Invalid pattern: '**' can only be an entire path component".toList
  | nameless => "tuple index out of range".toList
  | slashAlone => "'_TerminatingSelector' object has no attribute 'select_from'".toList

/-- The segment that a name of a pattern spells. -/
def segment (name : Text) : Except PatternError Segment :=
  if name = ['*', '*'] then .ok .recursive
  else if !(Text.splitsAt ['*', '*'] name).isEmpty then .error .misplacedRecursion
  else if name.any fun char => char = '*' || char = '?' || char = '[' then
    .ok (.wild (piecesFrom 0 name))
  else .ok (.exact name)

/-- The pattern that a text spells. -/
def parse (raw : Text) : Except PatternError Pattern := do
  let path := FilePath.parse raw
  if raw.isEmpty then .error .empty
  else if path.isAbsolute then .error .absolute
  else if path.names.isEmpty then
    .error (if raw.getLast? = some '/' then .slashAlone else .nameless)
  else return ⟨← path.names.mapM segment, raw.getLast? = some '/'⟩

/-- The paths to the directory itself and to all directories below it. -/
def directoriesBelow (system : FileSystem) (path : FilePath) : List FilePath :=
  match system.locate path with
  | .error _ => []
  | .ok place =>
    path :: system.entries.filterMap fun (found, entry) =>
      if entry = .directory && place.length < found.length && place.isPrefixOf found then
        some ⟨path.root, path.names ++ found.drop place.length⟩
      else none

/-- The paths to what a directory holds directly. -/
def listDirectory (system : FileSystem) (path : FilePath) : List FilePath :=
  match system.locate path with
  | .error _ => []
  | .ok place =>
    if system.entryAt place = some .directory then
      (system.children place).map path.child
    else []

/-- Whether a path leads to something, and to a directory if only those are meant. -/
def leads (system : FileSystem) (directoriesOnly : Bool) (path : FilePath) : Bool :=
  if directoriesOnly then system.isDirectory path else (system.find? path).isSome

/-- Whether a path ends in a name that the pieces match. -/
def endsIn (pieces : List Piece) (path : FilePath) : Bool :=
  match path.names.getLast? with
  | some name => matchesName pieces name
  | none => false

/-- The paths below a directory that the segments match. -/
def select (system : FileSystem) (directoriesOnly : Bool) :
    List Segment → FilePath → List FilePath
  | [], path => [path]
  | segment :: segments, path =>
    let inner := directoriesOnly || !segments.isEmpty
    let next := select system directoriesOnly segments
    match segment with
    | .exact name => if leads system inner (path.child name) then next (path.child name) else []
    | .wild pieces =>
      ((listDirectory system path).filter fun found =>
        endsIn pieces found && leads system inner found).flatMap next
    | .recursive => ((directoriesBelow system path).flatMap next).eraseDups

/-- The paths below a directory that a pattern matches, in order. -/
def paths (system : FileSystem) (directory : FilePath) (pattern : Pattern) : List FilePath :=
  if system.isDirectory directory then
    FilePath.sort (select system pattern.directoriesOnly pattern.segments directory)
  else []

end Glob

end IntraDoc
