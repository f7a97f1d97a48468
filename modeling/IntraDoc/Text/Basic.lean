/-!
# Texts

Everything this library reads or writes is a `Text`, a list of characters, so that every scanner is
a recursion on the text it scans. This file holds the cuts that the scanners share: an optional
final line feed, a fixed beginning, a separator, the last occurrence of a character.
-/

namespace IntraDoc

/-- A text is the list of its characters. -/
abbrev Text := List Char

namespace Text

/-- The text without one final line feed, if it ends in one. -/
def chomp : Text → Text
  | [] => []
  | ['\n'] => []
  | char :: rest => char :: chomp rest

/-- What follows `start` in the text, when the text begins with it. -/
def after? : (start text : Text) → Option Text
  | [], text => some text
  | _ :: _, [] => none
  | expected :: start, char :: text => if expected = char then after? start text else none

/-- Whether the text begins with `start`. -/
def startsWith (text start : Text) : Bool :=
  (after? start text).isSome

/-- Whether the text ends with `finish`. -/
def endsWith (text finish : Text) : Bool :=
  startsWith text.reverse finish.reverse

/--
The ways to write the text as `before ++ separator ++ after`, the shortest `before` first. The
separator is meant to be nonempty.
-/
def splitsAt (separator : Text) : Text → List (Text × Text)
  | [] => []
  | char :: rest =>
    let later := (splitsAt separator rest).map fun (before, after) => (char :: before, after)
    match after? separator (char :: rest) with
    | some after => ([], after) :: later
    | none => later

/-- The pieces between the occurrences of a character; a text without it is one piece. -/
def splitOn (separator : Char) : Text → List Text
  | [] => [[]]
  | char :: rest =>
    if char = separator then [] :: splitOn separator rest
    else
      match splitOn separator rest with
      | [] => [[char]]
      | piece :: pieces => (char :: piece) :: pieces

/-- The pieces with `separator` between each two of them. -/
def joinWith (separator : Text) : List Text → Text
  | [] => []
  | [piece] => piece
  | piece :: pieces => piece ++ separator ++ joinWith separator pieces

/-- The text before and after the last occurrence of a character. -/
def splitAtLast? (pivot : Char) : Text → Option (Text × Text)
  | [] => none
  | char :: rest =>
    match splitAtLast? pivot rest with
    | some (before, after) => some (char :: before, after)
    | none => if char = pivot then some ([], rest) else none

/-- The text without the characters at its end that satisfy `drop`. -/
def trimRight (drop : Char → Bool) : Text → Text
  | [] => []
  | char :: rest =>
    match trimRight drop rest with
    | [] => if drop char then [] else [char]
    | kept => char :: kept

/-- The text without the characters at either end that satisfy `drop`. -/
def trim (drop : Char → Bool) (text : Text) : Text :=
  trimRight drop (text.dropWhile drop)

/-- Every occurrence of one character exchanged for another. -/
def exchange (old new : Char) (text : Text) : Text :=
  text.map fun char => if char = old then new else char

/-- The text with every carriage return and line feed at its end removed. -/
def trimLineEnd (text : Text) : Text :=
  trimRight (fun char => char = '\r' || char = '\n') text

end Text

end IntraDoc
