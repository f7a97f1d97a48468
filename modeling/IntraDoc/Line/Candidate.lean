import IntraDoc.Link.Target

/-!
# Candidates

A candidate is a link of a line whose target may be converted. It keeps the places in the line that
a conversion replaces: the target alone, or the whole link when the converted target is only what
the link shows anyway.
-/

namespace IntraDoc

/-- A part of a line, from the character `start` up to but not including the character `stop`. -/
structure Span where
  /-- The number of characters before the part. -/
  start : Nat
  /-- The number of characters before its end. -/
  stop : Nat
deriving DecidableEq, Repr

namespace Span

/-- The line with other characters in the place of the part. -/
def replace (span : Span) (line new : Text) : Text :=
  line.take span.start ++ new ++ line.drop span.stop

end Span

/-- The two ways to write a link. -/
inductive Form where
  /-- As `[name]: target`, on a line of its own. -/
  | long
  /-- As `[name](target)`, within a line. -/
  | short
deriving DecidableEq, Repr

/-- A link of a line whose target may be converted. -/
structure Candidate where
  /-- The text between the brackets. -/
  name : Text
  /-- The target as it is written. -/
  target : Text
  /-- How the link is written. -/
  form : Form
  /-- Where the target stands. -/
  targetSpan : Span
  /-- Where the link stands. -/
  linkSpan : Span
deriving DecidableEq, Repr

namespace Candidate

/-- The name without the backticks around it. -/
def shownName (candidate : Candidate) : Text :=
  Text.trim (· = '`') candidate.name

/--
The target as an intra-doc path. Targets of no known shape and pages of primitive types are kept
as they are.
-/
def rendered? (candidate : Candidate) (options : Options) (currentType : Option Text) :
    Option Text :=
  match DocLink.ofTarget? candidate.target options with
  | none => none
  | some link =>
    if link.isPrimitive then none else some (link.render currentType options.disambiguate)

/-- The line with this link leading to `rendered`, without a target if the name says as much. -/
def substitute (candidate : Candidate) (line rendered : Text) : Text :=
  if candidate.form = .short && rendered = candidate.shownName then
    candidate.linkSpan.replace line ('[' :: candidate.name ++ [']'])
  else candidate.targetSpan.replace line rendered

end Candidate

namespace LinkTarget

/-- Whether a character may stand in a target, its scheme aside. -/
def isChar (char : Char) : Bool :=
  Text.isAsciiWord char || char = '#' || char = '/' || char = '-' || char = '.'

/-- The scheme at the beginning of a text, if there is one, and what follows it. -/
def splitScheme (text : Text) : Text × Text :=
  match Text.after? "https:".toList text with
  | some rest => ("https:".toList, rest)
  | none =>
    match Text.after? "http:".toList text with
    | some rest => ("http:".toList, rest)
    | none => ([], text)

/-- The target at the beginning of a text, as long as possible, and what follows it. -/
def read? (text : Text) : Option (Text × Text) :=
  let (scheme, rest) := splitScheme text
  let body := rest.takeWhile isChar
  if body.isEmpty then none else some (scheme ++ body, rest.dropWhile isChar)

end LinkTarget

end IntraDoc
