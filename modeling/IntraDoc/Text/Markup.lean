import IntraDoc.Text.Basic

/-!
# Console markup

A report carries its colours as tags in brackets, `[red]` up to `[/red]`. A tag is an opening
bracket, a lower-case letter or one of `#`, `/` and `@`, and everything up to the nearest closing
bracket, with no opening bracket between. Backslashes in front of a tag are doubled when text is
escaped, and one more turns the tag itself into text.
-/

namespace IntraDoc

namespace Markup

/-- Whether a character may follow the opening bracket of a tag. -/
def isTagStart (char : Char) : Bool :=
  ('a' ≤ char && char ≤ 'z') || char = '#' || char = '/' || char = '@'

/-- The number of characters up to the nearest closing bracket, if no opening one comes first. -/
def closing? : Text → Option Nat
  | [] => none
  | char :: rest =>
    if char = ']' then some 1
    else if char = '[' then none
    else (closing? rest).map (· + 1)

/-- The length of the tag that a text begins with, its brackets included. -/
def tagLength? : Text → Option Nat
  | '[' :: char :: rest => if isTagStart char then (closing? rest).map (· + 2) else none
  | _ => none

/--
The text with its tags escaped. `slashes` backslashes have been read and not written, and the
first `inside` characters belong to a tag.
-/
def escapeFrom (slashes inside : Nat) : Text → Text
  | [] => List.replicate slashes '\\'
  | char :: rest =>
    match inside with
    | inside + 1 => char :: escapeFrom 0 inside rest
    | 0 =>
      if char = '\\' then escapeFrom (slashes + 1) 0 rest
      else
        match tagLength? (char :: rest) with
        | some length =>
          List.replicate (2 * slashes + 1) '\\' ++ char :: escapeFrom 0 (length - 1) rest
        | none => List.replicate slashes '\\' ++ char :: escapeFrom 0 0 rest

/-- The text with one backslash more, if it ends in exactly one. -/
def closeSlash (text : Text) : Text :=
  match text.reverse with
  | '\\' :: '\\' :: _ => text
  | '\\' :: _ => text ++ ['\\']
  | _ => text

/-- The markup that shows a text as it is. -/
def escape (text : Text) : Text :=
  closeSlash (escapeFrom 0 0 text)

/-- The backslashes that are shown of a run in front of an opening bracket without a tag. -/
def shownBeforeBracket (slashes : Nat) : Text :=
  List.replicate (slashes - 1) '\\'

/--
The text that markup shows. `slashes` backslashes have been read and not written; the first
`inside` characters belong to a tag, which is shown if `shown` says so.
-/
def plainFrom (slashes inside : Nat) (shown : Bool) : Text → Text
  | [] => List.replicate slashes '\\'
  | char :: rest =>
    match inside with
    | inside + 1 =>
      if shown then char :: plainFrom 0 inside true rest else plainFrom 0 inside false rest
    | 0 =>
      if char = '\\' then plainFrom (slashes + 1) 0 false rest
      else
        match tagLength? (char :: rest) with
        | some length =>
          let escaped := slashes % 2 = 1
          let tag := plainFrom 0 (length - 1) escaped rest
          List.replicate (slashes / 2) '\\' ++ (if escaped then char :: tag else tag)
        | none =>
          let before :=
            if char = '[' then shownBeforeBracket slashes else List.replicate slashes '\\'
          before ++ char :: plainFrom 0 0 false rest

/-- The text that markup shows, without its tags. -/
def plain (markup : Text) : Text :=
  plainFrom 0 0 false markup

end Markup

end IntraDoc
