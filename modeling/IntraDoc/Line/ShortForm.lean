import IntraDoc.Line.Candidate

/-!
# Short-form links

A short-form link is `[name](target)` anywhere in a line. The name may hold brackets, nested one
level deep. Links are found from left to right, each search going on behind the last link found.
-/

namespace IntraDoc

namespace ShortForm

/--
The text up to the bracket that closes the name, and what follows that bracket. `inner` says
whether the text begins inside a bracket of the name.
-/
def name? (inner : Bool) : Text → Option (Text × Text)
  | [] => none
  | char :: rest =>
    if char = '\n' then none
    else if char = '[' then
      if inner then none
      else (name? true rest).map fun (name, after) => (char :: name, after)
    else if char = ']' then
      if inner then (name? false rest).map fun (name, after) => (char :: name, after)
      else some ([], rest)
    else (name? inner rest).map fun (name, after) => (char :: name, after)

/-- The name and the target of the link that a text begins with. -/
def read? : Text → Option (Text × Text)
  | '[' :: text =>
    match name? false text with
    | some (name, '(' :: rest) =>
      match LinkTarget.read? rest with
      | some (target, ')' :: _) => some (name, target)
      | _ => none
    | _ => none
  | _ => none

/-- The candidate for a link with this name and target, behind `offset` characters of its line. -/
def candidate (offset : Nat) (name target : Text) : Candidate :=
  let start := offset + name.length + 3
  ⟨name, target, .short, ⟨start, start + target.length⟩,
    ⟨offset, start + target.length + 1⟩⟩

/--
The links of a text that stands behind `offset` characters of its line. The first `skipped`
characters belong to the link that was found last.
-/
def scan (offset skipped : Nat) : Text → List Candidate
  | [] => []
  | char :: rest =>
    match skipped with
    | skipped + 1 => scan (offset + 1) skipped rest
    | 0 =>
      match read? (char :: rest) with
      | none => scan (offset + 1) 0 rest
      | some (name, target) =>
        candidate offset name target :: scan (offset + 1) (name.length + target.length + 3) rest

end ShortForm

end IntraDoc
