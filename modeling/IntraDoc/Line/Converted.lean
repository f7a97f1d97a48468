import IntraDoc.Line.LongForm
import IntraDoc.Line.ShortForm

/-!
# Converted lines

Every candidate of a line is converted in place, the last one first, so that the places of the
others stay valid. A candidate is left alone when it is ignored or has no intra-doc path.
-/

namespace IntraDoc

/-- The links of a line that may be converted, from left to right. -/
def candidatesIn (line : Text) : List Candidate :=
  match LongForm.read? line with
  | some candidate => if LinkPath.isRooted candidate.target then [] else [candidate]
  | none => (ShortForm.scan 0 0 line).filter fun candidate => !LinkPath.isRooted candidate.target

/-- What became of a line. -/
structure ConvertedLine where
  /-- The line with its links converted. -/
  text : Text
  /-- Whether the line is a long-form link. -/
  isLong : Bool
  /-- How many links were converted, those included whose text stayed the same. -/
  converted : Nat
deriving DecidableEq, Repr

namespace ConvertedLine

/-- The line and the number of conversions after one more candidate. -/
def step (options : Options) (currentType : Option Text) (ignored : Text → Text → Bool)
    (candidate : Candidate) (state : Text × Nat) : Text × Nat :=
  if ignored candidate.name candidate.target then state
  else
    match candidate.rendered? options currentType with
    | none => state
    | some rendered => (candidate.substitute state.1 rendered, state.2 + 1)

/-- The line with every link converted that can be and is not ignored by name and target. -/
def ofLine (line : Text) (options : Options) (currentType : Option Text)
    (ignored : Text → Text → Bool) : ConvertedLine :=
  let candidates := candidatesIn line
  let (text, converted) := candidates.foldr (step options currentType ignored) (line, 0)
  ⟨text, (candidates.head?.map (·.form)) = some .long, converted⟩

end ConvertedLine

end IntraDoc
