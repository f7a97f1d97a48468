import IntraDoc.Proofs.Line.Pieces

/-!
# Converting all links of a line at once

The links of a line are converted one after the other, the last one first, with spans that were
measured on the line as it was. The outcome is that of replacing all links at once. What carries the
argument is that the spans are in order and disjoint: up to the end of the next link to be converted
the text is still that of the line, so both spans of that link are valid, and its replacement is the
one it would have if it were the only link.
-/

namespace IntraDoc

namespace Span

/-- The characters of a line that belong to the part. -/
def textIn (span : Span) (line : Text) : Text :=
  (line.take span.stop).drop span.start

def IsInside (inner outer : Span) : Prop :=
  outer.start ≤ inner.start ∧ inner.start ≤ inner.stop ∧ inner.stop ≤ outer.stop

/--
The line from the character `start` on, with every part replaced by the text beside it. The parts
are meant to be in order and disjoint.
-/
def replaceAll (line : Text) (start : Nat) : List (Span × Text) → Text
  | [] => line.drop start
  | (span, new) :: others =>
    textIn ⟨start, span.start⟩ line ++ new ++ replaceAll line span.stop others

variable {line : Text} {span : Span}

theorem take_append_textIn {start stop : Nat} (inOrder : start ≤ stop) :
    line.take start ++ textIn ⟨start, stop⟩ line = line.take stop := by
  have shorter : line.take start = (line.take stop).take start := by
    rw [List.take_take, Nat.min_eq_left inOrder]
  rw [textIn, shorter, List.take_append_drop]

theorem textIn_append (front middle back : Text) :
    textIn ⟨front.length, front.length + middle.length⟩ (front ++ (middle ++ back)) = middle := by
  simp [textIn, ← List.append_assoc]

/-- A part of a line is replaced in place as long as the line has not changed up to its end. -/
theorem replace_take_append {stop : Nat} (inOrder : span.start ≤ span.stop)
    (before : span.stop ≤ stop) (within : stop ≤ line.length) (rest new : Text) :
    span.replace (line.take stop ++ rest) new =
      line.take span.start ++ new ++ (textIn ⟨span.stop, stop⟩ line ++ rest) := by
  have length : (line.take stop).length = stop := by
    rw [List.length_take, Nat.min_eq_left within]
  have front : (line.take stop ++ rest).take span.start = line.take span.start := by
    rw [List.take_append_of_le_length (by omega), List.take_take, Nat.min_eq_left (by omega)]
  have back : (line.take stop ++ rest).drop span.stop = textIn ⟨span.stop, stop⟩ line ++ rest := by
    rw [List.drop_append_of_le_length (by omega), textIn]
  rw [replace, front, back]

end Span

namespace Candidate

/-- The spans of a candidate are parts of the line, and its target is what the line says there. -/
structure FitsIn (candidate : Candidate) (line : Text) : Prop where
  nonempty : candidate.linkSpan.start < candidate.linkSpan.stop
  within : candidate.linkSpan.stop ≤ line.length
  target_inside : candidate.targetSpan.IsInside candidate.linkSpan
  textIn_target : candidate.targetSpan.textIn line = candidate.target

/-- The link of the first candidate ends before that of the second begins. -/
def Precedes (candidate next : Candidate) : Prop :=
  candidate.linkSpan.stop ≤ next.linkSpan.start

/-- Whether a link is converted, by itself. -/
def isConvertible (candidate : Candidate) (options : Options) (isIgnored : Bool) : Bool :=
  match DocLink.ofTarget? candidate.target options with
  | none => false
  | some link => !isIgnored && !link.isPrimitive

/-- What a conversion writes in the place of a link, by itself. -/
def convertedText (candidate : Candidate) (line : Text) (options : Options)
    (currentType : Option Text) (isIgnored : Bool) : Text :=
  match DocLink.ofTarget? candidate.target options with
  | none => candidate.linkSpan.textIn line
  | some link =>
    if isIgnored || link.isPrimitive then candidate.linkSpan.textIn line
    else
      let rendering := link.render currentType options.disambiguate
      if candidate.form = .short ∧ rendering = candidate.shownName then
        '[' :: candidate.name ++ [']']
      else
        Span.textIn ⟨candidate.linkSpan.start, candidate.targetSpan.start⟩ line ++ rendering ++
          Span.textIn ⟨candidate.targetSpan.stop, candidate.linkSpan.stop⟩ line

section Alone

variable {candidate : Candidate} {line : Text} {options : Options} {currentType : Option Text}
  {ignored : Text → Text → Bool}

theorem isSome_newTarget? :
    (candidate.newTarget? options currentType ignored).isSome =
      candidate.isConvertible options (ignored candidate.name candidate.target) := by
  unfold newTarget? rendered? isConvertible
  cases ignored candidate.name candidate.target with
  | true => cases DocLink.ofTarget? candidate.target options <;> simp
  | false =>
      cases DocLink.ofTarget? candidate.target options with
      | none => simp
      | some link => cases isPrimitive : link.isPrimitive <;> simp [isPrimitive]

theorem convertedText_of_none (kept : candidate.newTarget? options currentType ignored = none) :
    candidate.convertedText line options currentType (ignored candidate.name candidate.target) =
      candidate.linkSpan.textIn line := by
  unfold newTarget? rendered? at kept
  unfold convertedText
  cases read : DocLink.ofTarget? candidate.target options with
  | none => rfl
  | some link =>
      have left : (ignored candidate.name candidate.target || link.isPrimitive) = true := by
        cases isIgnored : ignored candidate.name candidate.target with
        | true => rfl
        | false => simpa [isIgnored, read] using kept
      simp only [left, if_true]

theorem convertedText_of_some {new : Text}
    (isNew : candidate.newTarget? options currentType ignored = some new) :
    candidate.convertedText line options currentType (ignored candidate.name candidate.target) =
      if candidate.form = .short ∧ new = candidate.shownName then '[' :: candidate.name ++ [']']
      else
        Span.textIn ⟨candidate.linkSpan.start, candidate.targetSpan.start⟩ line ++ new ++
          Span.textIn ⟨candidate.targetSpan.stop, candidate.linkSpan.stop⟩ line := by
  unfold newTarget? at isNew
  split at isNew
  · simp at isNew
  · rename_i notIgnored
    unfold rendered? at isNew
    unfold convertedText
    cases read : DocLink.ofTarget? candidate.target options with
    | none => simp [read] at isNew
    | some link =>
        simp only [read] at isNew
        split at isNew
        · simp at isNew
        · rename_i notPrimitive
          simp only [notIgnored, notPrimitive, Bool.or_self, Bool.false_eq_true, if_false]
          rw [Option.some.inj isNew]

/-- Converting one candidate in a text that is still that of the line up to the end of the link. -/
theorem FitsIn.substitute_eq (fits : candidate.FitsIn line) (rest new : Text) :
    candidate.substitute (line.take candidate.linkSpan.stop ++ rest) new =
      line.take candidate.linkSpan.start ++
        (if candidate.form = .short ∧ new = candidate.shownName then '[' :: candidate.name ++ [']']
        else
          Span.textIn ⟨candidate.linkSpan.start, candidate.targetSpan.start⟩ line ++ new ++
            Span.textIn ⟨candidate.targetSpan.stop, candidate.linkSpan.stop⟩ line) ++ rest := by
  rcases fits with ⟨nonempty, within, ⟨behindStart, inOrder, beforeStop⟩, -⟩
  unfold substitute
  by_cases collapses : candidate.form = .short ∧ new = candidate.shownName
  · have nothing : Span.textIn ⟨candidate.linkSpan.stop, candidate.linkSpan.stop⟩ line = [] := by
      simp [Span.textIn]
    rw [if_pos (by simpa using collapses), if_pos collapses,
      Span.replace_take_append (Nat.le_of_lt nonempty) le_rfl within, nothing, List.nil_append]
  · rw [if_neg (by simpa using collapses), if_neg collapses,
      Span.replace_take_append inOrder beforeStop within,
      ← Span.take_append_textIn behindStart]
    simp only [List.append_assoc]

end Alone

end Candidate

section Steps

variable (options : Options) (currentType : Option Text) (ignored : Text → Text → Bool)

theorem snd_foldr_step_eq (line : Text) (candidates : List Candidate) :
    (candidates.foldr (ConvertedLine.step options currentType ignored) (line, 0)).2 =
      candidates.countP fun candidate =>
        candidate.isConvertible options (ignored candidate.name candidate.target) := by
  induction candidates with
  | nil => rfl
  | cons candidate candidates ih =>
      rw [List.foldr_cons, List.countP_cons, ← ih, ← Candidate.isSome_newTarget?,
        ConvertedLine.step, Candidate.newTarget?]
      split
      · simp
      · cases candidate.rendered? options currentType <;> simp

/--
Behind any place of the line, converting the candidates one by one replaces them all at once. The
induction runs from the last candidate to the first; up to the end of the candidate at hand the text
is that of the line.
-/
theorem fst_foldr_step_eq {line : Text} {candidates : List Candidate} (start : Nat)
    (fit : ∀ candidate ∈ candidates, candidate.FitsIn line)
    (inOrder : candidates.Pairwise Candidate.Precedes)
    (behind : ∀ candidate ∈ candidates, start ≤ candidate.linkSpan.start) :
    (candidates.foldr (ConvertedLine.step options currentType ignored) (line, 0)).1 =
      line.take start ++ Span.replaceAll line start (candidates.map fun candidate =>
        (candidate.linkSpan, candidate.convertedText line options currentType
          (ignored candidate.name candidate.target))) := by
  induction candidates generalizing start with
  | nil => exact (List.take_append_drop start line).symm
  | cons candidate candidates ih =>
      rcases List.pairwise_cons.mp inOrder with ⟨first, later⟩
      have fits := fit candidate (List.mem_cons_self ..)
      have reached : line.take start ++ Span.textIn ⟨start, candidate.linkSpan.start⟩ line =
          line.take candidate.linkSpan.start :=
        Span.take_append_textIn (behind candidate (List.mem_cons_self ..))
      have converted := ih candidate.linkSpan.stop
        (fun other isLater => fit other (List.mem_cons_of_mem _ isLater)) later first
      rw [List.foldr_cons, fst_step, converted, List.map_cons, Span.replaceAll]
      cases isNew : candidate.newTarget? options currentType ignored with
      | none =>
          rw [Candidate.convertedText_of_none isNew,
            ← Span.take_append_textIn (Nat.le_of_lt fits.nonempty), ← reached]
          simp only [List.append_assoc]
      | some new =>
          rw [Candidate.convertedText_of_some isNew]
          simp only
          rw [fits.substitute_eq, ← reached]
          simp only [List.append_assoc]

end Steps

section Places

theorem fitsIn_candidate (front name target back : Text) :
    (ShortForm.candidate front.length name target).FitsIn
      (front ++ ((Piece.link name target).text ++ back)) := by
  have spelled : front ++ ((Piece.link name target).text ++ back) =
      (front ++ '[' :: (name ++ [']', '('])) ++ (target ++ (')' :: back)) := by
    simp [Piece.text]
  have header : (front ++ '[' :: (name ++ [']', '('])).length = front.length + name.length + 3 := by
    simp only [List.length_append, List.length_cons, List.length_nil]
    omega
  constructor
  case nonempty =>
    simp only [ShortForm.candidate]
    omega
  case within =>
    simp only [ShortForm.candidate, List.length_append, ShortForm.length_link]
    omega
  case target_inside =>
    simp only [ShortForm.candidate]
    refine ⟨?_, ?_, ?_⟩ <;> simp only <;> omega
  case textIn_target =>
    simp only [ShortForm.candidate]
    rw [spelled, ← header]
    exact Span.textIn_append _ _ _

/-- The links among the pieces of a line stand where the candidates say, one behind the other. -/
theorem Piece.candidates_places (front : Text) (pieces : List Piece) :
    (∀ candidate ∈ candidates front.length pieces,
      candidate.FitsIn (front ++ pieces.flatMap Piece.text) ∧
        front.length ≤ candidate.linkSpan.start) ∧
    (candidates front.length pieces).Pairwise Candidate.Precedes := by
  induction pieces generalizing front with
  | nil => simp [candidates]
  | cons piece pieces ih =>
      have later := ih (front ++ piece.text)
      rw [List.append_assoc, ← List.flatMap_cons] at later
      rcases later with ⟨places, inOrder⟩
      cases piece with
      | plain char =>
          have length : (front ++ (plain char).text).length = front.length + 1 := by
            simp [Piece.text]
          rw [length] at places inOrder
          refine ⟨?_, inOrder⟩
          intro candidate found
          rcases places candidate found with ⟨fits, behind⟩
          exact ⟨fits, by omega⟩
      | link name target =>
          rw [List.length_append, ShortForm.length_link] at places inOrder
          rw [candidates]
          refine ⟨?_, List.pairwise_cons.mpr ⟨?_, inOrder⟩⟩
          · intro candidate found
            rcases List.mem_cons.mp found with rfl | isLater
            · rw [List.flatMap_cons]
              exact ⟨fitsIn_candidate front name target _, le_rfl⟩
            · rcases places candidate isLater with ⟨fits, behind⟩
              exact ⟨fits, by omega⟩
          · intro candidate isLater
            have behind := (places candidate isLater).2
            simp only [Candidate.Precedes, ShortForm.candidate]
            omega

theorem LongForm.fitsIn_of_read? {line : Text} {candidate : Candidate}
    (read : read? line = some candidate) : candidate.FitsIn line := by
  rcases read?_eq_some read with ⟨header, lineEnd, shape, -, targetSpan, -, nonempty, -, -⟩
  have whole : candidate.linkSpan = ⟨0, line.length⟩ := by
    unfold read? at read
    split at read
    · simp at read
    · split at read
      · simp at read
      · split at read
        · rw [← Option.some.inj read]
        · simp at read
  have length : line.length = header.length + (candidate.target.length + lineEnd.length) := by
    rw [shape, List.length_append, List.length_append]
  have filled := List.length_pos_iff.mpr nonempty
  constructor
  case nonempty =>
    simp only [whole]
    omega
  case within => rw [whole]
  case target_inside =>
    rw [whole, targetSpan]
    refine ⟨?_, ?_, ?_⟩ <;> simp only <;> omega
  case textIn_target =>
    have found := Span.textIn_append header candidate.target lineEnd
    rw [targetSpan]
    rwa [← shape] at found

theorem candidatesIn_places (line : Text) :
    (∀ candidate ∈ candidatesIn line, candidate.FitsIn line) ∧
      (candidatesIn line).Pairwise Candidate.Precedes := by
  unfold candidatesIn
  cases long : LongForm.read? line with
  | some candidate =>
      simp only
      split
      · simp
      · simpa using LongForm.fitsIn_of_read? long
  | none =>
      obtain ⟨pieces, shape, scanned, -⟩ := ShortForm.exists_pieces 0 line
      rcases Piece.candidates_places [] pieces with ⟨places, inOrder⟩
      rw [List.nil_append, ← shape] at places
      simp only [scanned]
      refine ⟨?_, inOrder.sublist List.filter_sublist⟩
      intro candidate found
      exact (places candidate (List.mem_filter.mp found).1).1

end Places

/--
Converting the links of a line in place replaces all of them at once. They stand in the line where
the candidates say, one behind the other. A link that is ignored, cannot be read or leads to a
primitive type is left as it is; a short one whose name says as much as its rendering loses its
target; of any other link the target alone is replaced. What a link becomes depends on whether it is
ignored itself, and on no other link.
-/
theorem ConvertedLine.ofLine_eq_replaceAll (line : Text) (options : Options)
    (currentType : Option Text) (ignored : Text → Text → Bool) :
    (∀ candidate ∈ candidatesIn line, candidate.FitsIn line) ∧
    (candidatesIn line).Pairwise Candidate.Precedes ∧
    (ofLine line options currentType ignored).text =
      Span.replaceAll line 0 ((candidatesIn line).map fun candidate =>
        (candidate.linkSpan, candidate.convertedText line options currentType
          (ignored candidate.name candidate.target))) ∧
    (ofLine line options currentType ignored).converted =
      (candidatesIn line).countP fun candidate =>
        candidate.isConvertible options (ignored candidate.name candidate.target) := by
  rcases candidatesIn_places line with ⟨fit, inOrder⟩
  refine ⟨fit, inOrder, ?_, ?_⟩
  · have replaced := fst_foldr_step_eq options currentType ignored 0 fit inOrder
      (fun candidate _ => Nat.zero_le candidate.linkSpan.start)
    rw [List.take_zero, List.nil_append] at replaced
    exact replaced
  · exact snd_foldr_step_eq options currentType ignored line (candidatesIn line)

end IntraDoc
