import IntraDoc.Proofs.Line.Occurrences

/-!
# What a conversion exchanges

Converting a link exchanges its target, or takes target and parentheses away. The other characters
of the line, those of the name included, stay where they are between the parts that are exchanged.
As a link that begins within another one lies within the name of that, a link that is not converted
itself is kept as it is written, whatever becomes of the links around it.
-/

namespace IntraDoc

namespace Span

variable {line : Text} {start stop : Nat} {span : Span} {edits : List (Span × Text)}

/-- Two parts of a line without a character in common. -/
def Apart (span other : Span) : Prop :=
  span.stop ≤ other.start ∨ other.stop ≤ span.start

/-- New texts for parts of the line from the character `start` on, one behind the other. -/
structure AreEdits (line : Text) (start : Nat) (edits : List (Span × Text)) : Prop where
  inOrder : edits.Pairwise fun edit next => edit.1.stop ≤ next.1.start
  within : ∀ edit ∈ edits, edit.1.IsInside ⟨start, line.length⟩

/--
The edits leave a part as it is: they come before or behind it, and the part stands between what
they make of the text before it and of the text behind it.
-/
def Keeps (line : Text) (edits : List (Span × Text)) (span : Span) : Prop :=
  ∃ front back, edits = front ++ back ∧
    (∀ edit ∈ front, edit.1.stop ≤ span.start) ∧ (∀ edit ∈ back, span.stop ≤ edit.1.start) ∧
    replaceAll line 0 edits =
      replaceAll (line.take span.start) 0 front ++ span.textIn line ++
        replaceAll line span.stop back

theorem textIn_append_textIn {middle : Nat} (first : start ≤ middle) (second : middle ≤ stop)
    (within : stop ≤ line.length) :
    textIn ⟨start, middle⟩ line ++ textIn ⟨middle, stop⟩ line = textIn ⟨start, stop⟩ line := by
  have shape : line.take middle ++ textIn ⟨middle, stop⟩ line = line.take stop :=
    take_append_textIn second
  simp only [textIn] at shape ⊢
  conv_rhs => rw [← shape, List.drop_append_of_le_length (by rw [List.length_take]; omega)]

theorem textIn_append_drop (first : start ≤ stop) (within : stop ≤ line.length) :
    textIn ⟨start, stop⟩ line ++ line.drop stop = line.drop start := by
  have shape := List.take_append_drop stop line
  simp only [textIn]
  conv_rhs => rw [← shape, List.drop_append_of_le_length (by rw [List.length_take]; omega)]

/-- Up to the first edit the line stays as it is. -/
theorem textIn_append_replaceAll (first : start ≤ stop) (within : stop ≤ line.length)
    (are : AreEdits line stop edits) :
    textIn ⟨start, stop⟩ line ++ replaceAll line stop edits = replaceAll line start edits := by
  cases edits with
  | nil => exact textIn_append_drop first within
  | cons edit others =>
      obtain ⟨behind, inOrder, ends⟩ := are.within edit List.mem_cons_self
      simp only at behind ends
      rw [replaceAll, replaceAll, ← textIn_append_textIn first behind (inOrder.trans ends)]
      simp only [List.append_assoc]

theorem textIn_take {limit : Nat} (short : stop ≤ limit) :
    textIn ⟨start, stop⟩ (line.take limit) = textIn ⟨start, stop⟩ line := by
  simp only [textIn, List.take_take, Nat.min_eq_left short]

theorem AreEdits.of_cons {edit : Span × Text} (are : AreEdits line start (edit :: edits)) :
    AreEdits line edit.1.stop edits := by
  obtain ⟨first, later⟩ := List.pairwise_cons.mp are.inOrder
  refine ⟨later, ?_⟩
  intro other isOther
  obtain ⟨-, inOrder, ends⟩ := are.within other (List.mem_cons_of_mem _ isOther)
  exact ⟨first other isOther, inOrder, ends⟩

theorem AreEdits.of_forall (are : AreEdits line start edits)
    (behind : ∀ edit ∈ edits, stop ≤ edit.1.start) : AreEdits line stop edits := by
  refine ⟨are.inOrder, ?_⟩
  intro edit isEdit
  obtain ⟨-, inOrder, ends⟩ := are.within edit isEdit
  exact ⟨behind edit isEdit, inOrder, ends⟩

/-- A part that no edit overlaps stands between what becomes of the text before and behind it. -/
theorem replaceAll_of_apart (are : AreEdits line start edits)
    (inside : span.IsInside ⟨start, line.length⟩)
    (apart : ∀ edit ∈ edits, Apart edit.1 span) :
    ∃ front back, edits = front ++ back ∧
      (∀ edit ∈ front, edit.1.stop ≤ span.start) ∧ (∀ edit ∈ back, span.stop ≤ edit.1.start) ∧
      replaceAll line start edits = replaceAll (line.take span.start) start front ++
        span.textIn line ++ replaceAll line span.stop back := by
  obtain ⟨begins, inOrder, ends⟩ := inside
  simp only at begins ends
  induction edits generalizing start with
  | nil =>
      refine ⟨[], [], rfl, by simp, by simp, ?_⟩
      simp only [replaceAll]
      rw [← textIn_append_drop begins (inOrder.trans ends), ← textIn_append_drop inOrder ends]
      simp [textIn]
  | cons edit others ih =>
      rcases apart edit List.mem_cons_self with before | behind
      · -- The first edit comes before the part.
        obtain ⟨isBehind, isInOrder, -⟩ := are.within edit List.mem_cons_self
        obtain ⟨front, back, rfl, frontBefore, backBehind, replaced⟩ := ih are.of_cons
          (fun other isOther => apart other (List.mem_cons_of_mem _ isOther)) before
        refine ⟨edit :: front, back, rfl, by simpa [before] using frontBefore, backBehind, ?_⟩
        rw [replaceAll, replaceAll, replaced, textIn_take (isInOrder.trans before)]
        simp only [List.append_assoc]
      · -- All edits come behind the part.
        obtain ⟨first, -⟩ := List.pairwise_cons.mp are.inOrder
        have allBehind : ∀ other ∈ edit :: others, span.stop ≤ other.1.start := by
          intro other isOther
          rcases List.mem_cons.mp isOther with rfl | later
          · exact behind
          · have next := first other later
            have editInOrder := (are.within edit List.mem_cons_self).2.1
            omega
        refine ⟨[], edit :: others, rfl, by simp, allBehind, ?_⟩
        have fromStop := are.of_forall allBehind
        have fromStart := are.of_forall fun other isOther =>
          inOrder.trans (allBehind other isOther)
        rw [← textIn_append_replaceAll begins (inOrder.trans ends) fromStart,
          ← textIn_append_replaceAll inOrder ends fromStop]
        simp [replaceAll, textIn]

end Span

namespace ShortForm

variable {depth : Int} {front back name rest : Text}

theorem openBrackets_append (front back : Text) :
    openBrackets (front ++ back) = openBrackets front + openBrackets back := by
  simp only [openBrackets, List.count_append]
  omega

theorem ClosesFrom.of_append (closes : ClosesFrom depth (front ++ back)) :
    ClosesFrom (depth + openBrackets front) back := by
  refine ⟨fun inside => closes.unbroken (List.mem_append_right _ inside), ?_, ?_⟩
  · intro shorter isFront
    have nested :=
      closes.nested (front ++ shorter) ((List.prefix_append_right_inj front).mpr isFront)
    rwa [openBrackets_append, ← Int.add_assoc] at nested
  · have closed := closes.closed
    rwa [openBrackets_append, ← Int.add_assoc] at closed

/-- What follows a bracket that opens within a name closes it. -/
theorem IsName.closesFrom_behind (isName : IsName (front ++ '[' :: back)) : ClosesFrom 1 back := by
  have closes : ClosesFrom (0 + openBrackets front) ('[' :: back) := ClosesFrom.of_append isName
  obtain ⟨-, bounds, later⟩ := closesFrom_cons.mp closes
  have step : bracketStep '[' = 1 := rfl
  rw [step] at later
  have laterBounds := later.bounds
  have outer : 0 + openBrackets front + 1 = 1 := by omega
  rwa [outer] at later

/-- A name at the front of a text that closes a bracket ends at or before that bracket. -/
theorem exists_append_of_closesFrom {other : Text} (closes : ClosesFrom 1 back)
    (isName : IsName name) (same : back ++ rest = name ++ ']' :: other) :
    ∃ others, back = name ++ ']' :: others := by
  have unclosed : ∀ front, front <+: name → openBrackets front ≠ openBrackets back := by
    intro front isFront equal
    have nested := (isName.nested front isFront).1
    have closed := closes.closed
    omega
  rcases List.append_eq_append_iff.mp same with ⟨more, rfl, -⟩ | ⟨more, rfl, behind⟩
  · exact absurd rfl (unclosed back (List.prefix_append back more))
  · cases more with
    | nil => exact absurd (by rw [List.append_nil]) (unclosed name (List.prefix_refl name))
    | cons char others =>
        rw [List.cons_append, List.cons.injEq] at behind
        exact ⟨others, by rw [← behind.1]⟩

/-- Of two links that are taken one precedes the other. -/
theorem Selects.precedes_or {line : Text} {start : Nat} {selected : List Candidate}
    (selects : Selects line start selected) {first second : Candidate}
    (firstTaken : first ∈ selected) (secondTaken : second ∈ selected) :
    first = second ∨ first.Precedes second ∨ second.Precedes first := by
  apply List.Pairwise.forall_of_forall_of_flip
    (R := fun first second => first = second ∨ first.Precedes second ∨ second.Precedes first)
    _ _ _ firstTaken secondTaken
  · exact fun _ _ => Or.inl rfl
  · exact selects.pairwise.imp fun before => Or.inr (Or.inl before)
  · exact selects.pairwise.imp fun before => Or.inr (Or.inr before)

/-- A character that the tail has not is found in front of the tail. -/
theorem exists_of_drop_eq {stop : Char} {tail : Text} {count : Nat} (free : stop ∉ tail)
    (inside : count < front.length + tail.length)
    (found : (front ++ (tail ++ back)).drop count = stop :: rest) :
    ∃ post, front = front.take count ++ stop :: post ∧ post ++ (tail ++ back) = rest := by
  have inFront : count < front.length := by
    by_contra outside
    have first := congrArg List.head? found
    rw [List.head?_drop, List.getElem?_append_right (by omega),
      List.getElem?_append_left (by omega), List.head?_cons] at first
    exact free (List.mem_of_getElem? first)
  rw [List.drop_append_of_le_length (by omega)] at found
  cases dropped : front.drop count with
  | nil =>
      have length := congrArg List.length dropped
      rw [List.length_drop, List.length_nil] at length
      omega
  | cons char post =>
      rw [dropped, List.cons_append, List.cons.injEq] at found
      exact ⟨post, by rw [← found.1, ← dropped, List.take_append_drop], found.2⟩

theorem length_le_of_notMem {stop : Char} {inner others : Text} (free : stop ∉ inner)
    (same : others ++ stop :: rest = inner ++ back) : inner.length ≤ others.length := by
  rcases List.append_eq_append_iff.mp same with ⟨more, rfl, behind⟩ | ⟨more, rfl, -⟩
  · cases more with
    | nil => simp
    | cons char more =>
        rw [List.cons_append, List.cons.injEq] at behind
        simp [behind.1] at free
  · simp

end ShortForm

namespace Candidate

variable {line : Text} {candidate other : Candidate}

/-- A link that begins within another one lies within the name of that. -/
theorem OccursIn.stop_le_of_start_lt (occurs : candidate.OccursIn line)
    (inner : other.OccursIn line) (begins : candidate.linkSpan.start < other.linkSpan.start)
    (before : other.linkSpan.start < candidate.linkSpan.stop) :
    other.linkSpan.stop ≤ candidate.linkSpan.start + 1 + candidate.name.length := by
  obtain ⟨isName, isWhole, back, shape⟩ := ShortForm.read?_eq_some_iff.mp occurs.read?_drop
  obtain ⟨innerName, innerWhole, innerBack, innerShape⟩ :=
    ShortForm.read?_eq_some_iff.mp inner.read?_drop
  have stop := occurs.stop_eq
  have innerStop := inner.stop_eq
  obtain ⟨count, place⟩ : ∃ count, other.linkSpan.start = candidate.linkSpan.start + (count + 1) :=
    ⟨other.linkSpan.start - candidate.linkSpan.start - 1, by omega⟩
  have opens : (candidate.name ++ ([']', '('] ++ candidate.target ++ [')'] ++ back)).drop count =
      '[' :: (other.name ++ ']' :: (['('] ++ other.target ++ [')'] ++ innerBack)) := by
    have dropped := congrArg (List.drop (count + 1)) shape
    rw [List.drop_drop, ← place, innerShape] at dropped
    simpa [Piece.text] using dropped.symm
  have targetFree : '[' ∉ candidate.target := isWhole.isTarget.notMem (by decide) (by decide)
  obtain ⟨post, nameShape, goesOn⟩ := ShortForm.exists_of_drop_eq (by simp [targetFree])
    (by simp only [List.length_append, List.length_cons, List.length_nil]; omega) opens
  -- The name closes the bracket that the inner link opens, so the inner name ends within it.
  have closes : ShortForm.ClosesFrom 1 post := by
    rw [nameShape] at isName
    exact isName.closesFrom_behind
  obtain ⟨others, rfl⟩ := ShortForm.exists_append_of_closesFrom closes innerName goesOn
  -- The inner target has no bracket, so it ends before the bracket behind the name.
  have innerFree : ']' ∉ ['('] ++ other.target ++ [')'] := by
    have bracketFree : ']' ∉ other.target := innerWhole.isTarget.notMem (by decide) (by decide)
    simp [bracketFree]
  have targetIn : (['('] ++ other.target ++ [')']).length ≤ others.length := by
    have behindName : others ++ ']' :: (['('] ++ candidate.target ++ [')'] ++ back) =
        (['('] ++ other.target ++ [')']) ++ innerBack := by
      simpa using goesOn
    exact ShortForm.length_le_of_notMem innerFree behindName
  have length := congrArg List.length nameShape
  simp only [List.length_append, List.length_cons, List.length_take] at length
  simp only [List.length_append, List.length_cons, List.length_nil] at targetIn
  omega

/--
What a conversion exchanges of a link, and for what: the target for its rendering or, if the name
says as much, target and parentheses for nothing.
-/
def edit? (candidate : Candidate) (options : Options) (currentType : Option Text)
    (ignored : Text → Text → Bool) : Option (Span × Text) :=
  (candidate.newTarget? options currentType ignored).map fun new =>
    if candidate.form = .short ∧ new = candidate.shownName then
      (⟨candidate.targetSpan.start - 1, candidate.linkSpan.stop⟩, [])
    else (candidate.targetSpan, new)

/-- The link stands in the line where the candidate says, and a short one is spelled there. -/
structure IsPlaced (line : Text) (candidate : Candidate) : Prop where
  fits : candidate.FitsIn line
  occurs : candidate.form = .short → candidate.OccursIn line

/-- A link as it is written in a line: a long-form link is the only one of its line. -/
def IsLinkOf (line : Text) (candidate : Candidate) : Prop :=
  LongForm.read? line = some candidate ∨
    LongForm.read? line = none ∧ candidate.OccursIn line

variable {options : Options} {currentType : Option Text} {ignored : Text → Text → Bool}
  {edit : Span × Text}

theorem edit?_eq_some_iff :
    candidate.edit? options currentType ignored = some edit ↔
      ∃ new, candidate.newTarget? options currentType ignored = some new ∧
        ((candidate.form = .short ∧ new = candidate.shownName) ∧
            edit = (⟨candidate.targetSpan.start - 1, candidate.linkSpan.stop⟩, []) ∨
          ¬(candidate.form = .short ∧ new = candidate.shownName) ∧
            edit = (candidate.targetSpan, new)) := by
  unfold edit?
  rw [Option.map_eq_some_iff]
  constructor
  · rintro ⟨new, isNew, rfl⟩
    refine ⟨new, isNew, ?_⟩
    split
    · exact Or.inl ⟨‹_›, rfl⟩
    · exact Or.inr ⟨‹_›, rfl⟩
  · rintro ⟨new, isNew, ⟨collapses, rfl⟩ | ⟨keepsParentheses, rfl⟩⟩
    · exact ⟨new, isNew, if_pos collapses⟩
    · exact ⟨new, isNew, if_neg keepsParentheses⟩

theorem edit?_of_ignored (isIgnored : ignored candidate.name candidate.target = true) :
    candidate.edit? options currentType ignored = none := by
  rw [edit?, newTarget?, if_pos isIgnored, Option.map_none]

/-- The characters that are exchanged are those of the link behind its name. -/
theorem IsPlaced.edit_inside (isPlaced : IsPlaced line candidate)
    (isEdit : candidate.edit? options currentType ignored = some edit) :
    edit.1.IsInside candidate.linkSpan ∧
      (candidate.form = .short →
        candidate.linkSpan.start + 1 + candidate.name.length < edit.1.start) := by
  obtain ⟨behindStart, inOrder, beforeStop⟩ := isPlaced.fits.target_inside
  obtain ⟨new, -, ⟨⟨isShort, -⟩, rfl⟩ | ⟨-, rfl⟩⟩ := edit?_eq_some_iff.mp isEdit
  · have starts := (isPlaced.occurs isShort).targetStart
    refine ⟨⟨?_, ?_, le_rfl⟩, ?_⟩
    · simp only
      omega
    · simp only
      omega
    · intro _
      simp only
      omega
  · refine ⟨⟨behindStart, inOrder, beforeStop⟩, ?_⟩
    intro isShort
    have starts := (isPlaced.occurs isShort).targetStart
    simp only
    omega

theorem OccursIn.take_targetSpan (occurs : candidate.OccursIn line) :
    line.take (candidate.targetSpan.start - 1) =
      line.take candidate.linkSpan.start ++ ('[' :: candidate.name ++ [']']) := by
  obtain ⟨-, -, back, shape⟩ := ShortForm.read?_eq_some_iff.mp occurs.read?_drop
  have place : candidate.targetSpan.start - 1 =
      candidate.linkSpan.start + ('[' :: candidate.name ++ [']']).length := by
    rw [occurs.targetStart]
    simp only [List.cons_append, List.length_cons, List.length_append, List.length_nil]
    omega
  have header : (Piece.link candidate.name candidate.target).text ++ back =
      ('[' :: candidate.name ++ [']']) ++ ('(' :: candidate.target ++ ')' :: back) := by
    simp [Piece.text]
  rw [place, List.take_add, shape, header, List.take_left]

/-- Converting a link is making the exchange in a text that is that of the line up to its end. -/
theorem IsPlaced.substitute_eq (isPlaced : IsPlaced line candidate) {new : Text}
    (isNew : candidate.newTarget? options currentType ignored = some new)
    (isEdit : candidate.edit? options currentType ignored = some edit) (rest : Text) :
    candidate.substitute (line.take candidate.linkSpan.stop ++ rest) new =
      line.take edit.1.start ++ edit.2 ++
        (Span.textIn ⟨edit.1.stop, candidate.linkSpan.stop⟩ line ++ rest) := by
  obtain ⟨nonempty, within, ⟨behindStart, inOrder, beforeStop⟩, -⟩ := isPlaced.fits
  obtain ⟨_, isSame, cases⟩ := edit?_eq_some_iff.mp isEdit
  obtain rfl := Option.some.inj (isNew.symm.trans isSame)
  unfold substitute
  rcases cases with ⟨collapses, rfl⟩ | ⟨keepsParentheses, rfl⟩
  · rw [if_pos (by simpa using collapses),
      Span.replace_take_append (Nat.le_of_lt nonempty) le_rfl within]
    simp only
    rw [(isPlaced.occurs collapses.1).take_targetSpan, List.append_nil]
  · rw [if_neg (by simpa using keepsParentheses),
      Span.replace_take_append inOrder beforeStop within]

variable {candidates : List Candidate} {start : Nat}

theorem areEdits_filterMap (isPlaced : ∀ candidate ∈ candidates, IsPlaced line candidate)
    (inOrder : candidates.Pairwise Precedes)
    (behind : ∀ candidate ∈ candidates, start ≤ candidate.linkSpan.start) :
    Span.AreEdits line start
      (candidates.filterMap fun candidate => candidate.edit? options currentType ignored) := by
  constructor
  case inOrder =>
    apply List.pairwise_filterMap.mpr
    apply inOrder.imp_of_mem
    intro candidate next found nextFound precedes edit isEdit nextEdit isNextEdit
    obtain ⟨-, -, ends⟩ := ((isPlaced candidate found).edit_inside isEdit).1
    obtain ⟨begins, -, -⟩ := ((isPlaced next nextFound).edit_inside isNextEdit).1
    exact ends.trans (precedes.trans begins)
  case within =>
    intro edit isEdit
    obtain ⟨candidate, found, isEdit⟩ := List.mem_filterMap.mp isEdit
    obtain ⟨begins, inOrder, ends⟩ := ((isPlaced candidate found).edit_inside isEdit).1
    exact ⟨(behind candidate found).trans begins, inOrder,
      ends.trans (isPlaced candidate found).fits.within⟩

/--
Behind any place of the line, converting the candidates one by one makes all exchanges at once. As
long as the text is that of the line up to the end of the candidate at hand, its exchange is valid.
-/
theorem fst_foldr_step_eq_edits (start : Nat)
    (isPlaced : ∀ candidate ∈ candidates, IsPlaced line candidate)
    (inOrder : candidates.Pairwise Precedes)
    (behind : ∀ candidate ∈ candidates, start ≤ candidate.linkSpan.start) :
    (candidates.foldr (ConvertedLine.step options currentType ignored) (line, 0)).1 =
      line.take start ++ Span.replaceAll line start
        (candidates.filterMap fun candidate => candidate.edit? options currentType ignored) := by
  induction candidates generalizing start with
  | nil => exact (List.take_append_drop start line).symm
  | cons candidate candidates ih =>
      obtain ⟨first, later⟩ := List.pairwise_cons.mp inOrder
      have placed := isPlaced candidate List.mem_cons_self
      have othersPlaced : ∀ other ∈ candidates, IsPlaced line other :=
        fun other isLater => isPlaced other (List.mem_cons_of_mem _ isLater)
      have are : Span.AreEdits line candidate.linkSpan.stop
          (candidates.filterMap fun candidate => candidate.edit? options currentType ignored) :=
        areEdits_filterMap othersPlaced later first
      have begins := behind candidate List.mem_cons_self
      have nonempty := placed.fits.nonempty
      rw [List.foldr_cons, fst_step, ih candidate.linkSpan.stop othersPlaced later first]
      cases isNew : candidate.newTarget? options currentType ignored with
      | none =>
          have noEdit : candidate.edit? options currentType ignored = none := by
            rw [edit?, isNew, Option.map_none]
          simp only [List.filterMap_cons, noEdit]
          rw [← Span.take_append_textIn (begins.trans nonempty.le), List.append_assoc,
            Span.textIn_append_replaceAll (begins.trans nonempty.le) placed.fits.within are]
      | some new =>
          obtain ⟨edit, isEdit⟩ : ∃ edit, candidate.edit? options currentType ignored =
              some edit := ⟨_, by rw [edit?, isNew, Option.map_some]⟩
          obtain ⟨editBegins, -, editEnds⟩ := (placed.edit_inside isEdit).1
          simp only [List.filterMap_cons, isEdit]
          rw [placed.substitute_eq isNew isEdit,
            Span.textIn_append_replaceAll editEnds placed.fits.within are, Span.replaceAll,
            ← Span.take_append_textIn (begins.trans editBegins)]
          simp only [List.append_assoc]

end Candidate

section Lines

variable {line : Text} {options : Options} {currentType : Option Text}
  {ignored : Text → Text → Bool} {link : Candidate}

theorem isPlaced_of_mem_candidatesIn {candidate : Candidate}
    (found : candidate ∈ candidatesIn line) : candidate.IsPlaced line := by
  refine ⟨(candidatesIn_places line).1 candidate found, ?_⟩
  intro isShort
  unfold candidatesIn at found
  split at found
  · rename_i long isLong
    obtain ⟨-, -, -, form, -⟩ := LongForm.read?_eq_some isLong
    split at found
    · simp at found
    · simp [List.mem_singleton.mp found, form] at isShort
  · have selects := ShortForm.selects_scan line 0
    exact (selects.occursIn candidate (List.mem_filter.mp found).1).1

/-- The exchanges that a conversion makes in a line. -/
def lineEdits (line : Text) (options : Options) (currentType : Option Text)
    (ignored : Text → Text → Bool) : List (Span × Text) :=
  (candidatesIn line).filterMap fun candidate => candidate.edit? options currentType ignored

theorem areEdits_lineEdits :
    Span.AreEdits line 0 (lineEdits line options currentType ignored) :=
  Candidate.areEdits_filterMap (fun _ found => isPlaced_of_mem_candidatesIn found)
    (candidatesIn_places line).2 fun _ _ => Nat.zero_le _

theorem ofLine_text_eq_replaceAll_lineEdits :
    (ConvertedLine.ofLine line options currentType ignored).text =
      Span.replaceAll line 0 (lineEdits line options currentType ignored) := by
  have replaced : (ConvertedLine.ofLine line options currentType ignored).text =
      line.take 0 ++ Span.replaceAll line 0 (lineEdits line options currentType ignored) :=
    Candidate.fst_foldr_step_eq_edits 0 (fun _ found => isPlaced_of_mem_candidatesIn found)
      (candidatesIn_places line).2 fun _ _ => Nat.zero_le _
  rwa [List.take_zero, List.nil_append] at replaced

/-- No exchange touches a link that is not converted itself. -/
theorem apart_of_edit?_eq_none (isLink : link.IsLinkOf line)
    (unchanged : link.edit? options currentType ignored = none) :
    ∀ edit ∈ lineEdits line options currentType ignored, Span.Apart edit.1 link.linkSpan := by
  intro edit isEdit
  obtain ⟨candidate, found, isEdit⟩ := List.mem_filterMap.mp isEdit
  have other : candidate ≠ link := by
    rintro rfl
    simp [unchanged] at isEdit
  have placed := isPlaced_of_mem_candidatesIn found
  obtain ⟨⟨begins, -, ends⟩, behindName⟩ := placed.edit_inside isEdit
  rcases isLink with isLong | ⟨notLong, occurs⟩
  · -- A long-form link has its line for itself.
    simp only [candidatesIn, isLong] at found
    split at found
    · simp at found
    · exact absurd (List.mem_singleton.mp found) other
  · simp only [candidatesIn, notLong] at found
    have taken := (List.mem_filter.mp found).1
    have selects := ShortForm.selects_scan line 0
    have candidateOccurs := (selects.occursIn candidate taken).1
    rcases selects.mem_or_overlaps occurs (Nat.zero_le _) with
      linkTaken | ⟨outer, outerTaken, behindStart, beforeStop⟩
    · rcases selects.precedes_or taken linkTaken with same | before | behind
      · exact absurd same other
      · exact Or.inl (ends.trans before)
      · exact Or.inr (Nat.le_trans behind begins)
    · -- The link lies within the name of another one, and so before what that exchanges.
      have outerOccurs := (selects.occursIn outer outerTaken).1
      have inName := outerOccurs.stop_le_of_start_lt occurs behindStart beforeStop
      have outerStop := outerOccurs.stop_eq
      rcases selects.precedes_or taken outerTaken with rfl | before | behind
      · have edited := behindName outerOccurs.form
        exact Or.inr (by omega)
      · exact Or.inl (ends.trans (Nat.le_trans before behindStart.le))
      · have first : outer.linkSpan.stop ≤ candidate.linkSpan.start := behind
        exact Or.inr (by omega)

theorem isInside_of_isLinkOf (isLink : link.IsLinkOf line) :
    link.linkSpan.IsInside ⟨0, line.length⟩ := by
  rcases isLink with isLong | ⟨-, occurs⟩
  · have fits := LongForm.fitsIn_of_read? isLong
    exact ⟨Nat.zero_le _, fits.nonempty.le, fits.within⟩
  · have stop := occurs.stop_eq
    refine ⟨Nat.zero_le _, ?_, occurs.within⟩
    omega

/-- A conversion keeps every link that it does not convert itself as it is written. -/
theorem keeps_lineEdits (isLink : link.IsLinkOf line)
    (unchanged : link.edit? options currentType ignored = none) :
    Span.Keeps line (lineEdits line options currentType ignored) link.linkSpan :=
  Span.replaceAll_of_apart areEdits_lineEdits (isInside_of_isLinkOf isLink)
    (apart_of_edit?_eq_none isLink unchanged)

end Lines

end IntraDoc
