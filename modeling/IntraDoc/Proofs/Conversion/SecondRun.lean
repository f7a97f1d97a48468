import IntraDoc.Proofs.Line.Unchanged
import IntraDoc.Proofs.Scope.Intervals
import IntraDoc.Text.Lines

/-!
# Running a conversion twice

A conversion keeps a text if every link of the text is settled: it cannot be converted, or it is its
own rendering and does not repeat its name. A converted text may still have links that are not
settled, so a second run is not always without effect. The renderings to blame are the anchors that
look like those of associated items and, if leading tokens are written, the names of modules. A link
that has lost its target may also take what follows it in parentheses for a new one.
-/

namespace IntraDoc

/--
A link that a conversion without ignored links leaves as it is: one that cannot be converted, or one
whose target is its own rendering and that does not become shorter or superfluous by it.
-/
def Candidate.IsSettled (options : Options) (line : Text) (candidate : Candidate) : Prop :=
  DocLink.IsUnconvertible options candidate.target ∨
    (Rendering.IsFixed options.disambiguate candidate.target ∧
      (candidate.form = .short → candidate.target ≠ candidate.shownName) ∧
      (candidate.form = .long → linksToItself line = false))

section Candidates

variable {options : Options} {currentType : Option Text} {candidate : Candidate}

theorem Candidate.rendered?_eq_none_iff :
    candidate.rendered? options currentType = none ↔
      DocLink.IsUnconvertible options candidate.target := by
  unfold rendered? DocLink.IsUnconvertible
  cases read : DocLink.ofTarget? candidate.target options with
  | none => simp
  | some link => cases isPrimitive : link.isPrimitive <;> simp [isPrimitive]

/-- The targets that are rendered as they are do not depend on the scope. -/
theorem Candidate.rendered?_eq_target_iff (isTarget : LinkTarget.IsTarget candidate.target) :
    candidate.rendered? options currentType = some candidate.target ↔
      Rendering.IsFixed options.disambiguate candidate.target := by
  have reading := DocLink.render_eq_target_iff options (isTarget.notMem (by decide) (by decide))
    ⟨isTarget.notMem (by decide) (by decide), isTarget.notMem (by decide) (by decide),
      isTarget.notMem (by decide) (by decide)⟩ isTarget.count_colon_le currentType
  rw [← reading]
  constructor
  · intro rendered
    rcases rendered?_eq_some rendered with ⟨link, read, notPrimitive, same⟩
    exact ⟨link, read, notPrimitive, same.symm⟩
  · rintro ⟨link, read, notPrimitive, same⟩
    simp [rendered?, read, notPrimitive, same]

theorem Candidate.newTarget?_eq_rendered? {ignored : Text → Text → Bool}
    (notIgnored : ∀ name target, ignored name target = false) :
    candidate.newTarget? options currentType ignored =
      candidate.rendered? options currentType := by
  simp [newTarget?, notIgnored]

/-- Which links are kept does not depend on the scope. -/
theorem Candidate.isKept_iff (isTarget : LinkTarget.IsTarget candidate.target)
    {ignored : Text → Text → Bool} (notIgnored : ∀ name target, ignored name target = false) :
    candidate.IsKept options currentType ignored ↔
      DocLink.IsUnconvertible options candidate.target ∨
        (Rendering.IsFixed options.disambiguate candidate.target ∧
          (candidate.form = .short → candidate.target ≠ candidate.shownName)) := by
  rw [IsKept, newTarget?_eq_rendered? notIgnored]
  cases rendered : candidate.rendered? options currentType with
  | none => simp [rendered?_eq_none_iff.mp rendered]
  | some new =>
      have convertible : ¬DocLink.IsUnconvertible options candidate.target := by
        intro unconvertible
        rw [← rendered?_eq_none_iff, rendered] at unconvertible
        simp at unconvertible
      have fixed : candidate.rendered? options currentType = some candidate.target ↔ _ :=
        rendered?_eq_target_iff isTarget
      rw [or_iff_right convertible, ← fixed, rendered]
      simp only [Option.some.injEq, forall_eq']
      constructor
      · rintro ⟨rfl, notRedundant⟩
        exact ⟨rfl, notRedundant⟩
      · rintro ⟨rfl, notRedundant⟩
        exact ⟨rfl, notRedundant⟩

end Candidates

section Lines

variable {settings : Settings} {tracker : Tracker} {line : Text} {candidate : Candidate}

/-- A long-form link is the only one of its line. -/
theorem candidatesIn_eq_of_long (found : candidate ∈ candidatesIn line)
    (isLong : candidate.form = .long) : candidatesIn line = [candidate] := by
  unfold candidatesIn at found ⊢
  split at found
  · split at found
    · simp at found
    · rename_i long read notRooted
      rw [List.mem_singleton.mp found]
      simp [notRooted]
  · rcases ShortForm.exists_pieces 0 line with ⟨pieces, -, links, -⟩
    rw [links, List.mem_filter] at found
    rcases Piece.mem_candidates found.1 with ⟨place, name, target, -, rfl⟩
    simp [ShortForm.candidate] at isLong

/-- The conversion of a line with one link. -/
theorem converted_pos_iff {options : Options} {currentType : Option Text}
    {ignored : Text → Text → Bool} (single : candidatesIn line = [candidate]) :
    0 < (ConvertedLine.ofLine line options currentType ignored).converted ↔
      ∃ new, candidate.newTarget? options currentType ignored = some new := by
  simp only [ConvertedLine.ofLine, single, List.foldr_cons, List.foldr_nil, ConvertedLine.step,
    Candidate.newTarget?]
  split
  · simp
  · cases candidate.rendered? options currentType <;> simp

theorem isLong_iff {options : Options} {currentType : Option Text}
    {ignored : Text → Text → Bool} :
    (ConvertedLine.ofLine line options currentType ignored).isLong = true ↔
      ∃ candidate ∈ candidatesIn line, candidate.form = .long := by
  simp only [ConvertedLine.ofLine, decide_eq_true_eq, Option.map_eq_some_iff]
  constructor
  · rintro ⟨candidate, first, isLong⟩
    exact ⟨candidate, List.mem_of_mem_head? first, isLong⟩
  · rintro ⟨candidate, found, isLong⟩
    exact ⟨candidate, by rw [candidatesIn_eq_of_long found isLong]; rfl, isLong⟩

theorem isKept_actionFor_iff :
    (tracker.actionFor settings line).isKept = true ↔
      ¬(0 < (ConvertedLine.ofLine line settings.options tracker.currentType
            settings.ignores).converted ∧
          (ConvertedLine.ofLine line settings.options tracker.currentType
            settings.ignores).isLong = true ∧
          linksToItself (ConvertedLine.ofLine line settings.options tracker.currentType
            settings.ignores).text = true) ∧
        (ConvertedLine.ofLine line settings.options tracker.currentType
          settings.ignores).text = line := by
  simp only [Tracker.actionFor]
  split
  · rename_i dropped
    simp only [Bool.and_eq_true, decide_eq_true_eq] at dropped
    simp [Action.isKept, dropped.1.1, dropped.1.2, dropped.2]
  · rename_i notDropped
    simp only [Bool.and_eq_true, decide_eq_true_eq, and_assoc] at notDropped
    split
    · rename_i same
      exact iff_of_true rfl ⟨notDropped, same⟩
    · rename_i different
      exact iff_of_false (by simp [Action.isKept]) fun kept => different kept.2

/-- Without ignored links, a line is kept if every link on it is settled, whatever the scope. -/
theorem isKept_actionFor_iff_isSettled (notIgnoring : settings.ignore = none)
    (inScope : ∀ name ∈ tracker.currentType, ')' ∉ name) :
    (tracker.actionFor settings line).isKept = true ↔
      ∀ candidate ∈ candidatesIn line, candidate.IsSettled settings.options line := by
  have notIgnored : ∀ name target, settings.ignores name target = false := by
    intro name target
    simp [Settings.ignores, notIgnoring]
  rw [isKept_actionFor_iff, ofLine_text_eq_iff inScope]
  constructor
  · rintro ⟨notDropped, allKept⟩ candidate found
    have isTarget := isTarget_of_mem_candidatesIn found
    have isKept := allKept candidate found
    rcases (Candidate.isKept_iff isTarget notIgnored).mp isKept with unconvertible |
      ⟨fixed, notRedundant⟩
    · exact Or.inl unconvertible
    · refine Or.inr ⟨fixed, notRedundant, ?_⟩
      intro isLong
      rw [Bool.eq_false_iff]
      intro isLocal
      refine notDropped ⟨?_, isLong_iff.mpr ⟨candidate, found, isLong⟩, ?_⟩
      · rw [converted_pos_iff (candidatesIn_eq_of_long found isLong),
          Candidate.newTarget?_eq_rendered? notIgnored]
        exact ⟨candidate.target, (Candidate.rendered?_eq_target_iff isTarget).mpr fixed⟩
      · rw [(ofLine_text_eq_iff inScope line).mpr allKept]
        exact isLocal
  · intro allSettled
    have allKept : ∀ candidate ∈ candidatesIn line,
        candidate.IsKept settings.options tracker.currentType settings.ignores := by
      intro candidate found
      rw [Candidate.isKept_iff (isTarget_of_mem_candidatesIn found) notIgnored]
      exact (allSettled candidate found).imp_right fun fixed => ⟨fixed.1, fixed.2.1⟩
    refine ⟨?_, allKept⟩
    rintro ⟨isConverted, isLong, isLocal⟩
    rw [(ofLine_text_eq_iff inScope line).mpr allKept] at isLocal
    obtain ⟨candidate, found, longForm⟩ := isLong_iff.mp isLong
    rw [converted_pos_iff (candidatesIn_eq_of_long found longForm),
      Candidate.newTarget?_eq_rendered? notIgnored] at isConverted
    rcases isConverted with ⟨new, rendered⟩
    rcases allSettled candidate found with unconvertible | ⟨-, -, notLocal⟩
    · rw [← Candidate.rendered?_eq_none_iff, rendered] at unconvertible
      simp at unconvertible
    · simp [notLocal longForm] at isLocal

end Lines

/-- Without ignored links, a conversion keeps every line if every link is settled. -/
theorem all_isKept_convertLines_iff {settings : Settings} (notIgnoring : settings.ignore = none)
    (lines : List Text) :
    (convertLines settings lines).all Action.isKept = true ↔
      ∀ line ∈ lines, ∀ candidate ∈ candidatesIn line,
        candidate.IsSettled settings.options line := by
  have inScope : ∀ {index : Nat}, index < lines.length →
      ∀ name ∈ ((Tracker.start lines).run settings (lines.take index)).2.advance.currentType,
        ')' ∉ name := by
    intro index bound name isScope inside
    have reached : Tracker.Reached lines index
        ((Tracker.start lines).run settings (lines.take index)).2.advance :=
      (Tracker.behind_run settings {} (Nat.le_of_lt bound)).reached bound
    exact absurd (reached.isWord_currentType name isScope ')' inside) (by decide +kernel)
  have actionAt : ∀ {index : Nat} {line : Text}, lines[index]? = some line →
      ∃ action, (convertLines settings lines)[index]? = some action ∧
        (action.isKept = true ↔ ∀ candidate ∈ candidatesIn line,
          candidate.IsSettled settings.options line) := by
    intro index line found
    have bound := (List.getElem?_eq_some_iff.mp found).1
    exact ⟨_, Tracker.getElem?_run settings (Tracker.start lines) found,
      isKept_actionFor_iff_isSettled notIgnoring (inScope bound)⟩
  rw [List.all_eq_true]
  constructor
  · intro allKept line isLine
    obtain ⟨index, bound, rfl⟩ := List.mem_iff_getElem.mp isLine
    obtain ⟨action, isAction, settled⟩ := actionAt (List.getElem?_eq_getElem bound)
    exact settled.mp (allKept action (List.mem_of_getElem? isAction))
  · intro allSettled action isAction
    obtain ⟨index, bound, rfl⟩ := List.mem_iff_getElem.mp isAction
    have sameLength : (convertLines settings lines).length = lines.length :=
      Tracker.length_run settings (Tracker.start lines) lines
    have lineBound : index < lines.length := by omega
    obtain ⟨action, found, settled⟩ := actionAt (List.getElem?_eq_getElem lineBound)
    rw [List.getElem?_eq_getElem bound, Option.some.injEq] at found
    rw [found]
    exact settled.mpr (allSettled _ (List.getElem_mem lineBound))

/--
A second run, with no links to ignore, keeps every line if and only if every link of the converted
text is settled. The renderings that a conversion writes are settled targets except for the anchors
that look like those of associated items and, if leading tokens are written, the names of modules.
-/
theorem all_isKept_secondRun_iff (options : Options) (file : Option FilePath) (text : Text) :
    let settings : Settings := { options := options, file := file }
    let converted := Action.newText (convertLines settings (Text.splitLines text))
    ((convertLines settings (Text.splitLines converted)).all Action.isKept = true ↔
      ∀ line ∈ Text.splitLines converted, ∀ link ∈ candidatesIn line,
        link.IsSettled options line) ∧
    ∀ line ∈ Text.splitLines text, ∀ link ∈ candidatesIn line, ∀ currentType : Option Text,
      (∀ name ∈ currentType, ∀ char ∈ name, Text.isWord char = true) →
      ∀ rendering, link.rendered? options currentType = some rendering →
        ((DocLink.IsUnconvertible options rendering ∨
            Rendering.IsFixed options.disambiguate rendering) ↔
          (¬∃ kind ∈ itemKinds, ∃ name, Identifier.isPlain name = true ∧
            rendering = '#' :: (kind ++ '.' :: name)) ∧
          ¬(options.disambiguate = true ∧ ∃ name fragment,
            (Page.bare name fragment).WellFormed ∧
              rendering = (Page.bare name fragment).text)) := by
  intro settings converted
  refine ⟨all_isKept_convertLines_iff rfl _, ?_⟩
  intro line _ link found currentType areWords rendering rendered
  have isTarget := isTarget_of_mem_candidatesIn found
  rcases Candidate.rendered?_eq_some rendered with ⟨parts, read, -, rfl⟩
  have wellNamed := DocLink.wellNamed_of_ofTarget? (isTarget.notMem (by decide) (by decide)) read
  apply wellNamed.isUnconvertible_or_isFixed_iff
  intro name inScope
  refine ⟨?_, ?_⟩
  · intro inside
    exact absurd (areWords name inScope '\n' inside) (by decide +kernel)
  · intro inside
    exact absurd (areWords name inScope '/' inside) (by decide +kernel)

/-- The anchor of an index page becomes a bare associated item, which the second run converts. -/
theorem secondRun_converts_memberAnchor :
    let converted := Action.newText
      (convertLines {} (Text.splitLines "[x](./index.html#method.a)\n".toList))
    converted = "[x](#method.a)\n".toList ∧
      (convertLines {} (Text.splitLines converted)).all Action.isKept = false := by
  decide +kernel

/-- With leading tokens, a constant becomes a name, which the second run takes for a module. -/
theorem all_isKept_secondRun_constant :
    let options : Options := { disambiguate := true }
    let settings : Settings := { options := options }
    let converted := Action.newText
      (convertLines settings (Text.splitLines "[x](constant.A.html)\n".toList))
    converted = "[x](A)\n".toList ∧
      ¬∀ line ∈ Text.splitLines converted, ∀ link ∈ candidatesIn line,
        link.IsSettled options line := by
  intro options settings converted
  refine ⟨by decide +kernel, ?_⟩
  rw [← (all_isKept_secondRun_iff options none "[x](constant.A.html)\n".toList).1]
  decide +kernel

end IntraDoc
