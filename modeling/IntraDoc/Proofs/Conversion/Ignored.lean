import IntraDoc.Proofs.Conversion.SecondRun
import IntraDoc.Proofs.Line.Edits

/-!
# Ignored links

What a conversion makes of a line is the line with some exchanges, and no exchange touches a link
that is ignored. Whether a link is ignored is asked for a file: if the path of the file is known,
the links that are listed for every file are kept, as are those that are listed for this one. If it
is not known, the table of links to keep is without effect.
-/

namespace IntraDoc

theorem IgnoreTable.ignores_of_everywhere {table : IgnoreTable} {name target : Text}
    (listed : table.everywhere.lists name target = true) (file : FilePath) :
    table.ignores file name target = true := by
  rw [ignores, listed, Bool.true_or]

/-- A link stays as it is written: the new line is the line with exchanges beside the link. -/
def Action.Keeps (action : Action) (link : Candidate) : Prop :=
  ∃ edits, Span.AreEdits action.line 0 edits ∧
    action.newLine = Span.replaceAll action.line 0 edits ∧
    Span.Keeps action.line edits link.linkSpan

/-- A line that is a long-form link has no link but its candidate. -/
theorem Candidate.IsLinkOf.eq_of_long {line : Text} {link candidate : Candidate}
    (isLink : link.IsLinkOf line) (found : candidate ∈ candidatesIn line)
    (longForm : candidate.form = .long) : candidate = link := by
  rcases isLink with isLong | ⟨notLong, -⟩
  · simp only [candidatesIn, isLong] at found
    split at found
    · simp at found
    · exact List.mem_singleton.mp found
  · simp only [candidatesIn, notLong] at found
    have selects := ShortForm.selects_scan line 0
    have occurs := (selects.occursIn candidate (List.mem_filter.mp found).1).1
    simp [occurs.form] at longForm

section Lines

variable {settings : Settings} {tracker : Tracker} {line : Text} {link : Candidate}

theorem Tracker.line_actionFor : (tracker.actionFor settings line).line = line := by
  simp only [actionFor]
  split
  · rfl
  · split <;> rfl

/-- A line is only dropped if a link of it is converted. -/
theorem Tracker.newLine_actionFor (tracker : Tracker)
    (notConverted : ∀ candidate ∈ candidatesIn line,
      candidate.form = .long → settings.ignores candidate.name candidate.target = true) :
    (tracker.actionFor settings line).newLine =
      (ConvertedLine.ofLine line settings.options tracker.currentType settings.ignores).text ∧
    ((tracker.actionFor settings line).newLine = line →
      tracker.actionFor settings line = .kept line) := by
  simp only [actionFor]
  split
  · rename_i isDropped
    simp only [Bool.and_eq_true, decide_eq_true_eq] at isDropped
    obtain ⟨⟨isConverted, isLong⟩, -⟩ := isDropped
    obtain ⟨candidate, found, longForm⟩ := isLong_iff.mp isLong
    obtain ⟨new, isNew⟩ :=
      (converted_pos_iff (candidatesIn_eq_of_long found longForm)).mp isConverted
    rw [Candidate.newTarget?, if_pos (notConverted candidate found longForm)] at isNew
    simp at isNew
  · split
    · rename_i same
      exact ⟨same.symm, fun _ => rfl⟩
    · rename_i different
      exact ⟨rfl, fun same => absurd same different⟩

theorem keeps_actionFor (isLink : link.IsLinkOf line)
    (isIgnored : settings.ignores link.name link.target = true) :
    (tracker.actionFor settings line).Keeps link := by
  have notDropped : ∀ candidate ∈ candidatesIn line, candidate.form = .long →
      settings.ignores candidate.name candidate.target = true := by
    intro candidate found longForm
    rwa [isLink.eq_of_long found longForm]
  rw [Action.Keeps, Tracker.line_actionFor, (tracker.newLine_actionFor notDropped).1,
    ofLine_text_eq_replaceAll_lineEdits]
  exact ⟨_, areEdits_lineEdits, rfl, keeps_lineEdits isLink (Candidate.edit?_of_ignored isIgnored)⟩

theorem actionFor_eq_kept (allIgnored : ∀ candidate ∈ candidatesIn line,
      settings.ignores candidate.name candidate.target = true) :
    tracker.actionFor settings line = .kept line := by
  obtain ⟨isConverted, kept⟩ :=
    tracker.newLine_actionFor fun candidate found _ => allIgnored candidate found
  have noEdits : lineEdits line settings.options tracker.currentType settings.ignores = [] := by
    apply List.filterMap_eq_nil_iff.mpr
    exact fun candidate found => Candidate.edit?_of_ignored (allIgnored candidate found)
  apply kept
  rw [isConverted, ofLine_text_eq_replaceAll_lineEdits, noEdits]
  rfl

end Lines

/-- Without a path of the file the table makes no difference. -/
theorem run_of_unknown (options : Options) (ignore : Option IgnoreTable) (tracker : Tracker)
    (lines : List Text) :
    tracker.run ⟨options, none, ignore⟩ lines = tracker.run ⟨options, none, none⟩ lines := by
  have same : Settings.ignores ⟨options, none, ignore⟩ =
      Settings.ignores ⟨options, none, none⟩ := by
    cases ignore <;> rfl
  have sameAction : Tracker.actionFor ⟨options, none, ignore⟩ =
      Tracker.actionFor ⟨options, none, none⟩ := by
    funext tracker line
    simp only [Tracker.actionFor, same]
  induction lines generalizing tracker with
  | nil => rfl
  | cons line lines ih => simp only [Tracker.run, Tracker.step, sameAction, ih]

/--
If the path of the file is known, every link that is listed for all files stays as it is written,
whatever becomes of the other links of its line: the new line is the old one with exchanges that all
come before or behind the link. A line all of whose candidates are listed is kept. If the path is
not known, nothing is ignored: the conversion is the one without links to keep.
-/
theorem convertLines_keeps_listed (options : Options) (table : IgnoreTable) (lines : List Text) :
    (∀ (file : FilePath) (index : Nat) (line : Text), lines[index]? = some line →
      ∃ action, (convertLines ⟨options, some file, some table⟩ lines)[index]? = some action ∧
        action.line = line ∧
        (∀ link : Candidate, link.IsLinkOf line →
          table.everywhere.lists link.name link.target = true → action.Keeps link) ∧
        ((∀ candidate ∈ candidatesIn line,
            table.everywhere.lists candidate.name candidate.target = true) →
          action = .kept line)) ∧
    convertLines ⟨options, none, some table⟩ lines =
      convertLines ⟨options, none, none⟩ lines := by
  constructor
  · intro file index line found
    refine ⟨_, Tracker.getElem?_run _ (Tracker.start lines) found, Tracker.line_actionFor, ?_, ?_⟩
    · intro link isLink isListed
      exact keeps_actionFor isLink (table.ignores_of_everywhere isListed file)
    · intro allListed
      apply actionFor_eq_kept
      intro candidate isCandidate
      exact table.ignores_of_everywhere (allListed candidate isCandidate) file
  · rw [convertLines, run_of_unknown]
    rfl

/-- Listed links within and beside links that are converted, and on a line of their own. -/
theorem convertLines_keeps_listed_imageInLink :
    let table : IgnoreTable := { everywhere := [("x".toList, ["struct.B.html".toList])] }
    let mixed := "[![x](struct.B.html)](struct.A.html) [x](struct.B.html) [y](struct.B.html)".toList
    let actions := convertLines ⟨{}, some ⟨.single, ["f".toList]⟩, some table⟩
      [mixed, "[x](struct.B.html)".toList]
    (∃ action, actions[0]? = some action ∧
      action.Keeps (ShortForm.candidate 2 "x".toList "struct.B.html".toList) ∧
      action.Keeps (ShortForm.candidate 37 "x".toList "struct.B.html".toList)) ∧
    actions[1]? = some (.kept "[x](struct.B.html)".toList) ∧
    actions.map Action.newLine =
      ["[![x](struct.B.html)](A) [x](struct.B.html) [y](B)".toList,
        "[x](struct.B.html)".toList] := by
  intro table mixed actions
  have keeps := (convertLines_keeps_listed {} table
    [mixed, "[x](struct.B.html)".toList]).1 ⟨.single, ["f".toList]⟩
  have notLong : LongForm.read? mixed = none := by decide
  have image : (ShortForm.candidate 2 "x".toList "struct.B.html".toList).OccursIn mixed :=
    Candidate.occursIn_candidate_iff.mpr (by decide)
  have second : (ShortForm.candidate 37 "x".toList "struct.B.html".toList).OccursIn mixed :=
    Candidate.occursIn_candidate_iff.mpr (by decide)
  obtain ⟨action, isAction, -, keepsLinks, -⟩ := keeps 0 mixed rfl
  obtain ⟨other, isOther, -, -, isKept⟩ := keeps 1 "[x](struct.B.html)".toList rfl
  refine ⟨⟨action, isAction, keepsLinks _ (Or.inr ⟨notLong, image⟩) (by decide),
    keepsLinks _ (Or.inr ⟨notLong, second⟩) (by decide)⟩, ?_, by decide +kernel⟩
  rw [isOther, isKept (by decide)]

/-- Without a path of the file a listed link is converted. -/
theorem convertLines_converts_listed :
    let table : IgnoreTable := { everywhere := [("x".toList, ["struct.A.html".toList])] }
    table.everywhere.lists "x".toList "struct.A.html".toList = true ∧
      convertLines ⟨{}, none, some table⟩ ["[x](struct.A.html)\n".toList] =
        [.replaced "[x](struct.A.html)\n".toList "[x](A)\n".toList 1] := by
  decide +kernel

end IntraDoc
