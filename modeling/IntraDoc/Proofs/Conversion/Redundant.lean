import IntraDoc.Proofs.Conversion.Accounting
import IntraDoc.Proofs.Conversion.Composition
import IntraDoc.Proofs.Conversion.LineEnds
import IntraDoc.Proofs.Line.LocalLink

/-!
# Redundant links

A link is redundant if its rendering is what its name shows. A conversion drops the line of a
redundant long-form link and takes the target from a redundant short-form one. What a name shows is
not the same for both: a long form gives up one backtick on either side of the name, a short form
all of them. No rendering has a backtick of its own, so the two forms agree on a name as long as
this makes no difference.
-/

namespace IntraDoc

namespace DocLink

/-- A rendering is a path or an anchor, and neither is empty. -/
theorem WellNamed.render_ne_nil {link : DocLink} (wellNamed : link.WellNamed)
    (currentType : Option Text) (disambiguate : Bool) :
    link.render currentType disambiguate ≠ [] := by
  rw [wellNamed.render_eq]
  intro empty
  simp only [List.append_eq_nil_iff] at empty
  rcases empty with ⟨-, ⟨noPath, -⟩, noAnchor⟩
  by_cases none : link.segments currentType = []
  · rcases exists_anchor_of_segments_eq_nil none with ⟨name, isAnchor⟩
    simp [isAnchor, Finish.anchorName, Page.anchorText] at noAnchor
  · refine Text.joinWith_ne_nil none ?_ noPath
    intro segment isSegment
    simp only [segments, List.mem_append] at isSegment
    rcases isSegment with isLead | isName
    · exact wellNamed.startSegments_ne_nil currentType segment (List.mem_append.mpr isLead)
    · exact Identifier.ne_nil_of_isPlain (wellNamed.finish.names segment isName)

theorem classify_eq_ok_iff {target : Text} {options : Options} {link : DocLink} :
    classify target options = .ok link ↔ ofTarget? target options = some link := by
  constructor
  · exact ofTarget?_of_classify
  · intro read
    rw [classify, read]

end DocLink

namespace Candidate

variable {candidate : Candidate} {options : Options} {currentType : Option Text}
  {ignored : Text → Text → Bool} {new : Text}

theorem newTarget?_eq_some_iff :
    candidate.newTarget? options currentType ignored = some new ↔
      ignored candidate.name candidate.target = false ∧
        ∃ link, DocLink.classify candidate.target options = .ok link ∧
          link.isPrimitive = false ∧ new = link.render currentType options.disambiguate := by
  constructor
  · intro isNew
    refine ⟨?_, ?_⟩
    · unfold newTarget? at isNew
      split at isNew
      · simp at isNew
      · rename_i notIgnored
        simpa using notIgnored
    · obtain ⟨link, read, notPrimitive, same⟩ := rendered?_eq_some (rendered?_of_newTarget? isNew)
      exact ⟨link, DocLink.classify_eq_ok_iff.mpr read, notPrimitive, same⟩
  · rintro ⟨notIgnored, link, isRead, notPrimitive, rfl⟩
    simp [newTarget?, notIgnored, rendered?, DocLink.classify_eq_ok_iff.mp isRead, notPrimitive]

section Renderings

variable (isTarget : LinkTarget.IsTarget candidate.target)
  (isNew : candidate.newTarget? options currentType ignored = some new)

include isTarget isNew

theorem exists_wellNamed_of_newTarget? :
    ∃ link : DocLink, link.WellNamed ∧ new = link.render currentType options.disambiguate := by
  obtain ⟨link, read, -, same⟩ := rendered?_eq_some (rendered?_of_newTarget? isNew)
  exact ⟨link, DocLink.wellNamed_of_ofTarget? (isTarget.notMem (by decide) (by decide)) read, same⟩

theorem newTarget?_ne_nil : new ≠ [] := by
  obtain ⟨link, wellNamed, rfl⟩ := exists_wellNamed_of_newTarget? isTarget isNew
  exact wellNamed.render_ne_nil currentType options.disambiguate

/-- A character that no path, token or anchor is written with comes from the scope or nowhere. -/
theorem notMem_of_newTarget? {char : Char}
    (outside : Page.isAnchorChar char = false ∧ char ≠ '#' ∧ char ≠ ':')
    (notToken : ∀ disambiguator ∈ Disambiguator.known, char ∉ disambiguator.token)
    (inScope : ∀ name ∈ currentType, char ∉ name) : char ∉ new := by
  obtain ⟨link, wellNamed, rfl⟩ := exists_wellNamed_of_newTarget? isTarget isNew
  exact wellNamed.notMem_render options.disambiguate outside.1 outside.2.1 outside.2.2
    (notToken _ wellNamed.finish.known) inScope

theorem isBlank_of_newTarget?
    (inScope : ∀ name ∈ currentType, ∀ char ∈ name, Text.isBlank char = false) :
    ∀ char ∈ new, Text.isBlank char = false := by
  intro char inside
  rw [Bool.eq_false_iff]
  intro blank
  have all : Text.blanks.all (fun char => !Page.isAnchorChar char && char ≠ '#' && char ≠ ':' &&
      Disambiguator.known.all fun disambiguator => char ∉ disambiguator.token) = true := by decide
  have outside := Text.forall_isBlank all blank
  simp only [Bool.and_eq_true, Bool.not_eq_true', decide_eq_true_eq, List.all_eq_true] at outside
  refine notMem_of_newTarget? isTarget isNew ⟨outside.1.1.1, outside.1.1.2, outside.1.2⟩
    outside.2 ?_ inside
  intro name isScope inName
  simp [inScope name isScope char inName] at blank

end Renderings

end Candidate

namespace Tracker

/-- The trackers that a conversion can have, after any number of files and lines. -/
inductive IsReachable : Tracker → Prop where
  | fresh : IsReachable {}
  | reset {tracker : Tracker} (reachable : IsReachable tracker) (lines : List Text) :
      IsReachable (tracker.reset lines)
  | step {tracker : Tracker} (reachable : IsReachable tracker) (settings : Settings)
      (line : Text) : IsReachable (tracker.step settings line).2

/-- The blocks of a reachable tracker are named by words, since they come from declarations. -/
theorem IsReachable.knows {tracker : Tracker} (reachable : IsReachable tracker) :
    tracker.Knows fun block => ∀ char ∈ block.name, Text.isWord char = true := by
  induction reachable with
  | fresh => exact ⟨by simp, by simp⟩
  | reset _ lines =>
      refine ⟨by simp [Tracker.reset], ?_⟩
      intro block isDeclared
      obtain ⟨index, line, -, -, declares⟩ := Block.mem_declared isDeclared
      exact Block.isWord_of_ofLine? declares
  | step _ settings line ih => exact ih.advance.leave line

theorem IsReachable.isWord_currentType {tracker : Tracker} (reachable : IsReachable tracker) :
    ∀ name ∈ tracker.advance.currentType, ∀ char ∈ name, Text.isWord char = true :=
  reachable.knows.advance.isWord_currentType fun _ isWord => isWord

theorem IsReachable.isClean_currentType {tracker : Tracker} (reachable : IsReachable tracker) :
    ∀ name ∈ tracker.advance.currentType, ∀ char ∈ name,
      Text.isBlank char = false ∧ char ≠ '`' := by
  intro name isScope char inside
  have isWord := reachable.isWord_currentType name isScope char inside
  refine ⟨Text.isBlank_eq_false_of_isWord isWord, ?_⟩
  rintro rfl
  exact absurd isWord (by decide +kernel)

section Dropping

variable {settings : Settings} {tracker : Tracker} {line : Text}

theorem actionFor_cases (settings : Settings) (tracker : Tracker) (line : Text) :
    ((tracker.actionFor settings line).isDropped = true ∧
      tracker.actionFor settings line =
        .dropped line tracker.position Action.localLinkReason) ∨
    ((tracker.actionFor settings line).isDropped = false ∧
      tracker.actionFor settings line =
        let text := (ConvertedLine.ofLine line settings.options tracker.currentType
          settings.ignores).text
        if text = line then .kept line else .replaced line text tracker.position) := by
  simp only [actionFor]
  split
  · exact Or.inl ⟨rfl, rfl⟩
  · refine Or.inr ⟨?_, rfl⟩
    split <;> rfl

theorem isDropped_actionFor_eq :
    (tracker.actionFor settings line).isDropped =
      (let result := ConvertedLine.ofLine line settings.options tracker.currentType settings.ignores
      0 < result.converted && result.isLong && linksToItself result.text) := by
  simp only [actionFor]
  split
  · rename_i conditions
    exact conditions.symm
  · rename_i conditions
    rw [Bool.not_eq_true] at conditions
    rw [conditions]
    split <;> rfl

/-- A line with a long-form link is put together from the parts of that link. -/
theorem exists_parts_of_long {candidate : Candidate} (single : candidatesIn line = [candidate])
    (isLong : candidate.form = .long) :
    ∃ parts : LongLine, parts.WellFormed ∧ line = parts.text ∧ candidate = parts.candidate := by
  have found : candidate ∈ candidatesIn line := by simp [single]
  have isLongLine : (ConvertedLine.ofLine line {} none fun _ _ => false).isLong = true :=
    isLong_iff.mpr ⟨candidate, found, isLong⟩
  obtain ⟨read, isRead⟩ := exists_read?_of_isLong isLongLine
  rw [← LongForm.read?_eq_some_iff, isRead]
  simp only [candidatesIn, isRead] at found
  split at found
  · simp at found
  · rw [List.mem_singleton.mp found]

/-- The second reading of a converted long-form line compares the bare name with the rendering. -/
theorem linksToItself_ofLine_iff {options : Options} {currentType : Option Text}
    {ignored : Text → Text → Bool} {candidate : Candidate} {new : Text}
    (inScope : ∀ name ∈ currentType, ∀ char ∈ name, Text.isBlank char = false)
    (plain : ']' ∉ candidate.name ∨ ∀ name ∈ currentType, ']' ∉ name)
    (single : candidatesIn line = [candidate]) (isLong : candidate.form = .long)
    (isNew : candidate.newTarget? options currentType ignored = some new) :
    linksToItself (ConvertedLine.ofLine line options currentType ignored).text = true ↔
      LocalLink.bareName candidate.name = new := by
  obtain ⟨parts, wellFormed, rfl, rfl⟩ := exists_parts_of_long single isLong
  have isTarget : LinkTarget.IsTarget parts.candidate.target := wellFormed.target.isTarget
  have noBracket : ']' ∉ parts.name ∨ ']' ∉ new :=
    plain.imp_right fun free =>
      Candidate.notMem_of_newTarget? isTarget isNew (by decide) (by decide) free
  have converted : (ConvertedLine.ofLine parts.text options currentType ignored).text =
      { parts with target := new }.text := by
    simp only [ConvertedLine.ofLine, single, List.foldr_cons, List.foldr_nil, fst_step, isNew]
    exact parts.substitute_text new
  rw [converted]
  exact wellFormed.linksToItself_iff (Candidate.newTarget?_ne_nil isTarget isNew)
    (Candidate.isBlank_of_newTarget? isTarget isNew inScope) noBracket

/--
A line is dropped if its only link is a long-form one whose rendering is its bare name. Brackets
that the name and the scope both have could lead the two readings of the line apart.
-/
theorem isDropped_actionFor_iff
    (inScope : ∀ name ∈ tracker.currentType, ∀ char ∈ name, Text.isBlank char = false)
    (plain : (∀ candidate ∈ candidatesIn line, ']' ∉ candidate.name) ∨
      ∀ name ∈ tracker.currentType, ']' ∉ name) :
    (tracker.actionFor settings line).isDropped = true ↔
      ∃ candidate, candidatesIn line = [candidate] ∧ candidate.form = .long ∧
        candidate.newTarget? settings.options tracker.currentType settings.ignores =
          some (LocalLink.bareName candidate.name) := by
  simp only [isDropped_actionFor_eq, Bool.and_eq_true, decide_eq_true_eq]
  constructor
  · rintro ⟨⟨isConverted, isLong⟩, isLocal⟩
    obtain ⟨candidate, found, longForm⟩ := isLong_iff.mp isLong
    have single := candidatesIn_eq_of_long found longForm
    obtain ⟨new, isNew⟩ := (converted_pos_iff single).mp isConverted
    have ownPlain := plain.imp_left fun free => free candidate found
    have sameName := (linksToItself_ofLine_iff inScope ownPlain single longForm isNew).mp isLocal
    exact ⟨candidate, single, longForm, by rw [isNew, sameName]⟩
  · rintro ⟨candidate, single, longForm, isNew⟩
    have found : candidate ∈ candidatesIn line := by simp [single]
    have ownPlain := plain.imp_left fun free => free candidate found
    refine ⟨⟨(converted_pos_iff single).mpr ⟨_, isNew⟩, ?_⟩, ?_⟩
    · exact isLong_iff.mpr ⟨candidate, found, longForm⟩
    · exact (linksToItself_ofLine_iff inScope ownPlain single longForm isNew).mpr rfl

end Dropping

/--
What becomes of the next line, if the type in scope is a word, as it is for every reachable tracker.
The line is dropped exactly if its only link is a long-form one that is not ignored, can be
converted and has its bare name for a rendering. Any other line is kept if the converted text is the
line and replaced by it otherwise, and short-form links never drop a line.
-/
theorem isDropped_step_iff (settings : Settings) {tracker : Tracker}
    (inScope : tracker.IsReachable ∨
      ∀ name ∈ tracker.advance.currentType, ∀ char ∈ name, Text.isWord char = true)
    (line : Text) :
    let currentType := tracker.advance.currentType
    let text := (ConvertedLine.ofLine line settings.options currentType settings.ignores).text
    let action := (tracker.step settings line).1
    (action.isDropped = true ↔
      ∃ candidate, candidatesIn line = [candidate] ∧ candidate.form = .long ∧
        settings.ignores candidate.name candidate.target = false ∧
        ∃ link, DocLink.classify candidate.target settings.options = .ok link ∧
          link.isPrimitive = false ∧
          LocalLink.bareName candidate.name =
            link.render currentType settings.options.disambiguate) ∧
    (action.isDropped = true →
      action = .dropped line (tracker.position + 1) Action.localLinkReason) ∧
    (action.isDropped = false →
      action = if text = line then .kept line else .replaced line text (tracker.position + 1)) ∧
    ((∀ candidate ∈ candidatesIn line, candidate.form = .short) → action.isDropped = false) := by
  intro currentType text action
  have areWords : ∀ name ∈ tracker.advance.currentType, ∀ char ∈ name, Text.isWord char = true :=
    inScope.elim IsReachable.isWord_currentType id
  have unblank : ∀ name ∈ tracker.advance.currentType, ∀ char ∈ name,
      Text.isBlank char = false := by
    intro name isScope char inside
    exact Text.isBlank_eq_false_of_isWord (areWords name isScope char inside)
  have noBracket : ∀ name ∈ tracker.advance.currentType, ']' ∉ name := by
    intro name isScope inside
    exact absurd (areWords name isScope ']' inside) (by decide +kernel)
  have isAction : action = tracker.advance.actionFor settings line := rfl
  have dropped : action.isDropped = true ↔ ∃ candidate, candidatesIn line = [candidate] ∧
      candidate.form = .long ∧ candidate.newTarget? settings.options currentType settings.ignores =
        some (LocalLink.bareName candidate.name) :=
    isDropped_actionFor_iff unblank (Or.inr noBracket)
  have cases := actionFor_cases settings tracker.advance line
  rw [position_advance, ← isAction] at cases
  refine ⟨?_, ?_, ?_, ?_⟩
  · rw [dropped]
    simp only [Candidate.newTarget?_eq_some_iff]
  · intro isDropped
    rcases cases with ⟨-, same⟩ | ⟨notDropped, -⟩
    · exact same
    · simp [isDropped] at notDropped
  · intro notDropped
    rcases cases with ⟨isDropped, -⟩ | ⟨-, same⟩
    · simp [notDropped] at isDropped
    · exact same
  · intro allShort
    rw [Bool.eq_false_iff, ne_eq, dropped]
    rintro ⟨candidate, single, isLong, -⟩
    simp [allShort candidate (by simp [single])] at isLong

/-- A method inside the block of its type, behind the line that opens the block. -/
theorem isDropped_step_iff_method :
    let lines := ["impl Block \x7b\n".toList, "    /// [`Block::len()`]: #method.len\n".toList]
    let tracker := ((start lines).step {} "impl Block \x7b\n".toList).2
    let line := "    /// [`Block::len()`]: #method.len\n".toList
    tracker.IsReachable ∧ (tracker.step {} line).1 = .dropped line 2 Action.localLinkReason := by
  intro lines tracker line
  have reachable : tracker.IsReachable := (IsReachable.fresh.reset lines).step {} _
  have action := isDropped_step_iff {} (Or.inl reachable) line
  exact ⟨reachable, action.2.1 (by decide +kernel)⟩

end Tracker

section Forms

variable {name target : Text} {options : Options} {currentType : Option Text}
  {ignored : Text → Text → Bool}

/-- The line of a long-form link. -/
def LongLine.plain (name target : Text) : LongLine :=
  ⟨[], name, [' '], target, []⟩

theorem ShortForm.name?_of_plain (plain : '[' ∉ name ∧ ']' ∉ name ∧ '\n' ∉ name) (rest : Text) :
    name? false (name ++ ']' :: rest) = some (name, rest) := by
  induction name with
  | nil => simp [name?]
  | cons char name ih =>
      simp only [List.mem_cons, not_or] at plain
      have later := ih ⟨plain.1.2, plain.2.1.2, plain.2.2.2⟩
      simp [name?, Ne.symm plain.1.1, Ne.symm plain.2.1.1, Ne.symm plain.2.2.1, later]

theorem ShortForm.read?_link (plain : '[' ∉ name ∧ ']' ∉ name ∧ '\n' ∉ name)
    (isWhole : LinkTarget.IsWhole target) :
    read? ((Piece.link name target).text ++ []) = some (name, target) := by
  have linked : LinkTarget.read? (target ++ [')']) = some (target, [')']) :=
    LinkTarget.read?_of_isWhole isWhole (by simp; decide)
  rw [List.append_nil, Piece.text, read?]
  simp only [name?_of_plain plain, linked]

/-- What follows the name of a short-form link is no colon, so the line is no long-form link. -/
theorem LongForm.read?_link (isWhole : LinkTarget.IsWhole target) :
    read? (Piece.link name target).text = none := by
  have targetFree : ']' ∉ target := isWhole.isTarget.notMem (by decide) (by decide)
  have bracketFree : ']' ∉ '(' :: (target ++ [')']) := by simp [targetFree]
  have opened : body? (Piece.link name target).text =
      some (name ++ ']' :: '(' :: (target ++ [')'])) :=
    body?_eq_some_iff.mpr ⟨[], .blank (by simp), rfl⟩
  have cut : Text.splitAtLast? ']' (name ++ ']' :: '(' :: (target ++ [')'])) =
      some (name, '(' :: (target ++ [')'])) :=
    Text.splitAtLast?_eq_some_iff.mpr ⟨rfl, bracketFree⟩
  unfold read? nameAndRest?
  simp [opened, cut]

theorem candidatesIn_link (plain : '[' ∉ name ∧ ']' ∉ name ∧ '\n' ∉ name)
    (isWhole : LinkTarget.IsWhole target) (notRooted : LinkPath.isRooted target = false) :
    candidatesIn (Piece.link name target).text = [ShortForm.candidate 0 name target] := by
  have scanned : ShortForm.scan 0 0 ((Piece.link name target).text ++ []) = _ :=
    ShortForm.scan_link (ShortForm.read?_link plain isWhole)
  rw [List.append_nil] at scanned
  have kept : LinkPath.isRooted (ShortForm.candidate 0 name target).target = false := notRooted
  simp [candidatesIn, LongForm.read?_link isWhole, scanned, ShortForm.scan, kept]

/-- A short-form link loses its target if its rendering is the shown name. -/
theorem ofLine_link_text_eq_iff (plain : '[' ∉ name ∧ ']' ∉ name ∧ '\n' ∉ name)
    (isWhole : LinkTarget.IsWhole target) (notRooted : LinkPath.isRooted target = false) :
    (ConvertedLine.ofLine (Piece.link name target).text options currentType ignored).text =
        '[' :: (name ++ [']']) ↔
      (ShortForm.candidate 0 name target).newTarget? options currentType ignored =
        some (Text.trim (· = '`') name) := by
  have longer : ∀ other, (Piece.link name other).text ≠ '[' :: (name ++ [']']) := by
    intro other same
    have sameLength := congrArg List.length same
    rw [ShortForm.length_link] at sameLength
    simp only [List.length_cons, List.length_append, List.length_nil] at sameLength
    omega
  simp only [ConvertedLine.ofLine, candidatesIn_link plain isWhole notRooted, List.foldr_cons,
    List.foldr_nil, fst_step]
  cases isNew : (ShortForm.candidate 0 name target).newTarget? options currentType ignored with
  | none => simp [longer]
  | some new =>
      have substituted := substitute_link [] [] name target new
      simp only [List.nil_append, List.append_nil, List.length_nil] at substituted
      simp only [substituted, Option.some.injEq]
      split
      · rename_i redundant
        simp [redundant]
      · rename_i notRedundant
        simp [longer, notRedundant]

theorem LongLine.wellFormed_plain (single : '\n' ∉ name) (isWhole : LinkTarget.IsWhole target) :
    (LongLine.plain name target).WellFormed :=
  ⟨.blank (by simp [plain]), single, by simp [plain]; decide, isWhole, rfl⟩

theorem candidatesIn_plain (single : '\n' ∉ name) (isWhole : LinkTarget.IsWhole target)
    (notRooted : LinkPath.isRooted target = false) :
    candidatesIn (LongLine.plain name target).text = [(LongLine.plain name target).candidate] := by
  have kept : LinkPath.isRooted (LongLine.plain name target).candidate.target = false := notRooted
  simp [candidatesIn, (LongLine.wellFormed_plain single isWhole).read?_text, kept]

end Forms

section Ticks

theorem Text.trimRight_append {drop : Char → Bool} {kept run : Text}
    (inside : ∀ char ∈ run, drop char = true) (stop : ∀ char ∈ kept, drop char = false) :
    trimRight drop (kept ++ run) = kept := by
  induction kept with
  | nil =>
      induction run with
      | nil => rfl
      | cons char run ih =>
          have later : trimRight drop run = [] :=
            ih fun other isOther => inside other (List.mem_cons_of_mem _ isOther)
          simp [trimRight, later, inside char List.mem_cons_self]
  | cons char kept ih =>
      have later := ih fun other isOther => stop other (List.mem_cons_of_mem _ isOther)
      rw [List.cons_append, trimRight, later]
      cases kept with
      | nil => simp [stop char List.mem_cons_self]
      | cons next others => rfl

variable {name : Text}

theorem LocalLink.exists_ticks (name : Text) :
    ∃ opening closing, name = opening ++ (bareName name ++ closing) ∧
      (∀ char ∈ opening, char = '`') ∧ ∀ char ∈ closing, char = '`' := by
  obtain ⟨opening, opened, openingTicks⟩ : ∃ opening, name = opening ++ dropOpening name ∧
      ∀ char ∈ opening, char = '`' := by
    unfold dropOpening
    split
    · exact ⟨['`'], rfl, by simp⟩
    · exact ⟨[], rfl, by simp⟩
  rcases dropClosing_cases (dropOpening name) with same | ticked
  · exact ⟨opening, [], by rw [bareName, same, List.append_nil, ← opened], openingTicks, by simp⟩
  · exact ⟨opening, ['`'], by rw [bareName, ← ticked, ← opened], openingTicks, by simp⟩

/-- A bare name that has no backtick left is what the name shows. -/
theorem LocalLink.trim_eq_bareName (filled : bareName name ≠ []) (free : '`' ∉ bareName name) :
    Text.trim (· = '`') name = bareName name := by
  obtain ⟨opening, closing, shape, openingTicks, closingTicks⟩ := exists_ticks name
  have dropped : name.dropWhile (· = '`') = bareName name ++ closing := by
    conv_lhs => rw [shape]
    refine dropWhile_append_stop (by simpa using openingTicks) ?_
    intro char first
    rw [List.head?_append_of_ne_nil _ filled] at first
    rw [decide_eq_false_iff_not]
    rintro rfl
    exact free (List.mem_of_mem_head? first)
  rw [Text.trim, dropped]
  apply Text.trimRight_append (by simpa using closingTicks)
  intro char inside
  rw [decide_eq_false_iff_not]
  rintro rfl
  exact free inside

end Ticks

namespace Tracker

/--
A name without brackets, with one target in the two forms, in the scope of a reachable tracker or of
a type without blanks and backticks. The short form loses its target if the rendering is the name
without the backticks around it. The line of the long form is dropped if, in addition, the name has
no more than one backtick to give up on either side.
-/
theorem isDropped_step_iff_collapses {settings : Settings} {tracker : Tracker}
    {name target : Text} (plain : '[' ∉ name ∧ ']' ∉ name ∧ '\n' ∉ name)
    (isWhole : LinkTarget.IsWhole target) (notRooted : LinkPath.isRooted target = false)
    (notIgnored : settings.ignores name target = false)
    (inScope : tracker.IsReachable ∨ ∀ type ∈ tracker.advance.currentType, ∀ char ∈ type,
      Text.isBlank char = false ∧ char ≠ '`') :
    let currentType := tracker.advance.currentType
    let shown := Text.trim (· = '`') name
    let long := '[' :: (name ++ "]: ".toList ++ target)
    let short := '[' :: (name ++ "](".toList ++ target ++ [')'])
    let collapsed := '[' :: (name ++ [']'])
    let converted :=
      (ConvertedLine.ofLine short settings.options currentType settings.ignores).text
    (converted = collapsed ↔
      ∃ link, DocLink.classify target settings.options = .ok link ∧ link.isPrimitive = false ∧
        shown = link.render currentType settings.options.disambiguate) ∧
    ((tracker.step settings long).1.isDropped = true ↔
      converted = collapsed ∧ LocalLink.bareName name = shown) := by
  intro currentType shown long short collapsed converted
  have isClean : ∀ type ∈ currentType, ∀ char ∈ type, Text.isBlank char = false ∧ char ≠ '`' :=
    inScope.elim IsReachable.isClean_currentType id
  have isLong : long = (LongLine.plain name target).text := by
    simp [long, LongLine.text, LongLine.body, LongLine.plain]
  have isShort : short = (Piece.link name target).text := by
    simp [short, Piece.text]
  have candidates : candidatesIn long = [(LongLine.plain name target).candidate] := by
    rw [isLong, candidatesIn_plain plain.2.2 isWhole notRooted]
  have loses : converted = collapsed ↔
      (ShortForm.candidate 0 name target).newTarget? settings.options currentType
        settings.ignores = some shown := by
    rw [← ofLine_link_text_eq_iff plain isWhole notRooted, ← isShort]
  have drops : (tracker.step settings long).1.isDropped = true ↔
      (ShortForm.candidate 0 name target).newTarget? settings.options currentType
        settings.ignores = some (LocalLink.bareName name) := by
    have noBracket : ∀ candidate ∈ candidatesIn long, ']' ∉ candidate.name := by
      rw [candidates]
      simpa [LongLine.candidate, LongLine.plain] using plain.2.1
    have dropped : (tracker.advance.actionFor settings long).isDropped = true ↔ _ :=
      isDropped_actionFor_iff (fun type isScope char inside => (isClean type isScope char inside).1)
        (Or.inl noBracket)
    rw [step, dropped, candidates]
    constructor
    · rintro ⟨candidate, same, -, isNew⟩
      rw [← List.singleton_inj.mp same] at isNew
      exact isNew
    · intro isNew
      exact ⟨_, rfl, rfl, isNew⟩
  refine ⟨?_, ?_⟩
  · rw [loses, Candidate.newTarget?_eq_some_iff]
    exact and_iff_right notIgnored
  · rw [drops, loses]
    constructor
    · intro isNew
      have isTarget : LinkTarget.IsTarget (ShortForm.candidate 0 name target).target :=
        isWhole.isTarget
      have same : shown = LocalLink.bareName name := by
        apply LocalLink.trim_eq_bareName (Candidate.newTarget?_ne_nil isTarget isNew)
        refine Candidate.notMem_of_newTarget? isTarget isNew (by decide) (by decide) ?_
        intro type isScope inside
        exact (isClean type isScope '`' inside).2 rfl
      rw [same]
      exact ⟨isNew, rfl⟩
    · rintro ⟨isNew, same⟩
      rw [same]
      exact isNew

/-- A struct whose name is in backticks. -/
theorem isDropped_step_iff_collapses_struct :
    let name := "`Vec`".toList
    let target := "struct.Vec.html".toList
    let tracker : Tracker := {}
    ('[' ∉ name ∧ ']' ∉ name ∧ '\n' ∉ name) ∧ LinkTarget.IsWhole target ∧
      LinkPath.isRooted target = false ∧
      (tracker.step {} "[`Vec`]: struct.Vec.html".toList).1.isDropped = true := by
  intro name target tracker
  have plain : '[' ∉ name ∧ ']' ∉ name ∧ '\n' ∉ name := by decide
  have isWhole : LinkTarget.IsWhole target :=
    ⟨[], target, rfl, Or.inl rfl, by decide, List.all_eq_true.mp (by decide)⟩
  have forms := @isDropped_step_iff_collapses {} tracker name target plain isWhole rfl rfl
    (Or.inl .fresh)
  exact ⟨plain, isWhole, rfl, forms.2.mpr ⟨by decide +kernel, by decide⟩⟩

/-- With two backticks on either side only the short form is found redundant. -/
theorem not_isDropped_step_twoTicks :
    let tracker : Tracker := {}
    let settings : Settings := {}
    (ConvertedLine.ofLine "[``Vec``](struct.Vec.html)".toList settings.options none
        settings.ignores).text = "[``Vec``]".toList ∧
      (tracker.step settings "[``Vec``]: struct.Vec.html".toList).1 =
        .replaced "[``Vec``]: struct.Vec.html".toList "[``Vec``]: Vec".toList 1 := by
  decide +kernel

end Tracker

end IntraDoc
