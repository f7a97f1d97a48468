import IntraDoc.Proofs.Line.Pieces
import IntraDoc.Proofs.Link.Target

/-!
# Lines that a conversion keeps

The conversions of the links of a line never make up for each other: a line comes out as it was only
if every link does. A link comes out as it was if it is left alone or is its own rendering, and is
not redundant, in whatever scope it stands.
-/

namespace IntraDoc

namespace DocLink

/-- In a rendering a closing parenthesis stands behind an opening one only. -/
theorem WellNamed.opened_of_closed {link : DocLink} (wellNamed : link.WellNamed)
    {currentType : Option Text} (disambiguate : Bool) (inScope : ∀ name ∈ currentType, ')' ∉ name)
    (closed : ')' ∈ link.render currentType disambiguate) :
    '(' ∈ (link.render currentType disambiguate).takeWhile (· ≠ ')') := by
  have inToken : ')' ∈ link.disambiguator.token := by
    by_contra notToken
    exact wellNamed.notMem_render disambiguate (by decide) (by decide) (by decide) notToken inScope
      closed
  have isCall : link.disambiguator = ⟨.trailing, "()".toList⟩ := by
    have all : ∀ disambiguator ∈ Disambiguator.known, ')' ∈ disambiguator.token →
        disambiguator = ⟨.trailing, "()".toList⟩ := by decide
    exact all link.disambiguator wellNamed.finish.known inToken
  have noLeading : (if disambiguate = true then link.leadingToken else []) = [] := by
    simp [leadingToken, isCall]
  have trailing : link.trailingToken = ['(', ')'] := by
    simp [trailingToken, isCall]
  have free : ')' ∉ Text.joinWith "::".toList (link.segments currentType) ++ ['('] := by
    intro inside
    rcases List.mem_append.mp inside with inPath | isOpening
    · exact wellNamed.notMem_joinWith (by decide) (by decide) inScope inPath
    · simp at isOpening
  have shape : link.render currentType disambiguate =
      (Text.joinWith "::".toList (link.segments currentType) ++ ['(']) ++
        (')' :: Page.anchorText link.finish.anchorName) := by
    rw [wellNamed.render_eq, noLeading, trailing]
    simp only [List.nil_append, List.append_assoc, List.cons_append]
  rw [shape, takeWhile_ne_append free]
  simp

end DocLink

namespace Piece

section Cancellation

variable {options : Options} {currentType : Option Text} {ignored : Text → Text → Bool}

/-- What can become of a link. -/
theorem converted_link_cases (options : Options) (currentType : Option Text)
    (ignored : Text → Text → Bool) (name target : Text) :
    ((LinkPath.isRooted target = true ∨
        (ShortForm.candidate 0 name target).newTarget? options currentType ignored = none) ∧
      converted options currentType ignored (.link name target) = (link name target).text) ∨
    ∃ new, LinkPath.isRooted target = false ∧
      (ShortForm.candidate 0 name target).newTarget? options currentType ignored = some new ∧
      ((new = Text.trim (· = '`') name ∧
          converted options currentType ignored (.link name target) = '[' :: (name ++ [']'])) ∨
        (new ≠ Text.trim (· = '`') name ∧
          converted options currentType ignored (.link name target) = (link name new).text)) := by
  rw [converted]
  by_cases rooted : LinkPath.isRooted target = true
  · exact Or.inl ⟨Or.inl rooted, if_pos rooted⟩
  · rw [if_neg rooted]
    rw [Bool.not_eq_true] at rooted
    cases found : (ShortForm.candidate 0 name target).newTarget? options currentType ignored with
    | none => exact Or.inl ⟨Or.inr rfl, rfl⟩
    | some new =>
        refine Or.inr ⟨new, rooted, rfl, ?_⟩
        by_cases redundant : new = Text.trim (· = '`') name
        · exact Or.inl ⟨redundant, if_pos redundant⟩
        · exact Or.inr ⟨redundant, if_neg redundant⟩

/-- Up to the first bracket a conversion changes nothing. -/
theorem takeWhile_converted (pieces : List Piece) :
    (pieces.flatMap (converted options currentType ignored)).takeWhile (· ≠ '[') =
      (pieces.flatMap text).takeWhile (· ≠ '[') := by
  induction pieces with
  | nil => rfl
  | cons piece pieces ih =>
      cases piece with
      | plain char =>
          simp only [List.flatMap_cons, converted, text, List.singleton_append,
            List.takeWhile_cons, ih]
      | link name target =>
          have opened : ∃ rest, converted options currentType ignored (.link name target) =
              '[' :: rest := by
            rcases converted_link_cases options currentType ignored name target with ⟨-, same⟩ |
              ⟨new, -, -, ⟨-, collapsed⟩ | ⟨-, exchanged⟩⟩
            · exact ⟨_, same⟩
            · exact ⟨_, collapsed⟩
            · exact ⟨_, exchanged⟩
          rcases opened with ⟨rest, shape⟩
          simp [List.flatMap_cons, shape, text]

/-- A link that lost its target is not made up for by what follows. -/
theorem collapsed_ne (pieces : List Piece) (name target : Text) (bracketless : '[' ∉ target) :
    '[' :: (name ++ [']']) ++ pieces.flatMap (converted options currentType ignored) ≠
      (link name target).text ++ pieces.flatMap text := by
  intro same
  have behind : pieces.flatMap (converted options currentType ignored) =
      ('(' :: (target ++ [')'])) ++ pieces.flatMap text := by
    have whole : '[' :: (name ++ [']']) ++ pieces.flatMap (converted options currentType ignored) =
        '[' :: (name ++ [']']) ++ (('(' :: (target ++ [')'])) ++ pieces.flatMap text) := by
      rw [same]
      simp [text]
    exact List.append_cancel_left whole
  have free : '[' ∉ '(' :: (target ++ [')']) := by
    simp [bracketless]
  have before := congrArg (List.takeWhile fun char => decide (char ≠ '[')) behind
  rw [takeWhile_converted,
    List.takeWhile_append_of_pos (forall_ne_of_notMem free)] at before
  have sameLength := congrArg List.length before
  simp only [List.length_append, List.length_cons, List.length_nil] at sameLength
  omega

/-- A link that got another target is not made up for by what follows. -/
theorem exchanged_ne {name target new behind rest : Text} (plain : '(' ∉ target ∧ ')' ∉ target)
    (opened : ')' ∈ new → '(' ∈ new.takeWhile (· ≠ ')')) (different : new ≠ target) :
    (link name new).text ++ behind ≠ (link name target).text ++ rest := by
  intro same
  have fromTarget : new ++ ')' :: behind = target ++ ')' :: rest := by
    have whole : '[' :: (name ++ [']', '(']) ++ (new ++ ')' :: behind) =
        '[' :: (name ++ [']', '(']) ++ (target ++ ')' :: rest) := by
      simpa [text] using same
    exact List.append_cancel_left whole
  have cut := congrArg (List.takeWhile fun char => decide (char ≠ ')')) fromTarget
  rw [takeWhile_ne_append plain.2] at cut
  by_cases closed : ')' ∈ new
  · have run : ∀ char ∈ new.takeWhile (· ≠ ')'), decide (char ≠ ')') = true :=
      fun char isInside => by simpa using List.mem_takeWhile_imp isInside
    rw [← List.takeWhile_append_dropWhile (p := (· ≠ ')')) (l := new), List.append_assoc,
      List.takeWhile_append_of_pos run] at cut
    exact plain.1 (cut ▸ List.mem_append_left _ (opened closed))
  · rw [takeWhile_ne_append closed] at cut
    exact different cut

end Cancellation

end Piece

section Lines

variable {options : Options} {currentType : Option Text} {ignored : Text → Text → Bool}

theorem Candidate.rendered?_eq_some {candidate : Candidate} {new : Text}
    (rendered : candidate.rendered? options currentType = some new) :
    ∃ link, DocLink.ofTarget? candidate.target options = some link ∧
      link.isPrimitive = false ∧ new = link.render currentType options.disambiguate := by
  unfold rendered? at rendered
  split at rendered
  · simp at rendered
  · rename_i link read
    split at rendered
    · simp at rendered
    · rename_i notPrimitive
      rw [Option.some.injEq] at rendered
      exact ⟨link, read, by simpa using notPrimitive, rendered.symm⟩

theorem Candidate.rendered?_of_newTarget? {candidate : Candidate} {new : Text}
    (isNew : candidate.newTarget? options currentType ignored = some new) :
    candidate.rendered? options currentType = some new := by
  unfold newTarget? at isNew
  split at isNew
  · simp at isNew
  · exact isNew

/-- A new target closes the parentheses that it opens, and no others. -/
theorem Candidate.opened_of_closed {candidate : Candidate} {new : Text}
    (isTarget : LinkTarget.IsTarget candidate.target)
    (inScope : ∀ name ∈ currentType, ')' ∉ name)
    (isNew : candidate.newTarget? options currentType ignored = some new)
    (closed : ')' ∈ new) : '(' ∈ new.takeWhile (· ≠ ')') := by
  rcases rendered?_eq_some (rendered?_of_newTarget? isNew) with ⟨link, read, -, rfl⟩
  have wellNamed := DocLink.wellNamed_of_ofTarget? (isTarget.notMem (by decide) (by decide)) read
  exact wellNamed.opened_of_closed options.disambiguate inScope closed

/-- A piece that comes out as it was: no link, or one that is left alone or its own rendering. -/
def Piece.IsKept (options : Options) (currentType : Option Text) (ignored : Text → Text → Bool) :
    Piece → Prop
  | plain _ => True
  | link name target => LinkPath.isRooted target = false →
      ∀ new, (ShortForm.candidate 0 name target).newTarget? options currentType ignored =
        some new → new = target ∧ new ≠ Text.trim (· = '`') name

/-- A changed piece is not made up for by what follows. -/
theorem Piece.converted_append_eq_iff {piece : Piece} {pieces : List Piece}
    (inScope : ∀ name ∈ currentType, ')' ∉ name)
    (isTarget : ∀ name target, piece = .link name target → LinkTarget.IsTarget target) :
    piece.converted options currentType ignored ++
        pieces.flatMap (converted options currentType ignored) =
      piece.text ++ pieces.flatMap text ↔
      piece.IsKept options currentType ignored ∧
        pieces.flatMap (converted options currentType ignored) = pieces.flatMap text := by
  cases piece with
  | plain char => simp [converted, text, IsKept]
  | link name target =>
      have isTarget := isTarget name target rfl
      rcases converted_link_cases options currentType ignored name target with ⟨leftAlone, same⟩ |
        ⟨new, notRooted, isNew, ⟨redundant, collapsed⟩ | ⟨notRedundant, exchanged⟩⟩
      · have isKept : (link name target).IsKept options currentType ignored := by
          intro notRooted new isNew
          rcases leftAlone with rooted | noNew
          · simp [notRooted] at rooted
          · simp [noNew] at isNew
        rw [same, List.append_cancel_left_eq, and_iff_right isKept]
      · rw [collapsed]
        have bracketless : '[' ∉ target := isTarget.notMem (by decide) (by decide)
        refine iff_of_false (collapsed_ne pieces name target bracketless) ?_
        rintro ⟨isKept, -⟩
        exact (isKept notRooted new isNew).2 redundant
      · rw [exchanged]
        by_cases different : new = target
        · have isKept : (link name target).IsKept options currentType ignored := by
            intro _ other isOther
            rw [isNew, Option.some.injEq] at isOther
            exact ⟨isOther ▸ different, isOther ▸ notRedundant⟩
          rw [different, List.append_cancel_left_eq, and_iff_right isKept]
        · refine iff_of_false (exchanged_ne ?_ ?_ different) ?_
          · exact ⟨isTarget.notMem (by decide) (by decide), isTarget.notMem (by decide) (by decide)⟩
          · exact Candidate.opened_of_closed isTarget inScope isNew
          · rintro ⟨isKept, -⟩
            exact different (isKept notRooted new isNew).1

/-- Pieces come out as they were if every one of them does. -/
theorem Piece.flatMap_converted_eq_iff {pieces : List Piece}
    (inScope : ∀ name ∈ currentType, ')' ∉ name)
    (targets : ∀ name target, .link name target ∈ pieces → LinkTarget.IsTarget target) :
    pieces.flatMap (converted options currentType ignored) = pieces.flatMap text ↔
      ∀ piece ∈ pieces, piece.IsKept options currentType ignored := by
  induction pieces with
  | nil => simp
  | cons piece pieces ih =>
      have isTarget : ∀ name target, piece = .link name target → LinkTarget.IsTarget target := by
        rintro name target rfl
        exact targets name target List.mem_cons_self
      rw [List.flatMap_cons, List.flatMap_cons, converted_append_eq_iff inScope isTarget,
        ih fun name target isPiece => targets name target (List.mem_cons_of_mem _ isPiece)]
      simp only [List.mem_cons, forall_eq_or_imp]

theorem Piece.mem_candidates {offset : Nat} {pieces : List Piece} {candidate : Candidate}
    (found : candidate ∈ candidates offset pieces) :
    ∃ place name target, .link name target ∈ pieces ∧
      candidate = ShortForm.candidate place name target := by
  induction pieces generalizing offset with
  | nil => simp [candidates] at found
  | cons piece pieces ih =>
      cases piece with
      | plain char =>
          rcases ih found with ⟨place, name, target, isPiece, same⟩
          exact ⟨place, name, target, List.mem_cons_of_mem _ isPiece, same⟩
      | link name target =>
          rcases List.mem_cons.mp found with same | later
          · exact ⟨offset, name, target, List.mem_cons_self, same⟩
          · rcases ih later with ⟨place, other, otherTarget, isPiece, same⟩
            exact ⟨place, other, otherTarget, List.mem_cons_of_mem _ isPiece, same⟩

theorem Piece.exists_mem_candidates {offset : Nat} {pieces : List Piece} {name target : Text}
    (isPiece : .link name target ∈ pieces) :
    ∃ place, ShortForm.candidate place name target ∈ candidates offset pieces := by
  induction pieces generalizing offset with
  | nil => simp at isPiece
  | cons piece pieces ih =>
      rcases List.mem_cons.mp isPiece with same | later
      · subst same
        exact ⟨offset, List.mem_cons_self⟩
      · cases piece with
        | plain char => exact ih later
        | link other otherTarget =>
            obtain ⟨place, found⟩ := ih later
            exact ⟨place, List.mem_cons_of_mem _ found⟩

/-- A candidate that comes out as it was: left alone, or its own rendering and not redundant. -/
def Candidate.IsKept (options : Options) (currentType : Option Text)
    (ignored : Text → Text → Bool) (candidate : Candidate) : Prop :=
  ∀ new, candidate.newTarget? options currentType ignored = some new →
    new = candidate.target ∧ (candidate.form = .short → new ≠ candidate.shownName)

/-- Every candidate of a line has a target of the class. -/
theorem isTarget_of_mem_candidatesIn {line : Text} {candidate : Candidate}
    (found : candidate ∈ candidatesIn line) : LinkTarget.IsTarget candidate.target := by
  unfold candidatesIn at found
  split at found
  · rename_i long isRead
    split at found
    · simp at found
    · rcases LongForm.read?_eq_some isRead with ⟨header, lineEnd, -, -, -, isTarget, -⟩
      exact List.mem_singleton.mp found ▸ isTarget
  · rcases ShortForm.exists_pieces 0 line with ⟨pieces, -, links, targets⟩
    rw [links, List.mem_filter] at found
    rcases Piece.mem_candidates found.1 with ⟨place, name, target, isPiece, rfl⟩
    exact targets name target isPiece

theorem ofLine_long_text_eq_iff {line : Text} {candidate : Candidate}
    (read : LongForm.read? line = some candidate) :
    (ConvertedLine.step options currentType ignored candidate (line, 0)).1 = line ↔
      candidate.IsKept options currentType ignored := by
  rcases LongForm.read?_eq_some read with ⟨header, lineEnd, shape, isLong, span, -⟩
  rw [fst_step, Candidate.IsKept]
  cases found : candidate.newTarget? options currentType ignored with
  | none => simp
  | some new =>
      have substituted : candidate.substitute line new = header ++ (new ++ lineEnd) := by
        rw [Candidate.substitute, isLong, if_neg (by simp), span, shape, Span.replace_append,
          List.append_assoc]
      have same : header ++ (new ++ lineEnd) = line ↔ new = candidate.target := by
        rw [shape]
        simp
      simp only [substituted, same, Option.some.injEq, forall_eq', isLong, reduceCtorEq,
        false_implies, and_true]

theorem forall_isKept_iff (pieces : List Piece) :
    (∀ piece ∈ pieces, piece.IsKept options currentType ignored) ↔
      ∀ candidate ∈ (Piece.candidates 0 pieces).filter fun candidate =>
        !LinkPath.isRooted candidate.target,
        candidate.IsKept options currentType ignored := by
  constructor
  · intro all candidate found
    rw [List.mem_filter] at found
    rcases Piece.mem_candidates found.1 with ⟨place, name, target, isPiece, rfl⟩
    have isKept := all (.link name target) isPiece (by simpa [ShortForm.candidate] using found.2)
    intro new isNew
    exact ⟨(isKept new isNew).1, fun _ => (isKept new isNew).2⟩
  · intro all piece isPiece
    cases piece with
    | plain char => trivial
    | link name target =>
        intro notRooted new isNew
        obtain ⟨place, found⟩ : ∃ place, ShortForm.candidate place name target ∈
            Piece.candidates 0 pieces := Piece.exists_mem_candidates isPiece
        have chosen :
            (!LinkPath.isRooted (ShortForm.candidate place name target).target) = true := by
          simp [ShortForm.candidate, notRooted]
        have isKept := all _ (List.mem_filter.mpr ⟨found, chosen⟩) new isNew
        exact ⟨isKept.1, isKept.2 rfl⟩

/-- A line comes out as it was if every link on it does. -/
theorem ofLine_text_eq_iff (inScope : ∀ name ∈ currentType, ')' ∉ name) (line : Text) :
    (ConvertedLine.ofLine line options currentType ignored).text = line ↔
      ∀ candidate ∈ candidatesIn line, candidate.IsKept options currentType ignored := by
  simp only [ConvertedLine.ofLine]
  unfold candidatesIn
  split
  · rename_i long read
    split
    · simp
    · simpa using ofLine_long_text_eq_iff read
  · rcases ShortForm.exists_pieces 0 line with ⟨pieces, shape, links, targets⟩
    have converted := foldr_step_candidates options currentType ignored [] pieces
    rw [List.nil_append, List.nil_append, ← shape, List.length_nil] at converted
    rw [links, converted, ← forall_isKept_iff, ← Piece.flatMap_converted_eq_iff inScope targets,
      ← shape]

end Lines

end IntraDoc
