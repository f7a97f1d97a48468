import IntraDoc.Proofs.Line.LineEnd
import IntraDoc.Proofs.Line.Unchanged

/-!
# Line breaks in converted lines

A rendering holds no line break, so a conversion brings none into a line. As it never touches what
follows the last link either, a line keeps its own break, and a line that has a content still has
one.
-/

namespace IntraDoc

section Converted

variable {options : Options} {currentType : Option Text} {ignored : Text → Text → Bool}
  {char : Char}

theorem Text.isWord_eq_false_of_isLineBreak (breaks : isLineBreak char = true) :
    isWord char = false := by
  have all : lineBreaks.all (fun char => !isWord char) = true := by decide +kernel
  simpa using forall_isLineBreak all breaks

variable (breaks : Text.isLineBreak char = true)
  (areWords : ∀ name ∈ currentType, ∀ char ∈ name, Text.isWord char = true)

include breaks areWords

/-- A new target holds no line break. -/
theorem Candidate.notMem_newTarget? {candidate : Candidate} {new : Text}
    (isTarget : LinkTarget.IsTarget candidate.target)
    (isNew : candidate.newTarget? options currentType ignored = some new) : char ∉ new := by
  rcases rendered?_eq_some (rendered?_of_newTarget? isNew) with ⟨link, read, -, rfl⟩
  have wellNamed := DocLink.wellNamed_of_ofTarget? (isTarget.notMem (by decide) (by decide)) read
  have all : Text.lineBreaks.all (fun char =>
      !Page.isAnchorChar char && char ≠ '#' && char ≠ ':') = true := by decide
  have outside := Text.forall_isLineBreak all breaks
  simp only [Bool.and_eq_true, Bool.not_eq_true', decide_eq_true_eq] at outside
  have notToken : char ∉ link.disambiguator.token := by
    have tokens : ∀ disambiguator ∈ Disambiguator.known,
        Text.IsUnbroken disambiguator.token := by decide
    intro inside
    simp [tokens _ wellNamed.finish.known char inside] at breaks
  apply wellNamed.notMem_render options.disambiguate outside.1.1 outside.1.2 outside.2 notToken
  intro name inScope inside
  have isWord := areWords name inScope char inside
  simp [Text.isWord_eq_false_of_isLineBreak breaks] at isWord

theorem Piece.notMem_converted {piece : Piece}
    (isTarget : ∀ name target, piece = .link name target → LinkTarget.IsTarget target)
    (free : char ∉ piece.text) : char ∉ piece.converted options currentType ignored := by
  have notBracket : char ∉ ['[', ']', '(', ')'] := by
    intro inside
    have unbroken : Text.IsUnbroken ['[', ']', '(', ')'] := by decide
    simp [unbroken char inside] at breaks
  simp only [List.mem_cons, List.not_mem_nil, or_false, not_or] at notBracket
  cases piece with
  | plain other => exact free
  | link name target =>
      have nameFree : char ∉ name := by
        intro inside
        exact free (by simp [text, inside])
      rcases converted_link_cases options currentType ignored name target with ⟨-, same⟩ |
        ⟨new, -, isNew, ⟨-, collapsed⟩ | ⟨-, exchanged⟩⟩
      · rwa [same]
      · rw [collapsed]
        simp [nameFree, notBracket]
      · have newFree : char ∉ new :=
          Candidate.notMem_newTarget? breaks areWords (isTarget name target rfl) isNew
        rw [exchanged]
        simp [text, nameFree, newFree, notBracket]

theorem Piece.notMem_flatMap_converted {pieces : List Piece}
    (targets : ∀ name target, .link name target ∈ pieces → LinkTarget.IsTarget target)
    (free : char ∉ pieces.flatMap text) :
    char ∉ pieces.flatMap (converted options currentType ignored) := by
  intro inside
  obtain ⟨piece, isPiece, inPiece⟩ := List.mem_flatMap.mp inside
  refine notMem_converted breaks areWords ?_ ?_ inPiece
  · rintro name target rfl
    exact targets name target isPiece
  · intro inText
    exact free (List.mem_flatMap.mpr ⟨piece, isPiece, inText⟩)

omit breaks areWords in
theorem Piece.flatMap_converted_ne_nil {pieces : List Piece} (filled : pieces.flatMap text ≠ []) :
    pieces.flatMap (converted options currentType ignored) ≠ [] := by
  cases pieces with
  | nil => exact absurd rfl filled
  | cons piece pieces =>
      cases piece with
      | plain other => simp [converted]
      | link name target =>
          rcases converted_link_cases options currentType ignored name target with ⟨-, same⟩ |
            ⟨new, -, -, ⟨-, collapsed⟩ | ⟨-, exchanged⟩⟩
          · simp [same, text]
          · simp [collapsed]
          · simp [exchanged, text]

end Converted

section Lines

variable {options : Options} {currentType : Option Text} {ignored : Text → Text → Bool}

/--
What becomes of a line: it stays as it is, the target of a long-form link is exchanged, or its
pieces are converted.
-/
theorem ofLine_text_cases (options : Options) (currentType : Option Text)
    (ignored : Text → Text → Bool) (line : Text) :
    let converted := (ConvertedLine.ofLine line options currentType ignored).text
    converted = line ∨
      (∃ (candidate : Candidate) (header new lineEnd : Text),
        LinkTarget.IsTarget candidate.target ∧
        candidate.newTarget? options currentType ignored = some new ∧ header ≠ [] ∧
        line = header ++ (candidate.target ++ lineEnd) ∧ converted = header ++ (new ++ lineEnd)) ∨
      ∃ pieces : List Piece, line = pieces.flatMap Piece.text ∧
        converted = pieces.flatMap (Piece.converted options currentType ignored) ∧
        ∀ name target, .link name target ∈ pieces → LinkTarget.IsTarget target := by
  intro converted
  cases read : LongForm.read? line with
  | none =>
      rcases ShortForm.exists_pieces 0 line with ⟨pieces, shape, links, targets⟩
      refine Or.inr (Or.inr ⟨pieces, shape, ?_, targets⟩)
      have inPlace := foldr_step_candidates options currentType ignored [] pieces
      rw [List.nil_append, List.nil_append, ← shape, List.length_nil, ← links] at inPlace
      simp only [converted, ConvertedLine.ofLine, candidatesIn, read]
      exact inPlace
  | some candidate =>
      obtain ⟨header, lineEnd, shape, isLong, span, isTarget, filled, -⟩ :=
        LongForm.read?_eq_some read
      by_cases rooted : LinkPath.isRooted candidate.target = true
      · exact Or.inl (by simp [converted, ConvertedLine.ofLine, candidatesIn, read, rooted])
      · have single : converted =
            (ConvertedLine.step options currentType ignored candidate (line, 0)).1 := by
          simp [converted, ConvertedLine.ofLine, candidatesIn, read, rooted]
        rw [single, fst_step]
        cases isNew : candidate.newTarget? options currentType ignored with
        | none => exact Or.inl rfl
        | some new =>
            refine Or.inr (Or.inl ⟨candidate, header, new, lineEnd, isTarget, isNew, filled,
              shape, ?_⟩)
            simp only
            rw [Candidate.substitute, isLong, if_neg (by simp), span, shape, Span.replace_append,
              List.append_assoc]

theorem notMem_ofLine_text {char : Char} (breaks : Text.isLineBreak char = true)
    (areWords : ∀ name ∈ currentType, ∀ char ∈ name, Text.isWord char = true) {line : Text}
    (free : char ∉ line) : char ∉ (ConvertedLine.ofLine line options currentType ignored).text := by
  rcases ofLine_text_cases options currentType ignored line with same |
    ⟨candidate, header, new, lineEnd, isTarget, isNew, -, shape, exchanged⟩ |
    ⟨pieces, shape, converted, targets⟩
  · rwa [same]
  · have newFree : char ∉ new := Candidate.notMem_newTarget? breaks areWords isTarget isNew
    simp only [shape, List.mem_append, not_or] at free
    simp only [exchanged, List.mem_append, not_or]
    exact ⟨free.1, newFree, free.2.2⟩
  · rw [shape] at free
    rw [converted]
    exact Piece.notMem_flatMap_converted breaks areWords targets free

theorem ofLine_text_ne_nil {line : Text} (filled : line ≠ []) :
    (ConvertedLine.ofLine line options currentType ignored).text ≠ [] := by
  rcases ofLine_text_cases options currentType ignored line with same |
    ⟨candidate, header, new, lineEnd, -, -, notEmpty, -, exchanged⟩ | ⟨pieces, shape, converted, -⟩
  · rwa [same]
  · simp [exchanged, notEmpty]
  · rw [shape] at filled
    rw [converted]
    exact Piece.flatMap_converted_ne_nil filled

variable {content ending : Text} (unbroken : Text.IsUnbroken content)
  (isEnding : ending = [] ∨ Text.IsBreak ending)

include unbroken isEnding

/-- A line that ends otherwise than a long-form link may is none. -/
theorem LongForm.isLineEnd_of_read? {candidate : Candidate}
    (read : read? (content ++ ending) = some candidate) : isLineEnd ending = true := by
  have broken := Text.isLineBreak_of_ending isEnding
  obtain ⟨header, lineEnd, shape, -, -, isTarget, -, filled, isEnd⟩ := read?_eq_some read
  rw [← List.append_assoc] at shape
  rcases List.append_eq_append_iff.mp shape with ⟨between, front, back⟩ | ⟨between, front, back⟩
  · -- What the line end has more than the ending would be the end of the target.
    rcases List.eq_nil_or_concat between with rfl | ⟨others, char, rfl⟩
    · rwa [back]
    · have inTarget : char ∈ candidate.target := by
        have last := congrArg List.getLast? front
        rw [List.getLast?_append_of_ne_nil _ filled] at last
        simp only [List.concat_eq_append, ← List.append_assoc, List.getLast?_concat] at last
        exact List.mem_of_getLast? last
      have breaks := broken char (by rw [back]; simp)
      have all : Text.lineBreaks.all (fun char =>
          !LinkTarget.isChar char && char ≠ ':') = true := by decide
      have outside := Text.forall_isLineBreak all breaks
      simp only [Bool.and_eq_true, Bool.not_eq_true', decide_eq_true_eq] at outside
      exact absurd inTarget (isTarget.notMem outside.1 outside.2)
  · rcases between with _ | ⟨char, others⟩
    · rw [List.nil_append] at back
      rwa [back] at isEnd
    · have inContent := unbroken char (by rw [front]; simp)
      have breaks := isLineBreak_of_isLineEnd isEnd char (by rw [back]; simp)
      simp [breaks] at inContent

theorem candidatesIn_of_not_isLineEnd (notEnd : LongForm.isLineEnd ending = false) :
    candidatesIn (content ++ ending) = (ShortForm.scan 0 0 content).filter fun candidate =>
      !LinkPath.isRooted candidate.target := by
  have broken := Text.isLineBreak_of_ending isEnding
  have notLong : LongForm.read? (content ++ ending) = none := by
    cases read : LongForm.read? (content ++ ending) with
    | none => rfl
    | some candidate =>
        simp [LongForm.isLineEnd_of_read? unbroken isEnding read] at notEnd
  simp only [candidatesIn, notLong, ShortForm.scan_append broken]

variable (options ignored) in
/-- What is converted stands before the break of a line. -/
theorem exists_converted_content
    (areWords : ∀ name ∈ currentType, ∀ char ∈ name, Text.isWord char = true) :
    ∃ new, (ConvertedLine.ofLine (content ++ ending) options currentType ignored).text =
      new ++ ending ∧ Text.IsUnbroken new ∧ (new = [] → content = []) := by
  have unbrokenOf : ∀ {new : Text},
      (∀ {char : Char}, Text.isLineBreak char = true → char ∉ content → char ∉ new) →
      Text.IsUnbroken new := by
    intro new nothingAdded char inside
    rw [Bool.eq_false_iff]
    intro breaks
    refine nothingAdded breaks ?_ inside
    intro inContent
    simp [unbroken char inContent] at breaks
  by_cases isEnd : LongForm.isLineEnd ending = true
  · have free : '\r' ∉ content ∧ '\n' ∉ content :=
      ⟨fun inside => absurd (unbroken _ inside) (by decide),
        fun inside => absurd (unbroken _ inside) (by decide)⟩
    refine ⟨_, congrArg ConvertedLine.text (ofLine_append free isEnd), ?_, ?_⟩
    · exact unbrokenOf fun breaks notIn => notMem_ofLine_text breaks areWords notIn
    · intro empty
      by_contra filled
      exact ofLine_text_ne_nil filled empty
  · rw [Bool.not_eq_true] at isEnd
    rcases ShortForm.exists_pieces 0 content with ⟨pieces, shape, found, targets⟩
    have inPlace := foldr_step_candidates options currentType ignored [] pieces
    rw [List.nil_append, List.nil_append, ← shape, List.length_nil, ← found] at inPlace
    refine ⟨pieces.flatMap (Piece.converted options currentType ignored), ?_, ?_, ?_⟩
    · simp only [ConvertedLine.ofLine, candidatesIn_of_not_isLineEnd unbroken isEnding isEnd,
        foldr_step_append, inPlace]
    · apply unbrokenOf
      intro char breaks notIn
      rw [shape] at notIn
      exact Piece.notMem_flatMap_converted breaks areWords targets notIn
    · intro empty
      by_contra filled
      rw [shape] at filled
      exact Piece.flatMap_converted_ne_nil filled empty

/-- A converted line keeps its break, and a line with a content keeps having one. -/
theorem sameBreak_ofLine
    (areWords : ∀ name ∈ currentType, ∀ char ∈ name, Text.isWord char = true) :
    Text.SameBreak (content ++ ending)
      (ConvertedLine.ofLine (content ++ ending) options currentType ignored).text := by
  obtain ⟨new, converted, newUnbroken, kept⟩ :=
    exists_converted_content options ignored unbroken isEnding areWords
  have starts : ∀ char ∈ ending.head?, Text.isLineBreak char = true := by
    intro char first
    exact Text.isLineBreak_of_ending isEnding char (List.mem_of_mem_head? first)
  rw [converted, Text.SameBreak, Text.lineBreak_append newUnbroken starts,
    Text.lineBreak_append unbroken starts, Text.lineContent_append newUnbroken starts,
    Text.lineContent_append unbroken starts]
  exact ⟨rfl, kept⟩

end Lines

end IntraDoc
