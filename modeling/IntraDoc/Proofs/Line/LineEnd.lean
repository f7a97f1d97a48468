import IntraDoc.Proofs.Line.Pieces
import IntraDoc.Proofs.Text.Lines
import IntraDoc.Line.LocalLink

/-!
# Links and line ends

No reader of links looks at the end of a line: a link is found, its target is read and a line links
to itself with one line end as with another. What is converted stands before the line end, which
comes out as it was. Short-form links may stand before any breaking characters; a long-form link
ends its line, so only the line ends that it knows count.
-/

namespace IntraDoc

namespace Text

section Cuts

variable {ending : Text}

theorem takeWhile_append_ending {test : Char → Bool} (stop : ∀ char ∈ ending, test char = false)
    (text : Text) : (text ++ ending).takeWhile test = text.takeWhile test := by
  induction text with
  | nil =>
      cases ending with
      | nil => rfl
      | cons char rest => simp [stop char List.mem_cons_self]
  | cons char rest ih =>
      rw [List.cons_append, List.takeWhile_cons, List.takeWhile_cons, ih]

theorem dropWhile_append_ending {test : Char → Bool} (stop : ∀ char ∈ ending, test char = false)
    (text : Text) : (text ++ ending).dropWhile test = text.dropWhile test ++ ending := by
  have same : (text ++ ending).takeWhile test ++ (text ++ ending).dropWhile test =
      text.takeWhile test ++ (text.dropWhile test ++ ending) := by
    rw [List.takeWhile_append_dropWhile, ← List.append_assoc, List.takeWhile_append_dropWhile]
  rw [takeWhile_append_ending stop] at same
  exact List.append_cancel_left same

theorem after?_append_ending {start : Text} (free : ∀ char ∈ start, char ∉ ending) (text : Text) :
    after? start (text ++ ending) = (after? start text).map (· ++ ending) := by
  induction start generalizing text with
  | nil => rfl
  | cons expected start ih =>
      have laterFree : ∀ char ∈ start, char ∉ ending := by
        intro char inside
        exact free char (List.mem_cons_of_mem _ inside)
      cases text with
      | cons char rest =>
          rw [List.cons_append, after?, after?]
          split
          · exact ih laterFree rest
          · rfl
      | nil =>
          cases ending with
          | nil => rfl
          | cons char rest =>
              have different : expected ≠ char := by
                rintro rfl
                exact free expected List.mem_cons_self List.mem_cons_self
              simp [after?, different]

theorem startsWith_append_ending {start : Text} (free : ∀ char ∈ start, char ∉ ending)
    (text : Text) : startsWith (text ++ ending) start = startsWith text start := by
  rw [startsWith, startsWith, after?_append_ending free, Option.isSome_map]

theorem splitAtLast?_append_ending {pivot : Char} (free : pivot ∉ ending) (text : Text) :
    splitAtLast? pivot (text ++ ending) =
      (splitAtLast? pivot text).map fun cut => (cut.1, cut.2 ++ ending) := by
  induction text with
  | nil =>
      have nothing : ∀ {rest : Text}, pivot ∉ rest → splitAtLast? pivot rest = none := by
        intro rest without
        cases cut : splitAtLast? pivot rest with
        | none => rfl
        | some found => exact absurd (splitAtLast?_eq_some cut ▸ by simp) without
      exact nothing free
  | cons char rest ih =>
      rw [List.cons_append, splitAtLast?, splitAtLast?, ih]
      cases splitAtLast? pivot rest with
      | some cut => rfl
      | none =>
          simp only [Option.map_none]
          split <;> rfl

theorem splitsAt_append_ending {first : Char} {separator : Text}
    (free : ∀ char ∈ first :: separator, char ∉ ending) (text : Text) :
    splitsAt (first :: separator) (text ++ ending) =
      (splitsAt (first :: separator) text).map fun cut => (cut.1, cut.2 ++ ending) := by
  induction text with
  | nil =>
      have nothing : ∀ {rest : Text}, first ∉ rest → splitsAt (first :: separator) rest = [] := by
        intro rest without
        induction rest with
        | nil => rfl
        | cons char rest ih =>
            simp only [List.mem_cons, not_or] at without
            simp [splitsAt, after?, without.1, ih without.2]
      exact nothing (free first List.mem_cons_self)
  | cons char rest ih =>
      rw [splitsAt, List.cons_append, splitsAt, ih, ← List.cons_append,
        after?_append_ending free]
      cases after? (first :: separator) (char :: rest) <;> simp [Function.comp_def]

theorem skipBlanks_append {text : Text} (filled : skipBlanks text ≠ []) (ending : Text) :
    skipBlanks (text ++ ending) = skipBlanks text ++ ending := by
  rw [skipBlanks, List.dropWhile_append, if_neg (by simpa [skipBlanks] using filled)]
  rfl

theorem skipBlanks_append_eq_nil {text : Text} (blank : skipBlanks text = [])
    (allBlank : ∀ char ∈ ending, isBlank char = true) : skipBlanks (text ++ ending) = [] := by
  rw [skipBlanks, List.dropWhile_eq_nil_iff] at blank ⊢
  intro char inside
  exact (List.mem_append.mp inside).elim (blank char) (allBlank char)

theorem notMem_of_isSuffix {text inside : Text} (isSuffix : inside <:+ text)
    (free : '\r' ∉ text ∧ '\n' ∉ text) : '\r' ∉ inside ∧ '\n' ∉ inside :=
  ⟨fun isIn => free.1 (isSuffix.subset isIn), fun isIn => free.2 (isSuffix.subset isIn)⟩

theorem trimLineEnd_append {content : Text} (free : '\r' ∉ content ∧ '\n' ∉ content)
    (isEnd : ∀ char ∈ ending, char = '\r' ∨ char = '\n') :
    trimLineEnd (content ++ ending) = content := by
  have trimmed : trimRight (fun char => char = '\r' || char = '\n') ending = [] := by
    induction ending with
    | nil => rfl
    | cons char rest ih =>
        have dropped := isEnd char List.mem_cons_self
        rw [trimRight, ih fun other inside => isEnd other (List.mem_cons_of_mem _ inside)]
        simp [dropped]
  induction content with
  | nil => exact trimmed
  | cons char rest ih =>
      simp only [List.mem_cons, not_or] at free
      have behind : trimRight (fun char => char = '\r' || char = '\n') (rest ++ ending) = rest :=
        ih ⟨free.1.2, free.2.2⟩
      rw [trimLineEnd, List.cons_append, trimRight, behind]
      cases rest with
      | nil => simp [Ne.symm free.1.1, Ne.symm free.2.1]
      | cons next others => rfl

end Cuts

end Text

section Broken

variable {ending : Text} (broken : ∀ char ∈ ending, Text.isLineBreak char = true)

include broken

theorem Text.notMem_of_broken {char : Char} (unbroken : Text.isLineBreak char = false) :
    char ∉ ending := by
  intro inside
  simp [broken char inside] at unbroken

theorem Text.IsUnbroken.notMem_of_broken {text : Text} (unbroken : IsUnbroken text) :
    ∀ char ∈ text, char ∉ ending :=
  fun char inside => Text.notMem_of_broken broken (unbroken char inside)

theorem Text.isBlank_of_broken : ∀ char ∈ ending, Text.isBlank char = true := by
  intro char inside
  exact Text.forall_isLineBreak (by decide) (broken char inside)

theorem LinkTarget.isChar_of_broken : ∀ char ∈ ending, LinkTarget.isChar char = false := by
  intro char inside
  have all : Text.lineBreaks.all (fun char => !LinkTarget.isChar char) = true := by decide
  simpa using Text.forall_isLineBreak all (broken char inside)

theorem LinkTarget.splitScheme_append (text : Text) :
    splitScheme (text ++ ending) = ((splitScheme text).1, (splitScheme text).2 ++ ending) := by
  have secure : ∀ char ∈ "https:".toList, char ∉ ending :=
    Text.IsUnbroken.notMem_of_broken broken (by decide)
  have plain : ∀ char ∈ "http:".toList, char ∉ ending :=
    Text.IsUnbroken.notMem_of_broken broken (by decide)
  unfold splitScheme
  rw [Text.after?_append_ending secure, Text.after?_append_ending plain]
  cases Text.after? "https:".toList text with
  | some rest => rfl
  | none => cases Text.after? "http:".toList text <;> rfl

theorem LinkTarget.read?_append (text : Text) :
    read? (text ++ ending) = (read? text).map fun found => (found.1, found.2 ++ ending) := by
  have stop := isChar_of_broken broken
  unfold read?
  simp only [splitScheme_append broken, Text.takeWhile_append_ending stop,
    Text.dropWhile_append_ending stop]
  split <;> rfl

namespace ShortForm

theorem name?_append (inner : Bool) (text : Text) :
    name? inner (text ++ ending) = (name? inner text).map fun found =>
      (found.1, found.2 ++ ending) := by
  induction text generalizing inner with
  | nil =>
      have nothing : ∀ {rest : Text}, (∀ char ∈ rest, Text.isLineBreak char = true) →
          name? inner rest = none := by
        intro rest allBroken
        induction rest with
        | nil => rfl
        | cons char rest ih =>
            have notOpening : char ≠ '[' := by
              rintro rfl
              exact absurd (allBroken '[' List.mem_cons_self) (by decide)
            have notClosing : char ≠ ']' := by
              rintro rfl
              exact absurd (allBroken ']' List.mem_cons_self) (by decide)
            have later := ih fun other inside => allBroken other (List.mem_cons_of_mem _ inside)
            simp [name?, notOpening, notClosing, later]
      exact nothing broken
  | cons char rest ih =>
      rw [List.cons_append, name?, name?, ih true, ih false]
      simp only [ih inner]
      split
      · rfl
      · split
        · split
          · rfl
          · simp [Function.comp_def]
        · split
          · split
            · simp [Function.comp_def]
            · rfl
          · simp [Function.comp_def]

omit broken in
/-- A short-form link, read mark by mark. -/
theorem read?_eq (text : Text) :
    read? text = (Text.after? ['['] text).bind fun rest =>
      (name? false rest).bind fun named =>
        (Text.after? ['('] named.2).bind fun rest =>
          (LinkTarget.read? rest).bind fun linked =>
            (Text.after? [')'] linked.2).map fun _ => (named.1, linked.1) := by
  fun_cases read? text with
  | case1 text name rest named target behind linked => simp [Text.after?, named, linked]
  | case2 text name rest named notClosed =>
      simp only [Text.after?, if_true, Option.bind_some, named]
      cases linked : LinkTarget.read? rest with
      | none => rfl
      | some found =>
          have apart : Text.after? [')'] found.2 = none := by
            apply Text.after?_eq_none
            intro behind same
            exact notClosed found.1 behind (by rw [linked, ← List.singleton_append, ← same])
          rw [Option.bind_some, apart]
          rfl
  | case3 text notOpened =>
      simp only [Text.after?, if_true, Option.bind_some]
      cases named : name? false text with
      | none => rfl
      | some found =>
          have apart : Text.after? ['('] found.2 = none := by
            apply Text.after?_eq_none
            intro behind same
            exact notOpened found.1 behind (by rw [named, ← List.singleton_append, ← same])
          rw [Option.bind_some, apart]
          rfl
  | case4 text notLink =>
      rw [Text.after?_eq_none notLink]
      rfl

theorem read?_append (text : Text) : read? (text ++ ending) = read? text := by
  have free : ∀ {mark : Text}, Text.IsUnbroken mark → ∀ char ∈ mark, char ∉ ending :=
    Text.IsUnbroken.notMem_of_broken broken
  have opening := Text.after?_append_ending (free (by decide : Text.IsUnbroken ['[']))
  have parenthesis := Text.after?_append_ending (free (by decide : Text.IsUnbroken ['(']))
  have closing := Text.after?_append_ending (free (by decide : Text.IsUnbroken [')']))
  simp only [read?_eq, opening, parenthesis, closing, name?_append broken,
    LinkTarget.read?_append broken, Option.bind_map, Option.map_map, Function.comp_def]

/-- The scanner finds the links of a line with its end as without it. -/
theorem scan_append (offset skipped : Nat) (text : Text) :
    scan offset skipped (text ++ ending) = scan offset skipped text := by
  induction text generalizing offset skipped with
  | nil =>
      have nothing : ∀ {rest : Text} {offset skipped : Nat},
          (∀ char ∈ rest, Text.isLineBreak char = true) → scan offset skipped rest = [] := by
        intro rest offset skipped allBroken
        induction rest generalizing offset skipped with
        | nil => rfl
        | cons char rest ih =>
            have later : ∀ char ∈ rest, Text.isLineBreak char = true :=
              fun other inside => allBroken other (List.mem_cons_of_mem _ inside)
            have noLink : read? (char :: rest) = none := read?_append allBroken []
            cases skipped with
            | succ skipped => exact ih later
            | zero =>
                rw [scan]
                simp only [noLink]
                exact ih later
      exact nothing broken
  | cons char rest ih =>
      have sameLink : read? (char :: (rest ++ ending)) = read? (char :: rest) :=
        read?_append broken (char :: rest)
      cases skipped with
      | succ skipped => exact ih (offset + 1) skipped
      | zero =>
          rw [List.cons_append, scan, scan]
          simp only [sameLink, ih]

end ShortForm

namespace LongForm

omit broken in
theorem skipMarker_eq (text : Text) :
    skipMarker text =
      match Text.after? "///".toList text with
      | some rest => Text.skipBlanks rest
      | none =>
        match Text.after? "//!".toList text with
        | some rest => Text.skipBlanks rest
        | none => text := by
  unfold skipMarker
  split
  · rfl
  · rfl
  · rename_i notOuter notInner
    have outer : Text.after? "///".toList text = none := Text.after?_eq_none notOuter
    have inner : Text.after? "//!".toList text = none := Text.after?_eq_none notInner
    rw [outer, inner]

omit broken in
theorem body?_eq (line : Text) :
    body? line = Text.after? ['['] (skipMarker (Text.skipBlanks line)) := by
  unfold body?
  split
  · rename_i body opened
    simp [opened, Text.after?]
  · rename_i notOpened
    exact (Text.after?_eq_none notOpened).symm

/-- Only a line that is blank behind its marker loses its end with the blanks. -/
theorem skipBlanks_cases (text : Text) :
    (Text.skipBlanks text = [] ∧ Text.skipBlanks (text ++ ending) = []) ∨
      (Text.skipBlanks text ≠ [] ∧
        Text.skipBlanks (text ++ ending) = Text.skipBlanks text ++ ending) := by
  by_cases blank : Text.skipBlanks text = []
  · exact Or.inl ⟨blank, Text.skipBlanks_append_eq_nil blank (Text.isBlank_of_broken broken)⟩
  · exact Or.inr ⟨blank, Text.skipBlanks_append blank ending⟩

theorem skipMarker_cases (text : Text) :
    (skipMarker text = [] ∧ skipMarker (text ++ ending) = []) ∨
      skipMarker (text ++ ending) = skipMarker text ++ ending := by
  have outer : ∀ char ∈ "///".toList, char ∉ ending :=
    Text.IsUnbroken.notMem_of_broken broken (by decide)
  have inner : ∀ char ∈ "//!".toList, char ∉ ending :=
    Text.IsUnbroken.notMem_of_broken broken (by decide)
  rw [skipMarker_eq, skipMarker_eq, Text.after?_append_ending outer,
    Text.after?_append_ending inner]
  cases Text.after? "///".toList text with
  | some rest => exact (skipBlanks_cases broken rest).imp_right And.right
  | none =>
      cases Text.after? "//!".toList text with
      | some rest => exact (skipBlanks_cases broken rest).imp_right And.right
      | none => exact Or.inr rfl

theorem body?_append (text : Text) :
    body? (text ++ ending) = (body? text).map (· ++ ending) := by
  have free : ∀ char ∈ ['['], char ∉ ending :=
    Text.IsUnbroken.notMem_of_broken broken (by decide)
  rw [body?_eq, body?_eq]
  rcases skipBlanks_cases broken text with ⟨blank, allBlank⟩ | ⟨-, apart⟩
  · rw [blank, allBlank]
    rfl
  · rw [apart]
    rcases skipMarker_cases broken (Text.skipBlanks text) with ⟨nothing, stillNothing⟩ | behind
    · rw [nothing, stillNothing]
      rfl
    · rw [behind, Text.after?_append_ending free]

theorem nameAndRest?_append (text : Text) :
    nameAndRest? (text ++ ending) = (nameAndRest? text).map fun found =>
      (found.1, if found.2 = [] then [] else found.2 ++ ending) := by
  have notColon : ∀ {others : Text}, ending ≠ ':' :: others := by
    rintro others rfl
    exact absurd (broken ':' List.mem_cons_self) (by decide)
  have free : ']' ∉ ending := Text.notMem_of_broken broken (by decide)
  unfold nameAndRest?
  rw [body?_append broken]
  cases body? text with
  | none => rfl
  | some body =>
      simp only [Option.map_some, Option.bind_some]
      rw [Text.splitAtLast?_append_ending free]
      rcases Text.splitAtLast? ']' body with _ | ⟨name, _ | ⟨next, rest⟩⟩
      · rfl
      · simp only [Option.map_some, List.nil_append]
        split
        · rename_i same
          simp only [Option.some.injEq, Prod.mk.injEq] at same
          exact absurd same.2 notColon
        · rfl
      · simp only [Option.map_some, List.cons_append]
        by_cases colon : next = ':'
        · subst colon
          simp only
          split
          · rfl
          · rcases skipBlanks_cases broken rest with ⟨blank, allBlank⟩ | ⟨filled, apart⟩
            · simp [blank, allBlank]
            · simp [filled, apart]
        · simp [colon]

end LongForm

end Broken

namespace LongForm

variable {content ending : Text}

theorem isLineEnd_iff {text : Text} :
    isLineEnd text = true ↔ text = [] ∨ text = ['\n'] ∨ text = ['\r', '\n'] := by
  simp [isLineEnd, or_assoc]

theorem return_or_feed_of_isLineEnd (isEnd : isLineEnd ending = true) :
    ∀ char ∈ ending, char = '\r' ∨ char = '\n' := by
  rcases isLineEnd_iff.mp isEnd with rfl | rfl | rfl <;> simp

theorem isLineBreak_of_isLineEnd (isEnd : isLineEnd ending = true) :
    ∀ char ∈ ending, Text.isLineBreak char = true := by
  intro char inside
  rcases return_or_feed_of_isLineEnd isEnd char inside with rfl | rfl <;> decide

theorem isLineEnd_append (free : '\r' ∉ content ∧ '\n' ∉ content)
    (isEnd : isLineEnd ending = true) : isLineEnd (content ++ ending) = isLineEnd content := by
  cases content with
  | nil => simpa [isLineEnd] using isEnd
  | cons char rest =>
      simp only [List.mem_cons, not_or] at free
      simp [isLineEnd, Ne.symm free.1.1, Ne.symm free.2.1]

/-- A line is a long-form link with one line end as with another. -/
theorem read?_append (free : '\r' ∉ content ∧ '\n' ∉ content) (isEnd : isLineEnd ending = true) :
    read? (content ++ ending) = (read? content).map fun candidate =>
      { candidate with linkSpan := ⟨0, (content ++ ending).length⟩ } := by
  have broken := isLineBreak_of_isLineEnd isEnd
  unfold read?
  rw [nameAndRest?_append broken]
  cases found : nameAndRest? content with
  | none => rfl
  | some parts =>
      rcases parts with ⟨name, rest⟩
      by_cases nothing : rest = []
      · simp [nothing, LinkTarget.read?, LinkTarget.splitScheme, Text.after?]
      · simp only [Option.map_some, if_neg nothing]
        rw [LinkTarget.read?_append broken]
        cases read : LinkTarget.read? rest with
        | none => rfl
        | some cut =>
            rcases cut with ⟨target, lineEnd⟩
            have inside : lineEnd <:+ content :=
              List.IsSuffix.trans ⟨target, (LinkTarget.read?_eq_some read).1.symm⟩
                (nameAndRest?_isSuffix found).1
            have endFree := Text.notMem_of_isSuffix inside free
            have start : (content ++ ending).length - (rest ++ ending).length =
                content.length - rest.length := by
              rw [List.length_append, List.length_append]
              omega
            simp only [Option.map_some, isLineEnd_append endFree isEnd, start]
            split <;> rfl

end LongForm

section Conversion

variable {options : Options} {currentType : Option Text} {ignored : Text → Text → Bool}

theorem snd_step (candidate : Candidate) (state : Text × Nat) :
    (ConvertedLine.step options currentType ignored candidate state).2 =
      state.2 + (candidate.newTarget? options currentType ignored).toList.length := by
  unfold ConvertedLine.step Candidate.newTarget?
  split
  · rfl
  · cases candidate.rendered? options currentType <;> rfl

theorem snd_foldr_step (candidates : List Candidate) (first second : Text) (count : Nat) :
    (candidates.foldr (ConvertedLine.step options currentType ignored) (first, count)).2 =
      (candidates.foldr (ConvertedLine.step options currentType ignored) (second, count)).2 := by
  induction candidates with
  | nil => rfl
  | cons candidate candidates ih => rw [List.foldr_cons, List.foldr_cons, snd_step, snd_step, ih]

theorem Piece.candidates_append_plain (offset : Nat) (pieces : List Piece) (ending : Text) :
    candidates offset (pieces ++ ending.map plain) = candidates offset pieces := by
  induction pieces generalizing offset with
  | nil =>
      induction ending generalizing offset with
      | nil => rfl
      | cons char rest ih => exact ih (offset + 1)
  | cons piece pieces ih =>
      cases piece with
      | plain char => exact ih (offset + 1)
      | link name target =>
          rw [List.cons_append, candidates, candidates, ih]

theorem Piece.flatMap_text_plain (text : Text) : (text.map plain).flatMap Piece.text = text := by
  induction text with
  | nil => rfl
  | cons char rest ih => rw [List.map_cons, List.flatMap_cons, ih]; rfl

theorem Piece.flatMap_converted_plain (text : Text) :
    (text.map plain).flatMap (converted options currentType ignored) = text := by
  induction text with
  | nil => rfl
  | cons char rest ih => rw [List.map_cons, List.flatMap_cons, ih]; rfl

/-- Short-form links are converted before the line end, which stays. -/
theorem foldr_step_append (content ending : Text) :
    let links := (ShortForm.scan 0 0 content).filter fun candidate =>
      !LinkPath.isRooted candidate.target
    let alone := links.foldr (ConvertedLine.step options currentType ignored) (content, 0)
    links.foldr (ConvertedLine.step options currentType ignored) (content ++ ending, 0) =
      (alone.1 ++ ending, alone.2) := by
  intro links alone
  apply Prod.ext
  · rcases ShortForm.exists_pieces 0 content with ⟨pieces, shape, found, -⟩
    have within := foldr_step_candidates options currentType ignored [] pieces
    have whole := foldr_step_candidates options currentType ignored [] (pieces ++ ending.map .plain)
    simp only [List.nil_append, List.length_nil] at within whole
    rw [Piece.candidates_append_plain, ← found, List.flatMap_append, List.flatMap_append, ← shape,
      Piece.flatMap_text_plain, Piece.flatMap_converted_plain] at whole
    rw [← found, ← shape] at within
    exact whole.trans (congrArg (· ++ ending) within.symm)
  · exact snd_foldr_step links (content ++ ending) content 0

theorem Span.replace_append_ending {span : Span} {line : Text} (bound : span.stop ≤ line.length)
    (ordered : span.start ≤ span.stop) (new ending : Text) :
    span.replace (line ++ ending) new = span.replace line new ++ ending := by
  rw [replace, replace, List.take_append_of_le_length (by omega),
    List.drop_append_of_le_length bound, ← List.append_assoc]

theorem step_long_append {content ending : Text} {candidate : Candidate} (linkSpan : Span)
    (isLong : candidate.form = .long) (bound : candidate.targetSpan.stop ≤ content.length)
    (ordered : candidate.targetSpan.start ≤ candidate.targetSpan.stop) :
    let alone := ConvertedLine.step options currentType ignored candidate (content, 0)
    ConvertedLine.step options currentType ignored { candidate with linkSpan := linkSpan }
        (content ++ ending, 0) = (alone.1 ++ ending, alone.2) := by
  intro alone
  have substituted : ∀ new, Candidate.substitute { candidate with linkSpan := linkSpan }
      (content ++ ending) new = candidate.substitute content new ++ ending := by
    intro new
    simp only [Candidate.substitute, isLong]
    exact Span.replace_append_ending bound ordered new ending
  have sameRendering : Candidate.rendered? { candidate with linkSpan := linkSpan } options
      currentType = candidate.rendered? options currentType := rfl
  simp only [alone, ConvertedLine.step, sameRendering, substituted]
  split
  · rfl
  · cases candidate.rendered? options currentType <;> rfl

/-- A line is converted with one line end as with another, and keeps its own. -/
theorem ofLine_append {content ending : Text} (free : '\r' ∉ content ∧ '\n' ∉ content)
    (isEnd : LongForm.isLineEnd ending = true) :
    let alone := ConvertedLine.ofLine content options currentType ignored
    ConvertedLine.ofLine (content ++ ending) options currentType ignored =
      { alone with text := alone.text ++ ending } := by
  intro alone
  have longer := LongForm.read?_append free isEnd
  cases read : LongForm.read? content with
  | none =>
      rw [read] at longer
      have links : candidatesIn (content ++ ending) = candidatesIn content := by
        simp only [candidatesIn, longer, read, Option.map_none,
          ShortForm.scan_append (LongForm.isLineBreak_of_isLineEnd isEnd)]
      have found : candidatesIn content = (ShortForm.scan 0 0 content).filter fun candidate =>
          !LinkPath.isRooted candidate.target := by
        simp only [candidatesIn, read]
      simp only [alone, ConvertedLine.ofLine, links, found, foldr_step_append]
  | some candidate =>
      rw [read] at longer
      obtain ⟨header, lineEnd, shape, isLong, span, -⟩ := LongForm.read?_eq_some read
      by_cases rooted : LinkPath.isRooted candidate.target = true
      · simp [alone, ConvertedLine.ofLine, candidatesIn, longer, read, rooted]
      · have bound : candidate.targetSpan.stop ≤ content.length := by
          rw [span, shape, List.length_append, List.length_append]
          simp only
          omega
        have ordered : candidate.targetSpan.start ≤ candidate.targetSpan.stop := by
          rw [span]
          exact Nat.le_add_right _ _
        have links : candidatesIn (content ++ ending) =
            [{ candidate with linkSpan := ⟨0, (content ++ ending).length⟩ }] := by
          simp only [candidatesIn, longer, Option.map_some, rooted, Bool.false_eq_true, if_false]
        have found : candidatesIn content = [candidate] := by
          simp only [candidatesIn, read, rooted, Bool.false_eq_true, if_false]
        simp only [alone, ConvertedLine.ofLine, links, found, List.foldr_cons, List.foldr_nil,
          step_long_append _ isLong bound ordered, List.head?_cons, Option.map_some]

end Conversion

section LocalLinks

variable {content ending : Text}

theorem lineText?_append (free : '\r' ∉ content ∧ '\n' ∉ content)
    (isEnd : LongForm.isLineEnd ending = true) :
    LocalLink.lineText? (content ++ ending) = some content := by
  have noReturn : ∀ {others : Text}, content.reverse ≠ '\r' :: others := by
    intro others same
    exact free.1 (List.mem_reverse.mp (same ▸ List.mem_cons_self))
  have noFeed : ∀ {others : Text}, content.reverse ≠ '\n' :: others := by
    intro others same
    exact free.2 (List.mem_reverse.mp (same ▸ List.mem_cons_self))
  rcases LongForm.isLineEnd_iff.mp isEnd with rfl | rfl | rfl
  · simp only [LocalLink.lineText?, List.append_nil]
    split
    · exact absurd ‹_› noFeed
    · exact absurd ‹_› noFeed
    · simp [free.2]
  · simp only [LocalLink.lineText?, List.reverse_append, List.reverse_singleton,
      List.singleton_append, List.reverse_reverse]
    simp [free.2]
  · simp [LocalLink.lineText?, free.2]

theorem names?_append {name rest : Text} (free : '\r' ∉ rest ∧ '\n' ∉ rest)
    (isEnd : LongForm.isLineEnd ending = true) :
    LocalLink.names? (name, rest ++ ending) = LocalLink.names? (name, rest) := by
  have notEnd : LongForm.isLineEnd [] = true := rfl
  rcases LongForm.skipBlanks_cases (LongForm.isLineBreak_of_isLineEnd isEnd) rest with
    ⟨blank, allBlank⟩ | ⟨-, apart⟩
  · simp only [LocalLink.names?, blank, allBlank]
  · have inside : Text.skipBlanks rest <:+ rest := List.dropWhile_suffix _
    have stillFree := Text.notMem_of_isSuffix inside free
    have bare := lineText?_append stillFree notEnd
    rw [List.append_nil] at bare
    simp only [LocalLink.names?, apart, lineText?_append stillFree isEnd, bare]

theorem dropOpening_append (broken : ∀ char ∈ ending, Text.isLineBreak char = true) (body : Text) :
    LocalLink.dropOpening (body ++ ending) = LocalLink.dropOpening body ++ ending := by
  cases body with
  | nil =>
      cases ending with
      | nil => rfl
      | cons char rest =>
          have notTick : char ≠ '`' := by
            rintro rfl
            exact absurd (broken '`' List.mem_cons_self) (by decide)
          simp [LocalLink.dropOpening, notTick]
  | cons char rest =>
      by_cases tick : char = '`' <;> simp [LocalLink.dropOpening, tick]

theorem dropOpening_isSuffix (body : Text) : LocalLink.dropOpening body <:+ body := by
  unfold LocalLink.dropOpening
  split
  · exact List.suffix_cons _ _
  · exact List.suffix_refl _

theorem Text.isSuffix_of_mem_splitsAt {separator text : Text} {cut : Text × Text}
    (isCut : cut ∈ splitsAt separator text) : cut.2 <:+ text := by
  induction text generalizing cut with
  | nil => simp [splitsAt] at isCut
  | cons char rest ih =>
      have later : ∀ {cut : Text × Text}, cut ∈ (splitsAt separator rest).map
          (fun found => (char :: found.1, found.2)) → cut.2 <:+ char :: rest := by
        intro cut isLater
        obtain ⟨found, isFound, rfl⟩ := List.mem_map.mp isLater
        exact (ih isFound).trans (List.suffix_cons _ _)
      unfold splitsAt at isCut
      split at isCut
      · rename_i after found
        rcases List.mem_cons.mp isCut with rfl | isLater
        · exact ⟨separator, (after?_eq_some_iff.mp found).symm⟩
        · exact later isLater
      · exact later isCut

theorem findSome?_congr {α β : Type} {elements : List α} {first second : α → Option β}
    (same : ∀ element ∈ elements, first element = second element) :
    elements.findSome? first = elements.findSome? second := by
  induction elements with
  | nil => rfl
  | cons element elements ih =>
      rw [List.findSome?_cons, List.findSome?_cons, same element List.mem_cons_self,
        ih fun other inside => same other (List.mem_cons_of_mem _ inside)]

/-- Whether a line links to itself does not depend on its end. -/
theorem linksToItself_append (free : '\r' ∉ content ∧ '\n' ∉ content)
    (isEnd : LongForm.isLineEnd ending = true) :
    linksToItself (content ++ ending) = linksToItself content := by
  have broken := LongForm.isLineBreak_of_isLineEnd isEnd
  have separatorFree : ∀ char ∈ [']', ':'], char ∉ ending :=
    Text.IsUnbroken.notMem_of_broken broken (by decide)
  unfold linksToItself
  rw [LongForm.body?_append broken]
  cases found : LongForm.body? content with
  | none => rfl
  | some body =>
      have sameNames : ∀ cut ∈ Text.splitsAt [']', ':'] (LocalLink.dropOpening body),
          LocalLink.names? (cut.1, cut.2 ++ ending) = LocalLink.names? cut := by
        intro cut isCut
        have inside : cut.2 <:+ content :=
          ((Text.isSuffix_of_mem_splitsAt isCut).trans (dropOpening_isSuffix body)).trans
            ((List.suffix_cons _ _).trans (LongForm.body?_isSuffix found))
        exact names?_append (Text.notMem_of_isSuffix inside free) isEnd
      have sameFirst : (Text.splitsAt "]:".toList
          (LocalLink.dropOpening (body ++ ending))).findSome? LocalLink.names? =
          (Text.splitsAt "]:".toList (LocalLink.dropOpening body)).findSome? LocalLink.names? := by
        rw [dropOpening_append broken]
        have cuts := Text.splitsAt_append_ending separatorFree (LocalLink.dropOpening body)
        rw [show "]:".toList = [']', ':'] from rfl, cuts, List.findSome?_map]
        exact findSome?_congr sameNames
      simp only [Option.map_some, sameFirst]

end LocalLinks

end IntraDoc
