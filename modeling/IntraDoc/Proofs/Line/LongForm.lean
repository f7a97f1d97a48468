import IntraDoc.Proofs.Line.LineEnd

/-!
# Long-form lines taken apart

A line is a long-form link exactly if it is put together from a front, a name in brackets, blanks, a
target and a line end. No bracket stands behind the name and no blank in the target, so a line has
these parts in one way at most, and the reader finds them. A conversion exchanges the target among
them.
-/

namespace IntraDoc

namespace Text

section LastOccurrence

variable {pivot : Char} {text before after : Text}

theorem splitAtLast?_eq_none_iff : splitAtLast? pivot text = none ↔ pivot ∉ text := by
  induction text with
  | nil => simp [splitAtLast?]
  | cons char rest ih =>
      rw [splitAtLast?, List.mem_cons, not_or, ← ih]
      cases splitAtLast? pivot rest with
      | some cut => simp
      | none => simp [eq_comm]

/-- A cut at the last occurrence leaves none behind. -/
theorem splitAtLast?_eq_some_iff :
    splitAtLast? pivot text = some (before, after) ↔
      text = before ++ pivot :: after ∧ pivot ∉ after := by
  constructor
  · intro cut
    refine ⟨splitAtLast?_eq_some cut, ?_⟩
    induction text generalizing before with
    | nil => simp [splitAtLast?] at cut
    | cons char rest ih =>
        unfold splitAtLast? at cut
        split at cut
        · rename_i shorter behind found
          simp only [Option.some.injEq, Prod.mk.injEq] at cut
          exact ih (cut.2 ▸ found)
        · rename_i nothing
          split at cut
          · simp only [Option.some.injEq, Prod.mk.injEq] at cut
            exact cut.2 ▸ splitAtLast?_eq_none_iff.mp nothing
          · simp at cut
  · rintro ⟨rfl, free⟩
    induction before with
    | nil => simp [splitAtLast?, splitAtLast?_eq_none_iff.mpr free]
    | cons char before ih => simp [splitAtLast?, ih]

end LastOccurrence

/-- The characters that are blank. -/
def blanks : List Char :=
  ['\t', '\n', '\x0b', '\x0c', '\r', '\x1c', '\x1d', '\x1e', '\x1f', ' ', '\u0085', '\u00a0',
   '\u1680', '\u2000', '\u2001', '\u2002', '\u2003', '\u2004', '\u2005', '\u2006', '\u2007',
   '\u2008', '\u2009', '\u200a', '\u2028', '\u2029', '\u202f', '\u205f', '\u3000']

theorem mem_blanks {char : Char} (blank : isBlank char = true) : char ∈ blanks := by
  have codes : char.toNat ∈ blanks.map Char.toNat := by
    have listed : blanks.map Char.toNat =
        [9, 10, 11, 12, 13, 28, 29, 30, 31, 32, 0x85, 0xA0, 0x1680, 0x2000, 0x2001, 0x2002, 0x2003,
         0x2004, 0x2005, 0x2006, 0x2007, 0x2008, 0x2009, 0x200A, 0x2028, 0x2029, 0x202F, 0x205F,
         0x3000] := by
      decide
    simp only [isBlank, Bool.or_eq_true, Bool.and_eq_true, decide_eq_true_eq, or_assoc] at blank
    rw [listed]
    simp only [List.mem_cons, List.not_mem_nil, or_false]
    rcases blank with ⟨low, high⟩ | ⟨low, high⟩ | same | same | same | ⟨low, high⟩ | same | same |
      same | same | same <;> omega
  obtain ⟨other, isBlank, same⟩ := List.mem_map.mp codes
  rwa [← Char.toNat_inj.mp same]

/-- What holds of every blank holds of a character that is blank. -/
theorem forall_isBlank {test : Char → Bool} (all : blanks.all test = true) {char : Char}
    (blank : isBlank char = true) : test char = true :=
  List.all_eq_true.mp all char (mem_blanks blank)

theorem isBlank_eq_false_of_isWord {char : Char} (word : isWord char = true) :
    isBlank char = false := by
  have all : blanks.all (fun char => !isWord char) = true := by decide +kernel
  rw [Bool.eq_false_iff]
  intro blank
  simpa [word] using forall_isBlank all blank

/-- A run of blanks is skipped up to the first character that is none. -/
theorem skipBlanks_append_stop {gap rest : Text} (blank : ∀ char ∈ gap, isBlank char = true)
    (stop : ∀ char ∈ rest.head?, isBlank char = false) : skipBlanks (gap ++ rest) = rest :=
  dropWhile_append_stop blank stop

end Text

namespace LinkTarget

/-- A target as it is read: characters of the class, at least one, possibly behind a scheme. -/
def IsWhole (target : Text) : Prop :=
  ∃ scheme body, target = scheme ++ body ∧
    (scheme = [] ∨ scheme = "http:".toList ∨ scheme = "https:".toList) ∧ body ≠ [] ∧
    ∀ char ∈ body, isChar char = true

variable {target rest : Text}

theorem isBlank_eq_false_of_isTarget (isTarget : IsTarget target) :
    ∀ char ∈ target, Text.isBlank char = false := by
  intro char inside
  have all : Text.blanks.all (fun char => !isChar char && char ≠ ':') = true := by decide
  rw [Bool.eq_false_iff]
  intro blank
  have outside := Text.forall_isBlank all blank
  simp only [Bool.and_eq_true, Bool.not_eq_true', decide_eq_true_eq] at outside
  exact isTarget.notMem outside.1 outside.2 inside

namespace IsWhole

theorem isTarget (isWhole : IsWhole target) : IsTarget target := by
  rcases isWhole with ⟨scheme, body, shape, isScheme, -, allowed⟩
  exact ⟨scheme, body, shape, isScheme, allowed⟩

theorem ne_nil (isWhole : IsWhole target) : target ≠ [] := by
  rcases isWhole with ⟨scheme, body, rfl, -, filled, -⟩
  simp [filled]

theorem head?_append_isBlank (isWhole : IsWhole target) (rest : Text) :
    ∀ char ∈ (target ++ rest).head?, Text.isBlank char = false := by
  intro char first
  rw [List.head?_append_of_ne_nil _ isWhole.ne_nil] at first
  exact isBlank_eq_false_of_isTarget isWhole.isTarget char (List.mem_of_mem_head? first)

end IsWhole

theorem isWhole_of_read? {text : Text} (read : read? text = some (target, rest)) :
    IsWhole target := by
  unfold read? at read
  rcases cut : splitScheme text with ⟨scheme, behind⟩
  simp only [cut] at read
  split at read
  · simp at read
  · rename_i filled
    simp only [Option.some.injEq, Prod.mk.injEq] at read
    refine ⟨scheme, behind.takeWhile isChar, read.1.symm, (splitScheme_eq cut).2, ?_, ?_⟩
    · simpa using filled
    · exact fun char inside => List.mem_takeWhile_imp inside

/-- What begins with characters of the class and no colon behind them begins with no scheme. -/
theorem after?_scheme_eq_none (word : Text) {body : Text}
    (isWord : ∀ char ∈ word, isChar char = true) (allowed : ∀ char ∈ body, isChar char = true)
    (stop : ∀ char ∈ rest.head?, isChar char = false ∧ char ≠ ':') :
    Text.after? (word ++ [':']) (body ++ rest) = none := by
  apply Text.after?_eq_none
  intro behind same
  rw [List.append_assoc, List.singleton_append] at same
  have sameBody : body = word := by
    have cut := congrArg (List.takeWhile isChar) same
    rwa [takeWhile_append_stop allowed fun char first => (stop char first).1,
      takeWhile_append_stop isWord (by simp [isChar, Text.isAsciiWord, Text.isAsciiLetter])] at cut
  rw [sameBody, List.append_cancel_left_eq] at same
  exact (stop ':' (by simp [same])).2 rfl

theorem splitScheme_append_body {scheme body : Text}
    (isScheme : scheme = [] ∨ scheme = "http:".toList ∨ scheme = "https:".toList)
    (allowed : ∀ char ∈ body, isChar char = true)
    (stop : ∀ char ∈ rest.head?, isChar char = false ∧ char ≠ ':') :
    splitScheme (scheme ++ (body ++ rest)) = (scheme, body ++ rest) := by
  have secure : Text.after? "https:".toList (body ++ rest) = none :=
    after?_scheme_eq_none "https".toList (List.all_eq_true.mp (by decide)) allowed stop
  have plain : Text.after? "http:".toList (body ++ rest) = none :=
    after?_scheme_eq_none "http".toList (List.all_eq_true.mp (by decide)) allowed stop
  unfold splitScheme
  rcases isScheme with rfl | rfl | rfl
  · simp only [List.nil_append, secure, plain]
  · have notSecure : Text.after? "https:".toList ("http:".toList ++ (body ++ rest)) = none := rfl
    simp only [notSecure, Text.after?_append]
  · simp only [Text.after?_append]

/-- A target is read up to a character that can be no part of it. -/
theorem read?_of_isWhole (isWhole : IsWhole target)
    (stop : ∀ char ∈ rest.head?, isChar char = false ∧ char ≠ ':') :
    read? (target ++ rest) = some (target, rest) := by
  rcases isWhole with ⟨scheme, body, rfl, isScheme, filled, allowed⟩
  have notChar : ∀ char ∈ rest.head?, isChar char = false := fun char first => (stop char first).1
  unfold read?
  rw [List.append_assoc]
  simp only [splitScheme_append_body isScheme allowed stop, takeWhile_append_stop allowed notChar,
    dropWhile_append_stop allowed notChar]
  rw [if_neg (by simpa using filled)]

end LinkTarget

namespace LongForm

/-- What may stand before the bracket: blanks, and the marker of a doc comment among them. -/
inductive IsFront : Text → Prop where
  | blank {indent : Text} (indented : ∀ char ∈ indent, Text.isBlank char = true) : IsFront indent
  | marked {indent marker gap : Text} (indented : ∀ char ∈ indent, Text.isBlank char = true)
      (isMarker : marker = "///".toList ∨ marker = "//!".toList)
      (apart : ∀ char ∈ gap, Text.isBlank char = true) : IsFront (indent ++ (marker ++ gap))

variable {line text body : Text}

theorem skipMarker_eq_bracket_iff :
    skipMarker text = '[' :: body ↔ text = '[' :: body ∨
      ∃ marker gap, (marker = "///".toList ∨ marker = "//!".toList) ∧
        (∀ char ∈ gap, Text.isBlank char = true) ∧ text = marker ++ (gap ++ '[' :: body) := by
  constructor
  · intro opened
    have behindMarker : ∀ {rest : Text}, Text.skipBlanks rest = '[' :: body →
        ∃ gap, (∀ char ∈ gap, Text.isBlank char = true) ∧ rest = gap ++ '[' :: body := by
      intro rest skipped
      refine ⟨rest.takeWhile Text.isBlank, fun char inside => List.mem_takeWhile_imp inside, ?_⟩
      rw [← skipped, Text.skipBlanks, List.takeWhile_append_dropWhile]
    unfold skipMarker at opened
    split at opened
    · obtain ⟨gap, apart, rfl⟩ := behindMarker opened
      exact Or.inr ⟨_, gap, Or.inl rfl, apart, rfl⟩
    · obtain ⟨gap, apart, rfl⟩ := behindMarker opened
      exact Or.inr ⟨_, gap, Or.inr rfl, apart, rfl⟩
    · exact Or.inl opened
  · rintro (rfl | ⟨marker, gap, isMarker, apart, rfl⟩)
    · rfl
    · have skipped : Text.skipBlanks (gap ++ '[' :: body) = '[' :: body :=
        Text.skipBlanks_append_stop apart (by simp; decide)
      rcases isMarker with rfl | rfl
      · exact skipped
      · exact skipped

theorem body?_eq_some_iff :
    body? line = some body ↔ ∃ front, IsFront front ∧ line = front ++ '[' :: body := by
  rw [body?_eq, Text.after?_eq_some_iff, List.singleton_append, skipMarker_eq_bracket_iff]
  constructor
  · intro opened
    have whole : line.takeWhile Text.isBlank ++ Text.skipBlanks line = line :=
      List.takeWhile_append_dropWhile
    have indented : ∀ char ∈ line.takeWhile Text.isBlank, Text.isBlank char = true :=
      fun char inside => List.mem_takeWhile_imp inside
    rcases opened with bare | ⟨marker, gap, isMarker, apart, marked⟩
    · exact ⟨_, .blank indented, by rw [← bare, whole]⟩
    · refine ⟨_, .marked indented isMarker apart, ?_⟩
      rw [List.append_assoc, List.append_assoc, ← marked, whole]
  · rintro ⟨front, isFront, rfl⟩
    cases isFront with
    | blank indented =>
        exact Or.inl (Text.skipBlanks_append_stop indented (by simp; decide))
    | @marked indent marker gap indented isMarker apart =>
        refine Or.inr ⟨marker, gap, isMarker, apart, ?_⟩
        rw [List.append_assoc, List.append_assoc]
        apply Text.skipBlanks_append_stop indented
        rcases isMarker with rfl | rfl <;> simp <;> decide

/-- A target ends where the line does. -/
theorem stop_of_isLineEnd {ending : Text} (isEnd : isLineEnd ending = true) :
    ∀ char ∈ ending.head?, LinkTarget.isChar char = false ∧ char ≠ ':' := by
  intro char first
  rcases return_or_feed_of_isLineEnd isEnd char (List.mem_of_mem_head? first) with rfl | rfl
  · decide
  · decide

end LongForm

/-- The parts of a long-form link. -/
structure LongLine where
  /-- What stands before the bracket. -/
  front : Text
  /-- The text between the brackets. -/
  name : Text
  /-- The blanks before the target. -/
  gap : Text
  /-- The target as it is written. -/
  target : Text
  /-- The line break, if there is one. -/
  lineEnd : Text

namespace LongLine

/-- What follows the bracket that opens the name. -/
def body (parts : LongLine) : Text :=
  parts.name ++ ']' :: ':' :: (parts.gap ++ (parts.target ++ parts.lineEnd))

/-- The line. -/
def text (parts : LongLine) : Text :=
  parts.front ++ '[' :: parts.body

/-- The line up to the target. -/
def header (parts : LongLine) : Text :=
  parts.front ++ '[' :: (parts.name ++ ']' :: ':' :: parts.gap)

/-- The link that the line is. -/
def candidate (parts : LongLine) : Candidate :=
  ⟨parts.name, parts.target, .long,
    ⟨parts.header.length, parts.header.length + parts.target.length⟩, ⟨0, parts.text.length⟩⟩

/-- The parts are such as can be found in a line again. -/
structure WellFormed (parts : LongLine) : Prop where
  front : LongForm.IsFront parts.front
  name : '\n' ∉ parts.name
  gap : ∀ char ∈ parts.gap, Text.isBlank char = true
  target : LinkTarget.IsWhole parts.target
  lineEnd : LongForm.isLineEnd parts.lineEnd = true

theorem text_eq (parts : LongLine) :
    parts.text = parts.header ++ (parts.target ++ parts.lineEnd) := by
  simp [text, body, header]

/-- A conversion exchanges the target. -/
theorem substitute_text (parts : LongLine) (new : Text) :
    parts.candidate.substitute parts.text new = { parts with target := new }.text := by
  have sameHeader : LongLine.header { parts with target := new } = parts.header := rfl
  rw [Candidate.substitute, if_neg (by simp [candidate]), text_eq, candidate, Span.replace_append,
    text_eq, sameHeader, List.append_assoc]

variable {parts : LongLine}

theorem body?_text (isFront : LongForm.IsFront parts.front) :
    LongForm.body? parts.text = some parts.body :=
  LongForm.body?_eq_some_iff.mpr ⟨parts.front, isFront, rfl⟩

namespace WellFormed

theorem bracket_notMem (wellFormed : parts.WellFormed) :
    ']' ∉ ':' :: (parts.gap ++ (parts.target ++ parts.lineEnd)) := by
  have inGap : ']' ∉ parts.gap := by
    intro inside
    exact absurd (wellFormed.gap ']' inside) (by decide)
  have inTarget : ']' ∉ parts.target :=
    wellFormed.target.isTarget.notMem (by decide) (by decide)
  have inEnd : ']' ∉ parts.lineEnd := by
    intro inside
    exact absurd (LongForm.isLineBreak_of_isLineEnd wellFormed.lineEnd ']' inside) (by decide)
  simp [inGap, inTarget, inEnd]

theorem nameAndRest?_text (wellFormed : parts.WellFormed) :
    LongForm.nameAndRest? parts.text = some (parts.name, parts.target ++ parts.lineEnd) := by
  have cut : Text.splitAtLast? ']' parts.body =
      some (parts.name, ':' :: (parts.gap ++ (parts.target ++ parts.lineEnd))) :=
    Text.splitAtLast?_eq_some_iff.mpr ⟨rfl, wellFormed.bracket_notMem⟩
  have skipped : Text.skipBlanks (parts.gap ++ (parts.target ++ parts.lineEnd)) =
      parts.target ++ parts.lineEnd :=
    Text.skipBlanks_append_stop wellFormed.gap (wellFormed.target.head?_append_isBlank _)
  unfold LongForm.nameAndRest?
  simp [body?_text wellFormed.front, cut, skipped, wellFormed.name]

theorem read?_text (wellFormed : parts.WellFormed) :
    LongForm.read? parts.text = some parts.candidate := by
  have start : parts.text.length - (parts.target ++ parts.lineEnd).length =
      parts.header.length := by
    rw [text_eq, List.length_append]
    omega
  unfold LongForm.read?
  simp only [wellFormed.nameAndRest?_text, LinkTarget.read?_of_isWhole wellFormed.target
    (LongForm.stop_of_isLineEnd wellFormed.lineEnd), wellFormed.lineEnd, if_true, start]
  rfl

end WellFormed

end LongLine

namespace LongForm

theorem exists_of_nameAndRest? {line name rest : Text}
    (found : nameAndRest? line = some (name, rest)) :
    ∃ front gap, IsFront front ∧ '\n' ∉ name ∧ (∀ char ∈ gap, Text.isBlank char = true) ∧
      line = front ++ '[' :: (name ++ ']' :: ':' :: (gap ++ rest)) := by
  unfold nameAndRest? at found
  split at found
  · rename_i written behind cut
    obtain ⟨body, isBody, split⟩ := Option.bind_eq_some_iff.mp cut
    obtain ⟨front, isFront, rfl⟩ := body?_eq_some_iff.mp isBody
    split at found
    · simp at found
    · rename_i unbroken
      simp only [Option.some.injEq, Prod.mk.injEq] at found
      rcases found with ⟨rfl, rfl⟩
      refine ⟨front, behind.takeWhile Text.isBlank, isFront, by simpa using unbroken,
        fun char inside => List.mem_takeWhile_imp inside, ?_⟩
      rw [Text.splitAtLast?_eq_some split, Text.skipBlanks, List.takeWhile_append_dropWhile]
  · simp at found

/-- A line is a long-form link exactly if it is put together from the parts of one. -/
theorem read?_eq_some_iff {line : Text} {candidate : Candidate} :
    read? line = some candidate ↔
      ∃ parts : LongLine, parts.WellFormed ∧ line = parts.text ∧ candidate = parts.candidate := by
  constructor
  · intro read
    have isRead := read
    unfold read? at read
    split at read
    · simp at read
    · rename_i name rest found
      obtain ⟨front, gap, isFront, unbroken, blank, rfl⟩ := exists_of_nameAndRest? found
      split at read
      · simp at read
      · rename_i target lineEnd isTarget
        split at read
        · rename_i isEnd
          rcases (LinkTarget.read?_eq_some isTarget).1 with rfl
          let parts : LongLine := ⟨front, name, gap, target, lineEnd⟩
          have wellFormed : parts.WellFormed :=
            ⟨isFront, unbroken, blank, LinkTarget.isWhole_of_read? isTarget, isEnd⟩
          refine ⟨parts, wellFormed, rfl, ?_⟩
          exact Option.some.inj (isRead.symm.trans wellFormed.read?_text)
        · simp at read
  · rintro ⟨parts, wellFormed, rfl, rfl⟩
    exact wellFormed.read?_text

end LongForm

end IntraDoc
