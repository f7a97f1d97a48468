import IntraDoc.Proofs.Line.LineEnd
import IntraDoc.Proofs.Scope.Block
import IntraDoc.Proofs.Text.Words

/-!
# The type that an `impl` header names

The name in an `impl` header is found by trial: the parameters may end at any `>`, and a trait may
end at any ` for`. What comes of the trials is said of the text alone. The first word behind a
` for ` is the name, wherever behind the first `> ` it stands, be it in a comment. Without any it is
the first word directly behind a `> `, be that within the parameters. The implemented type is the
name only if neither of the two stands in its way.
-/

namespace IntraDoc

namespace Block

open Text

section Names

/--
The name of the type in a header: the first word behind a ` for `, and one that is `Own` if there is
no such word.
-/
def IsTypeName (text : Text) (Own : Text → Prop) (name : Text) : Prop :=
  FirstWordBehind " for ".toList text name ∨
    (∀ before other, ¬WordBehind " for ".toList text before other) ∧ Own name

variable {text : Text} {Own : Text → Prop}

theorem exists_isTypeName (exists_own : ∃ name, Own name) : ∃ name, IsTypeName text Own name := by
  by_cases absent : ∀ before other, ¬WordBehind " for ".toList text before other
  · exact exists_own.imp fun name isOwn => Or.inr ⟨absent, isOwn⟩
  · obtain ⟨before, other, isBehind⟩ : ∃ before other,
        WordBehind " for ".toList text before other := by simpa using absent
    exact isBehind.exists_first.imp fun name isFirst => Or.inl isFirst

theorem isTypeName_append {tail name : Text} (wordless : ∀ char ∈ tail, isWord char = false) :
    IsTypeName (text ++ tail) Own name ↔ IsTypeName text Own name := by
  simp only [IsTypeName, wordBehind_append wordless, firstWordBehind_append wordless]

/-- A reader that goes by ` for ` where it can, and by the type's own place elsewhere. -/
theorem exists_eq_some_iff_isTypeName {found : Option (Text × Text)}
    (of_for : ∀ name, FirstWordBehind " for ".toList text name → ∃ rest, found = some (name, rest))
    (of_absent : (∀ before other, ¬WordBehind " for ".toList text before other) →
      ∀ name, (∃ rest, found = some (name, rest)) ↔ Own name) (name : Text) :
    (∃ rest, found = some (name, rest)) ↔ IsTypeName text Own name := by
  constructor
  · rintro ⟨rest, read⟩
    by_cases absent : ∀ before other, ¬WordBehind " for ".toList text before other
    · exact Or.inr ⟨absent, (of_absent absent name).mp ⟨rest, read⟩⟩
    · obtain ⟨before, other, isBehind⟩ : ∃ before other,
          WordBehind " for ".toList text before other := by simpa using absent
      obtain ⟨first, isFirst⟩ := isBehind.exists_first
      obtain ⟨firstRest, firstRead⟩ := of_for first isFirst
      rw [firstRead, Option.some.injEq, Prod.mk.injEq] at read
      exact Or.inl (read.1 ▸ isFirst)
  · rintro (isFirst | ⟨absent, isOwn⟩)
    · exact of_for name isFirst
    · exact (of_absent absent name).mpr isOwn

end Names

section Readers

variable {text name rest : Text}

theorem nameAndRest?_eq_some_iff :
    nameAndRest? text = some (name, rest) ↔
      text = ' ' :: (name ++ rest) ∧ IsWord name ∧ ∀ char ∈ rest.head?, isWord char = false := by
  constructor
  · intro read
    have areWords := isWord_of_nameAndRest? read
    unfold nameAndRest? at read
    split at read
    · simp only at read
      split at read
      · simp at read
      · rename_i behind filled
        simp only [Option.some.injEq, Prod.mk.injEq] at read
        rcases read with ⟨rfl, rfl⟩
        refine ⟨by rw [List.takeWhile_append_dropWhile], ⟨by simpa using filled, areWords⟩, ?_⟩
        exact head?_dropWhile
    · simp at read
  · rintro ⟨rfl, ⟨filled, inside⟩, stop⟩
    simp [nameAndRest?, takeWhile_append_stop inside stop, dropWhile_append_stop inside stop,
      filled]

theorem wordBehind_iff (mark : Text) {before : Text} :
    WordBehind (mark ++ [' ']) text before name ↔
      ∃ behind rest, text = before ++ (mark ++ behind) ∧
        nameAndRest? behind = some (name, rest) := by
  simp only [WordBehind, nameAndRest?_eq_some_iff]
  constructor
  · rintro ⟨rest, shape, isWord⟩
    exact ⟨_, rest, by simpa using shape, rfl, isWord⟩
  · rintro ⟨_, rest, shape, rfl, isWord⟩
    exact ⟨rest, by simpa using shape, isWord⟩

theorem firstWordBehind_iff {mark : Text} (filled : mark ≠ []) :
    FirstWordBehind (mark ++ [' ']) text name ↔
      ∃ rest, ((splitsAt mark text).map (·.2)).findSome? nameAndRest? = some (name, rest) := by
  simp only [findSome?_splitsAt_eq_some_iff filled, FirstWordBehind]
  constructor
  · rintro ⟨before, isBehind, first⟩
    obtain ⟨behind, rest, shape, read⟩ := (wordBehind_iff mark).mp isBehind
    refine ⟨rest, before, behind, shape, read, ?_⟩
    intro earlier later isCut shorter
    rw [Option.eq_none_iff_forall_ne_some]
    rintro ⟨other, otherRest⟩ otherRead
    have notLonger := first earlier other
      ((wordBehind_iff mark).mpr ⟨later, otherRest, isCut, otherRead⟩)
    omega
  · rintro ⟨rest, before, behind, shape, read, first⟩
    refine ⟨before, (wordBehind_iff mark).mpr ⟨behind, rest, shape, read⟩, ?_⟩
    intro earlier other isBehind
    obtain ⟨later, otherRest, isCut, otherRead⟩ := (wordBehind_iff mark).mp isBehind
    by_contra shorter
    rw [first earlier later isCut (by omega)] at otherRead
    simp at otherRead

/-- What is read behind the parameters: the name, possibly behind a trait and `for`. -/
def behindParameters? (text : Text) : Option (Text × Text) :=
  (afterTrait text).findSome? nameAndRest?

theorem behindParameters?_space (text : Text) :
    behindParameters? (' ' :: text) =
      (((splitsAt " for".toList text).map (·.2)).findSome? nameAndRest?).or
        (nameAndRest? (' ' :: text)) := by
  simp [behindParameters?, afterTrait, List.findSome?_append]

theorem behindParameters?_of_firstWordBehind
    (isBehind : FirstWordBehind " for ".toList text name) :
    ∃ rest, behindParameters? (' ' :: text) = some (name, rest) := by
  obtain ⟨rest, found⟩ := (firstWordBehind_iff (show " for".toList ≠ [] by decide)).mp isBehind
  exact ⟨rest, by rw [behindParameters?_space, found, Option.some_or]⟩

theorem behindParameters?_eq_nameAndRest?
    (absent : ∀ before name, ¬WordBehind " for ".toList text before name) :
    behindParameters? (' ' :: text) = nameAndRest? (' ' :: text) := by
  have nothing : ((splitsAt " for".toList text).map (·.2)).findSome? nameAndRest? = none := by
    rw [Option.eq_none_iff_forall_ne_some]
    rintro ⟨name, rest⟩ found
    obtain ⟨before, isBehind, -⟩ :=
      (firstWordBehind_iff (show " for".toList ≠ [] by decide)).mpr ⟨rest, found⟩
    exact absent before name isBehind
  rw [behindParameters?_space, nothing, Option.none_or]

theorem behindParameters?_eq_none (noSpace : ∀ rest, text ≠ ' ' :: rest) :
    behindParameters? text = none := by
  rcases text with _ | ⟨char, rest⟩
  · rfl
  · have different : char ≠ ' ' := fun same => noSpace rest (by rw [same])
    simp [behindParameters?, afterTrait, nameAndRest?]

theorem implemented?_space (text : Text) :
    implemented? (' ' :: text) = behindParameters? (' ' :: text) := by
  simp [implemented?, afterParameters, behindParameters?]

theorem exists_implemented?_space_iff :
    (∃ rest, implemented? (' ' :: text) = some (name, rest)) ↔
      IsTypeName text (fun own => ∃ rest, nameAndRest? (' ' :: text) = some (own, rest)) name := by
  rw [implemented?_space]
  apply exists_eq_some_iff_isTypeName
  · intro first isName
    exact behindParameters?_of_firstWordBehind isName
  · intro absent other
    rw [behindParameters?_eq_nameAndRest? absent]

theorem implemented?_parameters (text : Text) :
    implemented? ('<' :: text) =
      ((splitsAt ['>'] text).map (·.2)).findSome? behindParameters? := by
  have whole : behindParameters? ('<' :: text) = none :=
    behindParameters?_eq_none fun rest => by simp
  calc implemented? ('<' :: text)
      = ((splitsAt ['>'] text).map (·.2) ++ ['<' :: text]).findSome? behindParameters? := rfl
    _ = _ := by simp [List.findSome?_append, whole]

section Parameters

variable {behind : Text}

/-- Without a word behind ` for `, the parameters end where a word follows. -/
theorem implemented?_parameters_of_absent (isFirst : FirstBehind "> ".toList text behind)
    (absent : ∀ before other, ¬WordBehind " for ".toList behind before other) :
    implemented? ('<' :: text) = ((splitsAt ['>'] text).map (·.2)).findSome? nameAndRest? := by
  obtain ⟨before, shape, least⟩ := isFirst
  rw [implemented?_parameters]
  apply findSome?_congr
  intro rest isRest
  by_cases spaced : ∃ later, rest = ' ' :: later
  · obtain ⟨later, rfl⟩ := spaced
    -- What follows a later `> ` is part of what follows the first one.
    obtain ⟨earlier, isCut⟩ := exists_of_mem_splitsAt isRest
    have isCut : text = earlier ++ ("> ".toList ++ later) := isCut
    have inText : later <:+ text := ⟨earlier ++ "> ".toList, by rw [isCut, List.append_assoc]⟩
    have firstInText : behind <:+ text :=
      ⟨before ++ "> ".toList, by rw [shape, List.append_assoc]⟩
    have shorter : later.length ≤ behind.length := by
      have notBefore := least earlier later isCut
      have sameLength := congrArg List.length (shape.symm.trans isCut)
      simp only [List.length_append] at sameLength
      omega
    obtain ⟨front, rfl⟩ := List.suffix_of_suffix_length_le inText firstInText shorter
    apply behindParameters?_eq_nameAndRest?
    intro between other isBehind
    exact absent _ other (isBehind.append_left front)
  · have noSpace : ∀ later, rest ≠ ' ' :: later := by simpa using spaced
    have unread : nameAndRest? rest = none := by
      rw [Option.eq_none_iff_forall_ne_some]
      rintro ⟨name, later⟩ read
      exact noSpace _ (nameAndRest?_eq_some_iff.mp read).1
    rw [behindParameters?_eq_none noSpace, unread]

theorem implemented?_parameters_of_firstWordBehind
    (isFirst : FirstBehind "> ".toList text behind)
    (isName : FirstWordBehind " for ".toList behind name) :
    ∃ rest, implemented? ('<' :: text) = some (name, rest) := by
  obtain ⟨before, shape, least⟩ := isFirst
  obtain ⟨rest, read⟩ := behindParameters?_of_firstWordBehind isName
  refine ⟨rest, ?_⟩
  rw [implemented?_parameters, findSome?_splitsAt_eq_some_iff (by simp)]
  refine ⟨before, ' ' :: behind, shape, read, ?_⟩
  intro earlier later isCut shorter
  apply behindParameters?_eq_none
  rintro others rfl
  have notBefore := least earlier others isCut
  omega

theorem exists_implemented?_parameters_iff (isFirst : FirstBehind "> ".toList text behind) :
    (∃ rest, implemented? ('<' :: text) = some (name, rest)) ↔
      IsTypeName behind (FirstWordBehind "> ".toList text) name := by
  apply exists_eq_some_iff_isTypeName
  · intro first isName
    exact implemented?_parameters_of_firstWordBehind isFirst isName
  · intro absent other
    rw [implemented?_parameters_of_absent isFirst absent]
    exact (firstWordBehind_iff (show ['>'] ≠ [] by simp)).symm

end Parameters

end Readers

section Lines

variable {text name : Text}

theorem trimRight_cons_of_stop {drop : Char → Bool} {char : Char} (stop : drop char = false)
    (text : Text) : trimRight drop (char :: text) = char :: trimRight drop text := by
  rw [trimRight]
  cases trimRight drop text <;> simp [stop]

theorem trimLineEnd_impl (text : Text) :
    trimLineEnd ("impl".toList ++ text) = "impl".toList ++ trimLineEnd text := by
  have spelled : ∀ rest : Text, "impl".toList ++ rest = 'i' :: 'm' :: 'p' :: 'l' :: rest :=
    fun rest => rfl
  rw [spelled, spelled, trimLineEnd]
  repeat rw [trimRight_cons_of_stop (by decide)]
  rfl

theorem header?_impl (unbroken : '\n' ∉ text) :
    header? ("impl".toList ++ text) =
      (implemented? text).map fun (name, rest) => (name, opensParenthesis rest) := by
  have visible : afterVisibility ("impl".toList ++ text) = ["impl".toList ++ text] := by
    simp [afterVisibility, after?]
  have declares : declared? ("impl".toList ++ text) = implemented? text := by
    simp [declared?, plainKeywords, after?]
  rw [header?, if_neg (by simpa using unbroken), visible, List.findSome?_singleton, declares]

/-- What follows `impl` says whether there is a block, and what it is named. -/
theorem exists_ofLine?_impl (unbroken : '\n' ∉ text) (position : Int)
    (declares : ∃ name rest, implemented? (trimLineEnd text) = some (name, rest)) :
    ∃ block, ofLine? ("impl".toList ++ text) position = some block ∧
      ∀ name, block.name = name ↔ ∃ rest, implemented? (trimLineEnd text) = some (name, rest) := by
  obtain ⟨name, rest, read⟩ := declares
  have trimmed : '\n' ∉ trimLineEnd text := by
    obtain ⟨tail, shape, -⟩ :=
      exists_eq_trimRight_append (fun char => char = '\r' || char = '\n') text
    intro inside
    apply unbroken
    rw [shape]
    exact List.mem_append_left _ inside
  have filled : skipBlanks ("impl".toList ++ trimLineEnd text) =
      "impl".toList ++ trimLineEnd text := by
    have letter : isBlank 'i' = false := by decide
    simp [skipBlanks, letter]
  simp only [ofLine?, trimLineEnd_impl, filled, header?_impl trimmed, read, Option.map_some]
  exact ⟨_, rfl, fun other => by simp⟩

/-- What is cut off at the end of a line has no part in any word. -/
theorem exists_trimLineEnd_append (text : Text) :
    ∃ tail, text = trimLineEnd text ++ tail ∧ (∀ char ∈ tail, isWord char = false) ∧
      ' ' ∉ tail := by
  obtain ⟨tail, shape, dropped⟩ :=
    exists_eq_trimRight_append (fun char => char = '\r' || char = '\n') text
  have noReturn : isWord '\r' = false := by decide +kernel
  have noFeed : isWord '\n' = false := by decide +kernel
  refine ⟨tail, shape, ?_, ?_⟩
  · intro char inside
    have isEnd : char = '\r' ∨ char = '\n' := by simpa using dropped char inside
    rcases isEnd with rfl | rfl
    · exact noReturn
    · exact noFeed
  · intro inside
    simpa using dropped ' ' inside

theorem exists_ofLine?_impl_space {own : Text} (unbroken : '\n' ∉ text) (position : Int)
    (isOwn : WordBehind [' '] (' ' :: text) [] own) :
    ∃ block, ofLine? ("impl".toList ++ ' ' :: text) position = some block ∧
      ∀ name, block.name = name ↔ IsTypeName text (· = own) name := by
  obtain ⟨tail, shape, wordless, -⟩ := exists_trimLineEnd_append text
  have trimmed : trimLineEnd (' ' :: text) = ' ' :: trimLineEnd text :=
    trimRight_cons_of_stop (by decide) text
  have ownRead : ∀ name, (∃ rest, nameAndRest? (' ' :: trimLineEnd text) = some (name, rest)) ↔
      name = own := by
    rw [shape, ← List.cons_append, wordBehind_append wordless] at isOwn
    obtain ⟨behind, rest, isBehind, read⟩ := (wordBehind_iff []).mp isOwn
    have isBehind : ' ' :: trimLineEnd text = behind := isBehind
    intro name
    rw [isBehind, read]
    simp [eq_comm]
  have names : ∀ name,
      (∃ rest, implemented? (trimLineEnd (' ' :: text)) = some (name, rest)) ↔
        IsTypeName text (· = own) name := by
    intro name
    rw [trimmed, exists_implemented?_space_iff, funext fun name => propext (ownRead name)]
    conv_rhs => rw [shape, isTypeName_append wordless]
  have declares : ∃ name rest, implemented? (trimLineEnd (' ' :: text)) = some (name, rest) := by
    simp only [names]
    exact exists_isTypeName ⟨own, rfl⟩
  obtain ⟨block, read, isNamed⟩ := exists_ofLine?_impl (by simpa using unbroken) position declares
  exact ⟨block, read, fun name => (isNamed name).trans (names name)⟩

theorem exists_ofLine?_impl_parameters {before own behind : Text} (unbroken : '\n' ∉ text)
    (position : Int) (isFirst : FirstBehind "> ".toList text behind)
    (isOwn : WordBehind "> ".toList text before own) :
    ∃ block, ofLine? ("impl".toList ++ '<' :: text) position = some block ∧
      ∀ name, block.name = name ↔
        IsTypeName behind (FirstWordBehind "> ".toList text) name := by
  obtain ⟨tail, shape, wordless, spaceless⟩ := exists_trimLineEnd_append text
  have trimmed : trimLineEnd ('<' :: text) = '<' :: trimLineEnd text :=
    trimRight_cons_of_stop (by decide) text
  have names : ∀ name,
      (∃ rest, implemented? (trimLineEnd ('<' :: text)) = some (name, rest)) ↔
        IsTypeName behind (FirstWordBehind "> ".toList text) name := by
    intro name
    rw [shape] at isFirst
    have isFirstMark : FirstBehind (['>'] ++ [' ']) (trimLineEnd text ++ tail) behind := isFirst
    obtain ⟨rest, keptFirst, rfl⟩ := isFirstMark.of_append spaceless
    have sameOwn : FirstWordBehind "> ".toList text =
        FirstWordBehind "> ".toList (trimLineEnd text) := by
      conv_lhs => rw [shape]
      exact funext fun other => propext (firstWordBehind_append wordless)
    rw [trimmed, exists_implemented?_parameters_iff keptFirst, isTypeName_append wordless, sameOwn]
  have declares : ∃ name rest, implemented? (trimLineEnd ('<' :: text)) = some (name, rest) := by
    simp only [names]
    exact exists_isTypeName isOwn.exists_first
  obtain ⟨block, read, isNamed⟩ := exists_ofLine?_impl (by simpa using unbroken) position declares
  exact ⟨block, read, fun name => (isNamed name).trans (names name)⟩

end Lines

/--
An `impl` header declares a block, whatever its parameters are and whatever follows it on the line,
and the block is named after the implemented type if no word stands behind ` for ` further on and
none directly behind a `> ` within the parameters. Otherwise the first word behind ` for ` is the
name, and without any the first one directly behind a `> `.
-/
theorem exists_ofLine?_impl_named {name parameters arguments trailing : Text}
    (isName : IsWord name) (unbroken : '\n' ∉ parameters ++ arguments ++ trailing)
    (position : Int) :
    let plain := name ++ " \x7b".toList ++ trailing
    let applied := name ++ "<".toList ++ arguments ++ "> \x7b".toList ++ trailing
    let generic := parameters ++ "> ".toList ++ applied
    (∃ block, ofLine? ("impl ".toList ++ plain) position = some block ∧
      ∀ found, block.name = found ↔ IsTypeName plain (· = name) found) ∧
    ∃ block behind, ofLine? ("impl<".toList ++ generic) position = some block ∧
      FirstBehind "> ".toList generic behind ∧
      ∀ found, block.name = found ↔
        IsTypeName behind (FirstWordBehind "> ".toList generic) found := by
  intro plain applied generic
  have nameUnbroken : '\n' ∉ name := by
    intro inside
    have noFeed : isWord '\n' = false := by decide +kernel
    simp [isName.2 _ inside] at noFeed
  simp only [List.mem_append, not_or] at unbroken
  have noFeed : isWord ' ' = false ∧ isWord '<' = false := by decide +kernel
  refine ⟨?_, ?_⟩
  · apply exists_ofLine?_impl_space
    · simp [plain, unbroken, nameUnbroken]
    · exact ⟨" \x7b".toList ++ trailing, by simp [plain], isName, by simp [noFeed]⟩
  · have shape : generic = parameters ++ ("> ".toList ++ applied) := by simp [generic]
    obtain ⟨behind, isFirst⟩ := exists_firstBehind shape
    have isOwn : WordBehind "> ".toList generic parameters name :=
      ⟨"<".toList ++ arguments ++ "> \x7b".toList ++ trailing, by simp [generic, applied], isName,
        by simp [noFeed]⟩
    obtain ⟨block, read, isNamed⟩ := exists_ofLine?_impl_parameters
      (by simp [generic, applied, unbroken, nameUnbroken]) position isFirst isOwn
    exact ⟨block, behind, read, isFirst, isNamed⟩

/-- Nested parameters with a comment behind the header, in which the name is that of the type. -/
theorem exists_ofLine?_impl_named_nested :
    let line := "impl<K: Into<Vec<u8>>, V> Table<K, V> \x7b // the rows".toList
    let generic := "K: Into<Vec<u8>>, V> Table<K, V> \x7b // the rows".toList
    IsWord "Table".toList ∧ '\n' ∉ "K: Into<Vec<u8>>, V".toList ++ "K, V".toList ++
      " // the rows".toList ∧
    ∃ block behind, ofLine? line 1 = some block ∧ block.name = "Table".toList ∧
      FirstBehind "> ".toList generic behind ∧
      IsTypeName behind (FirstWordBehind "> ".toList generic) "Table".toList := by
  intro line generic
  have isName : IsWord "Table".toList := ⟨by decide, List.all_eq_true.mp (by decide +kernel)⟩
  have unbroken : '\n' ∉ "K: Into<Vec<u8>>, V".toList ++ "K, V".toList ++
      " // the rows".toList := by decide
  obtain ⟨-, block, behind, read, isFirst, isNamed⟩ := exists_ofLine?_impl_named isName unbroken 1
  have named : (ofLine? line 1).map Block.name = some "Table".toList := by decide +kernel
  have read : ofLine? line 1 = some block := read
  rw [read, Option.map_some, Option.some.injEq] at named
  exact ⟨isName, unbroken, block, behind, read, named, isFirst, (isNamed _).mp named⟩

/-- Whether the angle brackets of a text balance, `depth` being open; that of an arrow is none. -/
def anglesBalance (depth : Nat) : Text → Bool
  | [] => depth = 0
  | '-' :: '>' :: rest => anglesBalance depth rest
  | char :: rest =>
    if char = '<' then anglesBalance (depth + 1) rest
    else if char = '>' then 0 < depth && anglesBalance (depth - 1) rest
    else anglesBalance depth rest

/-- The result of a function bound and a word of a comment are taken for the type. -/
theorem ofLine?_impl_misnamed :
    anglesBalance 0 "F: Fn(u8) -> u8".toList = true ∧ anglesBalance 0 "F".toList = true ∧
      (ofLine? "impl<F: Fn(u8) -> u8> Foo<F> \x7b".toList 1).map Block.name = some "u8".toList ∧
      (ofLine? "impl Foo \x7b // helpers for tests".toList 1).map Block.name =
        some "tests".toList := by
  decide +kernel

end Block

end IntraDoc
