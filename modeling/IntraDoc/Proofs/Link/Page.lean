import IntraDoc.Link.Page
import IntraDoc.Proofs.Text.Basic

/-!
# The grammar of page names

A page name is an anchor alone, the page of an item, an index page or the bare name of a module, and
each of the last three may carry an anchor. This file gives that grammar as a type, `Page`, with its
spelling `Page.text`, and shows that every reader of page names accepts exactly the spellings of its
own shape. No text is the spelling of two pages, so the readers never compete.
-/

namespace IntraDoc

namespace Identifier

theorem isAsciiWord_of_isStart {char : Char} (start : isStart char = true) :
    Text.isAsciiWord char = true := by
  simp only [isStart, Bool.or_eq_true, decide_eq_true_eq] at start
  rcases start with letter | underscore
  · simp [Text.isAsciiWord, letter]
  · simp [Text.isAsciiWord, underscore]

theorem isAsciiWord_of_isPlain {name : Text} (plain : isPlain name = true) :
    ∀ char ∈ name, Text.isAsciiWord char = true := by
  cases name with
  | nil => simp
  | cons first rest =>
      simp only [isPlain, Bool.and_eq_true, List.all_eq_true] at plain
      intro char inside
      rcases List.mem_cons.mp inside with rfl | inside
      · exact isAsciiWord_of_isStart plain.1
      · exact plain.2 char inside

theorem ne_nil_of_isPlain {name : Text} (plain : isPlain name = true) : name ≠ [] := by
  rintro rfl
  simp [isPlain] at plain

theorem notMem_of_isPlain {name : Text} (plain : isPlain name = true) {char : Char}
    (outside : Text.isAsciiWord char = false) : char ∉ name := by
  intro inside
  simp [isAsciiWord_of_isPlain plain char inside] at outside

/-- An identifier is read to its end and no further. -/
theorem read?_eq_some_iff {text name rest : Text} :
    read? text = some (name, rest) ↔
      text = name ++ rest ∧ isPlain name = true ∧
        ∀ char ∈ rest.head?, Text.isAsciiWord char = false := by
  constructor
  · intro read
    cases text with
    | nil => simp [read?] at read
    | cons first others =>
        simp only [read?] at read
        split at read
        · rename_i start
          simp only [Option.some.injEq, Prod.mk.injEq] at read
          rcases read with ⟨rfl, rfl⟩
          refine ⟨by simp [List.takeWhile_append_dropWhile], ?_, head?_dropWhile⟩
          simp [isPlain, start]
        · simp at read
  · rintro ⟨rfl, plain, stop⟩
    cases name with
    | nil => simp [isPlain] at plain
    | cons first others =>
        simp only [isPlain, Bool.and_eq_true, List.all_eq_true] at plain
        simp [read?, plain.1, takeWhile_append_stop plain.2 stop,
          dropWhile_append_stop plain.2 stop]

end Identifier

theorem isIdentifier_eq_isPlain {name : Text} (free : '\n' ∉ name) :
    isIdentifier name = Identifier.isPlain name := by
  rw [isIdentifier, Text.chomp_of_notMem free]

theorem isIdentifier_of_isPlain {name : Text} (plain : Identifier.isPlain name = true) :
    isIdentifier name = true := by
  rw [isIdentifier_eq_isPlain (Identifier.notMem_of_isPlain plain (by decide))]
  exact plain

theorem notMem_of_isIdentifier {name : Text} {char : Char} (valid : isIdentifier name = true)
    (outside : Text.isAsciiWord char = false) (notBreak : char ≠ '\n') : char ∉ name := by
  intro inside
  rcases Text.mem_chomp_or_newline inside with inChomped | isBreak
  · exact Identifier.notMem_of_isPlain valid outside inChomped
  · exact notBreak isBreak

/-- Item kinds are made of letters, so that they are identifiers themselves. -/
theorem isPlain_of_mem_itemKinds {kind : Text} (known : kind ∈ itemKinds) :
    Identifier.isPlain kind = true := by
  have all : ∀ kind ∈ itemKinds, Identifier.isPlain kind = true := by decide
  exact all kind known

/-- The last component of a target, by what it names. -/
inductive Page where
  /-- An anchor of the page that is being read. -/
  | anchor (name : Text)
  /-- The page of an item, and possibly an anchor on it. -/
  | item (kind name : Text) (fragment : Option Text)
  /-- The index page of a module, and possibly an anchor on it. -/
  | index (fragment : Option Text)
  /-- The bare name of a module, and possibly an anchor on its page. -/
  | bare (name : Text) (fragment : Option Text)
deriving DecidableEq, Repr

namespace Page

/-- Whether a text can be the name of an anchor. -/
def IsAnchor (name : Text) : Prop :=
  name ≠ [] ∧ ∀ char ∈ name, isAnchorChar char = true

/-- An anchor as it is written behind a page name. -/
def anchorText : Option Text → Text
  | none => []
  | some name => '#' :: name

/-- The name that every index page has. -/
def indexFile : Text := "index.html".toList

/-- The page name without its anchor. -/
def file : Page → Text
  | anchor _ => []
  | item kind name _ => kind ++ '.' :: (name ++ ".html".toList)
  | index _ => indexFile
  | bare name _ => name

/-- The anchor of a page name. -/
def anchorName : Page → Option Text
  | anchor name => some name
  | item _ _ fragment => fragment
  | index fragment => fragment
  | bare _ fragment => fragment

/-- The page name as it is written. -/
def text (page : Page) : Text :=
  page.file ++ anchorText page.anchorName

/-- The names in a page name can be read back. -/
def WellFormed (page : Page) : Prop :=
  (∀ name ∈ page.anchorName, IsAnchor name) ∧
    match page with
    | anchor _ => True
    | item kind name _ => kind ∈ itemKinds ∧ Identifier.isPlain name = true
    | index _ => True
    | bare name _ => Identifier.isPlain name = true

/-- The dots of a page name cut its file part into these pieces. -/
def pieces : Page → List Text
  | anchor _ => [[]]
  | item kind name _ => [kind, name, "html".toList]
  | index _ => ["index".toList, "html".toList]
  | bare name _ => [name]

theorem wellFormed_anchor {name : Text} (isAnchor : IsAnchor name) : (anchor name).WellFormed :=
  ⟨by simpa [anchorName] using isAnchor, trivial⟩

theorem isAnchorChar_of_isAsciiWord {char : Char} (word : Text.isAsciiWord char = true) :
    isAnchorChar char = true := by
  simp [isAnchorChar, word]

theorem splitOn_file {page : Page} (wellFormed : page.WellFormed) :
    Text.splitOn '.' page.file = page.pieces := by
  cases page with
  | anchor name => rfl
  | index fragment =>
      have cut : Text.splitOn '.' indexFile = ["index".toList, "html".toList] := by decide +kernel
      exact cut
  | bare name fragment =>
      exact Text.splitOn_of_notMem (Identifier.notMem_of_isPlain wellFormed.2 (by decide))
  | item kind name fragment =>
      have kindFree : '.' ∉ kind :=
        Identifier.notMem_of_isPlain (isPlain_of_mem_itemKinds wellFormed.2.1) (by decide)
      have nameFree : '.' ∉ name := Identifier.notMem_of_isPlain wellFormed.2.2 (by decide)
      have ending : ".html".toList = '.' :: "html".toList := by decide
      simp only [file, pieces]
      rw [Text.splitOn_append kindFree, ending, Text.splitOn_append nameFree,
        Text.splitOn_of_notMem (by decide)]

theorem isAnchorChar_of_mem_file {page : Page} (wellFormed : page.WellFormed) :
    ∀ char ∈ page.file, isAnchorChar char = true := by
  intro char inside
  cases page with
  | anchor name => simp [file] at inside
  | index fragment =>
      have all : indexFile.all isAnchorChar = true := by decide
      exact List.all_eq_true.mp all char inside
  | bare name fragment =>
      exact isAnchorChar_of_isAsciiWord
        (Identifier.isAsciiWord_of_isPlain wellFormed.2 char inside)
  | item kind name fragment =>
      have all : ".html".toList.all isAnchorChar = true := by decide
      simp only [file, List.mem_append, List.mem_cons] at inside
      rcases inside with inKind | rfl | inName | inEnding
      · exact isAnchorChar_of_isAsciiWord (Identifier.isAsciiWord_of_isPlain
          (isPlain_of_mem_itemKinds wellFormed.2.1) char inKind)
      · decide
      · exact isAnchorChar_of_isAsciiWord
          (Identifier.isAsciiWord_of_isPlain wellFormed.2.2 char inName)
      · exact List.all_eq_true.mp all char inEnding

theorem takeWhile_text {page : Page} (wellFormed : page.WellFormed) :
    page.text.takeWhile (· ≠ '#') = page.file := by
  apply takeWhile_append_stop
  · apply forall_ne_of_notMem
    intro inside
    exact absurd (isAnchorChar_of_mem_file wellFormed '#' inside) (by decide)
  · cases page.anchorName <;> simp [anchorText]

theorem dropWhile_text {page : Page} (wellFormed : page.WellFormed) :
    page.text.dropWhile (· ≠ '#') = anchorText page.anchorName := by
  have whole := List.takeWhile_append_dropWhile (p := (· ≠ '#')) (l := page.text)
  rw [takeWhile_text wellFormed] at whole
  exact List.append_cancel_left whole

theorem anchorText_injective {left right : Option Text}
    (same : anchorText left = anchorText right) : left = right := by
  cases left <;> cases right <;> simp_all [anchorText]

/-- Different pages are written differently. -/
theorem text_injective {left right : Page} (leftWellFormed : left.WellFormed)
    (rightWellFormed : right.WellFormed) (same : left.text = right.text) : left = right := by
  have sameFile : left.file = right.file := by
    rw [← takeWhile_text leftWellFormed, ← takeWhile_text rightWellFormed, same]
  have sameAnchor : left.anchorName = right.anchorName := by
    apply anchorText_injective
    rw [← dropWhile_text leftWellFormed, ← dropWhile_text rightWellFormed, same]
  have samePieces : left.pieces = right.pieces := by
    rw [← splitOn_file leftWellFormed, ← splitOn_file rightWellFormed, sameFile]
  cases left <;> cases right <;>
    simp_all [pieces, anchorName, WellFormed, Identifier.isPlain]

section Readers

variable {text kind name rest : Text} {fragment : Option Text}

theorem head?_anchorText (fragment : Option Text) :
    ∀ char ∈ (anchorText fragment).head?, Text.isAsciiWord char = false := by
  cases fragment with
  | none => simp [anchorText]
  | some name =>
      simp only [anchorText, List.head?_cons, Option.mem_def, Option.some.injEq, forall_eq']
      decide

theorem anchor?_eq_some_iff : anchor? text = some name ↔ text = '#' :: name ∧ IsAnchor name := by
  constructor
  · intro read
    unfold anchor? at read
    split at read
    · rename_i found
      split at read
      · rename_i allowed
        simp only [Option.some.injEq] at read
        subst found
        simpa [IsAnchor] using allowed
      · simp at read
    · simp at read
  · rintro ⟨rfl, nonempty, allowed⟩
    simp [anchor?, nonempty]
    exact allowed

theorem optionalAnchor?_eq_some_iff :
    optionalAnchor? text = some fragment ↔
      text = anchorText fragment ∧ ∀ name ∈ fragment, IsAnchor name := by
  cases text with
  | nil => cases fragment <;> simp [optionalAnchor?, anchorText]
  | cons char others =>
      cases fragment with
      | none => simp [optionalAnchor?, anchorText]
      | some name => simp [optionalAnchor?, anchorText, anchor?_eq_some_iff]

theorem kindAndName?_eq_some_iff :
    kindAndName? text = some (kind, name, rest) ↔
      text = kind ++ '.' :: (name ++ rest) ∧ kind ∈ itemKinds ∧ Identifier.isPlain name = true ∧
        ∀ char ∈ rest.head?, Text.isAsciiWord char = false := by
  constructor
  · intro read
    simp only [kindAndName?] at read
    split at read
    · rename_i known
      split at read
      · rename_i behind cut
        simp only [Option.map_eq_some_iff] at read
        rcases read with ⟨⟨found, after⟩, identifier, same⟩
        simp only [Prod.mk.injEq] at same
        rcases same with ⟨rfl, rfl, rfl⟩
        rcases Identifier.read?_eq_some_iff.mp identifier with ⟨rfl, plain, stop⟩
        refine ⟨?_, known, plain, stop⟩
        rw [← cut, List.takeWhile_append_dropWhile]
      · simp at read
    · simp at read
  · rintro ⟨rfl, known, plain, stop⟩
    have dotless : '.' ∉ kind :=
      Identifier.notMem_of_isPlain (isPlain_of_mem_itemKinds known) (by decide)
    have identifier : Identifier.read? (name ++ rest) = some (name, rest) :=
      Identifier.read?_eq_some_iff.mpr ⟨rfl, plain, stop⟩
    simp only [kindAndName?]
    rw [takeWhile_ne_append dotless, dropWhile_ne_append dotless, if_pos known]
    simp [identifier]

theorem associated?_eq_some_iff :
    associated? text = some (kind, name) ↔
      text = '#' :: (kind ++ '.' :: name) ∧ kind ∈ itemKinds ∧ Identifier.isPlain name = true := by
  constructor
  · intro read
    unfold associated? at read
    split at read
    · split at read
      · rename_i found
        simp only [Option.some.injEq, Prod.mk.injEq] at read
        rcases read with ⟨rfl, rfl⟩
        rcases kindAndName?_eq_some_iff.mp found with ⟨rfl, known, plain, -⟩
        simp [known, plain]
      · simp at read
    · simp at read
  · rintro ⟨rfl, known, plain⟩
    have found : kindAndName? (kind ++ '.' :: name) = some (kind, name, []) :=
      kindAndName?_eq_some_iff.mpr ⟨by simp, known, plain, by simp⟩
    simp [associated?, found]

/-- What an anchor adds to the page of an item. -/
def fragmentOf (name : Text) : Fragment :=
  match associated? ('#' :: name) with
  | some (kind, member) => .associated (.ofKind kind) member
  | none => .anchor name

theorem isAnchor_of_associated (known : kind ∈ itemKinds)
    (plain : Identifier.isPlain name = true) : IsAnchor (kind ++ '.' :: name) := by
  refine ⟨by simp, ?_⟩
  intro char inside
  simp only [List.mem_append, List.mem_cons] at inside
  rcases inside with inKind | rfl | inName
  · exact isAnchorChar_of_isAsciiWord
      (Identifier.isAsciiWord_of_isPlain (isPlain_of_mem_itemKinds known) char inKind)
  · decide
  · exact isAnchorChar_of_isAsciiWord (Identifier.isAsciiWord_of_isPlain plain char inName)

theorem fragment?_eq_some_iff {added : Fragment} :
    fragment? text = some added ↔
      ∃ name, text = '#' :: name ∧ IsAnchor name ∧ added = fragmentOf name := by
  constructor
  · intro read
    unfold fragment? at read
    split at read
    · rename_i kind member found
      simp only [Option.some.injEq] at read
      rcases associated?_eq_some_iff.mp found with ⟨rfl, known, plain⟩
      refine ⟨_, rfl, isAnchor_of_associated known plain, ?_⟩
      simp [fragmentOf, found, read]
    · rename_i notMember
      simp only [Option.map_eq_some_iff] at read
      rcases read with ⟨name, found, rfl⟩
      rcases anchor?_eq_some_iff.mp found with ⟨rfl, isAnchor⟩
      exact ⟨name, rfl, isAnchor, by simp [fragmentOf, notMember]⟩
  · rintro ⟨name, rfl, isAnchor, rfl⟩
    have isRead := anchor?_eq_some_iff.mpr ⟨rfl, isAnchor⟩
    cases found : associated? ('#' :: name) <;> simp [fragment?, fragmentOf, found, isRead]

theorem index?_eq_some_iff :
    index? text = some fragment ↔
      text = (index fragment).text ∧ (index fragment).WellFormed := by
  simp only [index?, Option.bind_eq_some_iff, Text.after?_eq_some_iff,
    optionalAnchor?_eq_some_iff]
  constructor
  · rintro ⟨_, rfl, rfl, isAnchor⟩
    exact ⟨rfl, isAnchor, trivial⟩
  · rintro ⟨rfl, isAnchor, -⟩
    exact ⟨anchorText fragment, rfl, rfl, isAnchor⟩

theorem bareModule?_eq_some_iff :
    bareModule? text = some (name, fragment) ↔
      text = (bare name fragment).text ∧ (bare name fragment).WellFormed := by
  simp only [bareModule?, Option.bind_eq_some_iff, Option.map_eq_some_iff, Prod.mk.injEq]
  constructor
  · rintro ⟨⟨found, after⟩, identifier, _, anchorRead, rfl, rfl⟩
    rcases Identifier.read?_eq_some_iff.mp identifier with ⟨rfl, plain, -⟩
    rcases optionalAnchor?_eq_some_iff.mp anchorRead with ⟨rfl, isAnchor⟩
    exact ⟨rfl, isAnchor, plain⟩
  · rintro ⟨rfl, isAnchor, plain⟩
    refine ⟨(name, anchorText fragment), ?_, fragment, ?_, rfl, rfl⟩
    · exact Identifier.read?_eq_some_iff.mpr ⟨rfl, plain, head?_anchorText fragment⟩
    · exact optionalAnchor?_eq_some_iff.mpr ⟨rfl, isAnchor⟩

theorem item?_eq_some_iff {finish : Finish} :
    item? text = some finish ↔
      ∃ kind name fragment, text = (item kind name fragment).text ∧
        (item kind name fragment).WellFormed ∧
        finish = .item kind (.ofKind kind) name (fragment.map fragmentOf) := by
  constructor
  · intro read
    unfold item? at read
    split at read
    · simp at read
    · rename_i kind name rest found
      rcases kindAndName?_eq_some_iff.mp found with ⟨rfl, known, plain, -⟩
      split at read
      · simp at read
      · rename_i ending
        simp only [Option.some.injEq] at read
        rcases Text.after?_eq_some_iff.mp ending with rfl
        exact ⟨kind, name, none, by simp [text, file, anchorName, anchorText],
          ⟨by simp [anchorName], known, plain⟩, read.symm⟩
      · rename_i ending
        simp only [Option.map_eq_some_iff] at read
        rcases read with ⟨added, anchorRead, rfl⟩
        rcases fragment?_eq_some_iff.mp anchorRead with ⟨anchorName, rfl, isAnchor, rfl⟩
        rcases Text.after?_eq_some_iff.mp ending with rfl
        exact ⟨kind, name, some anchorName, by simp [text, file, Page.anchorName, anchorText],
          ⟨by simpa [Page.anchorName] using isAnchor, known, plain⟩, rfl⟩
  · rintro ⟨kind, name, fragment, rfl, ⟨isAnchor, known, plain⟩, rfl⟩
    have dotted : ∀ char ∈ (".html".toList ++ anchorText fragment).head?,
        Text.isAsciiWord char = false := by
      have ending : ".html".toList = '.' :: "html".toList := by decide
      simp only [ending, List.cons_append, List.head?_cons, Option.mem_def, Option.some.injEq,
        forall_eq']
      decide
    have found : kindAndName? (item kind name fragment).text =
        some (kind, name, ".html".toList ++ anchorText fragment) :=
      kindAndName?_eq_some_iff.mpr ⟨by simp [text, file, anchorName], known, plain, dotted⟩
    unfold item?
    simp only [found, Text.after?_append]
    cases fragment with
    | none => rfl
    | some anchorName =>
        have added : fragment? ('#' :: anchorName) = some (fragmentOf anchorName) :=
          fragment?_eq_some_iff.mpr ⟨anchorName, rfl, isAnchor anchorName rfl, rfl⟩
        simp [anchorText, added]

end Readers

section Spellings

variable {page : Page}

/-- The alphabet of page names. -/
theorem isAnchorChar_of_mem_text (wellFormed : page.WellFormed) :
    ∀ char ∈ page.text, isAnchorChar char = true ∨ char = '#' := by
  intro char inside
  rcases List.mem_append.mp inside with inFile | inAnchor
  · exact Or.inl (isAnchorChar_of_mem_file wellFormed char inFile)
  · cases found : page.anchorName with
    | none => simp [found, anchorText] at inAnchor
    | some name =>
        simp only [found, anchorText, List.mem_cons] at inAnchor
        rcases inAnchor with rfl | inName
        · exact Or.inr rfl
        · exact Or.inl ((wellFormed.1 name found).2 char inName)

theorem notMem_text (wellFormed : page.WellFormed) {char : Char}
    (outside : isAnchorChar char = false) (different : char ≠ '#') : char ∉ page.text := by
  intro inside
  rcases isAnchorChar_of_mem_text wellFormed _ inside with allowed | same
  · simp [allowed] at outside
  · exact different same

theorem newline_notMem_text (wellFormed : page.WellFormed) : '\n' ∉ page.text :=
  notMem_text wellFormed (by decide) (by decide)

theorem slash_notMem_text (wellFormed : page.WellFormed) : '/' ∉ page.text :=
  notMem_text wellFormed (by decide) (by decide)

/-- A reader that accepts the spellings of other pages only does not accept this one. -/
theorem eq_none_of_other_page {α : Type} {reader : Text → Option α} (wellFormed : page.WellFormed)
    (accepts : ∀ value, reader page.text = some value →
      ∃ other : Page, other.WellFormed ∧ page.text = other.text ∧ page ≠ other) :
    reader page.text = none := by
  rw [Option.eq_none_iff_forall_ne_some]
  intro value read
  rcases accepts value read with ⟨other, otherWellFormed, same, different⟩
  exact different (text_injective wellFormed otherWellFormed same)

theorem anchor?_text_eq_none (wellFormed : page.WellFormed)
    (different : ∀ name, page ≠ .anchor name) : anchor? page.text = none := by
  apply eq_none_of_other_page wellFormed
  intro name read
  rcases anchor?_eq_some_iff.mp read with ⟨same, isAnchor⟩
  exact ⟨.anchor name, wellFormed_anchor isAnchor, same, different name⟩

theorem item?_text_eq_none (wellFormed : page.WellFormed)
    (different : ∀ kind name fragment, page ≠ .item kind name fragment) :
    item? page.text = none := by
  apply eq_none_of_other_page wellFormed
  intro finish read
  rcases item?_eq_some_iff.mp read with ⟨kind, name, fragment, same, otherWellFormed, -⟩
  exact ⟨_, otherWellFormed, same, different kind name fragment⟩

theorem index?_text_eq_none (wellFormed : page.WellFormed)
    (different : ∀ fragment, page ≠ .index fragment) : index? page.text = none := by
  apply eq_none_of_other_page wellFormed
  intro fragment read
  rcases index?_eq_some_iff.mp read with ⟨same, otherWellFormed⟩
  exact ⟨_, otherWellFormed, same, different fragment⟩

theorem bareModule?_text_eq_none (wellFormed : page.WellFormed)
    (different : ∀ name fragment, page ≠ .bare name fragment) :
    bareModule? page.text = none := by
  apply eq_none_of_other_page wellFormed
  rintro ⟨name, fragment⟩ read
  rcases bareModule?_eq_some_iff.mp read with ⟨same, otherWellFormed⟩
  exact ⟨_, otherWellFormed, same, different name fragment⟩

theorem associated?_text_eq_none (wellFormed : page.WellFormed)
    (different : ∀ name, page ≠ .anchor name) : associated? page.text = none := by
  apply eq_none_of_other_page wellFormed
  rintro ⟨kind, name⟩ read
  rcases associated?_eq_some_iff.mp read with ⟨same, known, plain⟩
  exact ⟨_, wellFormed_anchor (isAnchor_of_associated known plain), same, different _⟩

end Spellings

end Page

end IntraDoc
