import IntraDoc.Proofs.Line.LongForm

/-!
# When a line links a name to itself

A long-form line is read twice: its link ends the name at the last closing bracket, while the test
for a link to itself takes the first `]:` that leaves both names on one line. The readings differ
only if the name holds a `]:` of its own. The test then ends the name too early and compares a text
without `]:` with one that has it, unless a line feed in the gap makes it pass over every `]:` of
the name. Either way the test fails, as it should: a target without brackets is no such name.
-/

namespace IntraDoc

namespace Text

theorem skipBlanks_append_of_head {rest : Text} (stop : ∀ char ∈ rest.head?, isBlank char = false)
    (text : Text) : skipBlanks (text ++ rest) = skipBlanks text ++ rest := by
  rw [skipBlanks, List.dropWhile_append]
  split
  · rename_i nothing
    have kept : ([] ++ rest).dropWhile isBlank = rest := dropWhile_append_stop (by simp) stop
    rw [List.nil_append] at kept
    rw [skipBlanks, List.isEmpty_iff.mp nothing, kept, List.nil_append]
  · rfl

section Cuts

variable {first second : Char} {text before after : Text}

/-- The cuts of a text come before the cut at a separator behind it. -/
theorem splitsAt_append (different : first ≠ second) (before after : Text) :
    ∃ later, splitsAt [first, second] (before ++ first :: second :: after) =
      (splitsAt [first, second] before).map
          (fun cut => (cut.1, cut.2 ++ first :: second :: after)) ++ (before, after) :: later := by
  induction before with
  | nil =>
      have here : after? [first, second] (first :: second :: after) = some after := by
        simp [after?]
      refine ⟨(splitsAt [first, second] (second :: after)).map fun cut =>
        (first :: cut.1, cut.2), ?_⟩
      rw [List.nil_append, splitsAt, splitsAt, here]
      rfl
  | cons char before ih =>
      obtain ⟨later, cuts⟩ := ih
      have sameStart : after? [first, second] (char :: (before ++ first :: second :: after)) =
          (after? [first, second] (char :: before)).map (· ++ first :: second :: after) := by
        cases before with
        | nil => simp [after?, different.symm]
        | cons next others =>
            by_cases opens : first = char <;> by_cases closes : second = next <;>
              simp [after?, opens, closes]
      refine ⟨later.map fun cut => (char :: cut.1, cut.2), ?_⟩
      rw [List.cons_append, splitsAt, splitsAt, cuts, sameStart]
      cases after? [first, second] (char :: before) <;> simp [Function.comp_def]

/-- The first cut is at the first occurrence of the separator. -/
theorem eq_append_of_splitsAt_eq_cons {separator : Text} {others : List (Text × Text)}
    (filled : separator ≠ []) (cuts : splitsAt separator text = (before, after) :: others) :
    text = before ++ (separator ++ after) ∧ ¬separator <:+: before := by
  induction text generalizing before others with
  | nil => simp [splitsAt] at cuts
  | cons char rest ih =>
      unfold splitsAt at cuts
      split at cuts
      · rename_i behind found
        simp only [List.cons.injEq, Prod.mk.injEq] at cuts
        rcases cuts with ⟨⟨isEmpty, rfl⟩, -⟩
        rw [← isEmpty, List.nil_append]
        exact ⟨after?_eq_some_iff.mp found, by simpa using filled⟩
      · rename_i notHere
        rcases laterCuts : splitsAt separator rest with _ | ⟨⟨shorter, behind⟩, more⟩
        · simp [laterCuts] at cuts
        · simp only [laterCuts, List.map_cons, List.cons.injEq, Prod.mk.injEq] at cuts
          rcases cuts with ⟨⟨rfl, rfl⟩, -⟩
          rcases ih laterCuts with ⟨shape, absent⟩
          refine ⟨by rw [shape, List.cons_append], ?_⟩
          rw [List.infix_cons_iff, not_or]
          refine ⟨?_, absent⟩
          rintro ⟨between, starts⟩
          have here : char :: rest = separator ++ (between ++ (separator ++ behind)) := by
            rw [shape, ← List.cons_append, ← starts, List.append_assoc]
          rw [here, after?_append] at notHere
          simp at notHere

end Cuts

end Text

namespace LocalLink

/-- The name without a backtick in front and without one at its end. -/
def bareName (name : Text) : Text :=
  dropClosing (dropOpening name)

theorem dropOpening_append_bracket (name rest : Text) :
    dropOpening (name ++ ']' :: rest) = dropOpening name ++ ']' :: rest := by
  cases name with
  | nil => simp [dropOpening]
  | cons char others => by_cases tick : char = '`' <;> simp [dropOpening, tick]

theorem dropClosing_cases (name : Text) :
    dropClosing name = name ∨ name = dropClosing name ++ ['`'] := by
  unfold dropClosing
  split
  · rename_i tick
    exact Or.inr (List.dropLast_append_getLast? '`' tick).symm
  · exact Or.inl rfl

theorem mem_dropClosing {name : Text} {char : Char} (inside : char ∈ name)
    (notTick : char ≠ '`') : char ∈ dropClosing name := by
  rcases dropClosing_cases name with same | ticked
  · rwa [same]
  · rw [ticked, List.mem_append, List.mem_singleton] at inside
    exact inside.resolve_right notTick

theorem dropClosing_isPrefix (name : Text) : dropClosing name <+: name := by
  unfold dropClosing
  split
  · exact List.dropLast_prefix name
  · exact List.prefix_rfl

section Names

variable {target lineEnd : Text} (filled : target ≠ [])
  (unblank : ∀ char ∈ target, Text.isBlank char = false)
  (isEnd : LongForm.isLineEnd lineEnd = true)

include filled unblank isEnd

/-- The end of a line is cut off behind a target, so only what stands in front may break it. -/
theorem lineText?_target (front : Text) :
    lineText? (front ++ (target ++ lineEnd)) =
      if '\n' ∈ front then none else some (front ++ target) := by
  have free : ∀ char, Text.isBlank char = true → char ∉ target := by
    intro char blank inside
    simp [unblank char inside] at blank
  have cut : lineText? (front ++ (target ++ lineEnd)) =
      if '\n' ∈ front ++ target then none else some (front ++ target) := by
    obtain ⟨others, last, rfl⟩ := (List.eq_nil_or_concat' target).resolve_left filled
    have notReturn : last ≠ '\r' := by
      rintro rfl
      exact free '\r' (by decide) (by simp)
    have notFeed : last ≠ '\n' := by
      rintro rfl
      exact free '\n' (by decide) (by simp)
    rcases LongForm.isLineEnd_iff.mp isEnd with rfl | rfl | rfl <;>
      simp [lineText?, notReturn, notFeed]
  have sameBreaks : '\n' ∈ front ++ target ↔ '\n' ∈ front := by
    simp [free '\n' (by decide)]
  simp only [cut, sameBreaks]

theorem names?_target {name gap : Text} (single : '\n' ∉ name)
    (blank : ∀ char ∈ gap, Text.isBlank char = true) :
    names? (name, gap ++ (target ++ lineEnd)) = some (dropClosing name, target) := by
  have stop : ∀ char ∈ (target ++ lineEnd).head?, Text.isBlank char = false := by
    intro char first
    rw [List.head?_append_of_ne_nil _ filled] at first
    exact unblank char (List.mem_of_mem_head? first)
  have whole := lineText?_target filled unblank isEnd []
  simp only [List.nil_append, List.not_mem_nil, if_false] at whole
  simp [names?, single, Text.skipBlanks_append_stop blank stop, whole]

/-- A cut before the last `]:` leaves a second name that holds one. -/
theorem names?_inside {name : Text} (single : '\n' ∉ name) (between gap : Text) :
    names? (name, between ++ ']' :: ':' :: (gap ++ (target ++ lineEnd))) =
      if '\n' ∈ Text.skipBlanks between ++ ']' :: ':' :: gap then none
      else some (dropClosing name, Text.skipBlanks between ++ ']' :: ':' :: (gap ++ target)) := by
  have skipped : Text.skipBlanks (between ++ ']' :: ':' :: (gap ++ (target ++ lineEnd))) =
      Text.skipBlanks between ++ ']' :: ':' :: (gap ++ (target ++ lineEnd)) :=
    Text.skipBlanks_append_of_head (by simp; decide) between
  have spelled : Text.skipBlanks between ++ ']' :: ':' :: (gap ++ (target ++ lineEnd)) =
      (Text.skipBlanks between ++ ']' :: ':' :: gap) ++ (target ++ lineEnd) := by
    simp
  have read := lineText?_target filled unblank isEnd (Text.skipBlanks between ++ ']' :: ':' :: gap)
  rw [← spelled] at read
  have isSingle : name.contains '\n' = false := by simpa using single
  simp only [names?, isSingle, Bool.false_eq_true, if_false, skipped, read]
  split
  · rfl
  · simp

/--
The search for two names behind a bare name without line feeds. If no `]:` stands in the name, the
first cut is behind it; otherwise the target is told from the name by its missing bracket.
-/
theorem findSome?_names?_iff {bare gap : Text} (single : '\n' ∉ bare)
    (blank : ∀ char ∈ gap, Text.isBlank char = true) (plain : ']' ∉ bare ∨ ']' ∉ target) :
    (∃ name, (Text.splitsAt [']', ':']
        (bare ++ ']' :: ':' :: (gap ++ (target ++ lineEnd)))).findSome? names? =
          some (name, name)) ↔ dropClosing bare = target := by
  have atBare := names?_target filled unblank isEnd single blank
  obtain ⟨later, cuts⟩ :=
    Text.splitsAt_append (by decide : ']' ≠ ':') bare (gap ++ (target ++ lineEnd))
  rw [cuts, List.findSome?_append, List.findSome?_map]
  rcases inside : Text.splitsAt [']', ':'] bare with _ | ⟨⟨name, between⟩, others⟩
  · simp [atBare, eq_comm]
  · obtain ⟨shape, absent⟩ := Text.eq_append_of_splitsAt_eq_cons (by simp) inside
    have bracketIn : ']' ∈ bare := by simp [shape]
    have different : dropClosing bare ≠ target := by
      rintro rfl
      exact plain.elim (absurd bracketIn) (absurd (mem_dropClosing bracketIn (by decide)))
    refine iff_of_false ?_ different
    rintro ⟨found, isFound⟩
    by_cases broken : '\n' ∈ gap
    · -- No cut within the name leaves its second name on one line.
      have none : ∀ cut ∈ (name, between) :: others,
          (names? ∘ fun cut => (cut.1, cut.2 ++ ']' :: ':' :: (gap ++ (target ++ lineEnd)))) cut =
            none := by
        intro cut _
        by_cases cutSingle : '\n' ∈ cut.1
        · simp [names?, cutSingle]
        · simp [names?_inside filled unblank isEnd cutSingle, broken]
      rw [List.findSome?_eq_none_iff.mpr none, Option.none_or, List.findSome?_cons,
        atBare] at isFound
      simp only [Option.some.injEq, Prod.mk.injEq] at isFound
      exact different (isFound.1.trans isFound.2.symm)
    · -- The first cut succeeds, with a first name that has no `]:` and a second one that has.
      have nameSingle : '\n' ∉ name := fun isIn => single (by simp [shape, isIn])
      have betweenSingle : '\n' ∉ Text.skipBlanks between := by
        intro isIn
        exact single (by simp [shape, (List.dropWhile_suffix _).subset isIn])
      have first := names?_inside filled unblank isEnd nameSingle between gap
      rw [if_neg (by simp [betweenSingle, broken])] at first
      rw [List.findSome?_cons, Function.comp_apply, first, Option.some_or] at isFound
      simp only [Option.some.injEq, Prod.mk.injEq] at isFound
      apply absent
      have occurs : [']', ':'] <:+: dropClosing name := by
        rw [isFound.1, ← isFound.2]
        exact ⟨Text.skipBlanks between, gap ++ target, by simp⟩
      exact occurs.trans (dropClosing_isPrefix name).isInfix

end Names

end LocalLink

namespace LongLine

/-- A long-form line links a name to itself if its bare name is its target. -/
theorem WellFormed.linksToItself_iff {parts : LongLine} (wellFormed : parts.WellFormed)
    {new : Text} (filled : new ≠ []) (unblank : ∀ char ∈ new, Text.isBlank char = false)
    (plain : ']' ∉ parts.name ∨ ']' ∉ new) :
    linksToItself { parts with target := new }.text = true ↔
      LocalLink.bareName parts.name = new := by
  have single : '\n' ∉ LocalLink.dropOpening parts.name := by
    intro inside
    exact wellFormed.name ((dropOpening_isSuffix _).subset inside)
  have plainBare : ']' ∉ LocalLink.dropOpening parts.name ∨ ']' ∉ new :=
    plain.imp_left fun free inside => free ((dropOpening_isSuffix _).subset inside)
  have search := LocalLink.findSome?_names?_iff filled unblank wellFormed.lineEnd single
    wellFormed.gap plainBare
  have opened : LongForm.body? { parts with target := new }.text =
      some (LongLine.body { parts with target := new }) := body?_text wellFormed.front
  rw [LocalLink.bareName, ← search, linksToItself, opened, body]
  simp only [LocalLink.dropOpening_append_bracket]
  rw [show "]:".toList = [']', ':'] from rfl]
  split
  · rename_i name target found
    simp [found, eq_comm]
  · rename_i nothing
    simp [nothing]

end LongLine

end IntraDoc
