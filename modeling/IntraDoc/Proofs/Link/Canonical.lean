import IntraDoc.Proofs.Link.Path
import Mathlib.Logic.Relation

/-!
# The canonical form of link paths

A parsed path has one form: its components are filled, a slash stands for the root in front or
nowhere, and a `.` stands in front or nowhere. Cutting components off at either end keeps the form,
and a path of this form is what its own spelling is read as. Two targets are read as the same path
exactly if they differ by repeated and final slashes and by `.` segments that are not the first.
-/

namespace IntraDoc

namespace Component

/-- A component that can stand anywhere in a path. -/
inductive IsInner : Component → Prop where
  | up : IsInner .up
  | named {name : Text} (plain : IsPlainSegment name) (slashless : '/' ∉ name) :
      IsInner (.named name)

namespace IsInner

variable {component : Component}

theorem text_ne_nil (inner : component.IsInner) : component.text ≠ [] := by
  cases inner with
  | up => simp [text]
  | named plain => exact plain.1

theorem text_ne_here (inner : component.IsInner) : component.text ≠ ['.'] := by
  cases inner with
  | up => simp [text]
  | named plain => exact plain.2.1

theorem slash_notMem_text (inner : component.IsInner) : '/' ∉ component.text := by
  cases inner with
  | up => simp [text]
  | named _ slashless => exact slashless

theorem ofSegment_text (inner : component.IsInner) : ofSegment component.text = component := by
  cases inner with
  | up => rfl
  | named plain => simp [text, ofSegment, plain.2.2]

theorem ofLater?_text (inner : component.IsInner) : ofLater? component.text = some component := by
  rw [ofLater?_of_ne inner.text_ne_nil inner.text_ne_here, inner.ofSegment_text]

theorem ofFirst?_text (inner : component.IsInner) : ofFirst? component.text = some component := by
  rw [ofFirst?_eq_ofLater? inner.text_ne_here, inner.ofLater?_text]

end IsInner

theorem isInner_ofSegment {segment : Text} (isSegment : IsSegment segment) :
    (ofSegment segment).IsInner := by
  unfold ofSegment
  by_cases isUp : segment = ['.', '.']
  · rw [if_pos isUp]
    exact .up
  · rw [if_neg isUp]
    exact .named ⟨isSegment.nonempty, isSegment.notHere, isUp⟩ isSegment.slashless

theorem isInner_of_ofLater? {segment : Text} {component : Component} (slashless : '/' ∉ segment)
    (read : ofLater? segment = some component) : component.IsInner := by
  unfold ofLater? at read
  split at read
  · simp at read
  · rename_i isRead
    simp only [Bool.or_eq_true, List.isEmpty_iff, decide_eq_true_eq, not_or] at isRead
    rw [← Option.some.inj read]
    exact isInner_ofSegment ⟨isRead.1, isRead.2, slashless⟩

theorem exists_ofFirst? {segment : Text} (nonempty : segment ≠ []) :
    ∃ component, ofFirst? segment = some component ∧ component.text = segment ∧
      component ≠ .root := by
  by_cases isHere : segment = ['.']
  · exact ⟨.here, by simp [ofFirst?, isHere], by simp [text, isHere], by simp⟩
  · refine ⟨ofSegment segment, by simp [ofFirst?, nonempty, isHere], text_ofSegment segment, ?_⟩
    unfold ofSegment
    split <;> simp

end Component

namespace LinkPath

section Spelling

/-- A text as its first segment and the segments that stand behind slashes. -/
def spell (first : Text) (others : List Text) : Text :=
  first ++ others.flatMap fun segment => '/' :: segment

variable {first : Text} {others : List Text}

@[simp]
theorem spell_nil (first : Text) : spell first [] = first :=
  List.append_nil first

theorem spell_append_slash (first segment : Text) (others more : List Text) :
    spell first others ++ '/' :: spell segment more = spell first (others ++ segment :: more) := by
  simp [spell]

theorem joinWith_eq_spell (first : Text) (others : List Text) :
    Text.joinWith ['/'] (first :: others) = spell first others :=
  Text.joinWith_eq_flatMap first others

theorem splitOn_spell (firstFree : '/' ∉ first) (othersFree : ∀ segment ∈ others, '/' ∉ segment) :
    Text.splitOn '/' (spell first others) = first :: others := by
  rw [← joinWith_eq_spell]
  exact Text.splitOn_joinWith (by simp) (by simpa using ⟨firstFree, othersFree⟩)

theorem exists_spell (raw : Text) :
    ∃ first others, raw = spell first others ∧ '/' ∉ first ∧
      ∀ segment ∈ others, '/' ∉ segment := by
  have free : ∀ segment ∈ Text.splitOn '/' raw, '/' ∉ segment := fun segment isPiece inside =>
    (Text.mem_of_mem_splitOn isPiece inside).2 rfl
  rcases cut : Text.splitOn '/' raw with _ | ⟨first, others⟩
  · exact absurd cut (Text.splitOn_ne_nil raw)
  · rw [cut] at free
    refine ⟨first, others, ?_, free first (by simp), fun segment isLater => ?_⟩
    · rw [← joinWith_eq_spell, ← cut, Text.joinWith_splitOn]
    · exact free segment (List.mem_cons_of_mem _ isLater)

theorem isRooted_spell (firstFree : '/' ∉ first) :
    isRooted (spell first others) = true ↔ first = [] ∧ others ≠ [] := by
  rw [isRooted_iff]
  cases first with
  | nil => cases others <;> simp [spell]
  | cons char rest =>
      simp only [List.mem_cons, not_or] at firstFree
      simp [spell, Ne.symm firstFree.1]

/-- What stands in front of the later components of a path. -/
def frontOf (first : Text) (others : List Text) : List Component :=
  if first = [] ∧ others ≠ [] then [.root] else (Component.ofFirst? first).toList

theorem parse_spell (firstFree : '/' ∉ first) (othersFree : ∀ segment ∈ others, '/' ∉ segment) :
    parse (spell first others) =
      ⟨frontOf first others ++ others.filterMap Component.ofLater?⟩ := by
  rw [parse, splitOn_spell firstFree othersFree, frontOf]
  by_cases rooted : first = [] ∧ others ≠ []
  · have isRooted : isRooted (spell first others) = true := (isRooted_spell firstFree).mpr rooted
    rw [if_pos isRooted, if_pos rooted]
    simp [rooted.1, Component.ofFirst?]
  · have notRooted : ¬isRooted (spell first others) = true := by
      rwa [isRooted_spell firstFree]
    simp [notRooted, rooted]

/-- What stands in front depends on the other segments only if there are none. -/
theorem parse_spell_congr {more : List Text} (firstFree : '/' ∉ first)
    (othersFree : ∀ segment ∈ others, '/' ∉ segment) (moreFree : ∀ segment ∈ more, '/' ∉ segment)
    (sameFront : first ≠ [] ∨ others ≠ [] ∧ more ≠ [])
    (sameOthers : others.filterMap Component.ofLater? = more.filterMap Component.ofLater?) :
    parse (spell first others) = parse (spell first more) := by
  rw [parse_spell firstFree othersFree, parse_spell firstFree moreFree, sameOthers]
  have same : frontOf first others = frontOf first more := by
    rcases sameFront with nonempty | nonempty <;> simp [frontOf, nonempty]
  rw [same]

end Spelling

section Form

/-- A path in which markers stand in front only. -/
structure IsCanonical (path : LinkPath) : Prop where
  front : ∀ component ∈ path.components.head?,
    component = .root ∨ component = .here ∨ component.IsInner
  inner : ∀ component ∈ path.components.tail, component.IsInner

/-- A part of a path that is left when components are cut off at its ends, time and again. -/
inductive IsCutFrom (path : LinkPath) : LinkPath → Prop where
  | whole : IsCutFrom path path
  | parent {part : LinkPath} (cut : IsCutFrom path part) : IsCutFrom path part.parent
  | dropFirst {part : LinkPath} (cut : IsCutFrom path part) (count : Nat) :
      IsCutFrom path (part.dropFirst count)

/-- The components of a path as they are written. -/
def parts (path : LinkPath) : List Text :=
  path.components.map Component.text

/-- What is required of the components of a path as they are written. -/
structure HasCanonicalParts (path : LinkPath) : Prop where
  filled : ∀ part ∈ path.parts, part ≠ []
  /-- Only the root marker holds a slash, and it stands in front. -/
  slash : ∀ index part, path.parts[index]? = some part → '/' ∈ part → index = 0 ∧ part = ['/']
  here : ∀ index, path.parts[index]? = some ['.'] → index = 0

variable {path part : LinkPath}

theorem isCanonical_parse (raw : Text) : (parse raw).IsCanonical := by
  obtain ⟨first, others, rfl, firstFree, othersFree⟩ := exists_spell raw
  have inner : ∀ component ∈ others.filterMap Component.ofLater?, component.IsInner := by
    intro component found
    obtain ⟨segment, isSegment, read⟩ := List.mem_filterMap.mp found
    exact Component.isInner_of_ofLater? (othersFree segment isSegment) read
  have front : frontOf first others = [] ∨ ∃ component, frontOf first others = [component] ∧
      (component = .root ∨ component = .here ∨ component.IsInner) := by
    unfold frontOf
    split
    · exact Or.inr ⟨.root, rfl, Or.inl rfl⟩
    · by_cases isHere : first = ['.']
      · exact Or.inr ⟨.here, by simp [isHere, Component.ofFirst?], Or.inr (Or.inl rfl)⟩
      · rw [Component.ofFirst?_eq_ofLater? isHere]
        cases read : Component.ofLater? first with
        | none => exact Or.inl rfl
        | some component =>
            exact Or.inr ⟨component, rfl,
              Or.inr (Or.inr (Component.isInner_of_ofLater? firstFree read))⟩
  rw [parse_spell firstFree othersFree]
  rcases front with empty | ⟨component, single, isFront⟩
  · rw [empty, List.nil_append]
    refine ⟨fun component found => Or.inr (Or.inr ?_), fun component found => ?_⟩
    · exact inner component (List.mem_of_mem_head? found)
    · exact inner component (List.mem_of_mem_tail found)
  · rw [single]
    exact ⟨by simpa using isFront, inner⟩

theorem IsCanonical.parent (canonical : path.IsCanonical) : path.parent.IsCanonical := by
  obtain ⟨components⟩ := path
  cases components with
  | nil => exact canonical
  | cons first rest =>
      cases rest with
      | nil => exact ⟨by simp [LinkPath.parent], by simp [LinkPath.parent]⟩
      | cons second rest =>
          refine ⟨by simpa [LinkPath.parent] using canonical.front, fun component found => ?_⟩
          exact canonical.inner component (List.dropLast_subset _ found)

theorem IsCanonical.dropFirst (canonical : path.IsCanonical) (count : Nat) :
    (path.dropFirst count).IsCanonical := by
  obtain ⟨components⟩ := path
  cases components with
  | nil => simpa [LinkPath.dropFirst] using canonical
  | cons first rest =>
      cases count with
      | zero => exact canonical
      | succ count =>
          have inner : ∀ component ∈ rest.drop count, component.IsInner := fun component found =>
            canonical.inner component (List.mem_of_mem_drop found)
          refine ⟨fun component found => Or.inr (Or.inr ?_), fun component found => ?_⟩
          · exact inner component (List.mem_of_mem_head? found)
          · exact inner component (List.mem_of_mem_tail found)

/-- Whatever is cut off, the form stays. -/
theorem IsCutFrom.isCanonical (cut : path.IsCutFrom part) (canonical : path.IsCanonical) :
    part.IsCanonical := by
  induction cut with
  | whole => exact canonical
  | parent _ ih => exact ih.parent
  | dropFirst _ count ih => exact ih.dropFirst count

/-- The first part is a marker or that of an inner component. -/
theorem IsCanonical.exists_front {written : Text} (canonical : path.IsCanonical)
    (isPart : path.parts[0]? = some written) :
    ∃ component : Component, component.text = written ∧
      (component = .root ∨ component = .here ∨ component.IsInner) := by
  rw [← List.head?_eq_getElem?, parts, List.head?_map] at isPart
  obtain ⟨component, isFirst, rfl⟩ := Option.map_eq_some_iff.mp isPart
  exact ⟨component, rfl, canonical.front component isFirst⟩

/-- Behind the first one every part is that of an inner component. -/
theorem IsCanonical.exists_later {written : Text} {index : Nat} (canonical : path.IsCanonical)
    (isPart : path.parts[index + 1]? = some written) :
    ∃ component : Component, component.text = written ∧ component.IsInner := by
  rw [← List.getElem?_tail, parts, ← List.map_tail] at isPart
  obtain ⟨component, found, rfl⟩ := List.mem_map.mp (List.mem_of_getElem? isPart)
  exact ⟨component, rfl, canonical.inner component found⟩

theorem IsCanonical.hasCanonicalParts (canonical : path.IsCanonical) :
    path.HasCanonicalParts := by
  refine ⟨?_, ?_, ?_⟩
  · intro part isPart
    obtain ⟨index, found⟩ := List.mem_iff_getElem?.mp isPart
    cases index with
    | zero =>
        obtain ⟨component, rfl, rfl | rfl | isInner⟩ := canonical.exists_front found
        · simp [Component.text]
        · simp [Component.text]
        · exact isInner.text_ne_nil
    | succ index =>
        obtain ⟨component, rfl, isInner⟩ := canonical.exists_later found
        exact isInner.text_ne_nil
  · intro index part found inside
    cases index with
    | zero =>
        obtain ⟨component, rfl, rfl | rfl | isInner⟩ := canonical.exists_front found
        · exact ⟨rfl, rfl⟩
        · simp [Component.text] at inside
        · exact absurd inside isInner.slash_notMem_text
    | succ index =>
        obtain ⟨component, rfl, isInner⟩ := canonical.exists_later found
        exact absurd inside isInner.slash_notMem_text
  · intro index found
    cases index with
    | zero => rfl
    | succ index =>
        obtain ⟨component, isHere, isInner⟩ := canonical.exists_later found
        exact absurd isHere isInner.text_ne_here

theorem filterMap_ofLater?_text {components : List Component}
    (inner : ∀ component ∈ components, component.IsInner) :
    (components.map Component.text).filterMap Component.ofLater? = components := by
  rw [List.filterMap_map]
  exact (List.filterMap_congr fun component found =>
    (inner component found).ofLater?_text).trans List.filterMap_some

theorem slash_notMem_of_inner {components : List Component}
    (inner : ∀ component ∈ components, component.IsInner) :
    ∀ segment ∈ components.map Component.text, '/' ∉ segment := by
  intro segment isSegment
  obtain ⟨component, found, rfl⟩ := List.mem_map.mp isSegment
  exact (inner component found).slash_notMem_text

/-- The spelling of a path of this form is read as this path. -/
theorem IsCanonical.parse_text (canonical : path.IsCanonical) : parse path.text = path := by
  obtain ⟨components⟩ := path
  cases components with
  | nil => rfl
  | cons first rest =>
      have front : first = .root ∨ first = .here ∨ first.IsInner := by simpa using canonical.front
      have inner : ∀ component ∈ rest, component.IsInner := canonical.inner
      have free := slash_notMem_of_inner inner
      have rest_eq := filterMap_ofLater?_text inner
      rcases front with rfl | rfl | isInner
      · cases rest with
        | nil => rfl
        | cons second others =>
            have text_eq : LinkPath.text ⟨.root :: second :: others⟩ =
                spell [] ((second :: others).map Component.text) := by
              simp [text, joinWith_eq_spell, spell]
            rw [text_eq, parse_spell (by simp) free, rest_eq]
            rfl
      · have text_eq : LinkPath.text ⟨.here :: rest⟩ = spell ['.'] (rest.map Component.text) := by
          simp [text, joinWith_eq_spell, Component.text]
        rw [text_eq, parse_spell (by simp) free, rest_eq]
        simp [frontOf, Component.ofFirst?]
      · have text_eq : LinkPath.text ⟨first :: rest⟩ =
            spell first.text (rest.map Component.text) := by
          cases isInner <;> simp [text, joinWith_eq_spell]
        rw [text_eq, parse_spell isInner.slash_notMem_text free, rest_eq]
        simp [frontOf, isInner.text_ne_nil, isInner.ofFirst?_text]

end Form

section Respelling

/-- One spelling of a path is simplified: by a slash or by the dot of a `.` behind a slash. -/
inductive Simplifies : Text → Text → Prop where
  /-- Of two slashes one is left. -/
  | slash (before after : Text) :
      Simplifies (before ++ '/' :: '/' :: after) (before ++ '/' :: after)
  /-- A final slash goes, unless it is all there is. -/
  | closing {text : Text} (nonempty : text ≠ []) : Simplifies (text ++ ['/']) text
  /-- A `.` goes that is a segment behind a slash. -/
  | here (before : Text) {after : Text} (ends : after = [] ∨ isRooted after = true) :
      Simplifies (before ++ '/' :: '.' :: after) (before ++ '/' :: after)

/-- Two texts that differ by such simplifications only. -/
def SpellSame : Text → Text → Prop :=
  Relation.EqvGen Simplifies

variable {text other first : Text} {others : List Text}

theorem exists_spell_behind {after : Text} (ends : after = [] ∨ isRooted after = true) :
    ∃ others, after = spell [] others ∧ ∀ segment ∈ others, '/' ∉ segment := by
  rcases ends with rfl | rooted
  · exact ⟨[], rfl, by simp⟩
  · obtain ⟨first, others, rfl, firstFree, othersFree⟩ := exists_spell after
    obtain ⟨rfl, -⟩ := (isRooted_spell firstFree).mp rooted
    exact ⟨others, rfl, othersFree⟩

theorem Simplifies.parse_eq (simplifies : Simplifies text other) : parse text = parse other := by
  cases simplifies with
  | slash before after =>
      obtain ⟨first, others, rfl, firstFree, othersFree⟩ := exists_spell before
      obtain ⟨segment, more, rfl, segmentFree, moreFree⟩ := exists_spell after
      have twice : spell first others ++ '/' :: '/' :: spell segment more =
          spell first (others ++ [] :: segment :: more) := by simp [spell]
      rw [twice, spell_append_slash]
      apply parse_spell_congr firstFree
      · simpa [or_imp, forall_and] using ⟨othersFree, segmentFree, moreFree⟩
      · simpa [or_imp, forall_and] using ⟨othersFree, segmentFree, moreFree⟩
      · exact Or.inr ⟨by simp, by simp⟩
      · simp [Component.ofLater?]
  | closing nonempty =>
      obtain ⟨first, others, rfl, firstFree, othersFree⟩ := exists_spell other
      have closed : spell first others ++ ['/'] = spell first (others ++ [[]]) := by simp [spell]
      rw [closed]
      apply parse_spell_congr firstFree
      · simpa [or_imp, forall_and] using othersFree
      · exact othersFree
      · rcases first with _ | _
        · refine Or.inr ⟨by simp, ?_⟩
          rintro rfl
          exact nonempty rfl
        · exact Or.inl (by simp)
      · simp [Component.ofLater?]
  | here before ends =>
      obtain ⟨first, others, rfl, firstFree, othersFree⟩ := exists_spell before
      obtain ⟨more, rfl, moreFree⟩ := exists_spell_behind ends
      have dotted : spell first others ++ '/' :: '.' :: spell [] more =
          spell first (others ++ ['.'] :: more) := by simp [spell]
      rw [dotted, spell_append_slash]
      apply parse_spell_congr firstFree
      · simpa [or_imp, forall_and] using ⟨othersFree, moreFree⟩
      · simpa [or_imp, forall_and] using ⟨othersFree, moreFree⟩
      · exact Or.inr ⟨by simp, by simp⟩
      · simp [Component.ofLater?]

theorem SpellSame.parse_eq (same : SpellSame text other) : parse text = parse other := by
  induction same with
  | rel _ _ simplifies => exact simplifies.parse_eq
  | refl _ => rfl
  | symm _ _ _ ih => exact ih.symm
  | trans _ _ _ _ _ ih₁ ih₂ => exact ih₁.trans ih₂

/-- The segments that are components behind a slash. -/
def meaningful (segments : List Text) : List Text :=
  segments.filter fun segment => (Component.ofLater? segment).isSome

theorem map_text_filterMap_ofLater? (segments : List Text) :
    (segments.filterMap Component.ofLater?).map Component.text = meaningful segments := by
  induction segments with
  | nil => rfl
  | cons segment segments ih =>
      cases read : Component.ofLater? segment with
      | none => simpa [meaningful, read] using ih
      | some component =>
          have written : component.text = segment := by
            rw [Component.ofLater?_eq_some read, Component.text_ofSegment]
          simpa [meaningful, read, written] using ih

/-- A segment without a meaning leaves its slash behind. -/
theorem spellSame_slash {segment : Text} (first : Text)
    (isNothing : Component.ofLater? segment = none) (others : List Text) :
    SpellSame (first ++ '/' :: spell segment others) (first ++ '/' :: spell [] others) := by
  have isEmptyOrHere : segment = [] ∨ segment = ['.'] := by
    by_contra neither
    rw [not_or] at neither
    simp [Component.ofLater?_of_ne neither.1 neither.2] at isNothing
  rcases isEmptyOrHere with rfl | rfl
  · exact .refl _
  · refine .rel _ _ (.here first ?_)
    cases others with
    | nil => exact Or.inl rfl
    | cons next others => exact Or.inr rfl

/-- Behind a first segment only the meaningful segments count. -/
theorem spellSame_meaningful (nonempty : first ≠ []) :
    SpellSame (spell first others) (spell first (meaningful others)) := by
  induction others generalizing first with
  | nil => exact .refl _
  | cons segment others ih =>
      cases read : Component.ofLater? segment with
      | some component =>
          have longer := @ih (first ++ '/' :: segment) (by simp)
          simpa [meaningful, read, spell] using longer
      | none =>
          have dropped : SpellSame (spell first (segment :: others))
              (first ++ '/' :: spell [] others) := by
            simpa [spell] using spellSame_slash first read others
          have closed : SpellSame (first ++ '/' :: spell [] others) (spell first others) := by
            cases others with
            | nil =>
                rw [spell_nil, spell_nil]
                exact .rel _ _ (.closing nonempty)
            | cons next others => exact .rel _ _ (.slash first (spell next others))
          have rest : meaningful (segment :: others) = meaningful others := by
            simp [meaningful, read]
          rw [rest]
          exact .trans _ _ _ (dropped.trans _ _ _ closed) (ih nonempty)

/-- Behind a slash in front only the meaningful segments count, and the slash stays. -/
theorem spellSame_rooted (nonempty : others ≠ []) :
    SpellSame (spell [] others) ('/' :: Text.joinWith ['/'] (meaningful others)) := by
  induction others with
  | nil => exact absurd rfl nonempty
  | cons segment others ih =>
      cases read : Component.ofLater? segment with
      | some component =>
          have rest : meaningful (segment :: others) = segment :: meaningful others := by
            simp [meaningful, read]
          have behind := @spellSame_meaningful ('/' :: segment) others (by simp)
          rw [rest, joinWith_eq_spell]
          simpa [spell] using behind
      | none =>
          have rest : meaningful (segment :: others) = meaningful others := by
            simp [meaningful, read]
          have dropped : SpellSame (spell [] (segment :: others)) ('/' :: spell [] others) := by
            simpa [spell] using spellSame_slash [] read others
          rw [rest]
          cases others with
          | nil => exact dropped
          | cons next others =>
              have merged : SpellSame ('/' :: spell [] (next :: others))
                  (spell [] (next :: others)) := .rel _ _ (.slash [] (spell next others))
              exact .trans _ _ _ (dropped.trans _ _ _ merged) (ih (by simp))

/-- Every text spells the same as the text of its path. -/
theorem spellSame_text_parse (raw : Text) : SpellSame raw (parse raw).text := by
  obtain ⟨first, others, rfl, firstFree, othersFree⟩ := exists_spell raw
  rw [parse_spell firstFree othersFree, frontOf]
  by_cases rooted : first = [] ∧ others ≠ []
  · obtain ⟨rfl, nonempty⟩ := rooted
    rw [if_pos ⟨rfl, nonempty⟩]
    simpa [LinkPath.text, map_text_filterMap_ofLater?] using spellSame_rooted nonempty
  · rw [if_neg rooted]
    by_cases empty : first = []
    · have alone : others = [] := by
        by_contra nonempty
        exact rooted ⟨empty, nonempty⟩
      rw [empty, alone]
      exact .refl _
    · obtain ⟨component, read, written, notRoot⟩ := Component.exists_ofFirst? empty
      have text_eq : LinkPath.text ⟨component :: others.filterMap Component.ofLater?⟩ =
          spell first (meaningful others) := by
        rw [← joinWith_eq_spell, ← written, ← map_text_filterMap_ofLater?]
        cases component <;> simp_all [LinkPath.text]
      simpa [read, text_eq] using spellSame_meaningful empty

/-- Texts are read as the same path exactly if they spell the same. -/
theorem parse_eq_iff : parse text = parse other ↔ SpellSame text other := by
  constructor
  · intro same
    have asOther := spellSame_text_parse other
    rw [← same] at asOther
    exact .trans _ _ _ (spellSame_text_parse text) (.symm _ _ asOther)
  · exact SpellSame.parse_eq

end Respelling

/-- The root marker is in front exactly if the text begins with a slash. -/
theorem head?_parse_eq_root_iff {raw : Text} :
    (parse raw).components.head? = some .root ↔ raw.head? = some '/' := by
  obtain ⟨first, others, rfl, firstFree, othersFree⟩ := exists_spell raw
  rw [parse_spell firstFree othersFree, ← isRooted_iff, isRooted_spell firstFree, frontOf]
  by_cases rooted : first = [] ∧ others ≠ []
  · simp [rooted]
  · rw [if_neg rooted, iff_false_right rooted]
    by_cases empty : first = []
    · have alone : others = [] := by
        by_contra nonempty
        exact rooted ⟨empty, nonempty⟩
      simp [empty, alone, Component.ofFirst?]
    · obtain ⟨component, read, -, notRoot⟩ := Component.exists_ofFirst? empty
      simpa [read] using notRoot

/--
Every part that is left of a parsed path, the path itself included, has filled components, with a
slash or a `.` in front only, and its spelling is read as that part. The root marker is there if the
target begins with a slash. Two targets are read as the same path if and only if they differ by
repeated slashes, a final slash, and `.` segments behind the first one.
-/
theorem parse_canonicalForm (raw : Text) :
    (∀ part, (parse raw).IsCutFrom part → part.HasCanonicalParts ∧ parse part.text = part) ∧
    ((parse raw).components.head? = some .root ↔ raw.head? = some '/') ∧
    ∀ other, parse other = parse raw ↔ SpellSame other raw := by
  refine ⟨fun part cut => ?_, head?_parse_eq_root_iff, fun other => parse_eq_iff⟩
  have canonical := cut.isCanonical (isCanonical_parse raw)
  exact ⟨canonical.hasCanonicalParts, canonical.parse_text⟩

/-- What is left of a rooted target with a redundant spelling, without its root and its page. -/
theorem parse_canonicalForm_redundant :
    let raw : Text := "//a/./b///c.html".toList
    let part : LinkPath := ((parse raw).dropFirst 1).parent
    (parse raw).IsCutFrom part ∧ part.HasCanonicalParts ∧ part.text = "a/b".toList ∧
      parse "a/b".toList = part := by
  intro raw part
  have cut : (parse raw).IsCutFrom part := .parent (.dropFirst .whole 1)
  have form := (parse_canonicalForm raw).1 part cut
  have written : part.text = "a/b".toList := by decide
  exact ⟨cut, form.1, written, written ▸ form.2⟩

end LinkPath

end IntraDoc
