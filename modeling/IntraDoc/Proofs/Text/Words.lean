import IntraDoc.Proofs.Text.Basic
import Mathlib.Data.List.Basic

/-!
# Words behind marks

A cut of a text at a separator is told by what stands before and behind it, and the first cut that a
reader accepts is the one with the least before it. A mark is a separator, and what it announces is
the whole word directly behind it; of several such words the first one counts.
-/

namespace IntraDoc

namespace Text

section Cuts

variable {β : Type} {separator text : Text} {read : Text → Option β}

theorem map_snd_splitsAt_cons (char : Char) (rest : Text) :
    (splitsAt separator (char :: rest)).map (·.2) =
      (after? separator (char :: rest)).toList ++ (splitsAt separator rest).map (·.2) := by
  rw [splitsAt]
  cases after? separator (char :: rest) <;> simp

/-- Of the rests behind a separator, the first one that can be read is behind the first place. -/
theorem findSome?_splitsAt_eq_some_iff (filled : separator ≠ []) {value : β} :
    ((splitsAt separator text).map (·.2)).findSome? read = some value ↔
      ∃ before after, text = before ++ (separator ++ after) ∧ read after = some value ∧
        ∀ earlier behind, text = earlier ++ (separator ++ behind) →
          earlier.length < before.length → read behind = none := by
  induction text with
  | nil => simp [splitsAt, filled]
  | cons char rest ih =>
      rw [map_snd_splitsAt_cons, List.findSome?_append, Option.or_eq_some_iff, ih]
      constructor
      · rintro (here | ⟨nothing, before, after, rfl, isRead, first⟩)
        · obtain ⟨after, found, isRead⟩ : ∃ after,
              after? separator (char :: rest) = some after ∧ read after = some value := by
            simpa using List.exists_of_findSome?_eq_some here
          exact ⟨[], after, by simpa using after?_eq_some_iff.mp found, isRead, by simp⟩
        · refine ⟨char :: before, after, rfl, isRead, ?_⟩
          intro earlier behind shape shorter
          rcases List.cons_eq_append_iff.mp shape with ⟨rfl, here⟩ | ⟨others, rfl, later⟩
          · have found := after?_eq_some_iff.mpr here.symm
            simpa [found] using nothing
          · exact first others behind later (by simpa using shorter)
      · rintro ⟨before, after, shape, isRead, first⟩
        rcases List.cons_eq_append_iff.mp shape with ⟨rfl, here⟩ | ⟨others, rfl, later⟩
        · left
          simp [after?_eq_some_iff.mpr here.symm, isRead]
        · right
          refine ⟨?_, others, after, later, isRead, ?_⟩
          · cases found : after? separator (char :: rest) with
            | none => rfl
            | some behind =>
                have here := after?_eq_some_iff.mp found
                simpa using first [] behind (by simpa using here) (by simp)
          · intro earlier behind isCut shorter
            exact first (char :: earlier) behind (by rw [isCut]; rfl) (by simpa using shorter)

theorem exists_of_mem_splitsAt {after : Text}
    (isCut : after ∈ (splitsAt separator text).map (·.2)) :
    ∃ before, text = before ++ (separator ++ after) := by
  induction text with
  | nil => simp [splitsAt] at isCut
  | cons char rest ih =>
      rw [map_snd_splitsAt_cons, List.mem_append, Option.mem_toList] at isCut
      rcases isCut with here | later
      · exact ⟨[], by simpa using after?_eq_some_iff.mp here⟩
      · obtain ⟨before, rfl⟩ := ih later
        exact ⟨char :: before, rfl⟩

end Cuts

section Words

/-- A word: letters, numbers and underscores, one at least. -/
def IsWord (name : Text) : Prop :=
  name ≠ [] ∧ ∀ char ∈ name, isWord char = true

/-- Behind `before` the text goes on with the mark and, directly behind it, a word. -/
def WordBehind (mark text before name : Text) : Prop :=
  ∃ after, text = before ++ (mark ++ (name ++ after)) ∧ IsWord name ∧
    ∀ char ∈ after.head?, isWord char = false

/-- The word behind the first mark that has a word directly behind it. -/
def FirstWordBehind (mark text name : Text) : Prop :=
  ∃ before, WordBehind mark text before name ∧
    ∀ earlier other, WordBehind mark text earlier other → before.length ≤ earlier.length

/-- What follows the first mark of a text. -/
def FirstBehind (mark text behind : Text) : Prop :=
  ∃ before, text = before ++ (mark ++ behind) ∧
    ∀ earlier later, text = earlier ++ (mark ++ later) → before.length ≤ earlier.length

theorem exists_shortest {P : Text → Prop} {text : Text} (found : P text) :
    ∃ shortest, P shortest ∧ ∀ other, P other → shortest.length ≤ other.length := by
  induction size : text.length using Nat.strongRecOn generalizing text with
  | ind length ih =>
      by_cases shorter : ∃ other, P other ∧ other.length < text.length
      · obtain ⟨other, isOther, less⟩ := shorter
        exact ih other.length (size ▸ less) isOther rfl
      · refine ⟨text, found, ?_⟩
        intro other isOther
        by_contra less
        exact shorter ⟨other, isOther, Nat.not_le.mp less⟩

variable {mark text before name behind : Text}

theorem WordBehind.exists_first (isBehind : WordBehind mark text before name) :
    ∃ first, FirstWordBehind mark text first := by
  obtain ⟨shortest, ⟨first, isFirst⟩, least⟩ :=
    exists_shortest (P := fun before => ∃ name, WordBehind mark text before name)
      ⟨name, isBehind⟩
  exact ⟨first, shortest, isFirst, fun earlier other isOther => least earlier ⟨other, isOther⟩⟩

theorem exists_firstBehind (shape : text = before ++ (mark ++ behind)) :
    ∃ first, FirstBehind mark text first := by
  obtain ⟨shortest, ⟨first, isFirst⟩, least⟩ :=
    exists_shortest (P := fun before => ∃ behind, text = before ++ (mark ++ behind))
      ⟨behind, shape⟩
  exact ⟨first, shortest, isFirst, fun earlier later isCut => least earlier ⟨later, isCut⟩⟩

theorem WordBehind.append_left (front : Text) (isBehind : WordBehind mark text before name) :
    WordBehind mark (front ++ text) (front ++ before) name := by
  obtain ⟨after, rfl, isWord⟩ := isBehind
  exact ⟨after, by simp, isWord⟩

variable {tail : Text}

/-- A tail without word characters has no part in a word. -/
theorem wordBehind_append (free : ∀ char ∈ tail, isWord char = false) :
    WordBehind mark (text ++ tail) before name ↔ WordBehind mark text before name := by
  constructor
  · rintro ⟨after, shape, ⟨filled, inside⟩, stop⟩
    have cut : text ++ tail = (before ++ mark ++ name) ++ after := by simpa using shape
    rcases List.append_eq_append_iff.mp cut with ⟨last, whole, tailShape⟩ | ⟨rest, rfl, rfl⟩
    · -- What is left of the word would be in the tail.
      have nothing : last = [] := by
        rcases List.eq_nil_or_concat' last with rfl | ⟨others, char, rfl⟩
        · rfl
        · exfalso
          have inName : char ∈ name := by
            have ends := congrArg List.getLast? whole
            rw [List.getLast?_append_of_ne_nil _ filled, ← List.append_assoc,
              List.getLast?_concat] at ends
            exact List.mem_of_getLast? ends
          have inTail : char ∈ tail := by simp [tailShape]
          exact absurd (inside char inName) (by simp [free char inTail])
      subst nothing
      exact ⟨[], by simpa using whole.symm, ⟨filled, inside⟩, by simp⟩
    · refine ⟨rest, by simp, ⟨filled, inside⟩, ?_⟩
      intro char first
      exact stop char (by cases rest <;> simp_all)
  · rintro ⟨after, rfl, isName, stop⟩
    refine ⟨after ++ tail, by simp, isName, ?_⟩
    intro char first
    cases after with
    | nil => exact free char (List.mem_of_mem_head? first)
    | cons next others => exact stop char first

theorem firstWordBehind_append (free : ∀ char ∈ tail, isWord char = false) :
    FirstWordBehind mark (text ++ tail) name ↔ FirstWordBehind mark text name := by
  simp only [FirstWordBehind, wordBehind_append free]

/-- A mark that ends in a character outside of the tail stands in front of the tail. -/
theorem exists_of_append_eq {last : Char} (outside : last ∉ tail)
    (shape : text ++ tail = before ++ (mark ++ [last] ++ behind)) :
    ∃ rest, text = before ++ (mark ++ [last] ++ rest) ∧ behind = rest ++ tail := by
  have cut : text ++ tail = (before ++ mark ++ [last]) ++ behind := by simpa using shape
  rcases List.append_eq_append_iff.mp cut with ⟨others, whole, tailShape⟩ | ⟨rest, rfl, rfl⟩
  · rcases List.eq_nil_or_concat' others with rfl | ⟨more, char, rfl⟩
    · exact ⟨[], by simpa using whole.symm, by simpa using tailShape.symm⟩
    · rw [← List.append_assoc] at whole
      obtain ⟨-, same⟩ := List.append_inj' whole rfl
      simp [tailShape, ← List.singleton_inj.mp same] at outside
  · exact ⟨rest, by simp, rfl⟩

theorem FirstBehind.of_append {last : Char} (outside : last ∉ tail)
    (isFirst : FirstBehind (mark ++ [last]) (text ++ tail) behind) :
    ∃ rest, FirstBehind (mark ++ [last]) text rest ∧ behind = rest ++ tail := by
  obtain ⟨before, shape, least⟩ := isFirst
  obtain ⟨rest, isCut, rfl⟩ := exists_of_append_eq outside shape
  refine ⟨rest, ⟨before, isCut, ?_⟩, rfl⟩
  rintro earlier later rfl
  exact least earlier (later ++ tail) (by simp)

end Words

end Text

end IntraDoc
