import IntraDoc.Proofs.Text.Basic
import IntraDoc.Text.Markup

/-!
# Laws of console markup

Escaped text is shown as it is, wherever in a markup it stands, if it holds no backslash and what
follows it does not close a bracket that the text leaves open. Tags are not shown at all.
-/

namespace IntraDoc

namespace Markup

section Reading

variable {markup rest : Text} {char : Char}

@[simp]
theorem plain_nil : plain [] = [] := rfl

/-- Outside of a tag it makes no difference whether the last tag was shown. -/
theorem plainFrom_shown (slashes : Nat) (shown : Bool) (markup : Text) :
    plainFrom slashes 0 shown markup = plainFrom slashes 0 false markup := by
  cases markup <;> simp [plainFrom]

theorem plain_cons (notBracket : char ≠ '[') (notSlash : char ≠ '\\') (rest : Text) :
    plain (char :: rest) = char :: plain rest := by
  have noTag : tagLength? (char :: rest) = none := by
    unfold tagLength?
    split <;> simp_all
  simp [plain, plainFrom, noTag, notBracket, notSlash]

/-- Text without brackets and backslashes is shown as it is. -/
theorem plain_append {text : Text} (noBracket : '[' ∉ text) (noSlash : '\\' ∉ text) (rest : Text) :
    plain (text ++ rest) = text ++ plain rest := by
  induction text with
  | nil => rfl
  | cons char text ih =>
      simp only [List.mem_cons, not_or] at noBracket noSlash
      rw [List.cons_append, plain_cons (Ne.symm noBracket.1) (Ne.symm noSlash.1),
        ih noBracket.2 noSlash.2, List.cons_append]

theorem closing?_append {name : Text} (noOpening : '[' ∉ name) (noClosing : ']' ∉ name)
    (rest : Text) : closing? (name ++ ']' :: rest) = some (name.length + 1) := by
  induction name with
  | nil => rfl
  | cons char name ih =>
      simp only [List.mem_cons, not_or] at noOpening noClosing
      simp [closing?, Ne.symm noOpening.1, Ne.symm noClosing.1, ih noOpening.2 noClosing.2]

theorem closing?_append_of_notMem {text : Text} (noOpening : '[' ∉ text) (noClosing : ']' ∉ text)
    (restOpen : closing? rest = none) : closing? (text ++ rest) = none := by
  induction text with
  | nil => exact restOpen
  | cons char text ih =>
      simp only [List.mem_cons, not_or] at noOpening noClosing
      simp [closing?, Ne.symm noOpening.1, Ne.symm noClosing.1, ih noOpening.2 noClosing.2]

theorem plainFrom_hidden (tag rest : Text) :
    plainFrom 0 tag.length false (tag ++ rest) = plain rest := by
  induction tag with
  | nil => rfl
  | cons char tag ih => simpa [plainFrom] using ih

/-- A tag is not shown. -/
theorem plain_tag {name : Text} (isStart : isTagStart char = true) (noOpening : '[' ∉ name)
    (noClosing : ']' ∉ name) (rest : Text) :
    plain ('[' :: char :: (name ++ ']' :: rest)) = plain rest := by
  have isTag : tagLength? ('[' :: char :: (name ++ ']' :: rest)) =
      some (name.length + 3) := by
    simp [tagLength?, isStart, closing?_append noOpening noClosing]
  have hidden := plainFrom_hidden (char :: (name ++ [']'])) rest
  simpa [plain, plainFrom, isTag] using hidden

end Reading

section Escaping

variable {text rest : Text} {char : Char}

theorem escapeFrom_nil (inside : Nat) : escapeFrom 0 inside [] = [] := rfl

theorem escapeFrom_inside (inside : Nat) (char : Char) (text : Text) :
    escapeFrom 0 (inside + 1) (char :: text) = char :: escapeFrom 0 inside text := rfl

theorem escapeFrom_tag {length : Nat} (noSlash : char ≠ '\\')
    (isTag : tagLength? (char :: text) = some length) :
    escapeFrom 0 0 (char :: text) = '\\' :: char :: escapeFrom 0 (length - 1) text := by
  simp [escapeFrom, noSlash, isTag]

theorem escapeFrom_plain (noSlash : char ≠ '\\') (noTag : tagLength? (char :: text) = none) :
    escapeFrom 0 0 (char :: text) = char :: escapeFrom 0 0 text := by
  simp [escapeFrom, noSlash, noTag]

theorem tagLength?_of_ne (noBracket : char ≠ '[') (text : Text) :
    tagLength? (char :: text) = none := by
  unfold tagLength?
  split <;> simp_all

/-- A bracket that the text leaves open is not closed by escaping, nor by an opening bracket. -/
theorem closing?_escapeFrom_append (noSlash : '\\' ∉ text) (isOpen : closing? text = none)
    (restOpen : closing? rest = none) : closing? (escapeFrom 0 0 text ++ rest) = none := by
  induction text with
  | nil => exact restOpen
  | cons char text ih =>
      simp only [List.mem_cons, not_or] at noSlash
      by_cases isBracket : char = '['
      · cases isTag : tagLength? (char :: text) with
        | some length =>
            rw [escapeFrom_tag (Ne.symm noSlash.1) isTag]
            simp [closing?, isBracket]
        | none =>
            rw [escapeFrom_plain (Ne.symm noSlash.1) isTag]
            simp [closing?, isBracket]
      · have notClosing : char ≠ ']' := by
          rintro rfl
          simp [closing?] at isOpen
        have restIsOpen : closing? text = none := by
          simpa [closing?, notClosing, isBracket] using isOpen
        rw [escapeFrom_plain (Ne.symm noSlash.1) (tagLength?_of_ne isBracket text)]
        simp [closing?, notClosing, isBracket, ih noSlash.2 restIsOpen]

theorem tagLength?_eq_some {length : Nat} (isTag : tagLength? (char :: text) = some length) :
    char = '[' ∧ ∃ first others count, text = first :: others ∧ isTagStart first = true ∧
      closing? others = some count ∧ length = count + 2 := by
  unfold tagLength? at isTag
  split at isTag
  · rename_i first others shape
    obtain ⟨rfl, rfl⟩ := List.cons.inj shape
    split at isTag
    · rename_i isStart
      obtain ⟨count, found, rfl⟩ := Option.map_eq_some_iff.mp isTag
      exact ⟨rfl, first, others, count, rfl, isStart, found, rfl⟩
    · simp at isTag
  · simp at isTag

theorem tagLength?_of_closing?_eq_none (isOpen : closing? text = none) :
    tagLength? (char :: text) = none := by
  cases isTag : tagLength? (char :: text) with
  | none => rfl
  | some length =>
      obtain ⟨-, first, others, count, rfl, isStart, found, -⟩ := tagLength?_eq_some isTag
      have notOpening : first ≠ '[' := by
        rintro rfl
        exact absurd isStart (by decide)
      have closes : closing? (first :: others) ≠ none := by
        by_cases isClosing : first = ']' <;> simp [closing?, isClosing, notOpening, found]
      exact absurd isOpen closes

/-- A bracket that begins no tag in the text begins none in front of what follows either. -/
theorem tagLength?_escapeFrom_append (noSlash : '\\' ∉ text)
    (noTag : tagLength? (char :: text) = none) (restOpen : closing? rest = none) :
    tagLength? (char :: (escapeFrom 0 0 text ++ rest)) = none := by
  by_cases isBracket : char = '['
  · subst isBracket
    cases text with
    | nil => exact tagLength?_of_closing?_eq_none restOpen
    | cons first others =>
        simp only [List.mem_cons, not_or] at noSlash
        cases isTag : tagLength? (first :: others) with
        | some length =>
            rw [escapeFrom_tag (Ne.symm noSlash.1) isTag]
            rfl
        | none =>
            rw [escapeFrom_plain (Ne.symm noSlash.1) isTag]
            by_cases isStart : isTagStart first = true
            · have isOpen : closing? others = none := by simpa [tagLength?, isStart] using noTag
              simp [tagLength?, closing?_escapeFrom_append noSlash.2 isOpen restOpen]
            · simp [tagLength?, isStart]
  · exact tagLength?_of_ne isBracket _

theorem closing?_escapeFrom_inside {count : Nat} (found : closing? text = some count)
    (rest : Text) : closing? (escapeFrom 0 count text ++ rest) = some count := by
  induction text generalizing count with
  | nil => simp [closing?] at found
  | cons char text ih =>
      by_cases isClosing : char = ']'
      · obtain rfl : 1 = count := by simpa [closing?, isClosing] using found
        simp [escapeFrom_inside, closing?, isClosing]
      · by_cases isBracket : char = '['
        · simp [closing?, isBracket] at found
        · obtain ⟨others, foundOthers, rfl⟩ : ∃ others, closing? text = some others ∧
              others + 1 = count := by simpa [closing?, isClosing, isBracket] using found
          simp [escapeFrom_inside, closing?, isClosing, isBracket, ih foundOthers]

theorem le_length_of_closing? {count : Nat} (found : closing? text = some count) :
    count ≤ text.length := by
  induction text generalizing count with
  | nil => simp [closing?] at found
  | cons char text ih =>
      by_cases isClosing : char = ']'
      · obtain rfl : 1 = count := by simpa [closing?, isClosing] using found
        simp
      · by_cases isBracket : char = '['
        · simp [closing?, isBracket] at found
        · obtain ⟨others, foundOthers, rfl⟩ : ∃ others, closing? text = some others ∧
              others + 1 = count := by simpa [closing?, isClosing, isBracket] using found
          simpa using ih foundOthers

/-- A tag of the text is shown, and so is what stands behind it, wherever the reading begins. -/
theorem plainFrom_escapeFrom_append {inside : Nat} (noSlash : '\\' ∉ text)
    (bound : inside ≤ text.length) (restOpen : closing? rest = none) :
    plainFrom 0 inside true (escapeFrom 0 inside text ++ rest) = text ++ plain rest := by
  induction text generalizing inside with
  | nil =>
      obtain rfl : inside = 0 := Nat.le_zero.mp bound
      exact plainFrom_shown 0 true rest
  | cons char text ih =>
      simp only [List.mem_cons, not_or] at noSlash
      have different : char ≠ '\\' := Ne.symm noSlash.1
      cases inside with
      | succ inside =>
          have shorter : inside ≤ text.length := Nat.le_of_succ_le_succ bound
          simp [escapeFrom_inside, plainFrom, ih noSlash.2 shorter]
      | zero =>
          cases isTag : tagLength? (char :: text) with
          | none =>
              have noTag := tagLength?_escapeFrom_append noSlash.2 isTag restOpen
              have behind := ih noSlash.2 (Nat.zero_le _)
              rw [plainFrom_shown] at behind
              rw [escapeFrom_plain different isTag]
              simp [plainFrom, different, noTag, behind, shownBeforeBracket]
          | some length =>
              rw [escapeFrom_tag different isTag]
              obtain ⟨rfl, first, others, count, rfl, isStart, found, rfl⟩ :=
                tagLength?_eq_some isTag
              have bound : count + 1 ≤ (first :: others).length := by
                simpa using le_length_of_closing? found
              have behind := ih noSlash.2 bound
              have isShown :
                  tagLength? ('[' :: (escapeFrom 0 (count + 1) (first :: others) ++ rest)) =
                    some (count + 2) := by
                simp [escapeFrom_inside, tagLength?, isStart, closing?_escapeFrom_inside found]
              simp [plainFrom, isShown, behind]

theorem getLast?_cons_ne {stop : Char} (different : char ≠ stop)
    (behind : text.getLast? ≠ some stop) : (char :: text).getLast? ≠ some stop := by
  rw [List.getLast?_cons]
  cases last : text.getLast? with
  | none => simpa using different
  | some other => simpa [last] using behind

/-- No backslash is added behind the last tag. -/
theorem getLast?_escapeFrom_ne (noSlash : '\\' ∉ text) (inside : Nat) :
    (escapeFrom 0 inside text).getLast? ≠ some '\\' := by
  induction text generalizing inside with
  | nil => simp [escapeFrom_nil]
  | cons char text ih =>
      simp only [List.mem_cons, not_or] at noSlash
      have different : char ≠ '\\' := Ne.symm noSlash.1
      cases inside with
      | succ inside => exact getLast?_cons_ne different (ih noSlash.2 inside)
      | zero =>
          cases isTag : tagLength? (char :: text) with
          | none =>
              rw [escapeFrom_plain different isTag]
              exact getLast?_cons_ne different (ih noSlash.2 0)
          | some length =>
              rw [escapeFrom_tag different isTag, List.getLast?_cons_cons]
              exact getLast?_cons_ne different (ih noSlash.2 (length - 1))

theorem closeSlash_eq_self (noFinal : text.getLast? ≠ some '\\') : closeSlash text = text := by
  rw [List.getLast?_eq_head?_reverse] at noFinal
  unfold closeSlash
  split
  · rfl
  · rename_i reversed
    simp [reversed] at noFinal
  · rfl

/-- A text without backslashes is shown as it is in front of what leaves its brackets open. -/
theorem plain_escape_append (noSlash : '\\' ∉ text) (restOpen : closing? rest = none) :
    plain (escape text ++ rest) = text ++ plain rest := by
  rw [escape, closeSlash_eq_self (getLast?_escapeFrom_ne noSlash 0), plain,
    ← plainFrom_shown 0 true]
  exact plainFrom_escapeFrom_append noSlash (Nat.zero_le _) restOpen

end Escaping

section Showing

/-- Markup that is shown as this text, whatever follows it. -/
def Shows (markup text : Text) : Prop :=
  ∀ rest, plain (markup ++ rest) = text ++ plain rest

variable {markup text : Text}

theorem Shows.append {otherMarkup otherText : Text} (shows : Shows markup text)
    (others : Shows otherMarkup otherText) : Shows (markup ++ otherMarkup) (text ++ otherText) := by
  intro rest
  rw [List.append_assoc, shows, others, List.append_assoc]

theorem shows_of_notMem (noBracket : '[' ∉ text) (noSlash : '\\' ∉ text) : Shows text text :=
  plain_append noBracket noSlash

/-- The name of a style, as it stands in tags. -/
def IsStyle (style : Text) : Prop :=
  style ≠ [] ∧ style.all (fun char => 'a' ≤ char && char ≤ 'z') = true

/-- A text between the tags of a style. -/
def styled (style text : Text) : Text :=
  '[' :: style ++ ']' :: escape text ++ '[' :: '/' :: style ++ [']']

theorem shows_tag {tag : Text} {char : Char} (isStart : isTagStart char = true)
    (noOpening : '[' ∉ tag) (noClosing : ']' ∉ tag) : Shows ('[' :: char :: tag ++ [']']) [] := by
  intro rest
  simpa using plain_tag isStart noOpening noClosing rest

theorem IsStyle.notMem {style : Text} (isStyle : IsStyle style) {char : Char}
    (notLetter : ('a' ≤ char && char ≤ 'z') = false) : char ∉ style := by
  intro inside
  have letter := List.all_eq_true.mp isStyle.2 char inside
  simp [notLetter] at letter

/-- A text without backslashes is shown between tags as it is. -/
theorem shows_styled {style : Text} (isStyle : IsStyle style) (noSlash : '\\' ∉ text) :
    Shows (styled style text) text := by
  have noOpening : '[' ∉ style := isStyle.notMem (by decide)
  have noClosing : ']' ∉ style := isStyle.notMem (by decide)
  have closingTag : Shows ('[' :: '/' :: style ++ [']']) [] :=
    shows_tag (by decide) noOpening noClosing
  have openingTag : Shows ('[' :: style ++ [']']) [] := by
    obtain ⟨nonempty, letters⟩ := isStyle
    cases style with
    | nil => exact absurd rfl nonempty
    | cons char tag =>
        simp only [List.mem_cons, not_or] at noOpening noClosing
        have isLetter := List.all_eq_true.mp letters char List.mem_cons_self
        exact shows_tag (by simp [isTagStart, isLetter]) noOpening.2 noClosing.2
  intro rest
  have behind : plain (escape text ++ ('[' :: '/' :: style ++ [']'] ++ rest)) =
      text ++ plain rest := by
    rw [plain_escape_append noSlash rfl, closingTag, List.nil_append]
  have opened := openingTag (escape text ++ ('[' :: '/' :: style ++ [']'] ++ rest))
  rw [List.nil_append, behind] at opened
  simpa [styled] using opened

end Showing

end Markup

end IntraDoc
