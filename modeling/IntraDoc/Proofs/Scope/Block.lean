import IntraDoc.Proofs.Text.Basic
import IntraDoc.Scope.Tracker

/-!
# Laws of type blocks

Every declared block stands on its own line of the file, and the line of a declaration never ends
the block that it opens.
-/

namespace IntraDoc

namespace Block

theorem header?_nil : header? [] = none := by
  decide +kernel

/-- A declaration begins with a letter, so no closing bracket opens one. -/
theorem header?_bracket {bracket : Char} (closing : bracket = ')' ∨ bracket = '}') (rest : Text) :
    header? (bracket :: rest) = none := by
  rcases closing with rfl | rfl <;>
    simp [header?, afterVisibility, declared?, plainKeywords, Text.after?]

/-- The line of a declaration does not end its own block, unless the block has one line only. -/
theorem startsWith_endMarker_eq_false {line : Text} {position : Int} {block : Block}
    (declares : ofLine? line position = some block) (several : block.isSingleLine = false) :
    Text.startsWith line block.endMarker = false := by
  simp only [ofLine?, Option.map_eq_some_iff] at declares
  rcases declares with ⟨⟨name, parenthesis⟩, isHeader, rfl⟩
  rw [Bool.eq_false_iff]
  intro starts
  simp only at starts
  split at starts
  · rename_i atOnce
    simp [isSingleLine, atOnce] at several
  · rcases Text.startsWith_iff.mp starts with ⟨rest, spelled⟩
    obtain ⟨tail, shape, -⟩ :=
      Text.exists_eq_trimRight_append (fun char => char = '\r' || char = '\n') line
    have content : (Text.trimLineEnd line).takeWhile Text.isBlank ++
        Text.skipBlanks (Text.trimLineEnd line) = Text.trimLineEnd line :=
      List.takeWhile_append_dropWhile
    have behind : Text.skipBlanks (Text.trimLineEnd line) ++ tail =
        (if parenthesis = true then ')' else '}') :: rest := by
      have whole : Text.trimLineEnd line ++ tail = (Text.trimLineEnd line).takeWhile Text.isBlank ++
          ([if parenthesis = true then ')' else '}'] ++ rest) := by
        rw [← List.append_assoc, ← spelled]
        exact shape.symm
      rw [← content, List.append_assoc, content] at whole
      exact List.append_cancel_left whole
    cases begins : Text.skipBlanks (Text.trimLineEnd line) with
    | nil => simp [begins, header?_nil] at isHeader
    | cons char others =>
        rw [begins] at isHeader behind
        simp only [List.cons_append, List.cons.injEq] at behind
        have closing : char = ')' ∨ char = '}' := by
          rw [behind.1]
          cases parenthesis <;> simp
        simp [header?_bracket closing] at isHeader

theorem line_of_ofLine? {line : Text} {position : Int} {block : Block}
    (declares : ofLine? line position = some block) : block.line = position := by
  simp only [ofLine?, Option.map_eq_some_iff] at declares
  rcases declares with ⟨header, -, rfl⟩
  rfl

theorem mem_declaredFrom {lines : List Text} {position : Int} {block : Block}
    (isDeclared : block ∈ declaredFrom position lines) :
    ∃ (index : Nat) (line : Text), lines[index]? = some line ∧
      ofLine? line (position + index) = some block := by
  induction lines generalizing position with
  | nil => simp [declaredFrom] at isDeclared
  | cons first others ih =>
      simp only [declaredFrom, List.mem_append, Option.mem_toList] at isDeclared
      rcases isDeclared with onFirst | later
      · exact ⟨0, first, by simp, by simpa using onFirst⟩
      · rcases ih later with ⟨index, line, found, declares⟩
        refine ⟨index + 1, line, by simpa using found, ?_⟩
        have same : position + ((index + 1 : Nat) : Int) = position + 1 + index := by omega
        rwa [same]

/-- A declared block is read from the line that its number names. -/
theorem mem_declared {lines : List Text} {block : Block} (isDeclared : block ∈ declared lines) :
    ∃ (index : Nat) (line : Text), lines[index]? = some line ∧ block.line = index + 1 ∧
      ofLine? line block.line = some block := by
  rcases mem_declaredFrom isDeclared with ⟨index, line, found, declares⟩
  have number := line_of_ofLine? declares
  refine ⟨index, line, found, by omega, ?_⟩
  rwa [number]

section Names

variable {text name rest : Text}

theorem isWord_of_nameAndRest? (read : nameAndRest? text = some (name, rest)) :
    ∀ char ∈ name, Text.isWord char = true := by
  unfold nameAndRest? at read
  split at read
  · simp only at read
    split at read
    · simp at read
    · simp only [Option.some.injEq, Prod.mk.injEq] at read
      intro char inside
      rw [← read.1] at inside
      exact List.mem_takeWhile_imp inside
  · simp at read

theorem isWord_of_declared? (read : declared? text = some (name, rest)) :
    ∀ char ∈ name, Text.isWord char = true := by
  unfold declared? at read
  split at read
  · exact isWord_of_nameAndRest? read
  · obtain ⟨behind, -, implemented⟩ := Option.bind_eq_some_iff.mp read
    obtain ⟨afterGenerics, -, found⟩ := List.exists_of_findSome?_eq_some implemented
    obtain ⟨candidate, -, isName⟩ := List.exists_of_findSome?_eq_some found
    exact isWord_of_nameAndRest? isName

/-- The name of a block is a word. -/
theorem isWord_of_ofLine? {line : Text} {position : Int} {block : Block}
    (declares : ofLine? line position = some block) :
    ∀ char ∈ block.name, Text.isWord char = true := by
  simp only [ofLine?, Option.map_eq_some_iff] at declares
  rcases declares with ⟨⟨name, parenthesis⟩, isHeader, rfl⟩
  unfold header? at isHeader
  split at isHeader
  · simp at isHeader
  · simp only [Option.map_eq_some_iff] at isHeader
    rcases isHeader with ⟨⟨found, behind⟩, isFound, same⟩
    obtain ⟨candidate, -, isDeclared⟩ := List.exists_of_findSome?_eq_some isFound
    simp only [Prod.mk.injEq] at same
    rw [← same.1]
    exact isWord_of_declared? isDeclared

end Names

end Block

end IntraDoc
