import IntraDoc.Line.Converted
import IntraDoc.Proofs.Text.Basic

/-!
# The pieces of a line

A line without a long-form link is a sequence of pieces, single characters and short-form links, and
the scanner finds the links among them. Converting the links in place, the last one first, is the
same as converting every piece on its own. A long-form link is a header, a target and a line end,
and its conversion exchanges the target.
-/

namespace IntraDoc

namespace LinkTarget

/-- Whether a text can be a target: characters of the class, possibly behind a scheme. -/
def IsTarget (target : Text) : Prop :=
  ∃ scheme body, target = scheme ++ body ∧
    (scheme = [] ∨ scheme = "http:".toList ∨ scheme = "https:".toList) ∧
    ∀ char ∈ body, isChar char = true

theorem splitScheme_eq {text scheme rest : Text} (cut : splitScheme text = (scheme, rest)) :
    text = scheme ++ rest ∧
      (scheme = [] ∨ scheme = "http:".toList ∨ scheme = "https:".toList) := by
  unfold splitScheme at cut
  split at cut
  · rename_i behind found
    simp only [Prod.mk.injEq] at cut
    rcases cut with ⟨rfl, rfl⟩
    exact ⟨Text.after?_eq_some_iff.mp found, Or.inr (Or.inr rfl)⟩
  · split at cut
    · rename_i behind found
      simp only [Prod.mk.injEq] at cut
      rcases cut with ⟨rfl, rfl⟩
      exact ⟨Text.after?_eq_some_iff.mp found, Or.inr (Or.inl rfl)⟩
    · simp only [Prod.mk.injEq] at cut
      rcases cut with ⟨rfl, rfl⟩
      exact ⟨rfl, Or.inl rfl⟩

theorem read?_eq_some {text target rest : Text} (read : read? text = some (target, rest)) :
    text = target ++ rest ∧ IsTarget target := by
  unfold read? at read
  rcases cut : splitScheme text with ⟨scheme, behind⟩
  rcases splitScheme_eq cut with ⟨shape, isScheme⟩
  simp only [cut] at read
  split at read
  · simp at read
  · simp only [Option.some.injEq, Prod.mk.injEq] at read
    rcases read with ⟨rfl, rfl⟩
    refine ⟨?_, scheme, _, rfl, isScheme, fun char inside => List.mem_takeWhile_imp inside⟩
    rw [List.append_assoc, List.takeWhile_append_dropWhile, shape]

theorem ne_nil_of_read? {text target rest : Text} (read : read? text = some (target, rest)) :
    target ≠ [] := by
  unfold read? at read
  simp only at read
  split at read
  · simp at read
  · rename_i filled
    simp only [Option.some.injEq, Prod.mk.injEq] at read
    rintro rfl
    exact filled (by simp [(List.append_eq_nil_iff.mp read.1).2])

namespace IsTarget

variable {target : Text}

theorem isChar_or_colon (isTarget : IsTarget target) :
    ∀ char ∈ target, isChar char = true ∨ char = ':' := by
  rcases isTarget with ⟨scheme, body, rfl, isScheme, allowed⟩
  intro char inside
  rcases List.mem_append.mp inside with inScheme | inBody
  · have all : scheme.all (fun char => isChar char || char = ':') = true := by
      rcases isScheme with rfl | rfl | rfl <;> decide
    simpa using List.all_eq_true.mp all char inScheme
  · exact Or.inl (allowed char inBody)

theorem notMem (isTarget : IsTarget target) {char : Char} (outside : isChar char = false)
    (notColon : char ≠ ':') : char ∉ target := by
  intro inside
  rcases isTarget.isChar_or_colon char inside with allowed | isColon
  · simp [allowed] at outside
  · exact notColon isColon

/-- A target has a colon in its scheme at most. -/
theorem count_colon_le (isTarget : IsTarget target) : target.count ':' ≤ 1 := by
  rcases isTarget with ⟨scheme, body, rfl, isScheme, allowed⟩
  have bodyFree : ':' ∉ body := by
    intro inside
    exact absurd (allowed ':' inside) (by decide)
  rw [List.count_append, List.count_eq_zero_of_not_mem bodyFree]
  rcases isScheme with rfl | rfl | rfl
  · simp
  · decide
  · decide

end IsTarget

end LinkTarget

/-- A part of a line: a character, or a link with its name and target. -/
inductive Piece where
  /-- A character outside of all links. -/
  | plain (char : Char)
  /-- A short-form link. -/
  | link (name target : Text)
deriving DecidableEq, Repr

namespace Piece

/-- The piece as it is written. -/
def text : Piece → Text
  | plain char => [char]
  | link name target => '[' :: (name ++ ']' :: '(' :: (target ++ [')']))

/-- The candidates that the links among the pieces give, behind `offset` characters. -/
def candidates (offset : Nat) : List Piece → List Candidate
  | [] => []
  | plain _ :: pieces => candidates (offset + 1) pieces
  | link name target :: pieces =>
    ShortForm.candidate offset name target ::
      candidates (offset + (name.length + target.length + 4)) pieces

end Piece

namespace ShortForm

theorem exists_of_map_cons {char : Char} {name rest : Text} {found : Option (Text × Text)}
    (mapped : found.map (fun (name, after) => (char :: name, after)) = some (name, rest)) :
    ∃ shorter, found = some (shorter, rest) ∧ name = char :: shorter := by
  obtain ⟨⟨shorter, after⟩, isFound, same⟩ := Option.map_eq_some_iff.mp mapped
  simp only [Prod.mk.injEq] at same
  exact ⟨shorter, same.2 ▸ isFound, same.1.symm⟩

theorem name?_eq_some {inner : Bool} {text name rest : Text}
    (read : name? inner text = some (name, rest)) : text = name ++ ']' :: rest := by
  fun_induction name? inner text generalizing name with
  | case1 => simp at read
  | case2 => simp at read
  | case3 => simp at read
  | case4 inner others _ _ ih =>
      obtain ⟨shorter, isRead, rfl⟩ := exists_of_map_cons read
      rw [ih isRead, List.cons_append]
  | case5 others _ _ ih =>
      obtain ⟨shorter, isRead, rfl⟩ := exists_of_map_cons read
      rw [ih isRead, List.cons_append]
  | case6 =>
      simp only [Option.some.injEq, Prod.mk.injEq] at read
      rw [← read.1, read.2, List.nil_append]
  | case7 inner char others _ _ _ ih =>
      obtain ⟨shorter, isRead, rfl⟩ := exists_of_map_cons read
      rw [ih isRead, List.cons_append]

theorem read?_eq_some {text name target : Text} (read : read? text = some (name, target)) :
    ∃ rest, text = (Piece.link name target).text ++ rest ∧ LinkTarget.IsTarget target := by
  unfold read? at read
  split at read
  · rename_i body
    split at read
    · rename_i found behind isName
      split at read
      · rename_i written rest isTarget
        simp only [Option.some.injEq, Prod.mk.injEq] at read
        rcases read with ⟨rfl, rfl⟩
        rcases LinkTarget.read?_eq_some isTarget with ⟨rfl, allowed⟩
        refine ⟨rest, ?_, allowed⟩
        rw [name?_eq_some isName]
        simp [Piece.text]
      · simp at read
    · simp at read
  · simp at read

theorem scan_skipped (offset skipped : Nat) (text : Text) :
    scan offset skipped text = scan (offset + skipped) 0 (text.drop skipped) := by
  induction text generalizing offset skipped with
  | nil => simp [scan]
  | cons char rest ih =>
      cases skipped with
      | zero => rfl
      | succ skipped =>
          rw [scan, ih, List.drop_succ_cons]
          congr 1
          omega

/-- Behind a link the scanner goes on where the link ends. -/
theorem scan_link {offset : Nat} {name target behind : Text}
    (found : read? ((Piece.link name target).text ++ behind) = some (name, target)) :
    scan offset 0 ((Piece.link name target).text ++ behind) =
      candidate offset name target ::
        scan (offset + (name.length + target.length + 4)) 0 behind := by
  have spelled : (Piece.link name target).text ++ behind =
      '[' :: (name ++ ']' :: '(' :: (target ++ [')']) ++ behind) := rfl
  have skipped : (name ++ ']' :: '(' :: (target ++ [')']) ++ behind).drop
      (name.length + target.length + 3) = behind := by
    have width : name.length + target.length + 3 =
        (name ++ ']' :: '(' :: (target ++ [')'])).length := by
      simp only [List.length_append, List.length_cons, List.length_nil]
      omega
    rw [width, List.drop_left]
  rw [spelled] at found ⊢
  rw [scan]
  simp only [found]
  rw [scan_skipped, skipped]
  congr 2
  omega

theorem length_link (name target : Text) :
    (Piece.link name target).text.length = name.length + target.length + 4 := by
  simp only [Piece.text, List.length_cons, List.length_append, List.length_nil]
  omega

/-- The scanner cuts a text into pieces and finds the links among them. -/
theorem exists_pieces (offset : Nat) (text : Text) :
    ∃ pieces : List Piece, text = pieces.flatMap Piece.text ∧
      scan offset 0 text = Piece.candidates offset pieces ∧
      ∀ name target, .link name target ∈ pieces → LinkTarget.IsTarget target := by
  induction size : text.length using Nat.strongRecOn generalizing offset text with
  | ind length ih =>
      cases found : read? text with
      | none =>
          cases text with
          | nil => exact ⟨[], rfl, rfl, by simp⟩
          | cons char rest =>
              rw [List.length_cons] at size
              obtain ⟨pieces, shape, links, targets⟩ :=
                ih rest.length (by omega) (offset + 1) rest rfl
              refine ⟨.plain char :: pieces, ?_, ?_, by simpa using targets⟩
              · rw [List.flatMap_cons, ← shape]
                rfl
              · rw [scan, found]
                exact links
      | some link =>
          rcases link with ⟨name, target⟩
          obtain ⟨behind, rfl, isTarget⟩ := read?_eq_some found
          rw [List.length_append, length_link] at size
          obtain ⟨pieces, shape, links, targets⟩ := ih behind.length (by omega)
            (offset + (name.length + target.length + 4)) behind rfl
          refine ⟨.link name target :: pieces, ?_, ?_, ?_⟩
          · rw [List.flatMap_cons, ← shape]
          · rw [scan_link found, links]
            rfl
          · intro other otherTarget isPiece
            rcases List.mem_cons.mp isPiece with same | later
            · simp only [Piece.link.injEq] at same
              exact same.2 ▸ isTarget
            · exact targets other otherTarget later

end ShortForm

theorem Span.replace_append (front middle back new : Text) :
    Span.replace ⟨front.length, front.length + middle.length⟩ (front ++ (middle ++ back)) new =
      front ++ new ++ back := by
  simp [Span.replace]

/-- The target that a conversion gives to a link, unless the link is left alone. -/
def Candidate.newTarget? (candidate : Candidate) (options : Options) (currentType : Option Text)
    (ignored : Text → Text → Bool) : Option Text :=
  if ignored candidate.name candidate.target then none
  else candidate.rendered? options currentType

section Substitution

variable (options : Options) (currentType : Option Text) (ignored : Text → Text → Bool)

/-- What a conversion makes of a piece. -/
def Piece.converted : Piece → Text
  | plain char => [char]
  | link name target =>
    if LinkPath.isRooted target then (link name target).text
    else
      match (ShortForm.candidate 0 name target).newTarget? options currentType ignored with
      | none => (link name target).text
      | some new =>
        if new = Text.trim (· = '`') name then '[' :: (name ++ [']'])
        else (link name new).text

theorem fst_step (candidate : Candidate) (state : Text × Nat) :
    (ConvertedLine.step options currentType ignored candidate state).1 =
      match candidate.newTarget? options currentType ignored with
      | none => state.1
      | some new => candidate.substitute state.1 new := by
  unfold ConvertedLine.step Candidate.newTarget?
  split
  · rfl
  · cases candidate.rendered? options currentType <;> rfl

/-- Exchanging one link in its place. -/
theorem substitute_link (front back name target new : Text) :
    (ShortForm.candidate front.length name target).substitute
        (front ++ ((Piece.link name target).text ++ back)) new =
      front ++ (if new = Text.trim (· = '`') name then '[' :: (name ++ [']'])
        else (Piece.link name new).text) ++ back := by
  have linkSpan : (ShortForm.candidate front.length name target).linkSpan =
      ⟨front.length, front.length + (Piece.link name target).text.length⟩ := by
    rw [ShortForm.length_link]
    simp only [ShortForm.candidate, Span.mk.injEq, true_and]
    omega
  have header : (front ++ '[' :: (name ++ [']', '('])).length = front.length + name.length + 3 := by
    simp only [List.length_append, List.length_cons, List.length_nil]
    omega
  have targetSpan : (ShortForm.candidate front.length name target).targetSpan =
      ⟨(front ++ '[' :: (name ++ [']', '('])).length,
        (front ++ '[' :: (name ++ [']', '('])).length + target.length⟩ := by
    rw [header]
    rfl
  have line : front ++ ((Piece.link name target).text ++ back) =
      (front ++ '[' :: (name ++ [']', '('])) ++ (target ++ ')' :: back) := by
    simp [Piece.text]
  have short : (ShortForm.candidate front.length name target).form = .short := rfl
  have shown : (ShortForm.candidate front.length name target).shownName =
      Text.trim (· = '`') name := rfl
  rw [Candidate.substitute, short, shown]
  by_cases redundant : new = Text.trim (· = '`') name
  · rw [if_pos (by simp [redundant]), if_pos redundant, linkSpan, Span.replace_append]
    rfl
  · rw [if_neg (by simp [redundant]), if_neg redundant, targetSpan, line, Span.replace_append]
    simp [Piece.text]

/-- Converting the links of a line in place converts every piece on its own. -/
theorem foldr_step_candidates (front : Text) (pieces : List Piece) :
    (((Piece.candidates front.length pieces).filter fun candidate =>
        !LinkPath.isRooted candidate.target).foldr
      (ConvertedLine.step options currentType ignored) (front ++ pieces.flatMap Piece.text, 0)).1 =
      front ++ pieces.flatMap (Piece.converted options currentType ignored) := by
  induction pieces generalizing front with
  | nil => rfl
  | cons piece pieces ih =>
      cases piece with
      | plain char =>
          have later := ih (front ++ [char])
          simp only [List.length_append, List.length_singleton, List.append_assoc] at later
          exact later
      | link name target =>
          have later := ih (front ++ (Piece.link name target).text)
          rw [List.length_append, ShortForm.length_link, List.append_assoc,
            List.append_assoc] at later
          rw [List.flatMap_cons, List.flatMap_cons, Piece.candidates, Piece.converted]
          by_cases rooted : LinkPath.isRooted target = true
          · rw [List.filter_cons_of_neg (by simp [ShortForm.candidate, rooted]), if_pos rooted]
            exact later
          · rw [List.filter_cons_of_pos (by simp [ShortForm.candidate, rooted]), if_neg rooted,
              List.foldr_cons, fst_step, later]
            have sameTarget : (ShortForm.candidate front.length name target).newTarget? options
                currentType ignored =
              (ShortForm.candidate 0 name target).newTarget? options currentType ignored := rfl
            rw [sameTarget]
            cases (ShortForm.candidate 0 name target).newTarget? options currentType ignored with
            | none => rfl
            | some new =>
                simp only
                rw [substitute_link, List.append_assoc]

end Substitution

theorem Text.splitAtLast?_eq_some {pivot : Char} {text before after : Text}
    (cut : splitAtLast? pivot text = some (before, after)) : text = before ++ pivot :: after := by
  induction text generalizing before with
  | nil => simp [splitAtLast?] at cut
  | cons char rest ih =>
      unfold splitAtLast? at cut
      split at cut
      · rename_i shorter behind found
        simp only [Option.some.injEq, Prod.mk.injEq] at cut
        rcases cut with ⟨rfl, rfl⟩
        rw [List.cons_append, ← ih found]
      · split at cut
        · rename_i isPivot
          simp only [Option.some.injEq, Prod.mk.injEq] at cut
          rcases cut with ⟨rfl, rfl⟩
          rw [isPivot, List.nil_append]
        · simp at cut

namespace LongForm

theorem skipMarker_isSuffix (text : Text) : skipMarker text <:+ text := by
  unfold skipMarker
  split
  · rename_i rest
    exact (List.dropWhile_suffix _).trans ⟨['/', '/', '/'], rfl⟩
  · rename_i rest
    exact (List.dropWhile_suffix _).trans ⟨['/', '/', '!'], rfl⟩
  · exact List.suffix_refl _

theorem body?_isSuffix {line body : Text} (found : body? line = some body) :
    '[' :: body <:+ line := by
  unfold body? at found
  split at found
  · rename_i opened
    simp only [Option.some.injEq] at found
    subst found
    have behind := skipMarker_isSuffix (Text.skipBlanks line)
    rw [opened] at behind
    exact behind.trans (List.dropWhile_suffix _)
  · simp at found

theorem nameAndRest?_isSuffix {line name rest : Text}
    (found : nameAndRest? line = some (name, rest)) :
    rest <:+ line ∧ rest.length < line.length := by
  unfold nameAndRest? at found
  split at found
  · rename_i written behind cut
    obtain ⟨body, isBody, split⟩ := Option.bind_eq_some_iff.mp cut
    split at found
    · simp at found
    · simp only [Option.some.injEq, Prod.mk.injEq] at found
      rcases found with ⟨-, rfl⟩
      have inBody : behind <:+ body :=
        ⟨written ++ [']', ':'], by simp [Text.splitAtLast?_eq_some split]⟩
      have inside := (List.dropWhile_suffix Text.isBlank).trans inBody
      have opened := body?_isSuffix isBody
      exact ⟨(inside.trans (List.suffix_cons _ _)).trans opened,
        Nat.lt_of_le_of_lt inside.length_le opened.length_le⟩
  · simp at found

/-- A long-form link is a header, the target and a line end. -/
theorem read?_eq_some {line : Text} {candidate : Candidate} (read : read? line = some candidate) :
    ∃ header lineEnd, line = header ++ (candidate.target ++ lineEnd) ∧
      candidate.form = .long ∧
      candidate.targetSpan = ⟨header.length, header.length + candidate.target.length⟩ ∧
      LinkTarget.IsTarget candidate.target ∧ header ≠ [] ∧ candidate.target ≠ [] ∧
      isLineEnd lineEnd = true := by
  unfold read? at read
  split at read
  · simp at read
  · rename_i name rest found
    split at read
    · simp at read
    · rename_i target lineEnd isTarget
      split at read
      · rename_i isEnd
        simp only [Option.some.injEq] at read
        subst read
        obtain ⟨⟨header, shape⟩, shorter⟩ := nameAndRest?_isSuffix found
        have filled := LinkTarget.ne_nil_of_read? isTarget
        rcases LinkTarget.read?_eq_some isTarget with ⟨rfl, allowed⟩
        refine ⟨header, lineEnd, shape.symm, rfl, ?_, allowed, ?_, filled, isEnd⟩
        · have start : line.length - (target ++ lineEnd).length = header.length := by
            rw [← shape, List.length_append]
            omega
          simp only [start]
        · rintro rfl
          rw [← shape] at shorter
          exact absurd shorter (Nat.lt_irrefl _)
      · simp at read

end LongForm

end IntraDoc
