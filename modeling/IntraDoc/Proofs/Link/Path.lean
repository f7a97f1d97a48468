import IntraDoc.Link.Path
import IntraDoc.Proofs.Text.Basic
import Mathlib.Data.List.Basic

/-!
# Laws of link paths

Parsing a target keeps its characters in their components, lets `.` and `/` stand only in front, and
undoes the joining of plain names by slashes.
-/

namespace IntraDoc

namespace Component

theorem mem_of_ofSegment {segment name : Text} {char : Char}
    (read : ofSegment segment = .named name) (inside : char ∈ name) : char ∈ segment := by
  unfold ofSegment at read
  split at read
  · simp at read
  · simp only [named.injEq] at read
    rwa [read]

theorem ofSegment_ne_here (segment : Text) : ofSegment segment ≠ .here := by
  unfold ofSegment
  split <;> simp

theorem ofFirst?_eq_some {segment : Text} {component : Component}
    (read : ofFirst? segment = some component) :
    component = .here ∨ component = ofSegment segment := by
  unfold ofFirst? at read
  split at read
  · simp at read
  · split at read
    · simp only [Option.some.injEq] at read
      exact Or.inl read.symm
    · simp only [Option.some.injEq] at read
      exact Or.inr read.symm

theorem ofLater?_eq_some {segment : Text} {component : Component}
    (read : ofLater? segment = some component) : component = ofSegment segment := by
  unfold ofLater? at read
  split at read
  · simp at read
  · simp only [Option.some.injEq] at read
    exact read.symm

@[simp]
theorem text_ofSegment (segment : Text) : (ofSegment segment).text = segment := by
  unfold ofSegment
  split
  · rename_i isUp
    rw [isUp]
    rfl
  · rfl

theorem ofLater?_of_ne {segment : Text} (nonempty : segment ≠ []) (notHere : segment ≠ ['.']) :
    ofLater? segment = some (ofSegment segment) := by
  simp [ofLater?, nonempty, notHere]

theorem ofFirst?_eq_ofLater? {segment : Text} (notHere : segment ≠ ['.']) :
    ofFirst? segment = ofLater? segment := by
  simp [ofFirst?, ofLater?, notHere]

/-- A segment that is a component wherever it stands. -/
structure IsSegment (segment : Text) : Prop where
  nonempty : segment ≠ []
  notHere : segment ≠ ['.']
  slashless : '/' ∉ segment

theorem here_notMem_ofLater? (segments : List Text) :
    .here ∉ segments.filterMap ofLater? := by
  intro found
  rcases List.mem_filterMap.mp found with ⟨segment, -, read⟩
  exact ofSegment_ne_here segment (ofLater?_eq_some read).symm

/-- A segment that is read by its own name, wherever it stands. -/
def IsPlainSegment (segment : Text) : Prop :=
  segment ≠ [] ∧ segment ≠ ['.'] ∧ segment ≠ ['.', '.']

theorem isPlainSegment_cons {char : Char} (different : char ≠ '.') (rest : Text) :
    IsPlainSegment (char :: rest) := by
  simp [IsPlainSegment, different]

theorem ofFirst?_of_isPlainSegment {segment : Text} (plain : IsPlainSegment segment) :
    ofFirst? segment = some (.named segment) := by
  simp [ofFirst?, ofSegment, plain.1, plain.2.1, plain.2.2]

theorem ofLater?_of_isPlainSegment {segment : Text} (plain : IsPlainSegment segment) :
    ofLater? segment = some (.named segment) := by
  simp [ofLater?, ofSegment, plain.1, plain.2.1, plain.2.2]

end Component

namespace LinkPath

/-- A target has at most one component that depends on standing in front. -/
theorem parse_components (target : Text) :
    ∃ (front : List Component) (segments : List Text),
      (parse target).components = front ++ segments.filterMap Component.ofLater? ∧
      (∀ segment ∈ segments, segment ∈ Text.splitOn '/' target) ∧
      (front = [] ∨ front = [.root] ∨ front = [.here] ∨
        ∃ segment ∈ Text.splitOn '/' target, front = [Component.ofSegment segment]) := by
  rcases cut : Text.splitOn '/' target with _ | ⟨first, others⟩
  · exact absurd cut (Text.splitOn_ne_nil target)
  · refine ⟨(if isRooted target then [Component.root] else []) ++
      (Component.ofFirst? first).toList, others, by simp [parse, cut],
      fun segment isSegment => List.mem_cons_of_mem _ isSegment, ?_⟩
    by_cases rooted : isRooted target = true
    · have firstEmpty : first = [] := by
        unfold isRooted at rooted
        split at rooted
        · simp only [Text.splitOn, if_true, List.cons.injEq] at cut
          exact cut.1.symm
        · simp at rooted
      simp [rooted, firstEmpty, Component.ofFirst?]
    · cases read : Component.ofFirst? first with
      | none => simp [rooted]
      | some component =>
          rcases Component.ofFirst?_eq_some read with rfl | rfl
          · simp [rooted]
          · simp [rooted]

/-- The names of a path are made of characters of the target. -/
theorem mem_of_named_mem_parse {target name : Text} {char : Char}
    (component : .named name ∈ (parse target).components) (inside : char ∈ name) :
    char ∈ target ∧ char ≠ '/' := by
  rcases parse_components target with ⟨front, segments, components, areSegments, frontShape⟩
  rw [components, List.mem_append, List.mem_filterMap] at component
  rcases component with inFront | ⟨segment, isSegment, read⟩
  · rcases frontShape with rfl | rfl | rfl | ⟨segment, isSegment, rfl⟩
    · simp at inFront
    · simp at inFront
    · simp at inFront
    · simp only [List.mem_singleton] at inFront
      exact Text.mem_of_mem_splitOn isSegment (Component.mem_of_ofSegment inFront.symm inside)
  · have named := Component.ofLater?_eq_some read
    exact Text.mem_of_mem_splitOn (areSegments segment isSegment)
      (Component.mem_of_ofSegment named.symm inside)

/-- No name of the path holds a line feed. -/
def IsSingleLine (path : LinkPath) : Prop :=
  ∀ name, .named name ∈ path.components → '\n' ∉ name

theorem isSingleLine_parse {target : Text} (singleLine : '\n' ∉ target) :
    (parse target).IsSingleLine := by
  intro name component inside
  exact singleLine (mem_of_named_mem_parse component inside).1

/-- Every character of a target is in a name of its path, or is a slash or a dot. -/
theorem mem_target {target : Text} {char : Char} (inside : char ∈ target) :
    char = '/' ∨ char = '.' ∨ ∃ name, .named name ∈ (parse target).components ∧ char ∈ name := by
  rw [← Text.joinWith_splitOn target] at inside
  rcases Text.mem_joinWith inside with isSlash | ⟨segment, isSegment, inSegment⟩
  · exact Or.inl (by simpa using isSlash)
  · right
    by_cases plain : Component.IsPlainSegment segment
    · right
      refine ⟨segment, ?_, inSegment⟩
      rcases cut : Text.splitOn '/' target with _ | ⟨first, others⟩
      · exact absurd cut (Text.splitOn_ne_nil target)
      · rw [cut] at isSegment
        rcases List.mem_cons.mp isSegment with rfl | isLater
        · simp [parse, cut, Component.ofFirst?_of_isPlainSegment plain]
        · have read : .named segment ∈ others.filterMap Component.ofLater? :=
            List.mem_filterMap.mpr ⟨segment, isLater, Component.ofLater?_of_isPlainSegment plain⟩
          simp [parse, cut, read]
    · left
      have isDots : segment = ['.'] ∨ segment = ['.', '.'] := by
        by_contra noDots
        rw [not_or] at noDots
        exact plain ⟨List.ne_nil_of_mem inSegment, noDots⟩
      rcases isDots with rfl | rfl <;> simpa using inSegment

/-- The marker `.` of the current directory stands in front or nowhere. -/
theorem before_here_eq_nil {target : Text} {before after : List Component}
    (components : (parse target).components = before ++ .here :: after) : before = [] := by
  rcases parse_components target with ⟨front, segments, shape, -, frontShape⟩
  have short : front.length ≤ 1 := by
    rcases frontShape with rfl | rfl | rfl | ⟨segment, -, rfl⟩ <;> simp
  rw [shape] at components
  rcases List.append_eq_append_iff.mp components with ⟨extra, -, rest⟩ | ⟨extra, split, rest⟩
  · exact absurd (by simp [rest]) (Component.here_notMem_ofLater? segments)
  · cases extra with
    | nil =>
        rw [List.nil_append] at rest
        exact absurd (by simp [← rest]) (Component.here_notMem_ofLater? segments)
    | cons first extra =>
        rw [split] at short
        simp only [List.length_append, List.length_cons] at short
        exact List.eq_nil_of_length_eq_zero (by omega)

theorem isRooted_iff {text : Text} : isRooted text = true ↔ text.head? = some '/' := by
  unfold isRooted
  split
  · simp
  · rename_i notRooted
    constructor
    · simp
    · intro first
      obtain ⟨rest, shape⟩ := List.head?_eq_some_iff.mp first
      exact absurd shape (notRooted rest)

theorem isRooted_append {segment : Text} (slashless : '/' ∉ segment) (nonempty : segment ≠ [])
    (rest : Text) : isRooted (segment ++ rest) = false := by
  cases segment with
  | nil => exact absurd rfl nonempty
  | cons char others =>
      have different : char ≠ '/' := by
        rintro rfl
        exact slashless List.mem_cons_self
      simp [isRooted, different]

/-- Names joined by slashes are the components of the path that they spell. -/
theorem parse_joinWith {names : List Text} (nonempty : names ≠ [])
    (plain : ∀ name ∈ names, Component.IsPlainSegment name)
    (slashless : ∀ name ∈ names, '/' ∉ name) :
    parse (Text.joinWith ['/'] names) = ⟨names.map .named⟩ := by
  rcases names with _ | ⟨first, others⟩
  · exact absurd rfl nonempty
  · have cut := Text.splitOn_joinWith nonempty slashless
    have notRooted : isRooted (Text.joinWith ['/'] (first :: others)) = false := by
      rcases Text.exists_joinWith_cons first others with ⟨rest, shape⟩
      rw [shape]
      exact isRooted_append (slashless first (by simp)) (plain first (by simp)).1 rest
    have later : others.filterMap Component.ofLater? = others.map .named := by
      rw [List.filterMap_eq_map_iff_forall_eq_some]
      intro name isName
      exact Component.ofLater?_of_isPlainSegment (plain name (List.mem_cons_of_mem _ isName))
    simp [parse, cut, notRooted, later,
      Component.ofFirst?_of_isPlainSegment (plain first (by simp))]

section Later

/-- The components of a text that stands behind a slash. -/
def laterComponents (text : Text) : List Component :=
  (Text.splitOn '/' text).filterMap Component.ofLater?

variable {segment rest : Text}

theorem laterComponents_append (slashless : '/' ∉ segment) (rest : Text) :
    laterComponents (segment ++ '/' :: rest) =
      (Component.ofLater? segment).toList ++ laterComponents rest := by
  rw [laterComponents, Text.splitOn_append slashless, List.filterMap_cons]
  cases Component.ofLater? segment <;> rfl

theorem laterComponents_segment (isSegment : Component.IsSegment segment) (rest : Text) :
    laterComponents (segment ++ '/' :: rest) =
      Component.ofSegment segment :: laterComponents rest := by
  rw [laterComponents_append isSegment.slashless,
    Component.ofLater?_of_ne isSegment.nonempty isSegment.notHere]
  rfl

theorem parse_append (slashless : '/' ∉ segment) (nonempty : segment ≠ []) (rest : Text) :
    (parse (segment ++ '/' :: rest)).components =
      (Component.ofFirst? segment).toList ++ laterComponents rest := by
  have notRooted := isRooted_append slashless nonempty ('/' :: rest)
  simp [parse, Text.splitOn_append slashless, notRooted, laterComponents]

/-- Without a marker in front it makes no difference where a text stands. -/
theorem parse_eq_laterComponents {text : Text} (notRooted : isRooted text = false)
    (notHere : (Text.splitOn '/' text).head? ≠ some ['.']) :
    parse text = ⟨laterComponents text⟩ := by
  rcases cut : Text.splitOn '/' text with _ | ⟨first, others⟩
  · exact absurd cut (Text.splitOn_ne_nil text)
  · have firstNotHere : first ≠ ['.'] := by simpa [cut] using notHere
    simp only [parse, notRooted, cut, laterComponents, Component.ofFirst?_eq_ofLater? firstNotHere,
      List.filterMap_cons]
    cases Component.ofLater? first <;> rfl

end Later

end LinkPath

end IntraDoc
