import IntraDoc.Proofs.Link.FirstSegment

/-!
# Steps back within a path

Steps to the parent lead away from the current module only at the beginning of a path. Every reader
leaves what stands before its page to one resolver, which knows no step behind a named component;
the index page alone takes a last step to the parent for itself before the resolver sees it. So a
path that steps back from a named directory is refused unless this step is its last and an index
page follows.
-/

namespace IntraDoc

namespace LinkPath

/-- A step to the parent stands behind a component that is no such step and not the leading `.`. -/
def StepsBack (components : List Component) : Prop :=
  ∃ before behind, components = before ++ .up :: behind ∧
    ∃ component ∈ before, component ≠ .up ∧ component ≠ .here

section Shapes

variable {components : List Component} {last : Component}

theorem StepsBack.exists_component (stepsBack : StepsBack components) :
    ∃ component ∈ components, component ≠ .up ∧ component ≠ .here := by
  rcases stepsBack with ⟨before, behind, rfl, component, inside, named⟩
  exact ⟨component, List.mem_append_left _ inside, named⟩

/-- A last component that is no step to the parent has no part in stepping back. -/
theorem StepsBack.of_concat (stepsBack : StepsBack (components ++ [last])) (notUp : last ≠ .up) :
    StepsBack components := by
  rcases stepsBack with ⟨before, behind, shape, named⟩
  rcases List.eq_nil_or_concat' behind with rfl | ⟨others, final, rfl⟩
  · exact absurd (List.append_inj' shape rfl).2 (by simpa using notUp)
  · refine ⟨before, others, ?_, named⟩
    rw [← List.cons_append, ← List.append_assoc] at shape
    exact (List.append_inj' shape rfl).1

/-- Steps to the parent in front are no steps back. -/
theorem not_stepsBack_replicate_append (count : Nat) (noUp : .up ∉ components) :
    ¬StepsBack (List.replicate count .up ++ components) := by
  rintro ⟨before, behind, shape, component, inside, notUp, -⟩
  rcases List.append_eq_append_iff.mp shape with ⟨between, -, rest⟩ | ⟨between, ups, -⟩
  · exact noUp (by simp [rest])
  · refine notUp (List.eq_of_mem_replicate (n := count) ?_)
    rw [ups]
    exact List.mem_append_left _ inside

end Shapes

end LinkPath

namespace DocLink

open LinkPath (StepsBack)

section Leads

variable {crateName : Text} {lead : List Component} {start : Start} {modules : List Text}

theorem Lead.not_stepsBack (reached : Lead crateName lead start modules) : ¬StepsBack lead := by
  cases reached with
  | empty => simp [StepsBack]
  | here count valid => exact LinkPath.not_stepsBack_replicate_append count (by simp)
  | crate count valid => exact LinkPath.not_stepsBack_replicate_append count (by simp)
  | sibling foreign nameValid valid =>
      exact LinkPath.not_stepsBack_replicate_append 0 (by simp)
  | supers count foreign valid =>
      exact LinkPath.not_stepsBack_replicate_append (count + 1) (by simp)

/-- What is stepped back from has been named on the way. -/
theorem Lead.segments_ne_nil (reached : Lead crateName lead start modules)
    (stepsBack : StepsBack (lead ++ [.up])) : start.segments ++ modules ≠ [] := by
  rcases stepsBack.exists_component with ⟨component, inside, notUp, notHere⟩
  cases reached with
  | empty => simp [notUp] at inside
  | here count valid =>
      simp only [List.mem_append, List.mem_cons, List.mem_replicate] at inside
      cases modules with
      | nil => simp [notUp, notHere] at inside
      | cons name others => simp
  | crate count valid => simp [Start.segments]
  | sibling foreign nameValid valid => simp [Start.segments]
  | supers count foreign valid => simp [Start.segments]

/-- A page behind a step back is read only if the step is the last one before an index page. -/
theorem Reads.of_stepsBack {page : Page} {link : DocLink}
    (reads : Reads crateName lead page link) (stepsBack : StepsBack lead) :
    page = .index none ∧ ∃ before start modules, lead = before ++ [.up] ∧
      Lead crateName before start modules ∧ link = ⟨start, modules, .mod "super".toList none⟩ := by
  cases reads with
  | member near known plain =>
      rcases stepsBack.exists_component with ⟨component, inside, -, notHere⟩
      rcases near with rfl | rfl <;> simp [notHere] at inside
  | anchor noMember => simp [StepsBack] at stepsBack
  | index => simp [StepsBack] at stepsBack
  | indexAnchor => simp [StepsBack] at stepsBack
  | anchorBelow nonempty noMember reached => exact absurd stepsBack reached.not_stepsBack
  | item reached => exact absurd stepsBack reached.not_stepsBack
  | bare reached => exact absurd stepsBack reached.not_stepsBack
  | indexAnchorBelow nonempty reached => exact absurd stepsBack reached.not_stepsBack
  | indexHere reached => exact absurd (stepsBack.of_concat (by simp)) reached.not_stepsBack
  | indexCrate reached => exact absurd (stepsBack.of_concat (by simp)) reached.not_stepsBack
  | indexNamed foreign valid reached =>
      exact absurd (stepsBack.of_concat (by simp)) reached.not_stepsBack
  | indexUp reached => exact ⟨rfl, _, _, _, rfl, reached, rfl⟩

end Leads

/--
A path that steps back from a named directory, or from any other component than a step to the parent
and the leading `.`, is read in one shape only: the step is the last component before an index page.
It then stands for the parent of what leads to the step, and its rendering has `super` behind the
segments of that.
-/
theorem ofRelative?_of_stepsBack_iff {target crateName : Text} {link : DocLink}
    (stepsBack : StepsBack (LinkPath.parse target).components) :
    (ofRelative? (LinkPath.parse target) crateName = some link ↔
      ∃ lead last start modules,
        (LinkPath.parse target).components = lead ++ [.up, .named last] ∧
        Text.chomp last = "index.html".toList ∧ Lead crateName lead start modules ∧
        link = ⟨start, modules, .mod "super".toList none⟩) ∧
    (ofRelative? (LinkPath.parse target) crateName = some link →
      link.start.segments ++ link.modules ≠ [] ∧ ∀ currentType, link.render currentType false =
        Text.joinWith "::".toList (link.start.segments ++ link.modules ++ ["super".toList])) := by
  have isRead : ofRelative? (LinkPath.parse target) crateName = some link →
      ∃ lead last start modules,
        (LinkPath.parse target).components = lead ++ [.up, .named last] ∧
        Text.chomp last = "index.html".toList ∧ Lead crateName lead start modules ∧
        link = ⟨start, modules, .mod "super".toList none⟩ := by
    intro read
    rcases exists_reads_chomp read with ⟨lead, last, page, -, path, spelled, reads⟩
    rw [path] at stepsBack
    obtain ⟨rfl, before, start, modules, rfl, reached, same⟩ :=
      reads.of_stepsBack (stepsBack.of_concat (by simp))
    exact ⟨before, last, start, modules, by rw [path]; simp, spelled, reached, same⟩
  refine ⟨⟨isRead, ?_⟩, ?_⟩
  · rintro ⟨lead, last, start, modules, components, spelled, reached, rfl⟩
    have wellFormed : (Page.index none).WellFormed := by simp [Page.WellFormed, Page.anchorName]
    have path : LinkPath.parse target = ⟨(lead ++ [.up]) ++ [.named last]⟩ := by
      rw [LinkPath.mk.injEq, components]
      simp
    have sameName : Text.chomp last = Text.chomp (Page.index none).text := by
      rw [spelled]
      rfl
    rw [path, ofRelative?_of_chomp_eq _ sameName]
    exact ofRelative?_of_reads wellFormed (.indexUp reached)
  · intro read
    obtain ⟨lead, last, start, modules, components, -, reached, rfl⟩ := isRead read
    refine ⟨?_, fun currentType => reached.render_mod _ currentType false⟩
    rw [components] at stepsBack
    apply reached.segments_ne_nil
    have shape : lead ++ [.up, .named last] = (lead ++ [.up]) ++ [.named last] := by simp
    rw [shape] at stepsBack
    exact stepsBack.of_concat (by simp)

/-- The page of an item behind a step back is refused. -/
theorem ofRelative?_of_stepsBack_item :
    let path := LinkPath.parse "foo/../struct.A.html".toList
    StepsBack path.components ∧ ofRelative? path "krate".toList = none := by
  intro path
  have stepsBack : StepsBack path.components :=
    ⟨[.named "foo".toList], [.named "struct.A.html".toList], by decide +kernel, by decide⟩
  refine ⟨stepsBack, ?_⟩
  rw [Option.eq_none_iff_forall_ne_some]
  intro link read
  obtain ⟨lead, last, start, modules, components, isIndex, -⟩ :=
    (ofRelative?_of_stepsBack_iff stepsBack).1.mp read
  have final : path.components.getLast? = some (.named "struct.A.html".toList) := by
    decide +kernel
  have shape : lead ++ [.up, .named last] = (lead ++ [.up]) ++ [.named last] := by simp
  rw [components, shape, List.getLast?_concat, Option.some.injEq, Component.named.injEq] at final
  rw [final] at isIndex
  exact absurd isIndex (by decide +kernel)

/-- The index page behind a step back is read, and its rendering goes down and up again. -/
theorem ofRelative?_stepsBack_index :
    let path := LinkPath.parse "foo/../index.html".toList
    StepsBack path.components ∧ ∃ link, ofRelative? path "krate".toList = some link ∧
      link.render none false = "foo::super".toList := by
  intro path
  exact ⟨⟨[.named "foo".toList], [.named "index.html".toList], by decide +kernel, by decide⟩,
    ⟨.sibling "foo".toList, [], .mod "super".toList none⟩, by decide +kernel, by decide +kernel⟩

end DocLink

end IntraDoc
