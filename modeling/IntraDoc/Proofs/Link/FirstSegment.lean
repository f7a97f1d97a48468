import IntraDoc.Proofs.Link.Rendering

/-!
# How renderings begin

The first segment of a rendering decides what the rest is relative to: the own crate, another crate
or module, the module above, the current type. It is found here from the target: the components
before the page have the first word, and if there are none, the page speaks for itself.
-/

namespace IntraDoc

namespace Rendering

/-- The characters that end a segment of a path. -/
def segmentEnds : List Char :=
  [':', '#', '(', '!']

/-- The first segment of a path. -/
def firstSegment (path : Text) : Text :=
  path.takeWhile (· ∉ segmentEnds)

theorem firstSegment_append {rest : Text} (path : Text)
    (stop : ∀ char ∈ rest.head?, char ∈ segmentEnds) :
    firstSegment (path ++ rest) = firstSegment path := by
  induction path with
  | nil =>
      cases rest with
      | nil => rfl
      | cons char others => simp [firstSegment, stop char (by simp)]
  | cons char others ih =>
      simp only [firstSegment, List.cons_append, List.takeWhile_cons] at ih ⊢
      rw [ih]

theorem firstSegment_joinWith (segments : List Text) :
    firstSegment (Text.joinWith "::".toList segments) = firstSegment (segments.head?.getD []) := by
  rcases segments with _ | ⟨first, _ | ⟨next, others⟩⟩
  · rfl
  · rfl
  · rw [Text.joinWith_cons (by simp), List.append_assoc]
    exact firstSegment_append first (by simp [segmentEnds])

/-- An identifier is one segment, also with a line feed behind it. -/
theorem firstSegment_of_isIdentifier {name : Text} (valid : isIdentifier name = true) :
    firstSegment name = name := by
  have outside : ∀ char ∈ segmentEnds, Text.isAsciiWord char = false ∧ char ≠ '\n' := by
    intro char isEnd
    simp only [segmentEnds, List.mem_cons, List.not_mem_nil, or_false] at isEnd
    rcases isEnd with rfl | rfl | rfl | rfl <;> decide
  unfold firstSegment
  rw [List.takeWhile_eq_self_iff]
  intro char inside
  rw [decide_eq_true_eq]
  intro isEnd
  exact notMem_of_isIdentifier valid (outside char isEnd).1 (outside char isEnd).2 inside

end Rendering

theorem ne_nil_of_isIdentifier {name : Text} (valid : isIdentifier name = true) : name ≠ [] := by
  rintro rfl
  simp [isIdentifier, Text.chomp, Identifier.isPlain] at valid

namespace DocLink

section Segments

variable {link : DocLink} {currentType : Option Text}

theorem head?_trailingToken (known : link.disambiguator ∈ Disambiguator.known) :
    ∀ char ∈ link.trailingToken.head?, char ∈ Rendering.segmentEnds := by
  unfold trailingToken
  split
  · rename_i trailing
    rcases Disambiguator.token_of_trailing known trailing with spelled | spelled <;>
      simp [spelled, Rendering.segmentEnds]
  · simp

/-- A rendering begins with the first of the segments that it is made of. -/
theorem firstSegment_renderPath (known : link.disambiguator ∈ Disambiguator.known)
    (filled : ∀ segment ∈ link.startSegments currentType ++ link.modules, segment ≠ []) :
    Rendering.firstSegment (link.renderPath currentType) =
      Rendering.firstSegment ((link.segments currentType).head?.getD []) := by
  have anchorStop : ∀ char ∈ (Page.anchorText link.finish.anchorName).head?,
      char ∈ Rendering.segmentEnds := by
    cases link.finish.anchorName <;> simp [Page.anchorText, Rendering.segmentEnds]
  rw [renderPath_eq_of_filled filled, Rendering.firstSegment_append _ anchorStop,
    Rendering.firstSegment_append _ (head?_trailingToken known), Rendering.firstSegment_joinWith]

/-- Only a link from the current page looks at the current type. -/
theorem render_eq_of_start_ne_here (notHere : link.start ≠ .here) (disambiguate : Bool) :
    link.render currentType disambiguate = link.render none disambiguate := by
  have sameStart : link.renderStart currentType = link.renderStart none := by
    unfold renderStart
    cases found : link.start with
    | here => exact absurd found notHere
    | _ => rfl
  simp only [render, renderPath, renderLead, sameStart]

theorem head?_leadingToken (known : link.disambiguator ∈ Disambiguator.known) :
    link.leadingToken.head? ≠ some '#' := by
  have tokens : ∀ token ∈ Disambiguator.leadingTokens, token.head? ≠ some '#' := by decide
  unfold leadingToken
  split
  · rename_i leading
    exact tokens _ (Disambiguator.token_of_leading known leading)
  · simp

theorem render_ne_hash (known : link.disambiguator ∈ Disambiguator.known)
    (nonempty : Rendering.firstSegment (link.renderPath currentType) ≠ []) (disambiguate : Bool)
    (rest : Text) : link.render currentType disambiguate ≠ '#' :: rest := by
  have pathNotHash : ∀ others, link.renderPath currentType ≠ '#' :: others := by
    intro others isHash
    apply nonempty
    simp [isHash, Rendering.firstSegment, Rendering.segmentEnds]
  intro isHash
  cases disambiguate with
  | false => exact pathNotHash rest isHash
  | true =>
      have token : link.leadingToken ++ link.renderPath currentType = '#' :: rest := isHash
      have notHash := head?_leadingToken known
      cases spelled : link.leadingToken with
      | nil =>
          rw [spelled] at token
          exact pathNotHash rest token
      | cons char others =>
          rw [spelled, List.cons_append, List.cons.injEq] at token
          rw [spelled, token.1] at notHash
          exact notHash rfl

end Segments

section Leads

variable {crateName : Text} {lead : List Component} {start : Start} {modules : List Text}

/-- The first segment that the components before a page contribute. -/
def leadSegment? (crateName : Text) (lead : List Component) : Option Text :=
  if (lead.dropWhile (· = .up)).head? = some (.named crateName) then some "crate".toList
  else
    match lead.head? with
    | some .up => some "super".toList
    | some (.named name) => some name
    | _ => none

theorem Lead.start_ne_here (reached : Lead crateName lead start modules) (noHere : .here ∉ lead) :
    start ≠ .here := by
  cases reached with
  | here count valid => simp at noHere
  | _ => simp

theorem Lead.isIdentifier_segments (reached : Lead crateName lead start modules) :
    ∀ name ∈ start.segments ++ modules, isIdentifier name = true := by
  intro name isSegment
  rcases List.mem_append.mp isSegment with inStart | inModules
  · cases reached with
    | empty => simp [Start.segments] at inStart
    | here count valid => simp [Start.segments] at inStart
    | crate count valid =>
        rw [List.mem_singleton.mp inStart]
        decide
    | sibling foreign nameValid valid =>
        rw [List.mem_singleton.mp inStart]
        exact nameValid
    | supers count foreign valid =>
        rw [List.eq_of_mem_replicate inStart]
        decide
  · cases reached with
    | empty => simp at inModules
    | here count valid => exact valid name inModules
    | crate count valid => exact valid name inModules
    | sibling foreign nameValid valid => exact valid name inModules
    | supers count foreign valid => exact valid name inModules

/-- A path goes through the segments of what leads to its finish. -/
theorem Lead.renderPath_eq (reached : Lead crateName lead start modules) {finish : Finish}
    (notAssociated : finish.isAssociated = false) (currentType : Option Text) :
    renderPath ⟨start, modules, finish⟩ currentType =
      Text.joinWith "::".toList (start.segments ++ modules ++ finish.names) ++
        trailingToken ⟨start, modules, finish⟩ ++ Page.anchorText finish.anchorName := by
  have startSegments : startSegments ⟨start, modules, finish⟩ currentType = start.segments := by
    simp [DocLink.startSegments, notAssociated]
  have filled : ∀ segment ∈ DocLink.startSegments ⟨start, modules, finish⟩ currentType ++ modules,
      segment ≠ [] := by
    rw [startSegments]
    exact fun segment isSegment => ne_nil_of_isIdentifier (reached.isIdentifier_segments segment
      isSegment)
  rw [renderPath_eq_of_filled filled, segments, startSegments]

theorem Lead.render_mod (reached : Lead crateName lead start modules) (name : Text)
    (currentType : Option Text) (disambiguate : Bool) :
    render ⟨start, modules, .mod name none⟩ currentType disambiguate =
      (if disambiguate then "mod@".toList else []) ++
        Text.joinWith "::".toList (start.segments ++ modules ++ [name]) := by
  have noToken : trailingToken ⟨start, modules, .mod name none⟩ = [] := rfl
  rw [render, reached.renderPath_eq rfl, noToken, List.append_nil]
  simp only [Finish.names, Finish.anchorName, Page.anchorText, List.append_nil]
  rfl

/-- Unless the page stands alone, the components before it decide how the rendering begins. -/
theorem Lead.head?_segments (reached : Lead crateName lead start modules)
    (noHere : .here ∉ lead) :
    (start.segments ++ modules).head? = leadSegment? crateName lead := by
  cases reached with
  | empty => rfl
  | here count valid => simp at noHere
  | crate count valid => simp [leadSegment?, Start.segments]
  | sibling foreign nameValid valid => simp [leadSegment?, Start.segments, foreign]
  | supers count foreign valid =>
      have behind : (List.replicate (count + 1) Component.up ++
          modules.map Component.named).dropWhile (· = .up) = modules.map .named := by
        cases modules <;> simp
      have notCrate : (modules.map Component.named).head? ≠ some (.named crateName) := by
        intro isCrate
        apply foreign crateName _ rfl
        simpa using isCrate
      unfold leadSegment?
      rw [behind, if_neg notCrate]
      simp [Start.segments, List.replicate_succ]

/-- One more component in front of the page counts only if it is the first, or the own crate. -/
theorem leadSegment?_concat {last : Component} (notCrate : last ≠ .named crateName) :
    leadSegment? crateName (lead ++ [last]) =
      if lead = [] then leadSegment? crateName [last] else leadSegment? crateName lead := by
  have reaches : ((lead ++ [last]).dropWhile (· = .up)).head? = some (.named crateName) ↔
      (lead.dropWhile (· = .up)).head? = some (.named crateName) := by
    induction lead with
    | nil =>
        by_cases isUp : last = .up
        · simp [isUp]
        · simp [isUp, notCrate]
    | cons first others ih =>
        by_cases isUp : first = .up
        · simpa [isUp] using ih
        · simp [isUp]
  cases lead with
  | nil => simp
  | cons first others =>
      simp only [leadSegment?, reaches]
      rfl

theorem Lead.exists_leadSegment? (reached : Lead crateName lead start modules)
    (noHere : .here ∉ lead) (nonempty : lead ≠ []) :
    ∃ segment, leadSegment? crateName lead = some segment := by
  rw [← reached.head?_segments noHere]
  cases reached with
  | empty => exact absurd rfl nonempty
  | here count valid => simp at noHere
  | _ => simp [Start.segments, List.replicate_succ]

end Leads

section Pages

variable {crateName : Text} {lead : List Component} {page : Page} {link : DocLink}
  {currentType : Option Text}

/-- The segment that a page contributes when nothing leads to it. -/
def pageSegment (currentType : Option Text) : Page → Text
  | .anchor name => if (Page.associated? ('#' :: name)).isSome then ownerName currentType else []
  | .item _ name _ => name
  | .index _ => "self".toList
  | .bare name _ => name

theorem startSegments_of_start_ne_here (notHere : link.start ≠ .here) :
    link.startSegments currentType = link.start.segments := by
  simp [startSegments, notHere]

theorem Lead.firstName_segments {start : Start} {modules : List Text}
    (reached : Lead crateName lead start modules) (noHere : .here ∉ lead) (finish : Finish) :
    (segments ⟨start, modules, finish⟩ currentType).head?.getD [] =
      (leadSegment? crateName lead).getD (finish.names.head?.getD []) := by
  have notHere : (⟨start, modules, finish⟩ : DocLink).start ≠ .here := reached.start_ne_here noHere
  unfold segments
  rw [startSegments_of_start_ne_here notHere, List.head?_append, reached.head?_segments noHere]
  cases leadSegment? crateName lead <;> rfl

/-- The directory of an index page stands for itself if it is the first component. -/
theorem Lead.firstName_segments_concat {start : Start} {modules : List Text} {finish : Finish}
    {last : Component} {name : Text} (reached : Lead crateName lead start modules)
    (noHere : .here ∉ lead) (notCrate : last ≠ .named crateName)
    (lastName : leadSegment? crateName [last] = some name)
    (finishName : finish.names.head? = some name) (other : Text) :
    (segments ⟨start, modules, finish⟩ currentType).head?.getD [] =
      (leadSegment? crateName (lead ++ [last])).getD other := by
  rw [reached.firstName_segments noHere, leadSegment?_concat notCrate, finishName]
  by_cases alone : lead = []
  · rw [if_pos alone, lastName, alone]
    rfl
  · obtain ⟨segment, found⟩ := reached.exists_leadSegment? noHere alone
    rw [if_neg alone, found, Option.getD_some, Option.getD_some]

theorem Reads.known (reads : Reads crateName lead page link) (wellFormed : page.WellFormed) :
    link.disambiguator ∈ Disambiguator.known := by
  have none_mem : Disambiguator.none ∈ Disambiguator.known := by simp [Disambiguator.known]
  cases reads with
  | member near known plain => exact Disambiguator.ofKind_mem_known _
  | item reached => exact (Finish.wellNamed_item wellFormed).known
  | anchor noMember => exact none_mem
  | anchorBelow nonempty noMember reached => exact none_mem
  | indexAnchorBelow nonempty reached => exact none_mem
  | _ => exact Disambiguator.mod_mem_known

theorem Reads.filled (reads : Reads crateName lead page link) :
    ∀ segment ∈ link.startSegments currentType ++ link.modules, segment ≠ [] := by
  have ofLead : ∀ {components : List Component} {start : Start} {modules : List Text}
      {finish : Finish}, Lead crateName components start modules → finish.isAssociated = false →
      ∀ segment ∈ startSegments ⟨start, modules, finish⟩ currentType ++ modules, segment ≠ [] := by
    intro components start modules finish reached notAssociated segment isSegment
    apply ne_nil_of_isIdentifier (reached.isIdentifier_segments segment _)
    simpa [startSegments, notAssociated] using isSegment
  cases reads with
  | member near known plain =>
      intro segment isSegment
      simp only [startSegments, Finish.isAssociated, and_self, if_true, List.append_nil,
        List.mem_singleton] at isSegment
      rw [isSegment]
      exact ownerName_ne_nil currentType
  | anchor noMember => simp [startSegments, Finish.isAssociated, Start.segments]
  | index => simp [startSegments, Start.segments]
  | indexCrate reached => simp [startSegments, Start.segments]
  | indexAnchor => simp [startSegments, Start.segments]
  | anchorBelow nonempty noMember reached => exact ofLead reached rfl
  | item reached => exact ofLead reached rfl
  | bare reached => exact ofLead reached rfl
  | indexHere reached => exact ofLead reached rfl
  | indexUp reached => exact ofLead reached rfl
  | indexNamed foreign valid reached => exact ofLead reached rfl
  | indexAnchorBelow nonempty reached => exact ofLead reached rfl

theorem head?_names_item (kind : Text) (disambiguator : Disambiguator) (name : Text)
    (added : Option Fragment) :
    (Finish.item kind disambiguator name added).names.head? = some name := by
  rcases added with _ | (anchor | ⟨memberDisambiguator, member⟩) <;> rfl

/--
How a rendering begins: with the own crate if the target leads there, with a step up or a directory
if the target begins with one, and otherwise with what the page says by itself.
-/
theorem Reads.firstName_segments (reads : Reads crateName lead page link)
    (noHere : .here ∉ lead) :
    (link.segments currentType).head?.getD [] =
      if page = .index none ∧ lead.getLast? = some (.named crateName) then "crate".toList
      else (leadSegment? crateName lead).getD (pageSegment currentType page) := by
  cases reads with
  | member near known plain =>
      have alone : lead = [] := by
        rcases near with rfl | rfl
        · rfl
        · simp at noHere
      have isMember := Page.associated?_eq_some_iff.mpr ⟨rfl, known, plain⟩
      simp [alone, leadSegment?, pageSegment, isMember, segments, startSegments,
        Finish.isAssociated]
  | anchor noMember =>
      simp [leadSegment?, pageSegment, noMember, segments, startSegments, Finish.isAssociated,
        Start.segments, Finish.names]
  | anchorBelow nonempty noMember reached =>
      obtain ⟨segment, found⟩ := reached.exists_leadSegment? noHere nonempty
      simp [reached.firstName_segments noHere, found]
  | item reached =>
      simp [reached.firstName_segments noHere, head?_names_item, pageSegment]
  | bare reached => simp [reached.firstName_segments noHere, Finish.names, pageSegment]
  | index => rfl
  | indexHere reached => simp at noHere
  | @indexUp before _ _ reached =>
      have noHereBefore : .here ∉ before := fun inLead => noHere (List.mem_append_left _ inLead)
      have lastName : leadSegment? crateName [.up] = some "super".toList := rfl
      rw [reached.firstName_segments_concat noHereBefore (by simp) lastName rfl "self".toList]
      simp [pageSegment]
  | indexCrate reached => simp [segments, startSegments, Start.segments, Finish.names]
  | @indexNamed before name _ _ foreign valid reached =>
      have noHereBefore : .here ∉ before := fun inLead => noHere (List.mem_append_left _ inLead)
      have lastName : leadSegment? crateName [.named name] = some name := by
        simp [leadSegment?, foreign]
      rw [reached.firstName_segments_concat noHereBefore (by simpa using foreign) lastName rfl
        "self".toList]
      simp [foreign, pageSegment]
  | indexAnchor => rfl
  | indexAnchorBelow nonempty reached =>
      obtain ⟨segment, found⟩ := reached.exists_leadSegment? noHere nonempty
      simp [reached.firstName_segments noHere, found]

theorem Reads.start_ne_here (reads : Reads crateName lead page link) (noHere : .here ∉ lead)
    (notAlone : lead ≠ [] ∨ ∀ name, page ≠ .anchor name) : link.start ≠ .here := by
  cases reads with
  | @member _ kind name near known plain =>
      rcases notAlone with nonempty | noAnchor
      · rcases near with rfl | rfl
        · exact absurd rfl nonempty
        · simp at noHere
      · exact absurd rfl (noAnchor _)
  | @anchor name noMember =>
      rcases notAlone with nonempty | noAnchor
      · exact absurd rfl nonempty
      · exact absurd rfl (noAnchor name)
  | indexHere reached => simp at noHere
  | index => simp
  | indexCrate reached => simp
  | indexAnchor => simp
  | anchorBelow nonempty noMember reached => exact reached.start_ne_here noHere
  | item reached => exact reached.start_ne_here noHere
  | bare reached => exact reached.start_ne_here noHere
  | indexUp reached =>
      exact reached.start_ne_here fun inLead => noHere (List.mem_append_left _ inLead)
  | indexNamed foreign valid reached =>
      exact reached.start_ne_here fun inLead => noHere (List.mem_append_left _ inLead)
  | indexAnchorBelow nonempty reached => exact reached.start_ne_here noHere

theorem Reads.firstSegment_renderPath (reads : Reads crateName lead page link)
    (wellFormed : page.WellFormed) (noHere : .here ∉ lead) (currentType : Option Text) :
    Rendering.firstSegment (link.renderPath currentType) =
      Rendering.firstSegment
        (if page = .index none ∧ lead.getLast? = some (.named crateName) then "crate".toList
        else (leadSegment? crateName lead).getD (pageSegment currentType page)) := by
  rw [DocLink.firstSegment_renderPath (reads.known wellFormed) reads.filled,
    reads.firstName_segments noHere]

end Pages

end DocLink

end IntraDoc
