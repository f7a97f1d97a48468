import IntraDoc.Proofs.Link.Rereading

/-!
# Targets that are renderings

Every target that is read, on a documentation host or relative, is a well-named link. A few targets
are read and rendered as they are: the anchors of sections and, without leading tokens, the names of
modules. These are all, and every other rendering either is refused when it is read again or
changes.
-/

namespace IntraDoc

theorem Text.notMem_exchange {text : Text} {char old new : Char} (free : char ∉ text)
    (different : char ≠ new) : char ∉ exchange old new text := by
  intro inside
  rcases List.mem_map.mp inside with ⟨origin, inText, shape⟩
  split at shape
  · exact different shape.symm
  · exact free (shape ▸ inText)

/--
A target that is its own rendering: the anchor of a section, or the name of a module if no leading
tokens are written.
-/
def Rendering.IsFixed (disambiguate : Bool) (target : Text) : Prop :=
  (∃ name, target = '#' :: name ∧ Page.IsAnchor name ∧ Page.associated? target = none) ∨
    (disambiguate = false ∧ ∃ name fragment, (Page.bare name fragment).WellFormed ∧
      target = (Page.bare name fragment).text)

namespace DocLink

section WellNamed

variable {path : LinkPath} {link : DocLink} {crateName : Text}

theorem wellNamed_of_ofRelative? (singleLine : path.IsSingleLine)
    (read : ofRelative? path crateName = some link) : link.WellNamed := by
  rcases exists_reads singleLine read with ⟨lead, page, wellFormed, -, reads, leadSingle⟩
  exact reads.wellNamed wellFormed leadSingle

theorem wellNamed_crateRoot {name : Text} (plain : Identifier.isPlain name = true) :
    (Hosted.crateRoot name).WellNamed :=
  ⟨by simp [Hosted.crateRoot, Start.segments], Finish.wellNamed_mod plain (by simp)⟩

theorem wellNamed_of_packageRoot? {package : Text} (singleLine : '\n' ∉ package)
    (read : Hosted.packageRoot? package crateName = some link) : link.WellNamed := by
  unfold Hosted.packageRoot? at read
  split at read
  · simp only [Option.some.injEq] at read
    exact read ▸ wellNamed_crateRoot (by decide)
  · split at read
    · rename_i valid
      simp only [Option.some.injEq] at read
      rw [isIdentifier_eq_isPlain singleLine] at valid
      exact read ▸ wellNamed_crateRoot valid
    · simp only at read
      split at read
      · rename_i valid
        simp only [Option.some.injEq] at read
        rw [isIdentifier_eq_isPlain (Text.notMem_exchange singleLine (by decide))] at valid
        exact read ▸ wellNamed_crateRoot valid
      · simp at read

theorem newline_notMem_text (singleLine : path.IsSingleLine) {component : Component}
    (inside : component ∈ path.components) : '\n' ∉ component.text := by
  cases component with
  | named name => exact singleLine name inside
  | root => decide
  | here => decide
  | up => decide

theorem wellNamed_of_ofPackage? (singleLine : path.IsSingleLine)
    (read : Hosted.ofPackage? path crateName = some link) : link.WellNamed := by
  unfold Hosted.ofPackage? at read
  split at read
  · simp at read
  · rename_i package rest components
    have packageSingle : '\n' ∉ package.text :=
      newline_notMem_text singleLine (by simp [components])
    split at read
    · simp at read
    · split at read
      · exact wellNamed_of_packageRoot? packageSingle read
      · split at read
        · exact wellNamed_of_packageRoot? packageSingle read
        · simp at read
      · rename_i version pages several
        split at read
        · refine wellNamed_of_ofRelative? ?_ read
          intro name component
          exact singleLine name (by simp [components, component])
        · simp at read

theorem wellNamed_of_ofDistribution? (singleLine : path.IsSingleLine)
    (read : Hosted.ofDistribution? path crateName = some link) : link.WellNamed := by
  unfold Hosted.ofDistribution? at read
  split at read
  · simp at read
  · rename_i first rest components
    simp only at read
    split at read
    · simp at read
    · rename_i linked others pages
      split at read
      · refine wellNamed_of_ofRelative? ?_ read
        intro name component
        apply singleLine name
        rw [components]
        split at component
        · exact List.mem_cons_of_mem _ component
        · exact component
      · simp at read

theorem wellNamed_of_ofHosted? (singleLine : path.IsSingleLine)
    (read : ofHosted? path crateName = some link) : link.WellNamed := by
  unfold ofHosted? at read
  split at read
  · rename_i scheme host first rest components
    have behindHost : LinkPath.IsSingleLine ⟨first :: rest⟩ := by
      intro name component
      apply singleLine name
      rw [components]
      exact List.mem_cons_of_mem _ (List.mem_cons_of_mem _ component)
    split at read
    · split at read
      · exact wellNamed_of_ofPackage? behindHost read
      · split at read
        · exact wellNamed_of_ofDistribution? behindHost read
        · simp at read
    · simp at read
  · simp at read

/-- Every target on one line that is read is a well-named link. -/
theorem wellNamed_of_ofTarget? {target : Text} {options : Options} (singleLine : '\n' ∉ target)
    (read : ofTarget? target options = some link) : link.WellNamed := by
  have pathSingle := LinkPath.isSingleLine_parse singleLine
  simp only [ofTarget?, Option.or_eq_some_iff] at read
  rcases read with hosted | ⟨-, relative⟩
  · unfold ofHostedWith? at hosted
    split at hosted
    · exact wellNamed_of_ofHosted? pathSingle hosted
    · simp at hosted
  · exact wellNamed_of_ofRelative? pathSingle relative

end WellNamed

section Shapes

variable {link : DocLink} {currentType : Option Text} {disambiguate : Bool}

theorem WellNamed.render_eq (wellNamed : link.WellNamed) (currentType : Option Text)
    (disambiguate : Bool) :
    link.render currentType disambiguate = (if disambiguate then link.leadingToken else []) ++
      (Text.joinWith "::".toList (link.segments currentType) ++ link.trailingToken ++
        Page.anchorText link.finish.anchorName) := by
  rw [render, wellNamed.renderPath_eq]

/-- A text without any of the characters that tell a token. -/
def IsTokenless (text : Text) : Prop :=
  '(' ∉ text ∧ '!' ∉ text ∧ '@' ∉ text

theorem WellNamed.trailingToken_eq_nil (wellNamed : link.WellNamed)
    (tokenless : IsTokenless (link.render currentType disambiguate)) :
    link.trailingToken = [] := by
  by_contra written
  have trailing : link.disambiguator.placement = .trailing := by
    by_contra notTrailing
    exact written (if_neg notTrailing)
  have token : link.trailingToken = link.disambiguator.token := if_pos trailing
  have within : ∀ char ∈ link.disambiguator.token,
      char ∈ link.render currentType disambiguate := by
    intro char inToken
    rw [wellNamed.render_eq, token]
    simp [inToken]
  rcases Disambiguator.token_of_trailing wellNamed.finish.known trailing with isCall | isMacro
  · exact tokenless.1 (within '(' (by simp [disambiguator, isCall]))
  · exact tokenless.2.1 (within '!' (by simp [disambiguator, isMacro]))

theorem WellNamed.leadingToken_eq_nil (wellNamed : link.WellNamed)
    (tokenless : IsTokenless (link.render currentType true)) : link.leadingToken = [] := by
  by_contra written
  have leading : link.disambiguator.placement = .leading := by
    by_contra notLeading
    exact written (if_neg notLeading)
  have inToken : '@' ∈ link.disambiguator.token :=
    Disambiguator.at_mem_token_of_leading wellNamed.finish.known leading
  refine tokenless.2.2 ?_
  rw [wellNamed.render_eq]
  simp [leadingToken, leading, inToken]

theorem isPlain_of_segments_eq_singleton {name : Text} (wellNamed : link.WellNamed)
    (single : link.segments currentType = [name]) : Identifier.isPlain name = true := by
  by_cases noNames : link.finish.names = []
  · have notMember : link.finish.isAssociated = false := by
      cases finish : link.finish with
      | associated disambiguator member => simp [finish, Finish.names] at noNames
      | _ => rfl
    exact wellNamed.isPlain_segments currentType (by simp [notMember]) name (by simp [single])
  · have isLast : name ∈ link.finish.names := by
      rw [segments] at single
      rcases List.append_eq_singleton_iff.mp single with ⟨-, names⟩ | ⟨-, names⟩
      · simp [names]
      · exact absurd names noNames
    exact wellNamed.finish.names name isLast

/-- A rendering with neither a token nor `::` is an anchor or the name of a module. -/
theorem WellNamed.render_shape (wellNamed : link.WellNamed)
    (tokenless : IsTokenless (link.render currentType disambiguate))
    (single : (link.render currentType disambiguate).count ':' ≤ 1) :
    (∃ name, link.finish = .anchor name ∧ Page.IsAnchor name ∧
        link.render currentType disambiguate = '#' :: name) ∨
      ∃ name fragment, (Page.bare name fragment).WellFormed ∧
        link.render currentType disambiguate = (Page.bare name fragment).text := by
  have noLeading : (if disambiguate = true then link.leadingToken else []) = [] := by
    cases disambiguate with
    | false => rfl
    | true => exact wellNamed.leadingToken_eq_nil tokenless
  have shape : link.render currentType disambiguate =
      Text.joinWith "::".toList (link.segments currentType) ++
        Page.anchorText link.finish.anchorName := by
    rw [wellNamed.render_eq, noLeading, wellNamed.trailingToken_eq_nil tokenless]
    simp
  rcases found : link.segments currentType with _ | ⟨first, _ | ⟨second, others⟩⟩
  · left
    obtain ⟨name, finish⟩ := exists_anchor_of_segments_eq_nil found
    have anchored : link.finish.anchorName = some name := by rw [finish]; rfl
    exact ⟨name, finish, wellNamed.finish.anchor name anchored, by rw [shape, found, anchored]; rfl⟩
  · right
    refine ⟨first, link.finish.anchorName, ⟨wellNamed.finish.anchor, ?_⟩, by rw [shape, found]; rfl⟩
    exact isPlain_of_segments_eq_singleton wellNamed found
  · have separator : "::".toList = [':', ':'] := by decide
    rw [shape, found, Text.joinWith_cons (by simp), separator] at single
    simp only [List.count_append, List.count_cons_self] at single
    omega

end Shapes

section Fixed

variable {options : Options} {name : Text} {fragment : Option Text}

theorem ofTarget?_bare (wellFormed : (Page.bare name fragment).WellFormed) :
    ofTarget? (Page.bare name fragment).text options =
      some ⟨.empty, [], .mod name fragment⟩ := by
  rw [ofTarget?_of_colonless (Page.notMem_text wellFormed (by decide) (by decide))]
  have noNames : ∀ name ∈ ([] : List Text), Identifier.isPlain name = true := by simp
  have read := ofRelative?_joinWith noNames wellFormed options.crateName
  rw [withLead?_names noNames] at read
  exact read

theorem ofTarget?_anchor (isAnchor : Page.IsAnchor name) :
    ofTarget? ('#' :: name) options =
      match Page.associated? ('#' :: name) with
      | some (kind, member) => some ⟨.here, [], .associated (.ofKind kind) member⟩
      | none => some ⟨.here, [], .anchor name⟩ := by
  have colonless : ':' ∉ '#' :: name :=
    Page.notMem_text (Page.wellFormed_anchor isAnchor) (by decide) (by decide)
  rw [ofTarget?_of_colonless colonless]
  exact ofRelative?_anchorText isAnchor options.crateName

/-- The rendering of a module is its name behind the token, if one is written. -/
theorem render_mod (name : Text) (fragment currentType : Option Text) (disambiguate : Bool) :
    render ⟨.empty, [], .mod name fragment⟩ currentType disambiguate =
      (if disambiguate then "mod@".toList else []) ++ (Page.bare name fragment).text := by
  cases fragment with
  | none => rfl
  | some anchor =>
      have noToken : trailingToken ⟨.empty, [], .mod name (some anchor)⟩ = [] := rfl
      simp only [render, renderPath, noToken, List.append_nil]
      rfl

theorem render_anchor (name : Text) (currentType : Option Text) (disambiguate : Bool) :
    render ⟨.here, [], .anchor name⟩ currentType disambiguate = '#' :: name := by
  have noToken : leadingToken ⟨.here, [], .anchor name⟩ = [] := rfl
  rw [render, noToken, ite_self]
  exact List.append_nil ('#' :: name)

/-- The targets that are their own rendering, in every scope. -/
theorem render_eq_target_iff (options : Options) {target : Text} (singleLine : '\n' ∉ target)
    (tokenless : IsTokenless target) (single : target.count ':' ≤ 1)
    (currentType : Option Text) :
    (∃ link, ofTarget? target options = some link ∧ link.isPrimitive = false ∧
        link.render currentType options.disambiguate = target) ↔
      Rendering.IsFixed options.disambiguate target := by
  constructor
  · rintro ⟨link, read, -, same⟩
    have wellNamed := wellNamed_of_ofTarget? singleLine read
    rw [← same] at tokenless single
    rcases wellNamed.render_shape tokenless single with ⟨name, finish, isAnchor, shape⟩ |
      ⟨name, fragment, wellFormed, shape⟩
    · left
      rw [same] at shape
      refine ⟨name, shape, isAnchor, ?_⟩
      rw [shape, ofTarget?_anchor isAnchor] at read
      cases member : Page.associated? ('#' :: name) with
      | none => rw [shape, member]
      | some found =>
          simp only [member, Option.some.injEq] at read
          simp [← read] at finish
    · right
      rw [same] at shape
      refine ⟨?_, name, fragment, wellFormed, shape⟩
      rw [shape, ofTarget?_bare wellFormed, Option.some.injEq] at read
      rw [← read, render_mod, shape] at same
      simpa using same
  · rintro (⟨name, rfl, isAnchor, noMember⟩ | ⟨noTokens, name, fragment, wellFormed, rfl⟩)
    · refine ⟨⟨.here, [], .anchor name⟩, ?_, rfl, render_anchor name currentType _⟩
      rw [ofTarget?_anchor isAnchor, noMember]
    · refine ⟨_, ofTarget?_bare wellFormed, rfl, ?_⟩
      rw [render_mod, noTokens]
      rfl

end Fixed

section Again

variable {link : DocLink} {options : Options} {currentType : Option Text} {char : Char}

theorem notMem_ownerName (outside : Text.isAsciiWord char = false)
    (free : ∀ name ∈ currentType, char ∉ name) : char ∉ ownerName currentType := by
  unfold ownerName
  split
  · rename_i first rest
    exact free (first :: rest) rfl
  · exact Identifier.notMem_of_isPlain (by decide) outside

/-- What the path in a rendering cannot contain. -/
theorem WellNamed.notMem_joinWith (wellNamed : link.WellNamed)
    (outside : Text.isAsciiWord char = false) (notColon : char ≠ ':')
    (free : ∀ name ∈ currentType, char ∉ name) :
    char ∉ Text.joinWith "::".toList (link.segments currentType) := by
  have notPlain : ∀ {name : Text}, Identifier.isPlain name = true → char ∉ name :=
    fun plain => Identifier.notMem_of_isPlain plain outside
  intro inside
  rcases Text.mem_joinWith inside with isColon | ⟨name, isSegment, inName⟩
  · exact notColon (by simpa using isColon)
  · simp only [segments, List.mem_append] at isSegment
    rcases isSegment with (inStart | inModules) | inNames
    · unfold startSegments at inStart
      split at inStart
      · rw [List.mem_singleton.mp inStart] at inName
        exact notMem_ownerName outside free inName
      · exact notPlain (wellNamed.lead name (List.mem_append_left _ inStart)) inName
    · exact notPlain (wellNamed.lead name (List.mem_append_right _ inModules)) inName
    · exact notPlain (wellNamed.finish.names name inNames) inName

/-- What a rendering in a scope cannot contain. -/
theorem WellNamed.notMem_render (wellNamed : link.WellNamed) (disambiguate : Bool)
    (outside : Page.isAnchorChar char = false) (notHash : char ≠ '#') (notColon : char ≠ ':')
    (notToken : char ∉ link.disambiguator.token) (free : ∀ name ∈ currentType, char ∉ name) :
    char ∉ link.render currentType disambiguate := by
  have notWord : Text.isAsciiWord char = false := by
    rw [Bool.eq_false_iff]
    intro word
    simp [Page.isAnchorChar_of_isAsciiWord word] at outside
  rw [wellNamed.render_eq]
  intro inside
  simp only [List.mem_append] at inside
  rcases inside with inLeading | (inPath | inTrailing) | inAnchor
  · split at inLeading
    · exact notToken (mem_token_of_mem_leadingToken inLeading)
    · simp at inLeading
  · exact wellNamed.notMem_joinWith notWord notColon free inPath
  · exact notToken (mem_token_of_mem_trailingToken inTrailing)
  · rcases wellNamed.mem_anchorText inAnchor with isHash | allowed
    · exact notHash isHash
    · simp [allowed] at outside

/-- A target without a slash is no address, so only its relative reading counts. -/
theorem ofTarget?_of_slashless {target : Text} (slashless : '/' ∉ target) :
    ofTarget? target options = ofRelative? (LinkPath.parse target) options.crateName := by
  have notRooted : LinkPath.isRooted target = false := by
    by_cases empty : target = []
    · rw [empty]
      rfl
    · simpa using LinkPath.isRooted_append slashless empty []
  have alone : LinkPath.parse target = ⟨(Component.ofFirst? target).toList⟩ := by
    simp [LinkPath.parse, Text.splitOn_of_notMem slashless, notRooted]
  apply ofTarget?_of_notHosted
  apply ofHosted?_eq_none
  left
  rw [alone]
  cases Component.ofFirst? target <;> simp

/-- The targets that are not converted: those that are not read and pages of primitive types. -/
def IsUnconvertible (options : Options) (target : Text) : Prop :=
  ∀ link, ofTarget? target options = some link → link.isPrimitive = true

theorem not_isUnconvertible_member {kind name : Text} (known : kind ∈ itemKinds)
    (plain : Identifier.isPlain name = true) :
    ¬IsUnconvertible options ('#' :: (kind ++ '.' :: name)) := by
  intro unconvertible
  have member := Page.associated?_eq_some_iff.mpr ⟨rfl, known, plain⟩
  have read : ofTarget? ('#' :: (kind ++ '.' :: name)) options =
      some ⟨.here, [], .associated (.ofKind kind) name⟩ := by
    rw [ofTarget?_anchor (Page.isAnchor_of_associated known plain), member]
  exact absurd (unconvertible _ read) (by simp [isPrimitive])

theorem not_isUnconvertible_bare {name : Text} {fragment : Option Text}
    (wellFormed : (Page.bare name fragment).WellFormed) :
    ¬IsUnconvertible options (Page.bare name fragment).text := by
  intro unconvertible
  exact absurd (unconvertible _ (ofTarget?_bare wellFormed)) (by simp [isPrimitive])

theorem bare_text_ne_hash {name rest : Text} {fragment : Option Text}
    (wellFormed : (Page.bare name fragment).WellFormed) :
    (Page.bare name fragment).text ≠ '#' :: rest := by
  have noNames : ∀ name ∈ ([] : List Text), Identifier.isPlain name = true := by simp
  exact joinWith_ne_hash noNames wellFormed.2 (Page.anchorText fragment) rest

/-- A rendering that can be read again has neither a token nor `::`. -/
theorem WellNamed.render_shape_of_ofTarget? {again : DocLink} (wellNamed : link.WellNamed)
    (plainScope : ∀ name ∈ currentType, '\n' ∉ name ∧ '/' ∉ name)
    (read : ofTarget? (link.render currentType options.disambiguate) options = some again) :
    (∃ name, Page.IsAnchor name ∧
        link.render currentType options.disambiguate = '#' :: name) ∨
      ∃ name fragment, (Page.bare name fragment).WellFormed ∧
        link.render currentType options.disambiguate = (Page.bare name fragment).text := by
  have slashless : '/' ∉ link.render currentType options.disambiguate :=
    wellNamed.notMem_render options.disambiguate (by decide) (by decide) (by decide)
      wellNamed.notMem_token.2.2 (fun name inScope => (plainScope name inScope).2)
  have singleLine : '\n' ∉ link.render currentType options.disambiguate :=
    wellNamed.notMem_render options.disambiguate (by decide) (by decide) (by decide)
      wellNamed.notMem_token.2.1 (fun name inScope => (plainScope name inScope).1)
  rw [ofTarget?_of_slashless slashless] at read
  have allowed := isTargetChar_of_ofRelative? options.crateName_isIdentifier singleLine read
  have excluded : ∀ char, Page.isAnchorChar char = false → char ≠ '#' → char ≠ '/' →
      char ∉ link.render currentType options.disambiguate := by
    intro char outside notHash notSlash inside
    rcases allowed char inside with isAllowed | isHash | isSlash
    · simp [isAllowed] at outside
    · exact notHash isHash
    · exact notSlash isSlash
  have tokenless : IsTokenless (link.render currentType options.disambiguate) :=
    ⟨excluded '(' (by decide) (by decide) (by decide),
      excluded '!' (by decide) (by decide) (by decide),
      excluded '@' (by decide) (by decide) (by decide)⟩
  have single : (link.render currentType options.disambiguate).count ':' ≤ 1 := by
    rw [List.count_eq_zero_of_not_mem (excluded ':' (by decide) (by decide) (by decide))]
    omega
  rcases wellNamed.render_shape tokenless single with ⟨name, -, isAnchor, shape⟩ | isBare
  · exact Or.inl ⟨name, isAnchor, shape⟩
  · exact Or.inr isBare

/--
The renderings that a later conversion leaves as they are: all but the anchors that look like those
of associated items and, if leading tokens are written, the names of modules.
-/
theorem WellNamed.isUnconvertible_or_isFixed_iff (wellNamed : link.WellNamed)
    (plainScope : ∀ name ∈ currentType, '\n' ∉ name ∧ '/' ∉ name) :
    let rendering := link.render currentType options.disambiguate
    (IsUnconvertible options rendering ∨ Rendering.IsFixed options.disambiguate rendering) ↔
      (¬∃ kind ∈ itemKinds, ∃ name, Identifier.isPlain name = true ∧
        rendering = '#' :: (kind ++ '.' :: name)) ∧
      ¬(options.disambiguate = true ∧ ∃ name fragment, (Page.bare name fragment).WellFormed ∧
        rendering = (Page.bare name fragment).text) := by
  intro rendering
  constructor
  · rintro (unconvertible | ⟨name, isAnchorText, isAnchor, noMember⟩ |
      ⟨noTokens, name, fragment, wellFormed, isBare⟩)
    · refine ⟨?_, ?_⟩
      · rintro ⟨kind, known, name, plain, same⟩
        exact not_isUnconvertible_member known plain (same ▸ unconvertible)
      · rintro ⟨-, name, fragment, wellFormed, same⟩
        exact not_isUnconvertible_bare wellFormed (same ▸ unconvertible)
    · refine ⟨?_, ?_⟩
      · rintro ⟨kind, known, member, plain, same⟩
        simp [Page.associated?_eq_some_iff.mpr ⟨same, known, plain⟩] at noMember
      · rintro ⟨-, other, fragment, wellFormed, same⟩
        exact bare_text_ne_hash wellFormed (same.symm.trans isAnchorText)
    · refine ⟨?_, ?_⟩
      · rintro ⟨kind, -, member, -, same⟩
        exact bare_text_ne_hash wellFormed (isBare.symm.trans same)
      · rintro ⟨tokens, -⟩
        simp [tokens] at noTokens
  · rintro ⟨noMember, noModule⟩
    by_cases unconvertible : IsUnconvertible options rendering
    · exact Or.inl unconvertible
    · right
      simp only [IsUnconvertible, not_forall] at unconvertible
      rcases unconvertible with ⟨again, read, -⟩
      rcases wellNamed.render_shape_of_ofTarget? plainScope read with ⟨name, isAnchor, shape⟩ |
        ⟨name, fragment, wellFormed, shape⟩
      · refine Or.inl ⟨name, shape, isAnchor, ?_⟩
        rw [Option.eq_none_iff_forall_ne_some]
        rintro ⟨kind, member⟩ found
        rcases Page.associated?_eq_some_iff.mp found with ⟨spelled, known, plain⟩
        exact noMember ⟨kind, known, member, plain, spelled⟩
      · refine Or.inr ⟨?_, name, fragment, wellFormed, shape⟩
        by_contra tokens
        exact noModule ⟨by simpa using tokens, name, fragment, wellFormed, shape⟩

end Again

end DocLink

end IntraDoc
