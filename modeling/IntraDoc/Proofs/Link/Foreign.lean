import IntraDoc.Link.Target
import IntraDoc.Proofs.Link.Reading

/-!
# Targets outside the documentation

A target that begins at the root or with the scheme of a web address is no relative target. None of
the readers asks for this in one place; but all of them agree with `DocLink.Reads`, where every
component is a step, an identifier or the name of the page, and none of these has a colon in it.
What remains is the reading of addresses on documentation hosts. There are two of these hosts, an
address needs something behind the host, and the reading can be switched off.
-/

namespace IntraDoc

/-- The hosts whose pages are read. -/
def Hosted.hosts : List Component :=
  [.named "docs.rs".toList, .named "doc.rust-lang.org".toList]

namespace LinkPath

/-- The path begins with the scheme of a web address. -/
def IsAddress (path : LinkPath) : Prop :=
  ∃ scheme ∈ Hosted.schemes, path.first? = some scheme

/-- The path begins at the root or with the scheme of a web address. -/
def IsForeign (path : LinkPath) : Prop :=
  path.isAbsolute = true ∨ path.IsAddress

theorem colon_mem_scheme {scheme : Component} (isScheme : scheme ∈ Hosted.schemes) :
    ∃ name, scheme = .named name ∧ ':' ∈ name := by
  simp only [Hosted.schemes, List.mem_cons, List.not_mem_nil, or_false] at isScheme
  rcases isScheme with rfl | rfl
  · exact ⟨_, rfl, by decide⟩
  · exact ⟨_, rfl, by decide⟩

theorem IsForeign.exists_component {path : LinkPath} (foreign : path.IsForeign) :
    ∃ component ∈ path.components,
      component = .root ∨ ∃ name, component = .named name ∧ ':' ∈ name := by
  rcases foreign with rooted | ⟨scheme, isScheme, first⟩
  · simp only [isAbsolute, decide_eq_true_eq] at rooted
    exact ⟨.root, List.mem_of_mem_head? rooted, Or.inl rfl⟩
  · exact ⟨scheme, List.mem_of_mem_head? first, Or.inr (colon_mem_scheme isScheme)⟩

end LinkPath

namespace DocLink

section Relative

variable {path : LinkPath} {crateName : Text}

/-- Every component of a relative target is a step or a name without a colon. -/
theorem component_cases_of_ofRelative? {link : DocLink} (crateValid : isIdentifier crateName = true)
    (read : ofRelative? path crateName = some link) :
    ∀ component ∈ path.components, component = .up ∨ component = .here ∨
      ∃ name, component = .named name ∧ ':' ∉ name := by
  rcases exists_reads_chomp read with ⟨lead, last, page, wellFormed, rfl, spelled, reads⟩
  intro component inside
  rcases List.mem_append.mp inside with inLead | isLast
  · rcases reads.component_cases crateValid component inLead with isUp | isHere | ⟨name, rfl, valid⟩
    · exact Or.inl isUp
    · exact Or.inr (Or.inl isHere)
    · exact Or.inr (Or.inr ⟨name, rfl, notMem_of_isIdentifier valid (by decide) (by decide)⟩)
  · refine Or.inr (Or.inr ⟨last, List.mem_singleton.mp isLast, ?_⟩)
    intro colon
    rcases Text.mem_chomp_or_newline colon with inPage | isBreak
    · rw [spelled] at inPage
      exact Page.notMem_text wellFormed (by decide) (by decide) inPage
    · exact absurd isBreak (by decide)

theorem ofRelative?_eq_none_of_isForeign (crateValid : isIdentifier crateName = true)
    (foreign : path.IsForeign) : ofRelative? path crateName = none := by
  rw [Option.eq_none_iff_forall_ne_some]
  intro link read
  rcases foreign.exists_component with ⟨component, inside, leadsOut⟩
  rcases component_cases_of_ofRelative? crateValid read component inside with
    rfl | rfl | ⟨name, rfl, colonless⟩
  · simp at leadsOut
  · simp at leadsOut
  · rcases leadsOut with isRoot | ⟨other, same, colon⟩
    · simp at isRoot
    · exact colonless (Component.named.inj same ▸ colon)

end Relative

section Hosts

variable {path : LinkPath} {crateName : Text} {target : Text} {options : Options}

/-- What a path needs to be read as a page on a documentation host. -/
theorem isAddress_of_ofHosted? {link : DocLink} (read : ofHosted? path crateName = some link) :
    path.IsAddress ∧ 3 ≤ path.components.length ∧ ∃ host ∈ path.components[1]?,
      host ∈ Hosted.hosts := by
  rcases path with ⟨components⟩
  unfold ofHosted? at read
  split at read
  · rename_i scheme host first rest shape
    simp only at shape
    subst shape
    split at read
    · rename_i isScheme
      refine ⟨⟨scheme, isScheme, rfl⟩, by simp, host, rfl, ?_⟩
      split at read
      · rename_i isPackages
        simp [Hosted.hosts, isPackages]
      · split at read
        · rename_i isDistribution
          simp [Hosted.hosts, isDistribution]
        · simp at read
    · simp at read
  · simp at read

theorem ofHosted?_eq_none (outside : path.components.length < 3 ∨
      ∀ host ∈ path.components[1]?, host ∉ Hosted.hosts) :
    ofHosted? path crateName = none := by
  rw [Option.eq_none_iff_forall_ne_some]
  intro link read
  rcases isAddress_of_ofHosted? read with ⟨-, long, host, second, isHost⟩
  rcases outside with short | noHost
  · omega
  · exact noHost host second isHost

theorem ofTarget?_of_notHosted
    (notHosted : ofHosted? (LinkPath.parse target) options.crateName = none) :
    ofTarget? target options = ofRelative? (LinkPath.parse target) options.crateName := by
  simp [ofTarget?, ofHostedWith?, notHosted]

theorem ofTarget?_of_not_isAddress (notAddress : ¬(LinkPath.parse target).IsAddress) :
    ofTarget? target options = ofRelative? (LinkPath.parse target) options.crateName := by
  apply ofTarget?_of_notHosted
  rw [Option.eq_none_iff_forall_ne_some]
  intro link read
  exact notAddress (isAddress_of_ofHosted? read).1

theorem ofTarget?_of_isForeign (foreign : (LinkPath.parse target).IsForeign) :
    ofTarget? target options = ofHostedWith? (LinkPath.parse target) options := by
  rw [ofTarget?, ofRelative?_eq_none_of_isForeign options.crateName_isIdentifier foreign,
    Option.or_none]

theorem classify_eq_error (unread : ofTarget? target options = none) :
    classify target options = .error ⟨target⟩ := by
  rw [classify, unread]

theorem ofTarget?_of_classify {link : DocLink} (read : classify target options = .ok link) :
    ofTarget? target options = some link := by
  unfold classify at read
  split at read
  · rename_i found isRead
    rw [isRead, Except.ok.inj read]
  · simp at read

end Hosts

/--
Web addresses and rooted targets are no relative targets, so that they are refused unless they are
addresses on a documentation host and such addresses are read. For any other target this choice
makes no difference.
-/
theorem classify_foreign (target : Text) (options : Options) :
    let path := LinkPath.parse target
    (path.IsForeign →
      ofAssociated? path = none ∧ ofAnchor? path options.crateName = none ∧
        ofItem? path options.crateName = none ∧ ofModule? path options.crateName = none ∧
        ofRelative? path options.crateName = none) ∧
    (path.isAbsolute = true → classify target options = .error ⟨target⟩) ∧
    (path.IsAddress →
      options.hosted = false ∨ path.components.length < 3 ∨
        (∀ host ∈ path.components[1]?, host ∉ Hosted.hosts) →
      classify target options = .error ⟨target⟩) ∧
    (¬path.IsAddress → ∀ hosted,
      classify target { options with hosted := hosted } = classify target options) := by
  intro path
  refine ⟨?_, ?_, ?_, ?_⟩
  · intro foreign
    have unread := ofRelative?_eq_none_of_isForeign options.crateName_isIdentifier foreign
    have parts := unread
    simp only [ofRelative?, Option.or_eq_none_iff] at parts
    exact ⟨parts.1, parts.2.1, parts.2.2.1, parts.2.2.2, unread⟩
  · intro rooted
    apply classify_eq_error
    have notAddress : ¬path.IsAddress := by
      rintro ⟨scheme, isScheme, first⟩
      simp only [LinkPath.isAbsolute, decide_eq_true_eq] at rooted
      rw [LinkPath.first?, rooted, Option.some.injEq] at first
      rcases LinkPath.colon_mem_scheme isScheme with ⟨name, named, -⟩
      simp [named] at first
    rw [ofTarget?_of_not_isAddress notAddress]
    exact ofRelative?_eq_none_of_isForeign options.crateName_isIdentifier (Or.inl rooted)
  · intro isAddress outside
    apply classify_eq_error
    rw [ofTarget?_of_isForeign (Or.inr isAddress), ofHostedWith?]
    rcases outside with off | noPage
    · simp [off]
    · rw [ofHosted?_eq_none noPage, ite_self]
  · intro notAddress hosted
    rw [classify, classify, ofTarget?_of_not_isAddress notAddress,
      ofTarget?_of_not_isAddress notAddress]

/-- The index page of a directory with the name of the crate, on another host. -/
theorem classify_foreign_ownIndex :
    let target := "https://github.com/owner/krate/index.html".toList
    let options : Options := { crateName := "krate".toList }
    (LinkPath.parse target).IsAddress ∧
      ofModule? (LinkPath.parse target) options.crateName = none ∧
      classify target options = .error ⟨target⟩ := by
  intro target options
  have isAddress : (LinkPath.parse target).IsAddress :=
    ⟨.named "https:".toList, by decide, by decide +kernel⟩
  have otherHost : ∀ host ∈ (LinkPath.parse target).components[1]?, host ∉ Hosted.hosts := by
    decide +kernel
  rcases classify_foreign target options with ⟨unread, -, refused, -⟩
  exact ⟨isAddress, (unread (Or.inr isAddress)).2.2.2.1,
    refused isAddress (Or.inr (Or.inr otherHost))⟩

end DocLink

end IntraDoc
