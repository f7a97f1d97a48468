import IntraDoc.Proofs.Link.Foreign
import Mathlib.Data.List.Infix

/-!
# Pages on documentation hosts

An address on a documentation host goes on with a package and a version, or with a release channel,
and what follows them is read as a relative target of its own. The parsed address keeps the
components of that target, provided that none of them depends on standing in front. Versions and
channels are described here by the texts in which they occur, not by the scanners that find them.
-/

namespace IntraDoc

namespace Hosted

/-- A decimal numeral in any script. -/
def IsNumeral (digits : Text) : Prop :=
  digits ≠ [] ∧ ∀ char ∈ digits, Text.isDigit char = true

/-- Three numerals with dots between, or `latest`. -/
def IsVersionText (version : Text) : Prop :=
  version = "latest".toList ∨
    ∃ major minor patch, IsNumeral major ∧ IsNumeral minor ∧ IsNumeral patch ∧
      version = major ++ '.' :: (minor ++ '.' :: patch)

/-- The number `1` and two numerals with dots between. -/
def IsReleaseText (release : Text) : Prop :=
  ∃ minor patch, IsNumeral minor ∧ IsNumeral patch ∧ release = '1' :: '.' :: (minor ++ '.' :: patch)

/-- Some part of the text is the version of a package. -/
def HoldsVersion (text : Text) : Prop :=
  ∃ version, IsVersionText version ∧ version <:+: text

/-- The text is the name of a release channel, or some part of it is the version of a release. -/
def IsChannelText (text : Text) : Prop :=
  text ∈ channels ∨ ∃ release, IsReleaseText release ∧ release <:+: text

section Scanners

variable {text rest digits : Text}

theorem occurs_iff {test : Text → Bool} :
    occurs test text = true ↔ ∃ behind, behind <:+ text ∧ test behind = true := by
  induction text with
  | nil => simp [occurs]
  | cons char others ih =>
      simp only [occurs, Bool.or_eq_true, ih, List.suffix_cons_iff]
      constructor
      · rintro (now | ⟨behind, later, found⟩)
        · exact ⟨_, Or.inl rfl, now⟩
        · exact ⟨behind, Or.inr later, found⟩
      · rintro ⟨behind, rfl | later, found⟩
        · exact Or.inl found
        · exact Or.inr ⟨behind, later, found⟩

/-- A test for a beginning of the text turns a search into a question of its parts. -/
theorem occurs_iff_infix {test : Text → Bool} {accepted : Text → Prop}
    (begins : ∀ behind, test behind = true ↔ ∃ part, accepted part ∧ part <+: behind) :
    occurs test text = true ↔ ∃ part, accepted part ∧ part <:+: text := by
  simp only [occurs_iff, begins, List.infix_iff_prefix_suffix]
  constructor
  · rintro ⟨behind, isSuffix, part, isAccepted, isPrefix⟩
    exact ⟨part, isAccepted, behind, isPrefix, isSuffix⟩
  · rintro ⟨part, isAccepted, behind, isPrefix, isSuffix⟩
    exact ⟨behind, isSuffix, part, isAccepted, isPrefix⟩

theorem exists_of_afterDigits? (read : afterDigits? text = some rest) :
    ∃ digits, IsNumeral digits ∧ text = digits ++ rest := by
  cases text with
  | nil => simp [afterDigits?] at read
  | cons char others =>
      simp only [afterDigits?] at read
      split at read
      · rename_i isDigit
        simp only [Option.some.injEq] at read
        refine ⟨char :: others.takeWhile Text.isDigit, ⟨by simp, ?_⟩, ?_⟩
        · intro digit inside
          rcases List.mem_cons.mp inside with rfl | inRun
          · exact isDigit
          · exact List.mem_takeWhile_imp inRun
        · rw [← read, List.cons_append, List.takeWhile_append_dropWhile]
      · simp at read

theorem isSome_afterDigits?_append (numeral : IsNumeral digits) (rest : Text) :
    (afterDigits? (digits ++ rest)).isSome = true := by
  cases digits with
  | nil => exact absurd rfl numeral.1
  | cons char others => simp [afterDigits?, numeral.2 char]

/-- A numeral is read up to a character that is no digit. -/
theorem afterDigits?_append (numeral : IsNumeral digits)
    (stop : ∀ char ∈ rest.head?, Text.isDigit char = false) :
    afterDigits? (digits ++ rest) = some rest := by
  cases digits with
  | nil => exact absurd rfl numeral.1
  | cons char others =>
      have inside : ∀ digit ∈ others, Text.isDigit digit = true := by
        intro digit inOthers
        exact numeral.2 digit (List.mem_cons_of_mem _ inOthers)
      simp [afterDigits?, numeral.2 char, dropWhile_append_stop inside stop]

theorem afterDigits?_append_dot (numeral : IsNumeral digits) (rest : Text) :
    afterDigits? (digits ++ '.' :: rest) = some ('.' :: rest) := by
  apply afterDigits?_append numeral
  simp only [List.head?_cons, Option.mem_def, Option.some.injEq, forall_eq']
  decide

theorem exists_of_afterMinor? (read : afterMinor? text = some rest) :
    ∃ digits, IsNumeral digits ∧ text = '.' :: (digits ++ rest) := by
  unfold afterMinor? at read
  split at read
  · rcases exists_of_afterDigits? read with ⟨digits, numeral, rfl⟩
    exact ⟨digits, numeral, rfl⟩
  · simp at read

theorem startsVersion_iff :
    startsVersion text = true ↔ ∃ version, IsVersionText version ∧ version <+: text := by
  simp only [startsVersion, Bool.or_eq_true, Option.isSome_iff_exists, Option.bind_eq_some_iff,
    Text.startsWith_iff]
  constructor
  · rintro (⟨rest, afterTwo, ⟨afterOne, readOne, readTwo⟩, readThree⟩ | ⟨rest, rfl⟩)
    · rcases exists_of_afterDigits? readOne with ⟨major, isMajor, rfl⟩
      rcases exists_of_afterMinor? readTwo with ⟨minor, isMinor, rfl⟩
      rcases exists_of_afterMinor? readThree with ⟨patch, isPatch, rfl⟩
      refine ⟨_, Or.inr ⟨major, minor, patch, isMajor, isMinor, isPatch, rfl⟩, rest, ?_⟩
      simp
    · exact ⟨_, Or.inl rfl, rest, rfl⟩
  · rintro ⟨version, rfl | ⟨major, minor, patch, isMajor, isMinor, isPatch, rfl⟩, rest, rfl⟩
    · exact Or.inr ⟨rest, rfl⟩
    · left
      obtain ⟨behind, read⟩ :=
        Option.isSome_iff_exists.mp (isSome_afterDigits?_append isPatch rest)
      refine ⟨behind, '.' :: (patch ++ rest), ⟨'.' :: (minor ++ '.' :: (patch ++ rest)), ?_, ?_⟩,
        read⟩
      · simpa using afterDigits?_append_dot isMajor (minor ++ '.' :: (patch ++ rest))
      · exact afterDigits?_append_dot isMinor (patch ++ rest)

theorem startsRelease_iff :
    startsRelease text = true ↔ ∃ release, IsReleaseText release ∧ release <+: text := by
  constructor
  · intro found
    unfold startsRelease at found
    split at found
    · simp only [Option.isSome_iff_exists, Option.bind_eq_some_iff] at found
      rcases found with ⟨rest, afterOne, readOne, readTwo⟩
      rcases exists_of_afterMinor? readOne with ⟨minor, isMinor, rfl⟩
      rcases exists_of_afterMinor? readTwo with ⟨patch, isPatch, rfl⟩
      refine ⟨_, ⟨minor, patch, isMinor, isPatch, rfl⟩, rest, ?_⟩
      simp
    · simp at found
  · rintro ⟨release, ⟨minor, patch, isMinor, isPatch, rfl⟩, rest, rfl⟩
    have first : afterMinor? ('.' :: (minor ++ '.' :: (patch ++ rest))) =
        some ('.' :: (patch ++ rest)) := afterDigits?_append_dot isMinor (patch ++ rest)
    have second : (afterMinor? ('.' :: (patch ++ rest))).isSome = true :=
      isSome_afterDigits?_append isPatch rest
    simp [startsRelease, first, second]

theorem isVersion_iff {component : Component} :
    isVersion component = true ↔ HoldsVersion component.text :=
  occurs_iff_infix fun _ => startsVersion_iff

theorem isChannel_iff {component : Component} :
    isChannel component = true ↔ IsChannelText component.text := by
  rw [isChannel, Bool.or_eq_true, occurs_iff_infix fun _ => startsRelease_iff,
    List.contains_iff_mem]
  rfl

end Scanners

/-- A text that passes a test is a segment unless the two texts that are none pass it too. -/
theorem isSegment_of_test {test : Component → Bool} {text : Text} (slashless : '/' ∉ text)
    (found : test (.named text) = true) (notEmpty : test (.named []) = false)
    (notHere : test (.named ['.']) = false) : Component.IsSegment text := by
  refine ⟨?_, ?_, slashless⟩
  · rintro rfl
    simp [found] at notEmpty
  · rintro rfl
    simp [found] at notHere

theorem HoldsVersion.isSegment {version : Text} (holds : HoldsVersion version)
    (slashless : '/' ∉ version) : Component.IsSegment version := by
  apply isSegment_of_test slashless (isVersion_iff.mpr holds)
  · decide
  · decide

theorem IsChannelText.isSegment {channel : Text} (isChannelText : IsChannelText channel)
    (slashless : '/' ∉ channel) : Component.IsSegment channel := by
  apply isSegment_of_test slashless (isChannel_iff.mpr isChannelText)
  · decide
  · decide

/-- The crates of the distribution cannot be taken for channels. -/
theorem isChannel_eq_false_of_distributed {component : Component}
    (isDistributed : component.text ∈ distributed) : isChannel component = false := by
  have all : ∀ name ∈ distributed, isChannel (.named name) = false := by decide
  exact all component.text isDistributed

/-- The address of a page on a host. -/
def address (scheme host page : Text) : Text :=
  scheme ++ "//".toList ++ host ++ '/' :: page

/-- A release channel as it stands in an address, if there is one. -/
def channelText : Option Text → Text
  | none => []
  | some name => name ++ ['/']

section Addresses

variable {scheme host : Text}

theorem isPlainSegment_of_mem {name : Text} (known : .named name ∈ schemes ++ hosts) :
    Component.IsPlainSegment name ∧ '/' ∉ name := by
  have all : ∀ component ∈ schemes ++ hosts, (component.text ≠ [] ∧ component.text ≠ ['.'] ∧
      component.text ≠ ['.', '.']) ∧ '/' ∉ component.text := by decide
  exact all (.named name) known

theorem parse_address (isScheme : .named scheme ∈ schemes) (isHost : .named host ∈ hosts)
    (page : Text) :
    LinkPath.parse (address scheme host page) =
      ⟨.named scheme :: .named host :: LinkPath.laterComponents page⟩ := by
  rcases isPlainSegment_of_mem (List.mem_append_left _ isScheme) with
    ⟨schemePlain, schemeSlashless⟩
  rcases isPlainSegment_of_mem (List.mem_append_right _ isHost) with ⟨hostPlain, hostSlashless⟩
  have spelled : address scheme host page =
      scheme ++ '/' :: ([] ++ '/' :: (host ++ '/' :: page)) := by
    simp [address]
  have components : (LinkPath.parse (address scheme host page)).components =
      .named scheme :: .named host :: LinkPath.laterComponents page := by
    rw [spelled, LinkPath.parse_append schemeSlashless schemePlain.1,
      LinkPath.laterComponents_append (by simp), LinkPath.laterComponents_append hostSlashless,
      Component.ofFirst?_of_isPlainSegment schemePlain,
      Component.ofLater?_of_isPlainSegment hostPlain]
    rfl
  rw [← components]

theorem isAddress_parse_address (isScheme : .named scheme ∈ schemes)
    (isHost : .named host ∈ hosts) (page : Text) :
    (LinkPath.parse (address scheme host page)).IsAddress := by
  rw [parse_address isScheme isHost]
  exact ⟨_, isScheme, rfl⟩

end Addresses

end Hosted

namespace DocLink

/-- The outcome for a target that stands for the relative target `rest`. -/
def classifyAs (target rest : Text) (options : Options) : Except UnclassifiableTarget DocLink :=
  match ofRelative? (LinkPath.parse rest) options.crateName with
  | some link => .ok link
  | none => .error ⟨target⟩

section Reduction

variable {scheme rest : Text} {options : Options}

theorem ofTarget?_address {host page : Text} (isScheme : .named scheme ∈ Hosted.schemes)
    (isHost : .named host ∈ Hosted.hosts) (hosted : options.hosted = true) :
    ofTarget? (Hosted.address scheme host page) options =
      ofHosted? ⟨.named scheme :: .named host :: LinkPath.laterComponents page⟩
        options.crateName := by
  have isAddress := Hosted.isAddress_parse_address isScheme isHost page
  rw [ofTarget?_of_isForeign (Or.inr isAddress), ofHostedWith?, if_pos hosted,
    Hosted.parse_address isScheme isHost]

/-- On the host of the packages, what follows a package and a version is a relative target. -/
theorem ofTarget?_packageAddress {package version : Text} {first : Component}
    {others : List Component} (isScheme : .named scheme ∈ Hosted.schemes)
    (hosted : options.hosted = true) (isPackage : Component.IsSegment package)
    (isVersion : Component.IsSegment version)
    (pages : LinkPath.laterComponents rest = first :: others) :
    ofTarget? (Hosted.address scheme "docs.rs".toList
        (package ++ '/' :: (version ++ '/' :: rest))) options =
      if package = "crate".toList then none
      else if Hosted.isVersion (.ofSegment version) then
        ofRelative? ⟨first :: others⟩ options.crateName
      else none := by
  have isHost : .named "docs.rs".toList ∈ Hosted.hosts := by simp [Hosted.hosts]
  rw [ofTarget?_address isScheme isHost hosted, LinkPath.laterComponents_segment isPackage,
    LinkPath.laterComponents_segment isVersion, pages]
  simp [ofHosted?, isScheme, Hosted.ofPackage?]

/-- The pages about packages are refused, whatever follows. -/
theorem ofTarget?_crateAddress {page : Text} (isScheme : .named scheme ∈ Hosted.schemes)
    (hosted : options.hosted = true) :
    ofTarget? (Hosted.address scheme "docs.rs".toList ("crate".toList ++ '/' :: page)) options =
      none := by
  have isHost : .named "docs.rs".toList ∈ Hosted.hosts := by simp [Hosted.hosts]
  have isCrate : Component.IsSegment "crate".toList := ⟨by decide, by decide, by decide⟩
  rw [ofTarget?_address isScheme isHost hosted, LinkPath.laterComponents_segment isCrate]
  simp [ofHosted?, isScheme, Hosted.ofPackage?]

/--
On the host of the distribution, what follows a channel is a relative target. Without a channel the
target must not begin with one itself.
-/
theorem ofTarget?_distributionAddress {channel : Option Text} {first : Component}
    {others : List Component} (isScheme : .named scheme ∈ Hosted.schemes)
    (hosted : options.hosted = true)
    (isChannel : ∀ name ∈ channel, Hosted.IsChannelText name ∧ '/' ∉ name)
    (noChannel : channel = none → Hosted.isChannel first = false)
    (pages : LinkPath.laterComponents rest = first :: others) :
    ofTarget? (Hosted.address scheme "doc.rust-lang.org".toList
        (Hosted.channelText channel ++ rest)) options =
      if first.text ∈ Hosted.distributed then
        ofRelative? ⟨first :: others⟩ options.crateName
      else none := by
  have isHost : .named "doc.rust-lang.org".toList ∈ Hosted.hosts := by simp [Hosted.hosts]
  rw [ofTarget?_address isScheme isHost hosted]
  cases channel with
  | none =>
      rw [Hosted.channelText, List.nil_append, pages]
      simp [ofHosted?, isScheme, Hosted.ofDistribution?, noChannel rfl]
  | some name =>
      rcases isChannel name rfl with ⟨isChannelText, slashless⟩
      have found : Hosted.isChannel (.ofSegment name) = true :=
        Hosted.isChannel_iff.mpr (by simpa using isChannelText)
      rw [Hosted.channelText, List.append_assoc, List.singleton_append,
        LinkPath.laterComponents_segment (isChannelText.isSegment slashless), pages]
      simp [ofHosted?, isScheme, Hosted.ofDistribution?, found]

theorem classify_of_ofTarget?_eq {target : Text}
    (same : ofTarget? target options = ofRelative? (LinkPath.parse rest) options.crateName) :
    classify target options = classifyAs target rest options := by
  cases read : ofRelative? (LinkPath.parse rest) options.crateName with
  | none => simp only [classify, classifyAs, same, read]
  | some link => simp only [classify, classifyAs, same, read]

end Reduction

/--
An address on a documentation host is read exactly as the relative target at its end: on the host of
the packages behind a package and a version, on the host of the distribution behind a channel, if
there is one, and if the target begins with a crate of the distribution. Other addresses of these
shapes are refused.
-/
theorem classify_address {scheme rest : Text} {options : Options}
    (isScheme : .named scheme ∈ Hosted.schemes) (hosted : options.hosted = true)
    (nonempty : (LinkPath.parse rest).components ≠ [])
    (notRooted : LinkPath.isRooted rest = false)
    (notHere : (Text.splitOn '/' rest).head? ≠ some ['.']) :
    (∀ package version, Component.IsSegment package → '/' ∉ version →
      let target :=
        Hosted.address scheme "docs.rs".toList (package ++ '/' :: (version ++ '/' :: rest))
      (package ≠ "crate".toList → Hosted.HoldsVersion version →
        classify target options = classifyAs target rest options) ∧
      (package = "crate".toList ∨ Component.IsSegment version ∧ ¬Hosted.HoldsVersion version →
        classify target options = .error ⟨target⟩)) ∧
    (∀ channel, (∀ name ∈ channel, Hosted.IsChannelText name ∧ '/' ∉ name) →
      let target :=
        Hosted.address scheme "doc.rust-lang.org".toList (Hosted.channelText channel ++ rest)
      ((∃ first ∈ (LinkPath.parse rest).first?, first.text ∈ Hosted.distributed) →
        classify target options = classifyAs target rest options) ∧
      ((∀ first ∈ (LinkPath.parse rest).first?, first.text ∉ Hosted.distributed ∧
          (channel = none → ¬Hosted.IsChannelText first.text)) →
        classify target options = .error ⟨target⟩)) := by
  have parsed := LinkPath.parse_eq_laterComponents notRooted notHere
  obtain ⟨first, others, pages⟩ : ∃ first others,
      LinkPath.laterComponents rest = first :: others := by
    rw [parsed] at nonempty
    exact List.exists_cons_of_ne_nil nonempty
  rw [pages] at parsed
  refine ⟨?_, ?_⟩
  · intro package version isPackage slashless target
    refine ⟨?_, ?_⟩
    · intro notCrate holds
      have found : Hosted.isVersion (.ofSegment version) = true :=
        Hosted.isVersion_iff.mpr (by simpa using holds)
      apply classify_of_ofTarget?_eq
      rw [ofTarget?_packageAddress isScheme hosted isPackage (holds.isSegment slashless) pages,
        if_neg notCrate, if_pos found, parsed]
    · intro refused
      apply classify_eq_error
      by_cases isCrate : package = "crate".toList
      · subst isCrate
        exact ofTarget?_crateAddress isScheme hosted
      · rcases refused.resolve_left isCrate with ⟨isVersion, noVersion⟩
        have notFound : ¬Hosted.isVersion (.ofSegment version) = true := by
          rw [Hosted.isVersion_iff, Component.text_ofSegment]
          exact noVersion
        rw [ofTarget?_packageAddress isScheme hosted isPackage isVersion pages, if_neg isCrate,
          if_neg notFound]
  · intro channel isChannel target
    have begins : (LinkPath.parse rest).first? = some first := by
      rw [parsed]
      rfl
    rw [begins]
    refine ⟨?_, ?_⟩
    · rintro ⟨linked, same, isDistributed⟩
      rw [← Option.some.inj same] at isDistributed
      apply classify_of_ofTarget?_eq
      have notTaken := Hosted.isChannel_eq_false_of_distributed isDistributed
      rw [ofTarget?_distributionAddress isScheme hosted isChannel (fun _ => notTaken) pages,
        if_pos isDistributed, parsed]
    · intro refused
      rcases refused first rfl with ⟨notDistributed, noChannel⟩
      apply classify_eq_error
      have notTaken : channel = none → Hosted.isChannel first = false := by
        intro absent
        rw [Bool.eq_false_iff, ne_eq, Hosted.isChannel_iff]
        exact noChannel absent
      rw [ofTarget?_distributionAddress isScheme hosted isChannel notTaken pages,
        if_neg notDistributed]

/-- A function in the latest version of the own package, whose name has a hyphen. -/
theorem classify_address_ownFunction :
    let options : Options := { crateName := "krate".toList }
    let target := "https://docs.rs/krate-name/latest/krate/fn.run.html".toList
    classify target options =
      .ok ⟨.crate, [], .item "fn".toList (.ofKind "fn".toList) "run".toList none⟩ := by
  intro options target
  have reduced := @classify_address "https:".toList "krate/fn.run.html".toList options (by decide)
    rfl (by decide +kernel) (by decide) (by decide +kernel)
  have isPackage : Component.IsSegment "krate-name".toList := ⟨by decide, by decide, by decide⟩
  have isVersion : Hosted.HoldsVersion "latest".toList :=
    ⟨"latest".toList, Or.inl rfl, List.infix_rfl⟩
  have same := (reduced.1 _ _ isPackage (by decide)).1 (by decide) isVersion
  have spelled : target = Hosted.address "https:".toList "docs.rs".toList
      ("krate-name".toList ++ '/' :: ("latest".toList ++ '/' :: "krate/fn.run.html".toList)) := by
    decide +kernel
  rw [spelled, same]
  decide +kernel

end DocLink

end IntraDoc
