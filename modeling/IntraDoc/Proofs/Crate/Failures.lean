import IntraDoc.CommandLine.Run
import IntraDoc.Proofs.File.Failures

/-!
# How discovering crates fails

A run reports that there is no manifest, and that a manifest breaks the rules of its notation. What
else can be wrong ends the run without a report: a manifest that is not UTF-8 or whose tables clash,
members that have no elements or are no patterns, and values that are too long to be shown.
-/

namespace IntraDoc

section Packages

variable (system : FileSystem)

/-- What can be wrong with a manifest and the package that it names. -/
inductive Manifest.Fails (path : FilePath) : DiscoveryError → Prop where
  | undecodable {content : FileContent} {error : Utf8.DecodeError}
      (found : system.find? path = some (.file content))
      (broken : Utf8.decode content.bytes = .error error) :
      Fails path (.unreadable (.undecodable error))
  | malformed {text : Text} (holds : system.Holds path text)
      (parsed : Toml.parse text = .error .malformed) : Fails path (.invalidManifest path)
  /-- The tables of the manifest clash. -/
  | clash {text : Text} {error : Toml.Error} (holds : system.Holds path text)
      (parsed : Toml.parse text = .error error) (notMalformed : error ≠ .malformed) :
      Fails path (.clash error)
  /-- The name of a package with sources is too long to be shown. -/
  | name {text : Text} {manifest name : Value} (holds : system.Holds path text)
      (parsed : Toml.parse text = .ok manifest)
      (isName : Manifest.packageName? manifest = some name)
      (sources : system.isDirectory (path.parent.child "src".toList) = true)
      (isLong : name.isShowable = false) : Fails path .unshowable

/-- What can be wrong with a member of a workspace. -/
inductive Manifest.MemberFails (directory : FilePath) : Value → DiscoveryError → Prop where
  | unshowable {member : Value} (isLong : member.isShowable = false) :
      MemberFails directory member .unshowable
  | pattern {member : Value} {error : Glob.PatternError} (isShort : member.isShowable = true)
      (parsed : Glob.parse member.display = .error error) :
      MemberFails directory member (.pattern error)
  /-- Something is wrong with the manifest of a directory that the pattern matches. -/
  | manifest {member : Value} {pattern : Glob.Pattern} {error : DiscoveryError}
      (isShort : member.isShowable = true) (parsed : Glob.parse member.display = .ok pattern)
      (fails : FirstFails (fun path => Manifest.Fails system (path.child Manifest.fileName))
        (Glob.paths system directory pattern) error) :
      MemberFails directory member error

/-- What a manifest lists as the members of its workspace, of whatever sort it is. -/
def Manifest.listed? (manifest : Value) : Option Value :=
  (manifest.get? "workspace".toList).bind fun workspace => workspace.get? "members".toList

/-- The ways in which discovering the crates of a directory fails without a report. -/
inductive Discovery.Escapes (directory : FilePath) : DiscoveryError → Prop where
  /-- The manifest fails for another reason than that it is no TOML document. -/
  | manifest {error : DiscoveryError}
      (fails : Manifest.Fails system (directory.child Manifest.fileName) error)
      (isToml : ∀ path, error ≠ .invalidManifest path) : Escapes directory error
  | members {text : Text} {manifest members : Value}
      (holds : system.Holds (directory.child Manifest.fileName) text)
      (parsed : Toml.parse text = .ok manifest)
      (name : ∀ other, ¬Manifest.Fails system (directory.child Manifest.fileName) other)
      (areListed : Manifest.listed? manifest = some members)
      (noElements : (∀ items, members ≠ .list items) ∧ (∀ entries, members ≠ .table entries) ∧
        ∀ text, members ≠ .text text) :
      Escapes directory (.membersOfSort members.sort)
  /-- The first member with which something is wrong is not one whose manifest is no TOML. -/
  | member {text : Text} {manifest : Value} {members : List Value} {error : DiscoveryError}
      (holds : system.Holds (directory.child Manifest.fileName) text)
      (parsed : Toml.parse text = .ok manifest)
      (name : ∀ other, ¬Manifest.Fails system (directory.child Manifest.fileName) other)
      (areMembers : Manifest.members manifest = .ok members)
      (fails : FirstFails (Manifest.MemberFails system directory) members error)
      (isToml : ∀ path, error ≠ .invalidManifest path) : Escapes directory error

end Packages

section Discovering

variable {system : FileSystem} {path directory : FilePath} {error : DiscoveryError}

theorem Survey.failure_append (survey next : Survey) :
    (survey.append next).failure = survey.failure.or next.failure := by
  unfold append
  cases failed : survey.failure <;> simp [failed]

/-- Surveys one after the other fail with the first failure among them. -/
theorem Survey.failure_foldl_append (surveys : List Survey) (survey : Survey) :
    (surveys.foldl append survey).failure =
      survey.failure.or (surveys.findSome? Survey.failure) := by
  induction surveys generalizing survey with
  | nil => simp
  | cons next surveys ih =>
      rw [List.foldl_cons, ih, failure_append, Option.or_assoc, List.findSome?_cons]
      cases next.failure <;> rfl

theorem Manifest.load_of_text {content : FileContent} {raw : Text}
    (found : system.find? path = some (.file content))
    (decoded : Utf8.decode content.bytes = .ok raw) :
    load system path =
      match Toml.parse (Text.unifyBreaks raw) with
      | .ok manifest => .ok manifest
      | .error .malformed => .error (.invalidManifest path)
      | .error error => .error (.clash error) := by
  have isRead := FileSystem.readText_of_file found
  cases parsed : Toml.parse (Text.unifyBreaks raw) with
  | ok manifest => simp [load, isRead, decoded, parsed]
  | error failure => cases failure <;> simp [load, isRead, decoded, parsed]

theorem Manifest.Fails.isFile (fails : Fails system path error) : system.isFile path = true := by
  rw [FileSystem.isFile_iff]
  cases fails with
  | undecodable found => exact ⟨_, found⟩
  | malformed holds | clash holds | name holds =>
      obtain ⟨content, raw, found, -, -⟩ := holds
      exact ⟨content, found⟩

theorem Manifest.load_eq_ok_iff {manifest : Value} {content : FileContent}
    (found : system.find? path = some (.file content)) :
    load system path = .ok manifest ↔
      ∃ text, system.Holds path text ∧ Toml.parse text = .ok manifest := by
  cases decoded : Utf8.decode content.bytes with
  | error failure =>
      simp [load, FileSystem.readText_of_file found, FileSystem.Holds, found, decoded]
  | ok raw =>
      simp only [load_of_text found decoded, FileSystem.holds_iff found decoded, exists_eq_left]
      cases Toml.parse (Text.unifyBreaks raw) with
      | ok value => simp
      | error failure => cases failure <;> simp

end Discovering

end IntraDoc
