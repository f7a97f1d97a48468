import IntraDoc.Data.Toml.Document
import IntraDoc.File.Glob
import IntraDoc.Options
import IntraDoc.Text.Lines

/-!
# Discovering crates

A directory with a manifest is converted crate by crate. The package of the manifest comes first,
then those of the members of its workspace, which patterns of paths list. The name of a package,
with `-` written `_`, is the name of the crate, and its sources are in `src`.
-/

namespace IntraDoc

/-- A crate: its name, and the file or directory with its sources. -/
structure Crate where
  /-- The name of the crate. -/
  name : Text
  /-- Where its sources are. -/
  path : FilePath
deriving DecidableEq, Repr

/-- Why crates cannot be discovered. -/
inductive DiscoveryError where
  /-- The directory has no manifest. -/
  | noManifest (directory : FilePath)
  /-- The manifest cannot be read. -/
  | unreadable (error : FileError)
  /-- The manifest is no TOML document. -/
  | invalidManifest (path : FilePath)
  /-- The tables of the manifest clash. -/
  | clash (error : Toml.Error)
  /-- The members of a workspace are of a sort that has no elements. -/
  | membersOfSort (sort : Text)
  /-- A member of a workspace is no pattern. -/
  | pattern (error : Glob.PatternError)
  /-- A name or a member is too long to be shown. -/
  | unshowable
deriving DecidableEq, Repr

namespace Manifest

/-- The name of every manifest. -/
def fileName : Text := "Cargo.toml".toList

end Manifest

namespace DiscoveryError

/-- What is said about the failure. -/
def message : DiscoveryError → Text
  | noManifest directory =>
    "No Cargo.toml found in '".toList ++ directory.text ++ "'; pass the files explicitly.".toList
  | unreadable error => error.message
  | invalidManifest path => "Manifest '".toList ++ path.text ++ "' is not valid TOML".toList
  | clash error => error.message
  | membersOfSort sort => ['\''] ++ sort ++ "' object is not iterable".toList
  | pattern error => error.message
  | unshowable => Value.unshowableMessage

end DiscoveryError

namespace Manifest

/-- Reads a manifest. -/
def load (system : FileSystem) (path : FilePath) : Except DiscoveryError Value :=
  match system.readText path with
  | .error error => .error (.unreadable error)
  | .ok text =>
    match Toml.parse (Text.unifyBreaks text) with
    | .ok manifest => .ok manifest
    | .error .malformed => .error (.invalidManifest path)
    | .error error => .error (.clash error)

/-- The name that a manifest gives its package. -/
def packageName? (manifest : Value) : Option Value :=
  (manifest.get? "package".toList).bind fun package => package.get? "name".toList

/-- The patterns of the members of a manifest's workspace. -/
def members (manifest : Value) : Except DiscoveryError (List Value) :=
  match (manifest.get? "workspace".toList).bind fun workspace =>
    workspace.get? "members".toList with
  | none => .ok []
  | some (.list items) => .ok items
  | some (.table entries) => .ok (entries.map fun entry => entry.1)
  | some (.text text) => .ok (text.map fun char => .text [char])
  | some value => .error (.membersOfSort value.sort)

end Manifest

/-- What a look at a manifest brings. -/
inductive Finding where
  /-- A crate. -/
  | crate (crate : Crate)
  /-- A package whose name cannot be the name of a crate. -/
  | unusable (manifest : FilePath)
deriving DecidableEq, Repr

/-- What was found, up to a failure. -/
structure Survey where
  /-- What was found, in order. -/
  findings : List Finding := []
  /-- What put an end to it. -/
  failure : Option DiscoveryError := none
deriving DecidableEq, Repr

namespace Survey

/-- One survey after the other, unless the first one failed. -/
def append (survey next : Survey) : Survey :=
  match survey.failure with
  | some _ => survey
  | none => ⟨survey.findings ++ next.findings, next.failure⟩

/-- The package of a manifest, if it has a name and sources. -/
def ofPackage (system : FileSystem) (path : FilePath) (manifest : Value) : Survey :=
  let sources := path.parent.child "src".toList
  match Manifest.packageName? manifest with
  | none => {}
  | some name =>
    if system.isDirectory sources then
      match name.display?.map CrateName.ofPackage with
      | some (.ok crateName) => { findings := [.crate ⟨crateName, sources⟩] }
      | some (.error _) => { findings := [.unusable path] }
      | none => { failure := some .unshowable }
    else {}

/-- The package of a member of a workspace, if it has a manifest. -/
def ofMember (system : FileSystem) (member : FilePath) : Survey :=
  let path := member.child Manifest.fileName
  if system.isFile path then
    match Manifest.load system path with
    | .ok manifest => ofPackage system path manifest
    | .error error => { failure := some error }
  else {}

/-- The packages of the members that a pattern matches. -/
def ofPattern (system : FileSystem) (directory : FilePath) (pattern : Value) : Survey :=
  match pattern.display?.map Glob.parse with
  | some (.ok pattern) =>
    ((Glob.paths system directory pattern).map (ofMember system)).foldl append {}
  | some (.error error) => { failure := some (.pattern error) }
  | none => { failure := some .unshowable }

/-- The packages of the members of a workspace. -/
def ofMembers (system : FileSystem) (directory : FilePath) (manifest : Value) : Survey :=
  match Manifest.members manifest with
  | .ok patterns => (patterns.map (ofPattern system directory)).foldl append {}
  | .error error => { failure := some error }

/-- The packages of a directory with a manifest. -/
def ofDirectory (system : FileSystem) (directory : FilePath) : Survey :=
  let path := directory.child Manifest.fileName
  if system.isFile path then
    match Manifest.load system path with
    | .ok manifest =>
      (ofPackage system path manifest).append (ofMembers system directory manifest)
    | .error error => { failure := some error }
  else { failure := some (.noManifest directory) }

/-- The crates that were found, each place once. -/
def crates (survey : Survey) : List Crate :=
  survey.findings.foldl (fun known finding =>
    match finding with
    | .crate sources =>
      if known.any fun other => other.path = sources.path then known else known ++ [sources]
    | .unusable _ => known) []

/-- The manifests whose package has no usable name. -/
def unusable (survey : Survey) : List FilePath :=
  survey.findings.filterMap fun finding =>
    match finding with
    | .crate _ => none
    | .unusable path => some path

end Survey

/-- The crates that something was found to consist of, or why that is not known. -/
structure Discovery where
  /-- The manifests that were passed over because their package has no usable name. -/
  skipped : List FilePath
  /-- The crates. -/
  outcome : Except DiscoveryError (List Crate)

namespace Discovery

/-- The crates of a directory with a manifest. -/
def ofDirectory (system : FileSystem) (directory : FilePath) : Discovery :=
  let survey := Survey.ofDirectory system directory
  match survey.failure with
  | some error => ⟨survey.unusable, .error error⟩
  | none => ⟨survey.unusable, .ok survey.crates⟩

/-- The crates at a path: those of its manifest if it has any, and otherwise the path itself. -/
def ofPath (system : FileSystem) (crateName : Text) (path : FilePath) : Discovery :=
  if system.isDirectory path && system.isFile (path.child Manifest.fileName) then
    let found := ofDirectory system path
    match found.outcome with
    | .ok [] => ⟨found.skipped, .ok [⟨crateName, path⟩]⟩
    | _ => found
  else ⟨[], .ok [⟨crateName, path⟩]⟩

/-- The crates at some paths, one after the other. -/
def ofPaths (system : FileSystem) (crateName : Text) : List FilePath → Discovery
  | [] => ⟨[], .ok []⟩
  | path :: paths =>
    let first := ofPath system crateName path
    match first.outcome with
    | .error error => ⟨first.skipped, .error error⟩
    | .ok crates =>
      let others := ofPaths system crateName paths
      ⟨first.skipped ++ others.skipped, others.outcome.map (crates ++ ·)⟩

/-- The crates to convert: those at the paths, or those of the working directory. -/
def ofArguments (system : FileSystem) (crateName : Text) (paths : List FilePath) : Discovery :=
  if paths.isEmpty then ofDirectory system system.workingPath else ofPaths system crateName paths

end Discovery

end IntraDoc
