import IntraDoc.CommandLine.Run
import IntraDoc.Proofs.File.Failures
import IntraDoc.Proofs.Ignore.Key

/-!
# How loading ignored links fails

A run reports that the document is missing, that it breaks the rules of its notation and that a part
of it has the wrong shape. What else can be wrong with a document ends the run without a report:
that it is a directory or not UTF-8, that its parser fails in a way of its own, that a value is too
long to be shown, and that a key is no path.
-/

namespace IntraDoc

namespace IgnoreTable

/-- What can be wrong with an entry of a table of links. -/
inductive LinkFails (key : Text) : Value × Value → IgnoreError → Prop where
  /-- A target is too long to be shown. -/
  | target {name target : Value} {targets : List Value} (isTarget : target ∈ targets)
      (isLong : target.isShowable = false) : LinkFails key (name, .list targets) .unshowable
  /-- The name of a link is too long to be shown. -/
  | name {name targets : Value} (isLong : name.isShowable = false) :
      LinkFails key (name, targets) .unshowable
  | notList {name targets : Value} (isShort : name.isShowable = true)
      (notList : ∀ items, targets ≠ .list items) :
      LinkFails key (name, targets) (.targetsNotList name.display key)

/-- What can be wrong with an entry of a document. -/
inductive SectionFails : Value × Value → IgnoreError → Prop where
  /-- The key is too long to be shown. -/
  | key {key payload : Value} (isLong : key.isShowable = false) :
      SectionFails (key, payload) .unshowable
  | notTable {key payload : Value} (isShort : key.isShowable = true)
      (notTable : payload.entries? = none) :
      SectionFails (key, payload) (.sectionNotTable key.display)
  | links {key payload : Value} {entries : List (Value × Value)} {error : IgnoreError}
      (isShort : key.isShowable = true) (isTable : payload.entries? = some entries)
      (fails : FirstFails (LinkFails key.display) entries error) :
      SectionFails (key, payload) error
  /-- The key has several parts and a null character, so no file can be at it. -/
  | nullByte {key payload : Value} {entries : List (Value × Value)}
      (isShort : key.isShowable = true) (isTable : payload.entries? = some entries)
      (links : ∀ error, ¬FirstFails (LinkFails key.display) entries error)
      (several : 2 ≤ (FilePath.parse key.display).parts.length) (isNull : '\x00' ∈ key.display) :
      SectionFails (key, payload) (.unusableKey .nullByte)

/-- The ways in which loading fails without a report. -/
inductive Escapes (system : FileSystem) (path : FilePath) : IgnoreError → Prop where
  | directory (found : system.find? path = some .directory) :
      Escapes system path (.unreadable (.isDirectory path))
  | undecodable {content : FileContent} {error : Utf8.DecodeError}
      (found : system.find? path = some (.file content))
      (broken : Utf8.decode content.bytes = .error error) :
      Escapes system path (.unreadable (.undecodable error))
  /-- The tables of a TOML document clash. -/
  | clash {text : Text} {error : Toml.Error} (holds : system.Holds path text)
      (isToml : isYaml path = false) (parsed : Toml.parse text = .error error)
      (notMalformed : error ≠ .malformed) : Escapes system path (.clash error)
  /-- Something in a YAML document means nothing. -/
  | meaningless {text : Text} {error : Yaml.Error} (holds : system.Holds path text)
      (isYaml : isYaml path = true) (parsed : Yaml.parse text = .error error)
      (notMalformed : error ≠ .malformed) : Escapes system path (.meaningless error)
  /-- The first thing wrong with an entry is a value that is too long, or a null character. -/
  | entry {text : Text} {entries : List (Value × Value)} {error : IgnoreError}
      (holds : system.Holds path text) (delivered : readDocument path text = .ok entries)
      (fails : FirstFails SectionFails entries error)
      (unnamed : error = .unshowable ∨ error = .unusableKey .nullByte) : Escapes system path error

section Loading

variable {key : Text} {table : TargetTable} {entry : Value × Value} {error : IgnoreError}

section Files

variable {system : FileSystem} {path : FilePath} {content : FileContent}

end Files

end Loading

end IgnoreTable

end IntraDoc
