import IntraDoc.Link.Relative
import IntraDoc.Text.Digit

/-!
# Targets on documentation hosts

Pages on `docs.rs` and `doc.rust-lang.org` have a counterpart relative to the crates they document.
On `docs.rs` the address goes on with a package and a version, on `doc.rust-lang.org` with an
optional release channel and one of the crates that the distribution documents.
-/

namespace IntraDoc

namespace Hosted

/-- The two ways an address may begin. -/
def schemes : List Component :=
  [.named "http:".toList, .named "https:".toList]

/-- The release channels of the distribution. -/
def channels : List Text :=
  ["nightly".toList, "beta".toList, "stable".toList]

/-- The crates that the distribution documents. -/
def distributed : List Text :=
  ["std".toList, "alloc".toList, "core".toList, "test".toList, "proc_macro".toList,
   "nightly-rustc".toList]

/-- What follows a run of at least one digit. -/
def afterDigits? : Text → Option Text
  | [] => none
  | char :: rest => if Text.isDigit char then some (rest.dropWhile Text.isDigit) else none

/-- What follows a dot and a run of digits. -/
def afterMinor? : Text → Option Text
  | '.' :: rest => afterDigits? rest
  | _ => none

/-- Whether the text begins with three numbers with dots between, or with `latest`. -/
def startsVersion (text : Text) : Bool :=
  (((afterDigits? text).bind afterMinor?).bind afterMinor?).isSome ||
    Text.startsWith text "latest".toList

/-- Whether the text begins with `1` and two more numbers with dots between. -/
def startsRelease : Text → Bool
  | '1' :: rest => ((afterMinor? rest).bind afterMinor?).isSome
  | _ => false

/-- Whether a test holds at the beginning of some rest of the text. -/
def occurs (test : Text → Bool) : Text → Bool
  | [] => test []
  | char :: rest => test (char :: rest) || occurs test rest

/-- Whether a component holds the version of a package. -/
def isVersion (component : Component) : Bool :=
  occurs startsVersion component.text

/-- Whether a component is a release channel or holds the version of a release. -/
def isChannel (component : Component) : Bool :=
  channels.contains component.text || occurs startsRelease component.text

/-- The root of a crate, under its name. -/
def crateRoot (name : Text) : DocLink :=
  ⟨.empty, [], .mod name none⟩

/-- The root of a package: a package of another crate may have `-` for `_` in its name. -/
def packageRoot? (package crateName : Text) : Option DocLink :=
  if package = crateName then some (crateRoot "crate".toList)
  else if isIdentifier package then some (crateRoot package)
  else
    let name := Text.exchange '-' '_' package
    if isIdentifier name then some (crateRoot name) else none

/--
Reads what follows `docs.rs`. `crate` in place of a package leads to a page about the package, not
to its documentation.
-/
def ofPackage? (path : LinkPath) (crateName : Text) : Option DocLink :=
  match path.components with
  | [] => none
  | package :: rest =>
    if package.text = "crate".toList then none
    else
      match rest with
      | [] => packageRoot? package.text crateName
      | [version] => if isVersion version then packageRoot? package.text crateName else none
      | version :: pages =>
        if isVersion version then DocLink.ofRelative? ⟨pages⟩ crateName else none

/-- Reads what follows `doc.rust-lang.org`. -/
def ofDistribution? (path : LinkPath) (crateName : Text) : Option DocLink :=
  match path.components with
  | [] => none
  | first :: rest =>
    let pages := if isChannel first then rest else first :: rest
    match pages with
    | [] => none
    | linked :: _ =>
      if distributed.contains linked.text then DocLink.ofRelative? ⟨pages⟩ crateName else none

end Hosted

/-- Reads a target on one of the two documentation hosts. -/
def DocLink.ofHosted? (path : LinkPath) (crateName : Text) : Option DocLink :=
  match path.components with
  | scheme :: host :: first :: rest =>
    if scheme ∈ Hosted.schemes then
      if host = .named "docs.rs".toList then Hosted.ofPackage? ⟨first :: rest⟩ crateName
      else if host = .named "doc.rust-lang.org".toList then
        Hosted.ofDistribution? ⟨first :: rest⟩ crateName
      else none
    else none
  | _ => none

end IntraDoc
