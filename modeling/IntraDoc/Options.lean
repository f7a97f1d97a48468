import IntraDoc.Link.Identifier

/-!
# Conversion options

The crate that a conversion takes place in, and the two switches of the rendering. The name of the
crate is an identifier, and the type says so.
-/

namespace IntraDoc

/-- A crate name that is no identifier. -/
structure InvalidCrateName where
  /-- The name that was given. -/
  name : Text
deriving DecidableEq, Repr

namespace InvalidCrateName

/-- What is said about the name. -/
def message (error : InvalidCrateName) : Text :=
  "The passed crate identifier '".toList ++ error.name ++ "' is not valid.".toList

end InvalidCrateName

namespace CrateName

/-- The crate that links are read in when none is given. -/
def default : Text := "my_krate".toList

/-- The name itself, if it is an identifier. -/
def check (name : Text) : Except InvalidCrateName Text :=
  if isIdentifier name then .ok name else .error ⟨name⟩

/-- The crate name of a package: `-` is written `_`. -/
def ofPackage (name : Text) : Except InvalidCrateName Text :=
  check (Text.exchange '-' '_' name)

end CrateName

/-- What a conversion depends on besides the text. -/
structure Options where
  /-- The crate that the links are written in. -/
  crateName : Text := CrateName.default
  /-- Whether to write leading disambiguators. -/
  disambiguate : Bool := false
  /-- Whether to read targets on the documentation hosts. -/
  hosted : Bool := true
  /-- The crate name is an identifier. -/
  crateName_isIdentifier : isIdentifier crateName = true := by decide
deriving DecidableEq, Repr

namespace Options

/-- The options with these settings, if the crate name is valid. -/
def make (crateName : Text) (disambiguate hosted : Bool) : Except InvalidCrateName Options :=
  if valid : isIdentifier crateName = true then .ok ⟨crateName, disambiguate, hosted, valid⟩
  else .error ⟨crateName⟩

/-- The same options for another crate, if its name is valid. -/
def forCrate (options : Options) (crateName : Text) : Except InvalidCrateName Options :=
  make crateName options.disambiguate options.hosted

end Options

end IntraDoc
