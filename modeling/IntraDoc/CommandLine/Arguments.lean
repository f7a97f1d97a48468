import IntraDoc.Data.Numeral
import IntraDoc.File.Path
import IntraDoc.Options

/-!
# Command-line arguments

Arguments are paths and options, in any order. An option is a switch or takes a value, may be given
once, and may be given by a variable of the environment instead. Short options can be written behind
one dash as long as all of them are switches. Behind `--` everything is a path. Arguments are sorted
in two steps: first the options are taken out with their values, then what is left must be paths.
-/

namespace IntraDoc

namespace CommandLine

/-- What an option is about. -/
inductive Setting where
  /-- The name of the crate. -/
  | crateName
  /-- Whether to write the converted files. -/
  | apply
  /-- The file that lists the links to keep. -/
  | ignoreFile
  /-- Whether to write leading disambiguators. -/
  | disambiguate
  /-- Whether to leave links to documentation hosts alone. -/
  | noFavored
  /-- Whether to report errors only. -/
  | quiet
deriving DecidableEq, Repr

namespace Setting

/-- All settings. -/
def all : List Setting :=
  [crateName, apply, ignoreFile, disambiguate, noFavored, quiet]

/-- The long option. -/
def long : Setting → Text
  | crateName => "--crate".toList
  | apply => "--apply".toList
  | ignoreFile => "--ignore-file".toList
  | disambiguate => "--disambiguate".toList
  | noFavored => "--no-favored".toList
  | quiet => "--quiet".toList

/-- The character of the short option. -/
def short : Setting → Char
  | crateName => 'c'
  | apply => 'a'
  | ignoreFile => 'i'
  | disambiguate => 'd'
  | noFavored => 'f'
  | quiet => 'q'

/-- Whether the option takes a value. -/
def takesValue : Setting → Bool
  | crateName => true
  | ignoreFile => true
  | _ => false

/-- The options that give the setting. -/
def options (setting : Setting) : List Text :=
  [setting.long, ['-', setting.short]]

/-- The setting of an option, which may have underscores for dashes. -/
def ofOption? (option : Text) : Option Setting :=
  all.find? fun setting => setting.options.contains (Text.exchange '_' '-' option)

end Setting

/-- The arguments, sorted: the settings as they are given, and the paths. -/
structure Arguments where
  /-- The settings that are given, each with its text. -/
  given : List (Setting × Text) := []
  /-- The paths. -/
  paths : List Text := []
deriving DecidableEq, Repr

namespace Arguments

/-- What a switch is set to when it has no value. -/
def on : Text := "true".toList

/-- What everything behind is a path. -/
def delimiter : Text := "--".toList

/-- Whether an argument is an option and not a path: it has a dash in front and is no number. -/
def isOption (argument : Text) : Bool :=
  argument.head? = some '-' && !Numeral.isNumber argument

/-- The arguments with a setting, which must not be given already. -/
def give? (arguments : Arguments) (setting : Setting) (value : Text) : Option Arguments :=
  if arguments.given.any fun entry => entry.1 = setting then none
  else some { arguments with given := arguments.given ++ [(setting, value)] }

/-- The option and the value in `option=value`. -/
def splitValue (argument : Text) : Text × Option Text :=
  match argument.dropWhile (· ≠ '=') with
  | [] => (argument, none)
  | _ :: value => (argument.takeWhile (· ≠ '='), some value)

/-- The options that an argument with a dash in front stands for: `-abc` stands for three. -/
def optionsIn (argument : Text) : List Text :=
  let option := (splitValue argument).1
  if (Setting.ofOption? option).isSome then [option]
  else if Text.startsWith option delimiter || option.length ≤ 2 then [argument]
  else option.tail.map fun char => ['-', char]

/-- The arguments with some switches, all of them with the same value. -/
def giveAll? (arguments : Arguments) (value : Option Text) :
    List Setting → Option Arguments
  | [] => some arguments
  | setting :: others =>
    if setting.takesValue then none
    else (arguments.give? setting (value.getD on)).bind fun arguments =>
      arguments.giveAll? value others

/--
Takes the options out of the arguments before `--`; what is left becomes the paths. `open?` is a
setting that needs the next argument as its value.
-/
def takeOptions? (arguments : Arguments) (open? : Option Setting) : List Text → Option Arguments
  | [] => if open?.isSome then none else some arguments
  | argument :: rest =>
    match open? with
    | some setting =>
      if isOption argument then none
      else (arguments.give? setting argument).bind fun arguments =>
        arguments.takeOptions? none rest
    | none =>
      if argument.head? = some '-' then
        let options := optionsIn argument
        let value := (splitValue argument).2
        let loose := options.filter fun option => (Setting.ofOption? option).isNone
        let arguments := { arguments with paths := arguments.paths ++ loose }
        match options.filterMap Setting.ofOption? with
        | [setting] =>
          if setting.takesValue then
            match value with
            | none => arguments.takeOptions? (some setting) rest
            | some value => (arguments.give? setting value).bind fun arguments =>
              arguments.takeOptions? none rest
          else (arguments.giveAll? value [setting]).bind fun arguments =>
            arguments.takeOptions? none rest
        | settings => (arguments.giveAll? value settings).bind fun arguments =>
          arguments.takeOptions? none rest
      else
        ({ arguments with paths := arguments.paths ++ [argument] } : Arguments).takeOptions? none
          rest

/-- The paths among what is left of the arguments: before the delimiter there must be no option. -/
def pathsIn? (left : List Text) : Option (List Text) :=
  let (before, after) := left.span (· ≠ delimiter)
  if before.any isOption then none else some (before ++ after.tail)

/-- The arguments, sorted, if every option is known and has its value. -/
def parse? (arguments : List Text) : Option Arguments := do
  let (before, after) := arguments.span (· ≠ delimiter)
  let sorted ← ({} : Arguments).takeOptions? none before
  let paths ← pathsIn? (sorted.paths ++ after)
  return { sorted with paths := paths }

/-! ## The environment -/

/-- What the names of the variables begin with. -/
def variableStart : Text := "INTRACONV_".toList

/-- The name of the variable for an option. -/
def variableOf (option : Text) : Text :=
  variableStart ++ (Text.exchange '-' '_' (option.dropWhile (· = '-'))).map Char.toUpper

/-- The variable that lists the paths. -/
def pathVariable : Text := variableOf "paths".toList

/-- The variables that are read. -/
def readVariables : List Text :=
  pathVariable :: Setting.all.flatMap fun setting => setting.options.map variableOf

/-- The values of the variables with a name, in which dashes may stand for underscores. -/
def valuesOf (environment : List (Text × Text)) (name : Text) : List Text :=
  (environment.filter fun entry =>
    Text.startsWith entry.1 variableStart && Text.exchange '-' '_' entry.1 = name).map (·.2)

/--
The text that the environment gives for a setting: by the variable of its long option, or else by
the only variable that stands for one of its options. Several variables contradict each other.
-/
def environmentText? (environment : List (Text × Text)) (setting : Setting) :
    Option (Option Text) :=
  match environment.lookup (variableOf setting.long) with
  | some text => some (some text)
  | none =>
    match setting.options.flatMap fun option => valuesOf environment (variableOf option) with
    | [] => some none
    | [text] => some (some text)
    | _ => none

/-- The text of a setting: from the arguments, or else from the environment. -/
def text? (arguments : Arguments) (environment : List (Text × Text)) (setting : Setting) :
    Option (Option Text) :=
  match arguments.given.lookup setting with
  | some text => some (some text)
  | none => environmentText? environment setting

/-- The paths of the arguments, or else those that a variable lists between colons. -/
def pathTexts (arguments : Arguments) (environment : List (Text × Text)) : List Text :=
  if arguments.paths.isEmpty then
    (valuesOf environment pathVariable).flatMap (Text.splitOn ':')
  else arguments.paths

/-- The truth value that a text spells. -/
def truth? (text : Text) : Option Bool :=
  let lower := text.map Char.toLower
  if ["yes".toList, "y".toList, "1".toList, "true".toList, "t".toList].contains lower then
    some true
  else if ["no".toList, "n".toList, "0".toList, "false".toList, "f".toList].contains lower then
    some false
  else none

/-- Whether a switch is on; nothing if its text spells no truth value. -/
def switch? (arguments : Arguments) (environment : List (Text × Text)) (setting : Setting) :
    Option Bool :=
  (arguments.text? environment setting).bind fun text =>
    match text with
    | some text => truth? text
    | none => some false

end Arguments

/-- What is to be done. -/
structure Invocation where
  /-- The paths to convert. -/
  paths : List FilePath
  /-- The name of the crate, as it is given. -/
  crateName : Text
  /-- Whether to write the converted files. -/
  apply : Bool
  /-- The file that lists the links to keep. -/
  ignoreFile : Option FilePath
  /-- Whether to write leading disambiguators. -/
  disambiguate : Bool
  /-- Whether to read targets on the documentation hosts. -/
  hosted : Bool
  /-- Whether to report errors only. -/
  quiet : Bool
deriving DecidableEq, Repr

namespace Invocation

/-- What the arguments and the environment ask for, if they make sense. -/
def parse? (arguments : List Text) (environment : List (Text × Text)) : Option Invocation := do
  let arguments ← Arguments.parse? arguments
  let text? := arguments.text? environment
  let switch? := arguments.switch? environment
  return {
    paths := (arguments.pathTexts environment).map FilePath.parse
    crateName := (← text? .crateName).getD CrateName.default
    apply := ← switch? .apply
    ignoreFile := (← text? .ignoreFile).map FilePath.parse
    disambiguate := ← switch? .disambiguate
    hosted := !(← switch? .noFavored)
    quiet := ← switch? .quiet }

end Invocation

end CommandLine

end IntraDoc
