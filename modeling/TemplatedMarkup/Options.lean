import TemplatedMarkup.Decimal.Notation
import TemplatedMarkup.Template.Library
import TemplatedMarkup.Text.Trim

/-!
# Options

Options are changed in place, by name: one at a time or by the lines of a file.  A change that
fails is reported, and the next one goes on with the options that it has left.
-/

namespace TemplatedMarkup

/-- How links to images are found. -/
inductive Probe where
  /-- By asking for the content type of their targets. -/
  | http
  /-- Not at all. -/
  | offline
deriving DecidableEq, Repr

/-- The options of the compiler. -/
structure Options where
  /-- Whether lines that cannot be read are errors. -/
  strict : Bool
  /-- The parent of documents that name none. -/
  baseTemplate : String
  /-- The directory that is searched for templates first, if there is one. -/
  templateDirectory : Option String
  /-- How links to images are found. -/
  probe : Probe
  /-- How many milliseconds a probe may take. -/
  probeTimeout : Nat
deriving DecidableEq, Repr

/-- Why an option is not set. -/
inductive OptionError where
  /-- A text that does not say on or off. -/
  | notAFlag (value : String)
  /-- An empty name of a parent. -/
  | emptyBase
  /-- A probe that does not exist. -/
  | unknownProbe (value : String)
  /-- A text that spells no time. -/
  | invalidTimeout (value : String)
  /-- An option that does not exist. -/
  | unknownOption (name : String)
  /-- A line without arguments. -/
  | argumentMissing
  /-- An option without a value. -/
  | valueMissing (name : String)
  /-- A value without an option. -/
  | nameMissing
deriving DecidableEq, Repr

/-- The text of an error. -/
def OptionError.message : OptionError → String
  | .notAFlag value => s!"/set: expected on or off, got '{value}'"
  | .emptyBase => "/set: base_template cannot be empty"
  | .unknownProbe value => s!"/set: unknown probe '{value}'"
  | .invalidTimeout value => s!"/set: invalid timeout '{value}'"
  | .unknownOption name => s!"/set: unknown option '{name}'"
  | .argumentMissing => "/set: requires an argument"
  | .valueMissing name => s!"/set: missing value for '{name}'"
  | .nameMissing => "/set: option name cannot be empty"

/-- A line of an options file that sets no option. -/
structure OptionLineError where
  /-- The number of the line. -/
  line : Nat
  /-- Why it sets no option. -/
  cause : OptionError
deriving DecidableEq, Repr

/-- The text of an error with the number of its line. -/
def OptionLineError.message (failure : OptionLineError) : String :=
  s!"line {failure.line}: {failure.cause.message}"

/-- Read a flag, in any letter case. -/
def readFlag (value : String) : Except OptionError Bool :=
  match String.ofList (value.toList.map Char.toLower) with
  | "on" | "1" | "true" | "yes" => .ok true
  | "off" | "0" | "false" | "no" => .ok false
  | _ => .error (.notAFlag value)

/-- Read a probe. -/
def readProbe (value : String) : Except OptionError Probe :=
  match value with
  | "http" => .ok .http
  | "offline" | "off" => .ok .offline
  | _ => .error (.unknownProbe value)

/-- Times from this one on are refused: they cannot be written in 64 bits. -/
def timeoutBound : Nat := 18446744073709551616

/-- Read a time. -/
def readTimeout (value : String) : Except OptionError Nat :=
  match Decimal.readUnsigned? value.toList with
  | some time => if time < timeoutBound then .ok time else .error (.invalidTimeout value)
  | none => .error (.invalidTimeout value)

/-- A change of options in place, which may fail; what it has changed until then stays changed. -/
abbrev OptionChange := ExceptT OptionError (StateM Options)

/-- The outcome of a change, and the options that it leaves. -/
def OptionChange.apply (change : OptionChange Unit) (options : Options) :
    Except OptionError Unit × Options :=
  change.run.run options

namespace Options

/-- The options that nothing sets. -/
def default : Options :=
  ⟨false, Template.basePageName, none, .http, 2000⟩

/-- Set an option by its name. -/
def assign (name value : String) : OptionChange Unit :=
  match name with
  | "strict" => do
      let strict ← readFlag value
      modify fun options => { options with strict }
  | "base_template" =>
      if value.isEmpty then throw .emptyBase
      else modify fun options => { options with baseTemplate := value }
  | "template_dir" =>
      let directory := if value.isEmpty then none else some value
      modify fun options => { options with templateDirectory := directory }
  | "probe" => do
      let probe ← readProbe value
      modify fun options => { options with probe }
  | "probe_timeout" => do
      let probeTimeout ← readTimeout value
      modify fun options => { options with probeTimeout }
  | _ => throw (.unknownOption name)

/-- The options with one of them set by its name. -/
def set (options : Options) (name value : String) : Except OptionError Options :=
  let (outcome, options) := (assign name value).apply options
  outcome.map fun _ => options

/-- An argument that has been read, unless it is empty. -/
def finishedArgument (reversed : List Char) : List (List Char) :=
  if reversed.isEmpty then [] else [reversed.reverse]

/--
Split the rest of a text into arguments; `argument` holds the started one in reverse and `quoted`
tells whether quotes are open.
-/
def splitFrom (argument : List Char) (quoted : Bool) : List Char → List (List Char)
  | [] => finishedArgument argument
  | '\\' :: escaped :: rest =>
      if quoted then splitFrom (escaped :: argument) quoted rest
      else splitFrom ('\\' :: argument) quoted (escaped :: rest)
  | character :: rest =>
      if character = '"' then splitFrom argument (!quoted) rest
      else if quoted && character == '\\' then splitFrom argument quoted rest
      else if Text.isAsciiBlank character && !quoted then
        finishedArgument argument ++ splitFrom [] quoted rest
      else splitFrom (character :: argument) quoted rest

/--
The arguments of a line.  They stand between blanks; blanks inside double quotes belong to an
argument, and a backslash inside them takes the next character as it is.
-/
def splitArguments (text : List Char) : List (List Char) :=
  splitFrom [] false text

/-- Set an option by the arguments of a line: `name=value`, or a name and a value. -/
def assignFromArguments (arguments : List (List Char)) : OptionChange Unit :=
  match arguments with
  | [] => throw .argumentMissing
  | first :: others =>
      let assignment : Option (List Char × List (List Char)) :=
        match Text.cutAt? '=' first with
        | some (name, value) => some (name, value :: others)
        | none => if others.isEmpty then none else some (first, others)
      match assignment with
      | none => throw (.valueMissing (.ofList first))
      | some (name, values) =>
          if name.isEmpty then throw .nameMissing
          else assign (.ofList name) (.ofList ([' '].intercalate values))

/-- The arguments of a line that sets an option, if it does. -/
def settingOnLine? (line : List Char) : Option (List (List Char)) :=
  match Text.trimWhere Text.isBlank line with
  | '/' :: rest =>
      let command := rest.takeWhile (!Text.isAsciiBlank ·)
      let arguments := Text.trimWhere Text.isBlank (rest.dropWhile (!Text.isAsciiBlank ·))
      if command = "set".toList then some (splitArguments arguments) else none
  | _ => none

/-- Set options by lines, the first of which has the given number; the result is what fails. -/
def readLines (number : Nat) : List (List Char) → StateM Options (List OptionLineError)
  | [] => return []
  | line :: lines =>
      match settingOnLine? line with
      | none => readLines (number + 1) lines
      | some arguments => do
          match ← (assignFromArguments arguments).run with
          | .ok () => readLines (number + 1) lines
          | .error cause => return ⟨number, cause⟩ :: (← readLines (number + 1) lines)

/-- The options that a file sets, and its lines that fail to set one. -/
def read (text : String) : Options × List OptionLineError :=
  let (errors, options) := (readLines 1 (Text.lineLists text.toList)).run default
  (options, errors)

end Options
end TemplatedMarkup
