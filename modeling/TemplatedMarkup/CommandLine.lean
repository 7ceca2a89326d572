import TemplatedMarkup.Text.Trim

/-!
# Command lines

Flags of one letter may stand in one word, the last of them with its value.  Words without a dash,
and all words behind `--`, are operands, of which there is at most one: the document.
-/

namespace TemplatedMarkup

/-- Where options are read from. -/
inductive OptionsFile where
  /-- The first file at the usual places. -/
  | search
  /-- No file. -/
  | skip
  /-- A file that is named. -/
  | explicit (path : String)
deriving DecidableEq, Repr

/-- A command line. -/
structure CommandLine where
  /-- Where options are read from. -/
  optionsFile : OptionsFile
  /-- The directory that is searched for templates first. -/
  templateDirectory : Option String
  /-- The file that is written; none stands for the standard output. -/
  output : Option String
  /-- Names and values of the context. -/
  defines : List (String × String)
  /-- Whether lines that cannot be read are errors. -/
  strict : Bool
  /-- Whether links are left alone. -/
  offline : Bool
  /-- Whether the steps are logged. -/
  debug : Bool
  /-- Whether the assembled template is written instead of the document. -/
  emitTemplate : Bool
  /-- The document; none stands for the standard input. -/
  input : Option String
deriving DecidableEq, Repr

/-- Why a command line is refused. -/
inductive UsageError where
  /-- A flag without its value. -/
  | valueMissing (flag : Char)
  /-- A definition without an equals sign. -/
  | notADefinition (value : String)
  /-- A definition without a name. -/
  | emptyName
  /-- A flag that does not exist. -/
  | unknownFlag (flag : Char)
  /-- More than one operand. -/
  | tooManyOperands (count : Nat)
deriving DecidableEq, Repr

/-- The text of an error. -/
def UsageError.message : UsageError → String
  | .valueMissing flag => s!"-{flag} requires an argument"
  | .notADefinition value => s!"-D expects name=value, got '{value}'"
  | .emptyName => "-D: name cannot be empty"
  | .unknownFlag flag => s!"unknown option: -{flag}"
  | .tooManyOperands count => s!"too many arguments ({count})"

namespace CommandLine

/-- How the program is called. -/
def usage : String :=
  "usage: tmd [-f[<file>]] [-T<dir>] [-o<file>] [-D name=value]... [-snd] [--emit-template] <file|->"

/-- The flags that need a value. -/
inductive ValueFlag where
  | templateDirectory
  | output
  | define
deriving DecidableEq, Repr

/-- The letter of a flag that needs a value. -/
def ValueFlag.letter : ValueFlag → Char
  | .templateDirectory => 'T'
  | .output => 'o'
  | .define => 'D'

/-- The command line without words. -/
def empty : CommandLine :=
  ⟨.search, none, none, [], false, false, false, false, none⟩

/-- Set the value of a flag. -/
def setValue (commandLine : CommandLine) (flag : ValueFlag) (value : String) :
    Except UsageError CommandLine :=
  match flag with
  | .templateDirectory => .ok { commandLine with templateDirectory := some value }
  | .output => .ok { commandLine with output := some value }
  | .define =>
      match Text.cutAt? '=' value.toList with
      | none => .error (.notADefinition value)
      | some ([], _) => .error .emptyName
      | some (name, defined) =>
          let define := (String.ofList name, String.ofList defined)
          .ok { commandLine with defines := commandLine.defines ++ [define] }

/-- What a word of flags leaves open. -/
inductive Pending where
  /-- Nothing. -/
  | nothing
  /-- The value of its last flag. -/
  | value (flag : ValueFlag)
  /-- The options file, which may be left out. -/
  | optionsFile

/-- The flag that the first letters of a word set, when it has no value. -/
def setFlag? (commandLine : CommandLine) (flag : Char) : Option CommandLine :=
  match flag with
  | 's' => some { commandLine with strict := true }
  | 'n' => some { commandLine with offline := true }
  | 'd' => some { commandLine with debug := true }
  | _ => none

/-- The flag with a letter that needs a value. -/
def ValueFlag.ofLetter? (letter : Char) : Option ValueFlag :=
  [ValueFlag.templateDirectory, .output, .define].find? fun flag => flag.letter == letter

/-- Read the letters of a word of flags. -/
def readFlags (commandLine : CommandLine) :
    List Char → Except UsageError (CommandLine × Pending)
  | [] => .ok (commandLine, .nothing)
  | flag :: rest =>
      match commandLine.setFlag? flag with
      | some commandLine => readFlags commandLine rest
      | none =>
          if flag = 'f' then
            if rest.isEmpty then .ok (commandLine, .optionsFile)
            else .ok ({ commandLine with optionsFile := .explicit (.ofList rest) }, .nothing)
          else
            match ValueFlag.ofLetter? flag with
            | none => .error (.unknownFlag flag)
            | some flag =>
                if rest.isEmpty then .ok (commandLine, .value flag)
                else do
                  return (← commandLine.setValue flag (.ofList rest), .nothing)

/-- The letters of a word of flags, if it is one. -/
def flags? (word : String) : Option (List Char) :=
  match word.toList with
  | '-' :: letter :: letters => some (letter :: letters)
  | _ => none

/--
Whether a word is the options file that a flag leaves open: it looks like no flag, and the document
follows it.
-/
def isOptionsFile (word : String) (following : List String) : Bool :=
  word.toList.head? != some '-' && !following.isEmpty

/-- Read words; the result is the command line and the operands. -/
def readWords (commandLine : CommandLine) :
    List String → Except UsageError (CommandLine × List String)
  | [] => .ok (commandLine, [])
  | word :: words =>
      if word = "--" then .ok (commandLine, words)
      else if word = "--emit-template" then
        readWords { commandLine with emitTemplate := true } words
      else
        match flags? word with
        | none => do
            let (commandLine, operands) ← readWords commandLine words
            return (commandLine, word :: operands)
        | some letters => do
            match ← readFlags commandLine letters, words with
            | (commandLine, .nothing), words => readWords commandLine words
            | (_, .value flag), [] => .error (.valueMissing flag.letter)
            | (commandLine, .value flag), value :: words => do
                readWords (← commandLine.setValue flag value) words
            | (commandLine, .optionsFile), [] =>
                .ok ({ commandLine with optionsFile := .skip }, [])
            | (commandLine, .optionsFile), file :: words =>
                if isOptionsFile file words then
                  readWords { commandLine with optionsFile := .explicit file } words
                else readWords { commandLine with optionsFile := .skip } (file :: words)
termination_by words => words.length

/-- Read a command line. -/
def parse (words : List String) : Except UsageError CommandLine := do
  let (commandLine, operands) ← readWords empty words
  match operands with
  | [] => return commandLine
  | [operand] =>
      return { commandLine with input := if operand = "-" then none else some operand }
  | operands => .error (.tooManyOperands operands.length)

end CommandLine
end TemplatedMarkup
