import TemplatedMarkup.CommandLine
import TemplatedMarkup.Options
import TemplatedMarkup.Page.Compile

/-!
# The command line

Reads a document, compiles it and writes the page.  Links are never followed, so no link leads to
an image.
-/

namespace TemplatedMarkup
namespace Main

/-- The text of a file that can be read. -/
def readFile? (path : String) : IO (Option String) := do
  try
    return some (← IO.FS.readFile path)
  catch _ =>
    return none

/-- Whether there is something at a path. -/
def exists? (path : String) : IO Bool := do
  try
    let _ ← IO.FS.realPath path
    return true
  catch _ =>
    return false

/-- The places where options are looked for. -/
def usualPlaces : IO (List String) := do
  let directory ←
    match ← IO.getEnv "XDG_CONFIG_HOME" with
    | some directory => pure (some directory)
    | none => pure ((← IO.getEnv "HOME").map fun home => s!"{home}/.config")
  return "./.tmdrc" :: (directory.map fun directory => s!"{directory}/tmd/tmdrc").toList

/-- The file that options are read from. -/
def optionsPath? (file : OptionsFile) : IO (Option String) := do
  match file with
  | .skip => return none
  | .explicit path => return some path
  | .search => return (← (← usualPlaces).filterM exists?).head?

/-- The options of a file; what is wrong with it is reported. -/
def readOptions (path : String) : IO Options := do
  try
    let (options, errors) := Options.read (← IO.FS.readFile path)
    for failure in errors do
      IO.eprintln s!"tmd: {path}: {failure.message}"
    return options
  catch cause =>
    IO.eprintln s!"tmd: warning: {path}: {cause}"
    return .default

/-- Options with the flags of a command line put over them. -/
def withFlags (options : Options) (commandLine : CommandLine) : Options :=
  { options with
    strict := commandLine.strict || options.strict
    probe := if commandLine.offline then .offline else options.probe
    templateDirectory := commandLine.templateDirectory.or options.templateDirectory }

/-- A library with the file of a directory that a template name leads to, if there is one. -/
def fetchTemplate?
    (options : Options)
    (library : Template.Library)
    (name : String) : IO (Option Template.Library) := do
  match options.templateDirectory with
  | none => return none
  | some directory =>
      if Template.isRelativeName name && Template.namesFile name then
        let text ← readFile? s!"{directory}/{name}"
        return text.map (library.addFile name)
      else return none

/-- The library of the templates that are always there, or of files in their place. -/
def startLibrary (options : Options) : IO Template.Library :=
  Template.bundled.names.foldlM
    (fun library name => return (← fetchTemplate? options library name).getD library) .empty

/-- The settings that options and a library make. -/
def settings (options : Options) (library : Template.Library) : Settings :=
  ⟨options.strict, options.baseTemplate, library, fun _ => false⟩

/-- Compile a source, reading the files of templates when they turn out to be missing. -/
partial def compile
    (options : Options)
    (library : Template.Library)
    (session : Session)
    (source : String) : IO String := do
  let settings := settings options library
  match (session.tryCompile settings source).2 with
  | .error (.templateMissing name) =>
      match ← fetchTemplate? options library name with
      | some library => compile options library session source
      | none => return (session.compile settings source).2
  | _ => return (session.compile settings source).2

/-- The document of a command line. -/
def readInput (commandLine : CommandLine) : IO String := do
  match commandLine.input with
  | some path => IO.FS.readFile path
  | none => (← IO.getStdin).readToEnd

/-- What a command line writes for a source, or the error of a template that is not built. -/
def outputFor (commandLine : CommandLine) (options : Options) (source : String) :
    IO (Except DocumentError String) := do
  let defines := commandLine.defines.map fun (name, value) => (name, Value.str value)
  let session : Session := ⟨.ofList defines, .empty⟩
  if commandLine.emitTemplate then
    return (session.build (settings options .empty) source).2.map Page.source
  else
    return .ok (← compile options (← startLibrary options) session source)

/-- Write the output of a command line. -/
def writeOutput (commandLine : CommandLine) (output : String) : IO Unit := do
  match commandLine.output with
  | some path => IO.FS.writeFile path output
  | none => do
      let stream ← IO.getStdout
      stream.putStr output
      stream.flush

/-- Do what a command line says; the result is the exit code. -/
def run (commandLine : CommandLine) : IO UInt32 := do
  let options ←
    match ← optionsPath? commandLine.optionsFile with
    | some path => readOptions path
    | none => pure .default
  let options := withFlags options commandLine
  let source ← (readInput commandLine).toBaseIO
  match source with
  | .error cause =>
      IO.eprintln s!"tmd: can't read input: {cause}"
      return 1
  | .ok source =>
      match ← outputFor commandLine options source with
      | .error cause =>
          IO.eprintln s!"tmd: {cause.message}"
          return 1
      | .ok output =>
          match ← (writeOutput commandLine output).toBaseIO with
          | .error cause =>
              IO.eprintln s!"tmd: can't write output: {cause}"
              return 1
          | .ok _ => return 0

end Main
end TemplatedMarkup

open TemplatedMarkup in
/-- The program. -/
def main (words : List String) : IO UInt32 := do
  match CommandLine.parse words with
  | .error cause =>
      IO.eprintln s!"tmd: {cause.message}"
      IO.eprintln CommandLine.usage
      return 2
  | .ok commandLine => Main.run commandLine
