import TemplatedMarkup.CommandLine
import TemplatedMarkup.Proofs.Text.Trim

/-!
# Command lines that are written

The options of a command line as words, with their values attached, and what reading such words
does: word after word, it sets what the word says.  Flags that stand next to each other may share a
word, whose last option may have a value, so that a command line is read back however its flags are
grouped.
-/

namespace TemplatedMarkup
namespace CommandLine

/-! ## Words of options -/

/-- The flags of one letter that have no value. -/
inductive SimpleFlag where
  | strict
  | offline
  | debug
deriving DecidableEq, Repr

namespace SimpleFlag

/-- The letter of a flag. -/
def letter : SimpleFlag → Char
  | .strict => 's'
  | .offline => 'n'
  | .debug => 'd'

/-- Set a flag. -/
def set (flag : SimpleFlag) (commandLine : CommandLine) : CommandLine :=
  match flag with
  | .strict => { commandLine with strict := true }
  | .offline => { commandLine with offline := true }
  | .debug => { commandLine with debug := true }

/-- Set flags, from the left. -/
def setAll (flags : List SimpleFlag) (commandLine : CommandLine) : CommandLine :=
  flags.foldl (fun reached flag => flag.set reached) commandLine

theorem setFlag?_letter (flag : SimpleFlag) (commandLine : CommandLine) :
    commandLine.setFlag? flag.letter = some (flag.set commandLine) := by
  cases flag <;> rfl

theorem letter_ne_dash (flag : SimpleFlag) : flag.letter ≠ '-' := by
  cases flag <;> decide

end SimpleFlag

/-- The options that end a word, with their values. -/
inductive LastOption where
  /-- The directory of templates. -/
  | templateDirectory (path : String)
  /-- The output file. -/
  | output (path : String)
  /-- A name of the context and its value. -/
  | define (name value : String)
  /-- No options file. -/
  | noOptionsFile
  /-- An options file. -/
  | optionsFile (path : String)
deriving DecidableEq, Repr

namespace LastOption

/-- The letter of an option. -/
def letter : LastOption → Char
  | .templateDirectory _ => 'T'
  | .output _ => 'o'
  | .define _ _ => 'D'
  | .noOptionsFile => 'f'
  | .optionsFile _ => 'f'

/-- The value of an option. -/
def value : LastOption → List Char
  | .templateDirectory path => path.toList
  | .output path => path.toList
  | .define name value => name.toList ++ '=' :: value.toList
  | .noOptionsFile => []
  | .optionsFile path => path.toList

/-- Set an option. -/
def set (option : LastOption) (commandLine : CommandLine) : CommandLine :=
  match option with
  | .templateDirectory path => { commandLine with templateDirectory := some path }
  | .output path => { commandLine with output := some path }
  | .define name value => { commandLine with defines := commandLine.defines ++ [(name, value)] }
  | .noOptionsFile => { commandLine with optionsFile := .skip }
  | .optionsFile path => { commandLine with optionsFile := .explicit path }

/-- An option can be written when it has a path or a name, and no equals sign in the name. -/
def IsWritable : LastOption → Prop
  | .templateDirectory path => path ≠ ""
  | .output path => path ≠ ""
  | .define name _ => name ≠ "" ∧ '=' ∉ name.toList
  | .noOptionsFile => True
  | .optionsFile path => path ≠ ""

theorem letter_ne_dash (option : LastOption) : option.letter ≠ '-' := by
  cases option <;> simp [letter]

/-- A flag takes the rest of its word as its value. -/
theorem readFlags_valueFlag
    (flag : ValueFlag)
    {value : List Char}
    (nonempty : value ≠ [])
    (commandLine : CommandLine) :
    readFlags commandLine (flag.letter :: value) =
      (commandLine.setValue flag (.ofList value)).map (·, .nothing) := by
  have hasValue : value.isEmpty = false := List.isEmpty_eq_false_iff.mpr nonempty
  rw [readFlags]
  cases flag <;>
    simp only [ValueFlag.letter, setFlag?, ValueFlag.ofLetter?, List.find?, hasValue] <;> rfl

/-- A definition is cut at its first equals sign. -/
theorem setValue_define
    {name : String}
    (nonempty : name ≠ "")
    (noSign : '=' ∉ name.toList)
    (value : String)
    (commandLine : CommandLine) :
    commandLine.setValue .define (.ofList (name.toList ++ '=' :: value.toList)) =
      .ok ((define name value).set commandLine) := by
  have hasName : name.toList ≠ [] := by simpa using nonempty
  rw [setValue, String.toList_ofList, Text.cutAt?_append noSign]
  cases spelled : name.toList with
  | nil => exact absurd spelled hasName
  | cons first rest => simp [set, ← spelled]

/-- An option at the end of a word sets what it says. -/
theorem readFlags_letter_value
    {option : LastOption}
    (writable : option.IsWritable)
    (isGiven : option ≠ .noOptionsFile)
    (commandLine : CommandLine) :
    readFlags commandLine (option.letter :: option.value) =
      .ok (option.set commandLine, .nothing) := by
  have chars {path : String} (nonempty : path ≠ "") : path.toList ≠ [] := by simpa using nonempty
  cases option with
  | templateDirectory path =>
      have read := readFlags_valueFlag .templateDirectory (chars writable) commandLine
      rwa [String.ofList_toList] at read
  | output path =>
      have read := readFlags_valueFlag .output (chars writable) commandLine
      rwa [String.ofList_toList] at read
  | define name value =>
      have read := @readFlags_valueFlag .define (name.toList ++ '=' :: value.toList) (by simp)
        commandLine
      rwa [setValue_define writable.1 writable.2] at read
  | noOptionsFile => exact absurd rfl isGiven
  | optionsFile path =>
      have hasValue : path.toList.isEmpty = false := List.isEmpty_eq_false_iff.mpr (chars writable)
      have noFlag : commandLine.setFlag? 'f' = none := rfl
      rw [letter, value, readFlags, noFlag]
      simp only [if_true, hasValue, set, String.ofList_toList]
      rfl

/-- An options file that is left out leaves open whether the next word is one. -/
theorem readFlags_noOptionsFile (commandLine : CommandLine) :
    readFlags commandLine (noOptionsFile.letter :: noOptionsFile.value) =
      .ok (commandLine, .optionsFile) := rfl

end LastOption

/-- Flags at the start of a word are set before its rest is read. -/
theorem readFlags_append
    (flags : List SimpleFlag)
    (rest : List Char)
    (commandLine : CommandLine) :
    readFlags commandLine (flags.map SimpleFlag.letter ++ rest) =
      readFlags (SimpleFlag.setAll flags commandLine) rest := by
  induction flags generalizing commandLine with
  | nil => rfl
  | cons flag flags inductionHypothesis =>
      rw [List.map_cons, List.cons_append, readFlags, flag.setFlag?_letter]
      exact inductionHypothesis (flag.set commandLine)

/-- A word of options. -/
inductive OptionWord where
  /-- Flags without values. -/
  | cluster (first : SimpleFlag) (others : List SimpleFlag)
  /-- An option, with flags in front of it. -/
  | ended (flags : List SimpleFlag) (last : LastOption)
  /-- The long option. -/
  | emitTemplate
deriving DecidableEq, Repr

namespace OptionWord

/-- The text of a word. -/
def text : OptionWord → String
  | .cluster first others => .ofList ('-' :: (first :: others).map SimpleFlag.letter)
  | .ended flags last =>
      .ofList ('-' :: (flags.map SimpleFlag.letter ++ last.letter :: last.value))
  | .emitTemplate => "--emit-template"

/-- Set what a word says. -/
def set (word : OptionWord) (commandLine : CommandLine) : CommandLine :=
  match word with
  | .cluster first others => SimpleFlag.setAll (first :: others) commandLine
  | .ended flags last => last.set (SimpleFlag.setAll flags commandLine)
  | .emitTemplate => { commandLine with emitTemplate := true }

/-- Set what words say, from the left. -/
def setAll (words : List OptionWord) (commandLine : CommandLine) : CommandLine :=
  words.foldl (fun reached word => word.set reached) commandLine

/-- The words that say each flag and each option of a word alone. -/
def separate : OptionWord → List OptionWord
  | .cluster first others => (first :: others).map (.cluster · [])
  | .ended flags last => flags.map (.cluster · []) ++ [.ended [] last]
  | .emitTemplate => [.emitTemplate]

/-- A word can be written when its last option can. -/
def IsWritable : OptionWord → Prop
  | .cluster _ _ => True
  | .ended _ last => last.IsWritable
  | .emitTemplate => True

/-- Flags that are separate words set the same. -/
theorem setAll_flags
    (flags : List SimpleFlag)
    (commandLine : CommandLine) :
    setAll (flags.map (.cluster · [])) commandLine = SimpleFlag.setAll flags commandLine := by
  induction flags generalizing commandLine with
  | nil => rfl
  | cons flag flags inductionHypothesis => exact inductionHypothesis (flag.set commandLine)

theorem setAll_append
    (words others : List OptionWord)
    (commandLine : CommandLine) :
    setAll (words ++ others) commandLine = setAll others (setAll words commandLine) :=
  List.foldl_append

/-- A word sets what its flags and its last option set as separate words. -/
theorem setAll_separate
    (word : OptionWord)
    (commandLine : CommandLine) :
    setAll word.separate commandLine = word.set commandLine := by
  cases word with
  | cluster first others => exact setAll_flags (first :: others) commandLine
  | ended flags last =>
      rw [separate, setAll_append, setAll_flags]
      rfl
  | emitTemplate => rfl

theorem setAll_flatMap_separate
    (words : List OptionWord)
    (commandLine : CommandLine) :
    setAll (words.flatMap separate) commandLine = setAll words commandLine := by
  induction words generalizing commandLine with
  | nil => rfl
  | cons word words inductionHypothesis =>
      rw [List.flatMap_cons, setAll_append, setAll_separate, inductionHypothesis]
      rfl

/-- A word can be written when its separate words can. -/
theorem isWritable_of_separate
    {word : OptionWord}
    (writable : ∀ part ∈ word.separate, part.IsWritable) :
    word.IsWritable := by
  cases word with
  | cluster first others => trivial
  | ended flags last => exact writable (.ended [] last) (by simp [separate])
  | emitTemplate => trivial

/-- A word of options starts with a dash. -/
theorem head?_text (word : OptionWord) : word.text.toList.head? = some '-' := by
  cases word with
  | cluster first others => simp [text]
  | ended flags last => simp [text]
  | emitTemplate => rfl

/-- The letters of a word of flags and an option, which is none of the long words. -/
theorem flags?_ofList
    {first : Char}
    (noDash : first ≠ '-')
    (letters : List Char) :
    flags? (.ofList ('-' :: first :: letters)) = some (first :: letters) ∧
      String.ofList ('-' :: first :: letters) ≠ "--" ∧
      String.ofList ('-' :: first :: letters) ≠ "--emit-template" := by
  have differs {text : String} {rest : List Char} (spelled : text.toList = '-' :: '-' :: rest) :
      String.ofList ('-' :: first :: letters) ≠ text := by
    rintro rfl
    rw [String.toList_ofList, List.cons.injEq, List.cons.injEq] at spelled
    exact noDash spelled.2.1
  refine ⟨?_, differs rfl, differs rfl⟩
  simp only [flags?, String.toList_ofList]

/-- The letters of a word whose last option has a value start with no dash. -/
theorem exists_letters_eq_cons
    (flags : List SimpleFlag)
    (last : LastOption) :
    ∃ first rest, flags.map SimpleFlag.letter ++ last.letter :: last.value = first :: rest ∧
      first ≠ '-' := by
  cases flags with
  | nil => exact ⟨_, _, rfl, last.letter_ne_dash⟩
  | cons flag flags => exact ⟨_, _, rfl, flag.letter_ne_dash⟩

/-- A word of options is read in front of another word with a dash: it sets what it says. -/
theorem readWords_text
    {word : OptionWord}
    (writable : word.IsWritable)
    {next : String}
    (startsWithDash : next.toList.head? = some '-')
    (following : List String)
    (commandLine : CommandLine) :
    readWords commandLine (word.text :: next :: following) =
      readWords (word.set commandLine) (next :: following) := by
  cases word with
  | cluster first others =>
      obtain ⟨letters, notEnd, notLong⟩ :=
        flags?_ofList first.letter_ne_dash (others.map SimpleFlag.letter)
      have read := readFlags_append (first :: others) [] commandLine
      rw [List.append_nil] at read
      rw [text, List.map_cons, readWords, if_neg notEnd, if_neg notLong, letters]
      simp only [← List.map_cons, read]
      rfl
  | ended flags last =>
      obtain ⟨first, rest, spelled, noDash⟩ := exists_letters_eq_cons flags last
      obtain ⟨letters, notEnd, notLong⟩ := flags?_ofList noDash rest
      have read := readFlags_append flags (last.letter :: last.value) commandLine
      rw [spelled] at read
      rw [text, spelled, readWords, if_neg notEnd, if_neg notLong, letters]
      by_cases isLeftOut : last = .noOptionsFile
      · subst isLeftOut
        have noFile : isOptionsFile next following = false := by
          simp [isOptionsFile, startsWithDash]
        simp only [read, LastOption.readFlags_noOptionsFile]
        change (if isOptionsFile next following = true then _ else _) = _
        rw [noFile]
        rfl
      · simp only [read, LastOption.readFlags_letter_value writable isLeftOut]
        rfl
  | emitTemplate =>
      rw [text, readWords, if_neg (by decide), if_pos rfl]
      rfl

/-- Words of options are read up to the end of the options: each sets what it says. -/
theorem readWords_texts
    {words : List OptionWord}
    (writable : ∀ word ∈ words, word.IsWritable)
    (operands : List String)
    (commandLine : CommandLine) :
    readWords commandLine (words.map text ++ "--" :: operands) =
      .ok (setAll words commandLine, operands) := by
  induction words generalizing commandLine with
  | nil =>
      rw [List.map_nil, List.nil_append, readWords, if_pos rfl]
      rfl
  | cons word words inductionHypothesis =>
      rw [List.forall_mem_cons] at writable
      obtain ⟨next, following, isNext, startsWithDash⟩ :
          ∃ next following, words.map text ++ "--" :: operands = next :: following ∧
            next.toList.head? = some '-' := by
        cases words with
        | nil => exact ⟨_, _, rfl, rfl⟩
        | cons second words => exact ⟨_, _, rfl, second.head?_text⟩
      rw [List.map_cons, List.cons_append, isNext,
        readWords_text writable.1 startsWithDash following commandLine, ← isNext,
        inductionHypothesis writable.2]
      rfl

end OptionWord

/-! ## Command lines as words -/

/-- The paths and names of a command line can be written as the values of options. -/
structure IsWritable (commandLine : CommandLine) : Prop where
  /-- The directory of templates has a path. -/
  templateDirectory : commandLine.templateDirectory ≠ some ""
  /-- The output file has a path. -/
  output : commandLine.output ≠ some ""
  /-- The defined names have characters, none of which is an equals sign. -/
  defines : ∀ define ∈ commandLine.defines, define.1 ≠ "" ∧ '=' ∉ define.1.toList
  /-- The options file has a path, if there is one. -/
  optionsFile : commandLine.optionsFile ≠ .explicit ""

/-- The words that name the options file. -/
def optionsFileWords : OptionsFile → List OptionWord
  | .search => []
  | .skip => [.ended [] .noOptionsFile]
  | .explicit path => [.ended [] (.optionsFile path)]

/-- The options of a command line, each in a word of its own. -/
def options (commandLine : CommandLine) : List OptionWord :=
  (if commandLine.strict then [.cluster .strict []] else []) ++
    (if commandLine.offline then [.cluster .offline []] else []) ++
    (if commandLine.debug then [.cluster .debug []] else []) ++
    (if commandLine.emitTemplate then [.emitTemplate] else []) ++
    commandLine.templateDirectory.toList.map (fun path => .ended [] (.templateDirectory path)) ++
    commandLine.output.toList.map (fun path => .ended [] (.output path)) ++
    commandLine.defines.map (fun define => .ended [] (.define define.1 define.2)) ++
    optionsFileWords commandLine.optionsFile

/-- The operands that name a document: a path, or a dash or nothing for the standard input. -/
inductive NamesInput : Option String → List String → Prop
  /-- Nothing stands for the standard input. -/
  | absent : NamesInput none []
  /-- A dash stands for the standard input. -/
  | dash : NamesInput none ["-"]
  /-- A path that is not a dash stands for itself. -/
  | path {path : String} (notDash : path ≠ "-") : NamesInput (some path) [path]

/-- The words of options and operands, with the end of the options between them. -/
def wordsOf (words : List OptionWord) (operands : List String) : List String :=
  words.map OptionWord.text ++ "--" :: operands

/-- Definitions are added in order. -/
theorem setAll_defines
    (defines : List (String × String))
    (commandLine : CommandLine) :
    OptionWord.setAll
        (defines.map fun define => .ended [] (.define define.1 define.2)) commandLine =
      { commandLine with defines := commandLine.defines ++ defines } := by
  induction defines generalizing commandLine with
  | nil => simp [OptionWord.setAll]
  | cons define defines inductionHypothesis =>
      have following := inductionHypothesis
        { commandLine with defines := commandLine.defines ++ [define] }
      rw [List.append_assoc] at following
      exact following

/-- The options of a command line set all of it but the document. -/
theorem setAll_options (commandLine : CommandLine) :
    OptionWord.setAll commandLine.options empty = { commandLine with input := none } := by
  obtain ⟨optionsFile, templateDirectory, output, defines, strict, offline, debug, emitTemplate,
    input⟩ := commandLine
  have strictSet (on : Bool) (reached : CommandLine) :
      OptionWord.setAll (if on then [.cluster .strict []] else []) reached =
        { reached with strict := on || reached.strict } := by
    cases on <;> rfl
  have offlineSet (on : Bool) (reached : CommandLine) :
      OptionWord.setAll (if on then [.cluster .offline []] else []) reached =
        { reached with offline := on || reached.offline } := by
    cases on <;> rfl
  have debugSet (on : Bool) (reached : CommandLine) :
      OptionWord.setAll (if on then [.cluster .debug []] else []) reached =
        { reached with debug := on || reached.debug } := by
    cases on <;> rfl
  have emitSet (on : Bool) (reached : CommandLine) :
      OptionWord.setAll (if on then [.emitTemplate] else []) reached =
        { reached with emitTemplate := on || reached.emitTemplate } := by
    cases on <;> rfl
  have directorySet (path? : Option String) (reached : CommandLine) :
      OptionWord.setAll (path?.toList.map fun path => .ended [] (.templateDirectory path)) reached =
        { reached with templateDirectory := path?.or reached.templateDirectory } := by
    cases path? <;> rfl
  have outputSet (path? : Option String) (reached : CommandLine) :
      OptionWord.setAll (path?.toList.map fun path => .ended [] (.output path)) reached =
        { reached with output := path?.or reached.output } := by
    cases path? <;> rfl
  simp only [options, OptionWord.setAll_append, strictSet, offlineSet, debugSet, emitSet,
    directorySet, outputSet, setAll_defines]
  cases optionsFile <;>
    simp [optionsFileWords, OptionWord.setAll, OptionWord.set, LastOption.set, SimpleFlag.setAll,
      empty]

/-- Each option of a command line is a word of its own, which can be written. -/
theorem of_mem_options
    {commandLine : CommandLine}
    {word : OptionWord}
    (among : word ∈ commandLine.options) :
    word.separate = [word] ∧ (commandLine.IsWritable → word.IsWritable) := by
  have only {on : Bool} {other : OptionWord} (isWord : word ∈ if on then [other] else []) :
      word = other := by
    cases on with
    | false => simp at isWord
    | true => simpa using isWord
  simp only [options, List.mem_append, List.mem_map, Option.mem_toList] at among
  rcases among with ((((((isStrict | isOffline) | isDebug) | isEmitted) | isDirectory) | isOutput) |
    isDefine) | isOptionsFile
  · obtain rfl := only isStrict
    exact ⟨rfl, fun _ => trivial⟩
  · obtain rfl := only isOffline
    exact ⟨rfl, fun _ => trivial⟩
  · obtain rfl := only isDebug
    exact ⟨rfl, fun _ => trivial⟩
  · obtain rfl := only isEmitted
    exact ⟨rfl, fun _ => trivial⟩
  · obtain ⟨path, isPath, rfl⟩ := isDirectory
    refine ⟨rfl, fun writable => ?_⟩
    rintro rfl
    exact writable.templateDirectory isPath
  · obtain ⟨path, isPath, rfl⟩ := isOutput
    refine ⟨rfl, fun writable => ?_⟩
    rintro rfl
    exact writable.output isPath
  · obtain ⟨define, isDefined, rfl⟩ := isDefine
    exact ⟨rfl, fun writable => writable.defines define isDefined⟩
  · cases named : commandLine.optionsFile with
    | search => simp [named, optionsFileWords] at isOptionsFile
    | skip =>
        obtain rfl : word = .ended [] .noOptionsFile := by
          simpa [named, optionsFileWords] using isOptionsFile
        exact ⟨rfl, fun _ => trivial⟩
    | explicit path =>
        obtain rfl : word = .ended [] (.optionsFile path) := by
          simpa [named, optionsFileWords] using isOptionsFile
        refine ⟨rfl, fun writable => ?_⟩
        rintro rfl
        exact writable.optionsFile named

/-- Words that are separate stay as they are. -/
theorem flatMap_separate_eq_self
    {words : List OptionWord}
    (separate : ∀ word ∈ words, word.separate = [word]) :
    words.flatMap OptionWord.separate = words := by
  induction words with
  | nil => rfl
  | cons word words inductionHypothesis =>
      rw [List.forall_mem_cons] at separate
      rw [List.flatMap_cons, separate.1, inductionHypothesis separate.2, List.singleton_append]

/-- Words that set a command line but for its document are read as it, with its operands. -/
theorem parse_wordsOf
    {commandLine : CommandLine}
    {words : List OptionWord}
    {operands : List String}
    (writable : ∀ word ∈ words, word.IsWritable)
    (sets : OptionWord.setAll words empty = { commandLine with input := none })
    (namesInput : NamesInput commandLine.input operands) :
    parse (wordsOf words operands) = .ok commandLine := by
  rw [parse, wordsOf, OptionWord.readWords_texts writable, sets]
  obtain ⟨optionsFile, templateDirectory, output, defines, strict, offline, debug, emitTemplate,
    input⟩ := commandLine
  cases namesInput with
  | absent => rfl
  | dash => rfl
  | path notDash => simp [bind, Except.bind, pure, Except.pure, notDash]

/--
A command line is read back from its options, each in a word of its own, the end of the options and
the operand that names its document.  Flags next to each other may share a word, also with an option
behind them: all words that say the same one by one are read as the same command line.
-/
theorem parse_written
    {commandLine : CommandLine}
    (writable : commandLine.IsWritable)
    {operands : List String}
    (namesInput : NamesInput commandLine.input operands) :
    parse (wordsOf commandLine.options operands) = .ok commandLine ∧
      ∀ words : List OptionWord, words.flatMap OptionWord.separate = commandLine.options →
        parse (wordsOf words operands) = .ok commandLine := by
  have grouped : ∀ words : List OptionWord,
      words.flatMap OptionWord.separate = commandLine.options →
        parse (wordsOf words operands) = .ok commandLine := by
    intro words same
    refine parse_wordsOf (fun word among => ?_) ?_ namesInput
    · refine OptionWord.isWritable_of_separate fun part isPart => ?_
      have isOption : part ∈ commandLine.options :=
        same ▸ List.mem_flatMap.mpr ⟨word, among, isPart⟩
      exact (of_mem_options isOption).2 writable
    · rw [← OptionWord.setAll_flatMap_separate, same, setAll_options]
  exact ⟨grouped _ (flatMap_separate_eq_self fun word among => (of_mem_options among).1), grouped⟩

/-- Two flags share a word with a directory that looks like a flag. -/
theorem parse_written_shared :
    let commandLine : CommandLine :=
      ⟨.skip, some "-t=", some "o", [("a", "-=b"), ("a", "")], true, false, true, false, some "--"⟩
    commandLine.IsWritable ∧ NamesInput commandLine.input ["--"] ∧
      parse ["-s", "-d", "-T-t=", "-oo", "-Da=-=b", "-Da=", "-f", "--", "--"] = .ok commandLine ∧
      parse ["-sdT-t=", "-oo", "-Da=-=b", "-Da=", "-f", "--", "--"] = .ok commandLine := by
  intro commandLine
  have writable : commandLine.IsWritable := ⟨by decide, by decide, by decide, by decide⟩
  have namesInput : NamesInput commandLine.input ["--"] := .path (by decide)
  obtain ⟨alone, grouped⟩ := parse_written writable namesInput
  have shared := grouped [.ended [.strict, .debug] (.templateDirectory "-t="),
    .ended [] (.output "o"), .ended [] (.define "a" "-=b"), .ended [] (.define "a" ""),
    .ended [] .noOptionsFile] (by decide)
  exact ⟨writable, namesInput, alone, shared⟩

end CommandLine
end TemplatedMarkup
