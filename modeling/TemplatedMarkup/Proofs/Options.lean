import Mathlib.Data.List.Basic
import Mathlib.Data.List.Forall2
import TemplatedMarkup.Options
import TemplatedMarkup.Proofs.Text.Trim

/-!
# Lines that set options

A change of options succeeds on all options, or fails on all of them for one reason and leaves them
as they are.  So it can be said of a line alone whether it fails, and a line that does has no effect
but its report: with blank lines in the place of all lines that fail, an options file sets the same
options.

Arguments that are written between double quotes, with a backslash in front of each backslash and
each double quote in them, are read back, whatever characters they are made of.  Behind such an
argument the scanner is outside quotes and has all of the argument and nothing else, until the blank
in front of the next one finishes it.  Only empty arguments are lost.  A line on which arguments are
written in this way sets an option by just these.
-/

namespace TemplatedMarkup

/-! ## Changes that fail -/

/-- What a change does does not hang on the options, and it leaves them alone when it fails. -/
inductive OptionChange.IsAtomic (change : OptionChange Unit) : Prop
  /-- The change succeeds. -/
  | succeeds
      (changed : Options → Options)
      (outcome : ∀ options, change.apply options = (.ok (), changed options))
  /-- The change fails for a reason. -/
  | fails
      (cause : OptionError)
      (outcome : ∀ options, change.apply options = (.error cause, options))

namespace OptionChange

theorem isAtomic_throw (cause : OptionError) : IsAtomic (throw cause) :=
  .fails cause fun _ => rfl

theorem isAtomic_modify (changed : Options → Options) : IsAtomic (modify changed) :=
  .succeeds changed fun _ => rfl

/-- A value is read before the options are changed. -/
theorem isAtomic_modify_of_read
    {Read : Type}
    (read : Except OptionError Read)
    (changed : Read → Options → Options) :
    IsAtomic (do modify (changed (← read))) := by
  cases read with
  | error cause => exact .fails cause fun _ => rfl
  | ok value => exact .succeeds (changed value) fun _ => rfl

variable {change : OptionChange Unit} {options left : Options} {cause : OptionError}

/-- A change that fails leaves the options as they are. -/
theorem IsAtomic.eq_of_apply_eq_error
    (isAtomic : change.IsAtomic)
    (failed : change.apply options = (.error cause, left)) :
    left = options := by
  cases isAtomic with
  | succeeds changed outcome =>
      rw [outcome] at failed
      cases failed
  | fails other outcome =>
      rw [outcome] at failed
      exact (congrArg Prod.snd failed).symm

end OptionChange

namespace Options

theorem isAtomic_assign (name value : String) : (assign name value).IsAtomic := by
  unfold assign
  split
  · exact OptionChange.isAtomic_modify_of_read (readFlag value) _
  · split
    · exact OptionChange.isAtomic_throw _
    · exact OptionChange.isAtomic_modify _
  · exact OptionChange.isAtomic_modify _
  · exact OptionChange.isAtomic_modify_of_read (readProbe value) _
  · exact OptionChange.isAtomic_modify_of_read (readTimeout value) _
  · exact OptionChange.isAtomic_throw _

theorem isAtomic_assignFromArguments (arguments : List (List Char)) :
    (assignFromArguments arguments).IsAtomic := by
  cases arguments with
  | nil => exact OptionChange.isAtomic_throw _
  | cons first others =>
      rw [assignFromArguments]
      split
      · exact OptionChange.isAtomic_throw _
      · split
        · exact OptionChange.isAtomic_throw _
        · exact isAtomic_assign _ _

/-! ## Lines that fail -/

/-- Why a line fails, if it is to set an option and fails. -/
def failure? (line : List Char) : Option OptionError := do
  let arguments ← settingOnLine? line
  match ((assignFromArguments arguments).apply default).1 with
  | .ok () => none
  | .error cause => some cause

/-- The options that a line leaves. -/
def afterLine (options : Options) (line : List Char) : Options :=
  match settingOnLine? line with
  | none => options
  | some arguments => ((assignFromArguments arguments).apply options).2

/-- The lines that fail, with their numbers, the first of which is given. -/
def failures (number : Nat) (lines : List (List Char)) : List OptionLineError :=
  (lines.zipIdx number).filterMap fun (line, number) => (failure? line).map (⟨number, ·⟩)

section Lines

variable
  {line : List Char}
  {lines : List (List Char)}
  {cause : OptionError}

/-- A line fails on all options or on none, and leaves those on which it fails. -/
theorem failure?_eq_some_iff (options : Options) :
    failure? line = some cause ↔
      ∃ arguments, settingOnLine? line = some arguments ∧
        (assignFromArguments arguments).apply options = (.error cause, options) := by
  rw [failure?]
  cases settingOnLine? line with
  | none => simp
  | some arguments =>
      cases isAtomic_assignFromArguments arguments with
      | succeeds changed outcome => simp [outcome]
      | fails other outcome => simp [outcome]

/-- A line that fails leaves all options as they are. -/
theorem afterLine_of_failure
    (failed : failure? line = some cause)
    (options : Options) :
    afterLine options line = options := by
  obtain ⟨arguments, isSetting, outcome⟩ := (failure?_eq_some_iff options).mp failed
  rw [afterLine, isSetting]
  exact congrArg Prod.snd outcome

theorem failure?_of_none (nothing : settingOnLine? line = none) : failure? line = none := by
  rw [failure?, nothing]
  rfl

theorem afterLine_of_none
    (nothing : settingOnLine? line = none)
    (options : Options) :
    afterLine options line = options := by
  rw [afterLine, nothing]

theorem failures_cons_of_failure
    (failed : failure? line = some cause)
    (number : Nat) :
    failures number (line :: lines) = ⟨number, cause⟩ :: failures (number + 1) lines := by
  rw [failures, List.zipIdx_cons, List.filterMap_cons_some (by simp [failed]; rfl)]
  rfl

theorem failures_cons_of_none
    (passed : failure? line = none)
    (number : Nat) :
    failures number (line :: lines) = failures (number + 1) lines := by
  rw [failures, List.zipIdx_cons, List.filterMap_cons_none (by simp [passed])]
  rfl

/-- A line that sets an option leaves the lines behind it to be read. -/
theorem run_readLines_of_ok
    {arguments : List (List Char)}
    (isSetting : settingOnLine? line = some arguments)
    {options left : Options}
    (outcome : (assignFromArguments arguments).apply options = (.ok (), left))
    (number : Nat) :
    (readLines number (line :: lines)).run options = (readLines (number + 1) lines).run left := by
  rw [OptionChange.apply] at outcome
  rw [readLines, isSetting]
  simp only [StateT.run_bind, outcome]
  rfl

/-- A line that fails is reported before the lines behind it are read. -/
theorem run_readLines_of_error
    {arguments : List (List Char)}
    (isSetting : settingOnLine? line = some arguments)
    {options left : Options}
    (outcome : (assignFromArguments arguments).apply options = (.error cause, left))
    (number : Nat) :
    (readLines number (line :: lines)).run options =
      ((readLines (number + 1) lines).run left).map (⟨number, cause⟩ :: ·) id := by
  rw [OptionChange.apply] at outcome
  rw [readLines, isSetting]
  simp only [StateT.run_bind, outcome]
  rfl

/-- Lines are read one after the other: each that fails is reported, and no other one. -/
theorem run_readLines (number : Nat) (lines : List (List Char)) (options : Options) :
    (readLines number lines).run options =
      (failures number lines, lines.foldl afterLine options) := by
  induction lines generalizing number options with
  | nil => rfl
  | cons line lines inductionHypothesis =>
      cases isSetting : settingOnLine? line with
      | none =>
          rw [readLines, isSetting, failures_cons_of_none (failure?_of_none isSetting),
            List.foldl_cons, afterLine_of_none isSetting]
          exact inductionHypothesis (number + 1) options
      | some arguments =>
          have left :
              afterLine options line = ((assignFromArguments arguments).apply options).2 := by
            rw [afterLine, isSetting]
          cases isAtomic_assignFromArguments arguments with
          | succeeds changed outcome =>
              have passed : failure? line = none := by
                rw [failure?, isSetting, Option.bind_eq_bind, Option.bind_some, outcome]
              rw [run_readLines_of_ok isSetting (outcome options), failures_cons_of_none passed,
                List.foldl_cons, left, outcome]
              exact inductionHypothesis (number + 1) (changed options)
          | fails cause outcome =>
              have failed : failure? line = some cause :=
                (failure?_eq_some_iff options).mpr ⟨arguments, isSetting, outcome options⟩
              rw [run_readLines_of_error isSetting (outcome options),
                failures_cons_of_failure failed, List.foldl_cons, left, outcome,
                inductionHypothesis]
              rfl

/-! ## Lines that are replaced -/

/-- A blank line sets nothing. -/
theorem settingOnLine?_of_blank
    (isBlank : ∀ character ∈ line, Text.isBlank character = true) :
    settingOnLine? line = none := by
  rw [settingOnLine?, Text.trimWhere_eq_nil_iff.mpr isBlank]

/-- A line that stands in the place of another: a blank one if that fails, and otherwise the line
itself. -/
inductive Replaces (line : List Char) : List Char → Prop
  | blank {cause : OptionError} {other : List Char} :
      failure? line = some cause →
      (∀ character ∈ other, Text.isBlank character = true) →
      Replaces line other
  | self : failure? line = none → Replaces line line

/-- A line in the place of another does not fail, and leaves the same options. -/
theorem Replaces.sound
    {other : List Char}
    (replaces : Replaces line other) :
    failure? other = none ∧ ∀ options, afterLine options other = afterLine options line := by
  cases replaces with
  | blank failed isBlank =>
      have nothing := settingOnLine?_of_blank isBlank
      refine ⟨failure?_of_none nothing, fun options => ?_⟩
      rw [afterLine_of_none nothing, afterLine_of_failure failed]
  | self passed => exact ⟨passed, fun _ => rfl⟩

/-- Lines in the place of others leave the same options, and none of them fails. -/
theorem run_readLines_of_replaces
    {others : List (List Char)}
    (replaced : List.Forall₂ Replaces lines others)
    (number : Nat)
    (options : Options) :
    (readLines number others).run options = ([], ((readLines number lines).run options).2) := by
  rw [run_readLines, run_readLines]
  induction replaced generalizing number options with
  | nil => rfl
  | @cons line other lines others isReplaced _ inductionHypothesis =>
      obtain ⟨passed, left⟩ := isReplaced.sound
      rw [failures_cons_of_none passed, List.foldl_cons, List.foldl_cons, left]
      exact inductionHypothesis (number + 1) (afterLine options line)

/-- The carriage returns of lines do not count. -/
theorem readLines_map_dropCarriageReturn_append
    (number : Nat)
    (lines behind : List (List Char)) :
    readLines number (lines.map Text.dropCarriageReturn ++ behind) =
      readLines number (lines ++ behind) := by
  induction lines generalizing number with
  | nil => rfl
  | cons line lines inductionHypothesis =>
      have same : settingOnLine? (Text.dropCarriageReturn line) = settingOnLine? line := by
        rw [settingOnLine?, settingOnLine?, Text.trimWhere_dropCarriageReturn]
      rw [List.map_cons, List.cons_append, List.cons_append, readLines, readLines, same,
        inductionHypothesis]

/-- An empty last line does not count. -/
theorem readLines_append_nil (number : Nat) (lines : List (List Char)) :
    readLines number (lines ++ [[]]) = readLines number lines := by
  induction lines generalizing number with
  | nil => rfl
  | cons line lines inductionHypothesis =>
      rw [List.cons_append, readLines, readLines, inductionHypothesis]

end Lines

/-! ## Files -/

/-- The lines of a text are read as what stands between its line feeds. -/
theorem readLines_lineLists (number : Nat) (text : List Char) :
    readLines number (Text.lineLists text) = readLines number (text.splitOn '\n') := by
  obtain ⟨front, last, isSplit⟩ :=
    (List.eq_nil_or_concat' (text.splitOn '\n')).resolve_left (List.splitOn_ne_nil '\n' text)
  rw [Text.lineLists, isSplit]
  simp only [List.dropLast_concat, List.getLast?_concat, Option.toList_some]
  rw [readLines_map_dropCarriageReturn_append]
  cases last with
  | nil => rw [readLines_append_nil, List.filter_cons_of_neg (by simp), List.filter_nil,
      List.append_nil]
  | cons first rest => rfl

/-- A text in the place of another: between its line feeds stands what takes the place of the lines
of the other. -/
def ReplacesFailures (text other : String) : Prop :=
  List.Forall₂ Replaces (text.toList.splitOn '\n') (other.toList.splitOn '\n')

/-- A text with nothing in the place of its lines that fail. -/
def withoutFailures (text : String) : String :=
  .ofList (['\n'].intercalate ((text.toList.splitOn '\n').map fun line =>
    if (failure? line).isSome then [] else line))

theorem replacesFailures_withoutFailures (text : String) :
    ReplacesFailures text (withoutFailures text) := by
  rw [ReplacesFailures, withoutFailures, String.toList_ofList, List.splitOn_intercalate]
  · rw [List.forall₂_map_right_iff, List.forall₂_same]
    intro line _
    cases failed : failure? line with
    | none => exact .self failed
    | some cause => exact .blank failed (by simp)
  · intro other among
    obtain ⟨line, isLine, rfl⟩ := List.mem_map.mp among
    split
    · exact List.not_mem_nil
    · exact Text.not_mem_of_mem_splitOn isLine
  · simp [List.splitOn_ne_nil]

/-- An options file reports its lines that fail, in order and with their numbers, and they have no
other effect: with blank lines in their place the file sets the same options and reports nothing.
Whether a line fails does not hang on the options, which a change that fails leaves as they are. -/
theorem read_reports_failures (text : String) :
    (read text).2 = failures 1 (Text.lineLists text.toList) ∧
      (∀ other, ReplacesFailures text other → read other = ((read text).1, [])) ∧
      ReplacesFailures text (withoutFailures text) ∧
      (∀ options line cause, failure? line = some cause ↔
        ∃ arguments, settingOnLine? line = some arguments ∧
          (assignFromArguments arguments).apply options = (.error cause, options)) ∧
      (∀ options left name value cause,
        (assign name value).apply options = (.error cause, left) → left = options) ∧
      ∀ options left arguments cause,
        (assignFromArguments arguments).apply options = (.error cause, left) → left = options := by
  refine ⟨?_, fun other replaced => ?_, replacesFailures_withoutFailures text, ?_, ?_, ?_⟩
  · rw [read, run_readLines]
  · rw [read, readLines_lineLists, run_readLines_of_replaces replaced, ← readLines_lineLists]
    rfl
  · exact fun options line cause => failure?_eq_some_iff options
  · intro options left name value cause failed
    exact (isAtomic_assign name value).eq_of_apply_eq_error failed
  · intro options left arguments cause failed
    exact (isAtomic_assignFromArguments arguments).eq_of_apply_eq_error failed

/-- The last value that can be read stays. -/
example :
    read "/set strict on\n/set strict maybe\n/set probe off\n/set size 1" =
      (⟨true, Template.basePageName, none, .offline, 2000⟩,
        [⟨2, .notAFlag "maybe"⟩, ⟨4, .unknownOption "size"⟩]) := by
  cbv

/-! ## Writing arguments -/

/-- A character of an argument between double quotes: a backslash stands in front of backslashes
and double quotes. -/
def escapeInArgument (character : Char) : List Char :=
  if character = '\\' ∨ character = '"' then ['\\', character] else [character]

/-- An argument between double quotes. -/
def quoteArgument (argument : List Char) : List Char :=
  '"' :: (argument.flatMap escapeInArgument ++ ['"'])

/-- Arguments between double quotes, with a space between neighbours. -/
def quoteArguments (arguments : List (List Char)) : List Char :=
  [' '].intercalate (arguments.map quoteArgument)

theorem quoteArguments_singleton (argument : List Char) :
    quoteArguments [argument] = quoteArgument argument := by
  rw [quoteArguments, List.map_singleton, List.intercalate_singleton]

theorem quoteArguments_cons_cons (first second : List Char) (others : List (List Char)) :
    quoteArguments (first :: second :: others) =
      quoteArgument first ++ ' ' :: quoteArguments (second :: others) := by
  simp only [quoteArguments, List.map_cons, List.intercalate_cons_cons, List.append_assoc,
    List.singleton_append]

/-- An argument that is finished counts, unless it is empty. -/
theorem finishedArgument_reverse (argument : List Char) :
    finishedArgument argument.reverse = [argument].filter (!·.isEmpty) := by
  cases argument <;> simp [finishedArgument]

/-! ## Scanning characters -/

section Scanning

variable
  {argument rest : List Char}
  {character : Char}

/-- What the scanner does at a character other than a backslash. -/
theorem splitFrom_cons
    (noBackslash : character ≠ '\\')
    (quoted : Bool) :
    splitFrom argument quoted (character :: rest) =
      if character = '"' then splitFrom argument (!quoted) rest
      else if Text.isAsciiBlank character && !quoted then
        finishedArgument argument ++ splitFrom [] quoted rest
      else splitFrom (character :: argument) quoted rest := by
  rw [splitFrom]
  · simp [noBackslash]
  · simp [noBackslash]

/-- A double quote opens or closes quotes, and belongs to no argument. -/
theorem splitFrom_quote (quoted : Bool) :
    splitFrom argument quoted ('"' :: rest) = splitFrom argument (!quoted) rest := by
  rw [splitFrom_cons (by decide), if_pos rfl]

/-- A blank outside quotes finishes an argument. -/
theorem splitFrom_blank (isBlank : Text.isAsciiBlank character = true) :
    splitFrom argument false (character :: rest) =
      finishedArgument argument ++ splitFrom [] false rest := by
  have noBackslash : character ≠ '\\' := by
    rintro rfl
    exact absurd isBlank (by decide)
  have noQuote : character ≠ '"' := by
    rintro rfl
    exact absurd isBlank (by decide)
  rw [splitFrom_cons noBackslash, if_neg noQuote, if_pos (by simp [isBlank])]

/-- Every character that is written inside quotes goes on with the argument. -/
theorem splitFrom_escapeInArgument :
    splitFrom argument true (escapeInArgument character ++ rest) =
      splitFrom (character :: argument) true rest := by
  rw [escapeInArgument]
  split
  · -- The backslash in front takes the character as it is.
    rfl
  · rename_i plain
    obtain ⟨noBackslash, noQuote⟩ := not_or.mp plain
    rw [List.singleton_append, splitFrom_cons noBackslash, if_neg noQuote, if_neg (by simp)]

end Scanning

/-! ## Scanning arguments -/

/-- Inside quotes, a text that is written goes on with the argument. -/
theorem splitFrom_flatMap_escapeInArgument (text argument rest : List Char) :
    splitFrom argument true (text.flatMap escapeInArgument ++ rest) =
      splitFrom (text.reverse ++ argument) true rest := by
  induction text generalizing argument with
  | nil => rfl
  | cons character text inductionHypothesis =>
      rw [List.flatMap_cons, List.append_assoc, splitFrom_escapeInArgument, inductionHypothesis,
        List.reverse_cons, List.append_assoc, List.singleton_append]

/-- Behind a quoted argument the scanner is outside quotes again, and has added the argument to what
was started. -/
theorem splitFrom_quoteArgument (text argument rest : List Char) :
    splitFrom argument false (quoteArgument text ++ rest) =
      splitFrom (text.reverse ++ argument) false rest := by
  rw [quoteArgument, List.cons_append, splitFrom_quote, List.append_assoc, Bool.not_false,
    splitFrom_flatMap_escapeInArgument, List.singleton_append, splitFrom_quote, Bool.not_true]

/-- The arguments between quotes are all arguments but the empty ones. -/
theorem splitArguments_quoteArguments (arguments : List (List Char)) :
    splitArguments (quoteArguments arguments) = arguments.filter (!·.isEmpty) := by
  rw [splitArguments]
  induction arguments with
  | nil => rfl
  | cons first others inductionHypothesis =>
      cases others with
      | nil =>
          have scanned := splitFrom_quoteArgument first [] []
          rw [List.append_nil, List.append_nil] at scanned
          rw [quoteArguments_singleton, scanned, splitFrom, finishedArgument_reverse]
      | cons second others =>
          -- The space finishes the first argument and leaves the scanner as it was at the start.
          rw [quoteArguments_cons_cons, splitFrom_quoteArgument, List.append_nil,
            splitFrom_blank (by decide), finishedArgument_reverse, inductionHypothesis,
            ← List.filter_append, List.singleton_append]

/-- Quoted arguments are read back as they are, whatever characters they are made of, just when none
of them is empty. -/
theorem splitArguments_quoteArguments_eq_iff (arguments : List (List Char)) :
    splitArguments (quoteArguments arguments) = arguments ↔
      ∀ argument ∈ arguments, argument ≠ [] := by
  rw [splitArguments_quoteArguments, List.filter_eq_self]
  simp only [Bool.not_eq_true', List.isEmpty_eq_false_iff, ne_eq]

/-- Blanks, quotes and backslashes stay, and an empty argument is lost. -/
example :
    splitArguments "\"\" \"a b\" \"\\\"\\\\\"".toList = ["a b".toList, "\"\\".toList] := by
  decide

/-! ## Lines with quoted arguments -/

/-- A space in front of a text stays when the end is trimmed, unless all of the text is blank. -/
theorem trimEndWhere_space (text : List Char) :
    Text.trimEndWhere Text.isBlank (' ' :: text) = [] ∨
      ∃ rest, Text.trimEndWhere Text.isBlank (' ' :: text) = ' ' :: rest := by
  have isPrefix := Text.prefix_of_trimEndWhere Text.isBlank (' ' :: text)
  rcases List.prefix_cons_iff.mp isPrefix with nothing | ⟨rest, kept, _⟩
  · exact .inl nothing
  · exact .inr ⟨rest, kept⟩

/-- The arguments of a line that sets an option are those of what stands behind its command. -/
theorem settingOnLine?_append (text : List Char) :
    settingOnLine? ("/set".toList ++ ' ' :: text) =
      some (splitArguments (Text.trimWhere Text.isBlank text)) := by
  have stays : Text.isBlank '/' = false := by decide
  have isSpace : Text.isBlank ' ' = true := by decide
  have trimmed : Text.trimWhere Text.isBlank ("/set".toList ++ ' ' :: text) =
      "/set".toList ++ Text.trimEndWhere Text.isBlank (' ' :: text) := by
    rw [Text.trimWhere, Text.dropWhile_eq_self (by simpa using stays),
      Text.trimEndWhere_append_of_getLast? ⟨'t', by decide, by decide⟩]
  have behind : Text.trimWhere Text.isBlank (Text.trimEndWhere Text.isBlank (' ' :: text)) =
      Text.trimWhere Text.isBlank text := by
    rw [Text.trimWhere_trimEndWhere, Text.trimWhere, Text.trimWhere,
      List.dropWhile_cons_of_pos isSpace]
  rw [settingOnLine?, trimmed, ← behind]
  rcases trimEndWhere_space text with nothing | ⟨rest, kept⟩
  · rw [nothing]
    rfl
  · rw [kept]
    rfl

theorem head?_quoteArguments (first : List Char) (others : List (List Char)) :
    (quoteArguments (first :: others)).head? = some '"' := by
  cases others with
  | nil => rw [quoteArguments_singleton, quoteArgument, List.head?_cons]
  | cons second others =>
      rw [quoteArguments_cons_cons, quoteArgument, List.cons_append, List.head?_cons]

theorem getLast?_quoteArguments (first : List Char) (others : List (List Char)) :
    (quoteArguments (first :: others)).getLast? = some '"' := by
  induction others generalizing first with
  | nil =>
      rw [quoteArguments_singleton, quoteArgument, ← List.cons_append, List.getLast?_concat]
  | cons second others inductionHypothesis =>
      rw [quoteArguments_cons_cons, List.append_cons, List.getLast?_append, inductionHypothesis,
        Option.some_or]

/-- Quoted arguments have no blank at an end. -/
theorem trimWhere_quoteArguments (arguments : List (List Char)) :
    Text.trimWhere Text.isBlank (quoteArguments arguments) = quoteArguments arguments := by
  cases arguments with
  | nil => rfl
  | cons first others =>
      have stays : Text.isBlank '"' = false := by decide
      refine Text.trimWhere_eq_self ?_ ?_
      · simpa [head?_quoteArguments] using stays
      · simpa [getLast?_quoteArguments] using stays

/-- A line sets an option by the arguments that are quoted on it, without the empty ones. -/
theorem settingOnLine?_quoteArguments (arguments : List (List Char)) :
    settingOnLine? ("/set".toList ++ ' ' :: quoteArguments arguments) =
      some (arguments.filter (!·.isEmpty)) := by
  rw [settingOnLine?_append, trimWhere_quoteArguments, splitArguments_quoteArguments]

end Options
end TemplatedMarkup
