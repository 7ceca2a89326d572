import TemplatedMarkup.Proofs.CommandLine
import TemplatedMarkup.Proofs.Outcome

/-!
# Flags behind all other words

The ways in which the words of a command line are read, as a relation that says of each word what
it is: an operand, flags, a value or the options file.  Whether a word is the options file hangs on
whether another one follows it, so a flag at the end of a command line can change what the word in
front of it is; if it does not, it sets itself and nothing else.
-/

namespace TemplatedMarkup
namespace CommandLine

/-! ## How words are read -/

/-- A word starts with a dash. -/
def StartsWithDash (word : String) : Prop :=
  word.toList.head? = some '-'

instance (word : String) : Decidable (StartsWithDash word) :=
  inferInstanceAs (Decidable (word.toList.head? = some '-'))

/-- A word of flags leads from a command line to another one and leaves something open. -/
def Leaves (commandLine : CommandLine) (word : String) (next : CommandLine) (pending : Pending) :
    Prop :=
  ∃ letters, flags? word = some letters ∧ readFlags commandLine letters = .ok (next, pending)

/--
Words lead from a command line to another one and give operands.  The last word may be a lone one:
flags leave the options file open in front of it, and whether it is that file or an operand hangs on
whether a word follows.
-/
inductive Reads : CommandLine → List String → CommandLine → List String → Option String → Prop
  | nothing {commandLine : CommandLine} : Reads commandLine [] commandLine [] none
  /-- A word that is the options file only if another one follows. -/
  | loneWord {commandLine next : CommandLine} {word last : String} :
      Leaves commandLine word next .optionsFile →
      ¬StartsWithDash last →
      Reads commandLine [word, last] next [] (some last)
  /-- The long option. -/
  | emitTemplate {commandLine reached : CommandLine} {words operands : List String}
      {lone? : Option String} :
      Reads { commandLine with emitTemplate := true } words reached operands lone? →
      Reads commandLine ("--emit-template" :: words) reached operands lone?
  /-- An operand. -/
  | operand {commandLine reached : CommandLine} {word : String} {words operands : List String}
      {lone? : Option String} :
      flags? word = none →
      Reads commandLine words reached operands lone? →
      Reads commandLine (word :: words) reached (word :: operands) lone?
  /-- Flags that leave nothing open. -/
  | flags {commandLine next reached : CommandLine} {word : String} {words operands : List String}
      {lone? : Option String} :
      Leaves commandLine word next .nothing →
      Reads next words reached operands lone? →
      Reads commandLine (word :: words) reached operands lone?
  /-- Flags and the value of the last of them. -/
  | value {commandLine next set reached : CommandLine} {flag : ValueFlag} {word value : String}
      {words operands : List String} {lone? : Option String} :
      Leaves commandLine word next (.value flag) →
      next.setValue flag value = .ok set →
      Reads set words reached operands lone? →
      Reads commandLine (word :: value :: words) reached operands lone?
  /-- Flags and the options file. -/
  | optionsFile {commandLine next reached : CommandLine} {word file : String}
      {words operands : List String} {lone? : Option String} :
      Leaves commandLine word next .optionsFile →
      ¬StartsWithDash file →
      words ≠ [] →
      Reads { next with optionsFile := .explicit file } words reached operands lone? →
      Reads commandLine (word :: file :: words) reached operands lone?
  /-- Flags that leave the options file open, and no word that can be it. -/
  | noOptionsFile {commandLine next reached : CommandLine} {word : String}
      {words operands : List String} {lone? : Option String} :
      Leaves commandLine word next .optionsFile →
      (∀ following ∈ words.head?, StartsWithDash following) →
      Reads { next with optionsFile := .skip } words reached operands lone? →
      Reads commandLine (word :: words) reached operands lone?

/-- The command line and the operands when no word follows: a lone word is an operand. -/
def atEnd (reached : CommandLine) (operands : List String) :
    Option String → CommandLine × List String
  | none => (reached, operands)
  | some last => ({ reached with optionsFile := .skip }, operands ++ [last])

/-- The command line in front of another word: a lone word is the options file. -/
def onward (reached : CommandLine) : Option String → CommandLine
  | none => reached
  | some last => { reached with optionsFile := .explicit last }

/-- Read on behind flags that leave something open. -/
def readOn (next : CommandLine) :
    Pending → List String → Except UsageError (CommandLine × List String)
  | .nothing, words => readWords next words
  | .value flag, [] => .error (.valueMissing flag.letter)
  | .value flag, value :: words => do readWords (← next.setValue flag value) words
  | .optionsFile, [] => .ok ({ next with optionsFile := .skip }, [])
  | .optionsFile, file :: words =>
      if isOptionsFile file words then
        readWords { next with optionsFile := .explicit file } words
      else readWords { next with optionsFile := .skip } (file :: words)

section Reading

variable
  {commandLine next reached : CommandLine}
  {word file : String}
  {words operands : List String}
  {lone? : Option String}

/-- A word without a dash is no word of flags. -/
theorem flags?_eq_none (noDash : ¬StartsWithDash word) : flags? word = none := by
  rw [flags?]
  split
  · rename_i spelled
    exact absurd (by rw [StartsWithDash, spelled]; rfl) noDash
  · rfl

/-- A word with a dash is no options file. -/
theorem isOptionsFile_of_startsWithDash
    (startsWithDash : StartsWithDash word)
    (following : List String) :
    isOptionsFile word following = false := by
  rw [StartsWithDash] at startsWithDash
  simp [isOptionsFile, startsWithDash]

theorem readWords_emitTemplate (commandLine : CommandLine) (words : List String) :
    readWords commandLine ("--emit-template" :: words) =
      readWords { commandLine with emitTemplate := true } words := by
  rw [readWords, if_neg (by decide), if_pos rfl]

theorem readWords_operand
    (isOperand : flags? word = none)
    (commandLine : CommandLine)
    (words : List String) :
    readWords commandLine (word :: words) =
      (readWords commandLine words).map fun (reached, operands) => (reached, word :: operands) := by
  have notEnd : word ≠ "--" := by
    rintro rfl
    cases isOperand
  have notLong : word ≠ "--emit-template" := by
    rintro rfl
    cases isOperand
  rw [readWords, if_neg notEnd, if_neg notLong, isOperand]
  rfl

/-- What a word of flags leaves open is sought in the words behind it. -/
theorem readWords_flags
    {letters : List Char}
    (isFlags : flags? word = some letters)
    (notEnd : word ≠ "--")
    (notLong : word ≠ "--emit-template")
    (commandLine : CommandLine)
    (words : List String) :
    readWords commandLine (word :: words) =
      (readFlags commandLine letters).bind fun opened => readOn opened.1 opened.2 words := by
  rw [readWords, if_neg notEnd, if_neg notLong, isFlags]
  dsimp only
  cases readFlags commandLine letters with
  | error cause => rfl
  | ok result =>
      obtain ⟨next, pending⟩ := result
      cases pending <;> cases words <;> rfl

theorem Leaves.readWords_eq
    {pending : Pending}
    (leaves : Leaves commandLine word next pending)
    (words : List String) :
    readWords commandLine (word :: words) = readOn next pending words := by
  obtain ⟨letters, isFlags, read⟩ := leaves
  have fails (rest : List Char) : readFlags commandLine ('-' :: rest) ≠ .ok (next, pending) := by
    rw [readFlags]
    intro same
    cases same
  have isNone {long : String} {rest : List Char} (isLong : flags? long = some ('-' :: rest)) :
      word ≠ long := by
    rintro rfl
    obtain rfl := Option.some.inj (isFlags.symm.trans isLong)
    exact fails rest read
  rw [readWords_flags isFlags (isNone rfl) (isNone rfl), read]
  rfl

/-- The options file is left out when no word can be it. -/
theorem readOn_optionsFile_of_none
    (noFile : ∀ file following, words = file :: following → isOptionsFile file following = false)
    (next : CommandLine) :
    readOn next .optionsFile words = readWords { next with optionsFile := .skip } words := by
  cases words with
  | nil => rw [readOn, readWords]
  | cons file following => rw [readOn, noFile file following rfl, if_neg Bool.false_ne_true]

/-- The options file is a word without a dash in front of others. -/
theorem readOn_optionsFile_of_some
    (noDash : ¬StartsWithDash file)
    (nonempty : words ≠ [])
    (next : CommandLine) :
    readOn next .optionsFile (file :: words) =
      readWords { next with optionsFile := .explicit file } words := by
  have isFile : isOptionsFile file words = true := by
    rw [StartsWithDash] at noDash
    simpa [isOptionsFile, nonempty] using noDash
  rw [readOn, if_pos isFile]

/-- At the end a lone word is an operand. -/
theorem Reads.readWords_eq
    (reads : Reads commandLine words reached operands lone?) :
    readWords commandLine words = .ok (atEnd reached operands lone?) := by
  induction reads with
  | nothing => rw [readWords]; rfl
  | loneWord leaves noDash =>
      rw [leaves.readWords_eq, readOn_optionsFile_of_none,
        readWords_operand (flags?_eq_none noDash), readWords]
      · rfl
      · rintro _ _ ⟨⟩
        exact Bool.and_false _
  | emitTemplate _ inductionHypothesis =>
      rw [readWords_emitTemplate, inductionHypothesis]
  | @operand _ _ _ _ _ lone? isOperand _ inductionHypothesis =>
      rw [readWords_operand isOperand, inductionHypothesis]
      cases lone? <;> rfl
  | flags leaves _ inductionHypothesis =>
      rw [leaves.readWords_eq, readOn, inductionHypothesis]
  | value leaves isSet _ inductionHypothesis =>
      rw [leaves.readWords_eq, readOn, isSet]
      exact inductionHypothesis
  | optionsFile leaves noDash nonempty _ inductionHypothesis =>
      rw [leaves.readWords_eq, readOn_optionsFile_of_some noDash nonempty, inductionHypothesis]
  | noOptionsFile leaves startWithDash _ inductionHypothesis =>
      rw [leaves.readWords_eq, readOn_optionsFile_of_none, inductionHypothesis]
      rintro file following rfl
      exact isOptionsFile_of_startsWithDash (startWithDash file rfl) following

/-- In front of a word with a dash a lone word is the options file. -/
theorem Reads.readWords_append
    (reads : Reads commandLine words reached operands lone?)
    {following : String}
    (startsWithDash : StartsWithDash following)
    (others : List String) :
    readWords commandLine (words ++ following :: others) =
      (readWords (onward reached lone?) (following :: others)).map fun (reached, behind) =>
        (reached, operands ++ behind) := by
  induction reads with
  | @nothing commandLine => exact (congrFun Except.map_id (readWords commandLine _)).symm
  | loneWord leaves noDash =>
      rw [List.cons_append, List.singleton_append, leaves.readWords_eq,
        readOn_optionsFile_of_some noDash (List.cons_ne_nil _ _)]
      exact (congrFun Except.map_id (readWords _ _)).symm
  | emitTemplate _ inductionHypothesis =>
      rw [List.cons_append, readWords_emitTemplate, inductionHypothesis]
  | @operand _ _ _ _ _ lone? isOperand _ inductionHypothesis =>
      rw [List.cons_append, readWords_operand isOperand, inductionHypothesis]
      cases readWords (onward _ lone?) (following :: others) <;> rfl
  | flags leaves _ inductionHypothesis =>
      rw [List.cons_append, leaves.readWords_eq, readOn, inductionHypothesis]
  | value leaves isSet _ inductionHypothesis =>
      rw [List.cons_append, List.cons_append, leaves.readWords_eq, readOn, isSet]
      exact inductionHypothesis
  | optionsFile leaves noDash nonempty _ inductionHypothesis =>
      rw [List.cons_append, List.cons_append, leaves.readWords_eq,
        readOn_optionsFile_of_some noDash (by simp), inductionHypothesis]
  | @noOptionsFile _ _ _ _ words _ _ leaves startWithDash _ inductionHypothesis =>
      rw [List.cons_append, leaves.readWords_eq, readOn_optionsFile_of_none, inductionHypothesis]
      intro file behind isFirst
      refine isOptionsFile_of_startsWithDash ?_ behind
      cases words with
      | nil => exact (List.cons.inj isFirst).1 ▸ startsWithDash
      | cons first rest => exact (List.cons.inj isFirst).1 ▸ startWithDash first rfl

/-- However words are read, with no end of the options among them, they are read in one of these
ways. -/
def ReadsAlways (words : List String) : Prop :=
  ∀ commandLine result, "--" ∉ words → readWords commandLine words = .ok result →
    ∃ reached operands lone?, Reads commandLine words reached operands lone?

/-- A word of flags is read with the words behind it if those are. -/
theorem Leaves.exists_reads
    {pending : Pending}
    {result : CommandLine × List String}
    (leaves : Leaves commandLine word next pending)
    (shorter : ∀ behind, behind <:+ words → ReadsAlways behind)
    (noEnd : "--" ∉ words)
    (read : readOn next pending words = .ok result) :
    ∃ reached operands lone?, Reads commandLine (word :: words) reached operands lone? := by
  cases pending with
  | nothing =>
      obtain ⟨reached, operands, lone?, reads⟩ := shorter words List.suffix_rfl _ _ noEnd read
      exact ⟨reached, operands, lone?, .flags leaves reads⟩
  | value flag =>
      cases words with
      | nil => cases read
      | cons value words =>
          obtain ⟨set, isSet, readBehind⟩ := exists_of_bind_eq_ok read
          obtain ⟨reached, operands, lone?, reads⟩ :=
            shorter words (List.suffix_cons value words) _ _
              (List.not_mem_of_not_mem_cons noEnd) readBehind
          exact ⟨reached, operands, lone?, .value leaves isSet reads⟩
  | optionsFile =>
      -- The next word is the options file exactly if it has no dash and others follow it.
      by_cases startWithDash : ∀ following ∈ words.head?, StartsWithDash following
      · rw [readOn_optionsFile_of_none] at read
        · obtain ⟨reached, operands, lone?, reads⟩ := shorter words List.suffix_rfl _ _ noEnd read
          exact ⟨reached, operands, lone?, .noOptionsFile leaves startWithDash reads⟩
        · rintro file following rfl
          exact isOptionsFile_of_startsWithDash (startWithDash file rfl) following
      · match words with
        | [] => simp at startWithDash
        | [last] => exact ⟨_, _, _, .loneWord leaves (by simpa using startWithDash)⟩
        | file :: second :: words =>
            have noDash : ¬StartsWithDash file := by simpa using startWithDash
            rw [readOn_optionsFile_of_some noDash (List.cons_ne_nil _ _)] at read
            obtain ⟨reached, operands, lone?, reads⟩ :=
              shorter (second :: words) (List.suffix_cons file _) _ _
                (List.not_mem_of_not_mem_cons noEnd) read
            exact ⟨reached, operands, lone?,
              .optionsFile leaves noDash (List.cons_ne_nil _ _) reads⟩

/-- Words are read if all shorter ends of them are. -/
theorem readsAlways_cons
    (shorter : ∀ behind, behind <:+ words → ReadsAlways behind)
    (word : String) :
    ReadsAlways (word :: words) := by
  intro commandLine result noEnd read
  rw [List.mem_cons, not_or] at noEnd
  have behindIt := shorter words List.suffix_rfl
  by_cases isLong : word = "--emit-template"
  · subst isLong
    rw [readWords_emitTemplate] at read
    obtain ⟨reached, operands, lone?, reads⟩ := behindIt _ _ noEnd.2 read
    exact ⟨reached, operands, lone?, .emitTemplate reads⟩
  cases isFlags : flags? word with
  | none =>
      rw [readWords_operand isFlags] at read
      cases readBehind : readWords commandLine words with
      | error cause =>
          rw [readBehind] at read
          cases read
      | ok result =>
          obtain ⟨reached, operands, lone?, reads⟩ := behindIt _ _ noEnd.2 readBehind
          exact ⟨reached, word :: operands, lone?, .operand isFlags reads⟩
  | some letters =>
      rw [readWords_flags isFlags (Ne.symm noEnd.1) isLong] at read
      obtain ⟨⟨next, pending⟩, readLetters, readBehind⟩ := exists_of_bind_eq_ok read
      have leaves : Leaves commandLine word next pending := ⟨letters, isFlags, readLetters⟩
      exact leaves.exists_reads shorter noEnd.2 readBehind

theorem readsAlways (words : List String) : ReadsAlways words := by
  suffices ends : ∀ behind, behind <:+ words → ReadsAlways behind from ends words List.suffix_rfl
  induction words with
  | nil =>
      intro behind isBehind commandLine result _ _
      obtain rfl := List.suffix_nil.mp isBehind
      exact ⟨commandLine, [], none, .nothing⟩
  | cons word words inductionHypothesis =>
      intro behind isBehind
      rcases List.suffix_cons_iff.mp isBehind with rfl | shorter
      · exact readsAlways_cons inductionHypothesis word
      · exact inductionHypothesis behind shorter

end Reading

/-! ## A flag behind all other words -/

section Input

variable {commandLine set next reached : CommandLine}

/-- The document is no option. -/
theorem input_of_setValue
    {flag : ValueFlag}
    {value : String}
    (isSet : commandLine.setValue flag value = .ok set) :
    set.input = commandLine.input := by
  cases flag with
  | templateDirectory => cases isSet; rfl
  | output => cases isSet; rfl
  | define =>
      rw [setValue] at isSet
      split at isSet
      · cases isSet
      · cases isSet
      · cases isSet
        rfl

theorem input_of_setFlag?
    {letter : Char}
    (isSet : commandLine.setFlag? letter = some set) :
    set.input = commandLine.input := by
  unfold setFlag? at isSet
  split at isSet
  case h_4 => cases isSet
  all_goals
    cases isSet
    rfl

theorem input_of_readFlags
    {letters : List Char}
    {pending : Pending}
    (read : readFlags commandLine letters = .ok (next, pending)) :
    next.input = commandLine.input := by
  induction letters generalizing commandLine with
  | nil => cases read; rfl
  | cons letter letters inductionHypothesis =>
      rw [readFlags] at read
      cases isSet : commandLine.setFlag? letter with
      | some set =>
          rw [isSet] at read
          rw [inductionHypothesis read, input_of_setFlag? isSet]
      | none =>
          simp only [isSet] at read
          split at read
          · split at read <;> cases read <;> rfl
          · split at read
            · cases read
            · split at read
              · cases read; rfl
              · obtain ⟨set, isSet, same⟩ := exists_of_bind_eq_ok read
                cases same
                exact input_of_setValue isSet

theorem Reads.input_eq
    {words operands : List String}
    {lone? : Option String}
    (reads : Reads commandLine words reached operands lone?) :
    reached.input = commandLine.input := by
  have leavesAlone {commandLine next : CommandLine} {word : String} {pending : Pending}
      (leaves : Leaves commandLine word next pending) : next.input = commandLine.input := by
    obtain ⟨letters, -, read⟩ := leaves
    exact input_of_readFlags read
  induction reads with
  | nothing => rfl
  | loneWord leaves => exact leavesAlone leaves
  | emitTemplate _ inductionHypothesis => exact inductionHypothesis
  | operand _ _ inductionHypothesis => exact inductionHypothesis
  | flags leaves _ inductionHypothesis => exact inductionHypothesis.trans (leavesAlone leaves)
  | value leaves isSet _ inductionHypothesis =>
      rw [inductionHypothesis, input_of_setValue isSet, leavesAlone leaves]
  | optionsFile leaves _ _ _ inductionHypothesis =>
      rw [inductionHypothesis, ← leavesAlone leaves]
  | noOptionsFile leaves _ _ inductionHypothesis =>
      rw [inductionHypothesis, ← leavesAlone leaves]

/-- A lone word has no dash. -/
theorem Reads.noDash
    {words operands : List String}
    {lone? : Option String}
    (reads : Reads commandLine words reached operands lone?) :
    ∀ last ∈ lone?, ¬StartsWithDash last := by
  induction reads with
  | nothing => exact nofun
  | loneWord _ noDash =>
      rintro last ⟨⟩
      exact noDash
  | emitTemplate _ inductionHypothesis => exact inductionHypothesis
  | operand _ _ inductionHypothesis => exact inductionHypothesis
  | flags _ _ inductionHypothesis => exact inductionHypothesis
  | value _ _ _ inductionHypothesis => exact inductionHypothesis
  | optionsFile _ _ _ _ inductionHypothesis => exact inductionHypothesis
  | noOptionsFile _ _ _ inductionHypothesis => exact inductionHypothesis

end Input

/-- A command line with its operands, of which there is at most one. -/
def withOperands (commandLine : CommandLine) : List String → Except UsageError CommandLine
  | [] => .ok commandLine
  | [operand] => .ok { commandLine with input := if operand = "-" then none else some operand }
  | operands => .error (.tooManyOperands operands.length)

/-- Words are read first, and then their operands. -/
theorem parse_eq (words : List String) :
    parse words = (readWords empty words).bind fun read => withOperands read.1 read.2 := by
  rw [parse]
  cases readWords empty words with
  | error cause => rfl
  | ok read =>
      obtain ⟨reached, operands⟩ := read
      cases operands with
      | nil => rfl
      | cons operand others => cases others <;> rfl

/-- The word that says a flag alone. -/
def SimpleFlag.word (flag : SimpleFlag) : String :=
  .ofList ['-', flag.letter]

theorem SimpleFlag.startsWithDash_word (flag : SimpleFlag) : StartsWithDash flag.word := by
  rw [StartsWithDash, word, String.toList_ofList]
  rfl

/-- A flag alone is set. -/
theorem readWords_word (flag : SimpleFlag) (commandLine : CommandLine) :
    readWords commandLine [flag.word] = .ok (flag.set commandLine, []) := by
  have isFlags : flags? flag.word = some [flag.letter] := by
    rw [flags?, SimpleFlag.word, String.toList_ofList]
    rfl
  have read : readFlags commandLine [flag.letter] = .ok (flag.set commandLine, .nothing) := by
    rw [readFlags, flag.setFlag?_letter]
    rfl
  have leaves : Leaves commandLine flag.word (flag.set commandLine) .nothing :=
    ⟨[flag.letter], isFlags, read⟩
  rw [leaves.readWords_eq, readOn, readWords]

/-- A flag can be set before or after the operands are read. -/
theorem SimpleFlag.withOperands_set
    (flag : SimpleFlag)
    (commandLine : CommandLine)
    (operands : List String) :
    withOperands (flag.set commandLine) operands =
      (withOperands commandLine operands).map flag.set := by
  match operands with
  | [] => rfl
  | [operand] => cases flag <;> rfl
  | first :: second :: others => rfl

section Concat

variable
  {words operands : List String}
  {reached commandLine : CommandLine}
  {last : String}

/-- A flag behind all words is set on what they lead to. -/
theorem Reads.parse_concat
    {lone? : Option String}
    (reads : Reads empty words reached operands lone?)
    (flag : SimpleFlag) :
    parse (words ++ [flag.word]) =
      (withOperands (onward reached lone?) operands).map flag.set := by
  rw [parse_eq, reads.readWords_append flag.startsWithDash_word, readWords_word]
  change withOperands (flag.set (onward reached lone?)) (operands ++ []) = _
  rw [List.append_nil, flag.withOperands_set]

/-- A lone word is the document. -/
theorem Reads.eq_of_parse
    (reads : Reads empty words reached operands (some last))
    (accepted : parse words = .ok commandLine) :
    operands = [] ∧ commandLine = { reached with optionsFile := .skip, input := some last } := by
  have notDash : last ≠ "-" := by
    rintro rfl
    exact reads.noDash "-" rfl rfl
  rw [parse_eq, reads.readWords_eq] at accepted
  change withOperands _ (operands ++ [last]) = .ok commandLine at accepted
  match operands with
  | [] =>
      rw [List.nil_append, withOperands, if_neg notDash] at accepted
      exact ⟨rfl, (Except.ok.inj accepted).symm⟩
  | [first] => cases accepted
  | first :: second :: others => cases accepted

/--
The last word is the document only because no word follows it: flags in front of it leave the
options file open.
-/
def EndsInLoneWord (words : List String) : Prop :=
  ∃ reached operands last, Reads empty words reached operands (some last)

/-- A lone word with a flag behind it is the options file, and nothing is the document. -/
theorem EndsInLoneWord.parse_concat
    (endsInLoneWord : EndsInLoneWord words)
    (accepted : parse words = .ok commandLine)
    (flag : SimpleFlag) :
    ∃ last, commandLine.input = some last ∧
      parse (words ++ [flag.word]) =
        .ok (flag.set { commandLine with optionsFile := .explicit last, input := none }) := by
  obtain ⟨reached, operands, last, reads⟩ := endsInLoneWord
  obtain ⟨rfl, rfl⟩ := reads.eq_of_parse accepted
  have noInput : none = reached.input := reads.input_eq.symm
  refine ⟨last, rfl, ?_⟩
  rw [reads.parse_concat flag, noInput]
  rfl

/--
A flag behind all words of a command line sets itself and nothing else, unless they end in a lone
word: that is the options file then, and the document is the standard input.
-/
theorem parse_concat_flag
    (noEnd : "--" ∉ words)
    (accepted : parse words = .ok commandLine)
    (flag : SimpleFlag) :
    (parse (words ++ [flag.word]) = .ok (flag.set commandLine) ↔ ¬EndsInLoneWord words) ∧
      (EndsInLoneWord words → ∃ last, commandLine.input = some last ∧
        parse (words ++ [flag.word]) =
          .ok (flag.set { commandLine with optionsFile := .explicit last, input := none })) := by
  refine ⟨⟨fun unchanged endsInLoneWord => ?_, fun notLone => ?_⟩,
    fun endsInLoneWord => endsInLoneWord.parse_concat accepted flag⟩
  · obtain ⟨last, isInput, read⟩ := endsInLoneWord.parse_concat accepted flag
    have sameInput := congrArg input (Except.ok.inj (read.symm.trans unchanged))
    have keepsInput (set : CommandLine) : (flag.set set).input = set.input := by
      cases flag <;> rfl
    rw [keepsInput, keepsInput, isInput] at sameInput
    cases sameInput
  · have readWhole := accepted
    rw [parse_eq] at readWhole
    obtain ⟨result, read, hasOperands⟩ := exists_of_bind_eq_ok readWhole
    obtain ⟨reached, operands, lone?, reads⟩ := readsAlways words empty result noEnd read
    cases lone? with
    | some last => exact absurd ⟨reached, operands, last, reads⟩ notLone
    | none =>
        obtain rfl := Except.ok.inj (read.symm.trans reads.readWords_eq)
        rw [reads.parse_concat flag]
        exact congrArg (Except.map flag.set) hasOperands

end Concat

/-- A word in front of the document is a value and no flag; where it is the flag, the document is
lost. -/
theorem parse_concat_flag_value :
    let written : CommandLine :=
      ⟨.search, none, some "-f", [], false, false, false, false, some "x"⟩
    "--" ∉ ["-o", "-f", "x"] ∧ parse ["-o", "-f", "x"] = .ok written ∧
      ¬EndsInLoneWord ["-o", "-f", "x"] ∧
      parse ["-o", "-f", "x", "-s"] = .ok (SimpleFlag.strict.set written) ∧
      ∃ last, some "x" = some last ∧ parse ["-f", "x", "-s"] =
        .ok ⟨.explicit last, none, none, [], true, false, false, false, none⟩ := by
  intro written
  have noEnd : "--" ∉ ["-o", "-f", "x"] := by decide
  have accepted : parse ["-o", "-f", "x"] = .ok written := by decide +kernel
  have read : parse ["-o", "-f", "x", "-s"] = .ok (SimpleFlag.strict.set written) := by
    decide +kernel
  have notLone := (parse_concat_flag noEnd accepted .strict).1.mp read
  have acceptedLone : parse ["-f", "x"] =
      .ok ⟨.skip, none, none, [], false, false, false, false, some "x"⟩ := by
    decide +kernel
  have isLone : EndsInLoneWord ["-f", "x"] :=
    ⟨empty, [], "x", .loneWord ⟨['f'], by decide, rfl⟩ (by decide)⟩
  have lost := (parse_concat_flag (by decide) acceptedLone .strict).2 isLone
  exact ⟨noEnd, accepted, notLone, read, lost⟩

/-- The document is not read when a flag stands behind it. -/
theorem parse_concat_flag_ne :
    let written : CommandLine :=
      ⟨.skip, none, none, [], false, false, false, false, some "doc.tmd"⟩
    parse ["-f", "doc.tmd"] = .ok written ∧
      parse ["-f", "doc.tmd", "-s"] = .ok
        ⟨.explicit "doc.tmd", none, none, [], true, false, false, false, none⟩ ∧
      parse ["-f", "doc.tmd", "-s"] ≠ .ok { written with strict := true } := by
  intro written
  have accepted : parse ["-f", "doc.tmd"] = .ok written := by decide +kernel
  have read : parse ["-f", "doc.tmd", "-s"] = .ok
      ⟨.explicit "doc.tmd", none, none, [], true, false, false, false, none⟩ := by
    decide +kernel
  refine ⟨accepted, read, ?_⟩
  rw [read]
  decide

end CommandLine
end TemplatedMarkup
