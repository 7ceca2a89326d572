import TemplatedMarkup.Program.Run
import TemplatedMarkup.Proofs.Expression.Word
import TemplatedMarkup.Proofs.Outcome
import TemplatedMarkup.Proofs.Program.Statement
import TemplatedMarkup.Proofs.Table

/-!
# What a program binds

A run of statements binds their targets and nothing else.  When every physical line of a program
starts with a word and an equals sign, each logical line starts with those of one of them, however
the lines are joined; so every statement of the program assigns to one of the words.
-/

namespace TemplatedMarkup

open Expression Text

/-! ## Contexts -/

/-- A context changes into another one under some names only, and loses none. -/
structure Context.ChangesOnly
    (isChanged : String → Prop)
    (context after : Context) : Prop where
  /-- A bound name stays bound. -/
  bound : ∀ name, (context.get? name).isSome → (after.get? name).isSome
  /-- The other names keep their values. -/
  kept : ∀ name, ¬ isChanged name → after.get? name = context.get? name

namespace Context.ChangesOnly

variable
  {isChanged : String → Prop}
  {context middle after : Context}

theorem refl (isChanged : String → Prop) (context : Context) :
    ChangesOnly isChanged context context :=
  ⟨fun _ bound => bound, fun _ _ => rfl⟩

theorem trans
    (first : ChangesOnly isChanged context middle)
    (second : ChangesOnly isChanged middle after) :
    ChangesOnly isChanged context after where
  bound name bound := second.bound name (first.bound name bound)
  kept name unchanged := (second.kept name unchanged).trans (first.kept name unchanged)

theorem mono
    {isOther : String → Prop}
    (changes : ChangesOnly isChanged context after)
    (includes : ∀ name, isChanged name → isOther name) :
    ChangesOnly isOther context after where
  bound := changes.bound
  kept name unchanged := changes.kept name fun changed => unchanged (includes name changed)

/-- Binding a name changes it only. -/
theorem set
    (context : Context)
    (name : String)
    (value : Value) :
    ChangesOnly (· = name) context (context.set name value) where
  bound other bound := by
    rw [Table.get?_set]
    split
    · rfl
    · exact bound
  kept other unchanged := by
    rw [Table.get?_set, if_neg unchanged]

/-- Bindings that are put over a context change the names that they bind. -/
theorem merge
    {bindings : Context}
    (distinct : bindings.names.Nodup)
    (unbound : ∀ name, ¬ isChanged name → bindings.get? name = none)
    (context : Context) :
    ChangesOnly isChanged context (context.merge bindings) where
  bound name bound := by
    rw [Table.get?_merge distinct, Option.isSome_or, bound, Bool.or_true]
  kept name unchanged := by
    rw [Table.get?_merge distinct, unbound name unchanged, Option.none_or]

end Context.ChangesOnly

/-! ## Runs -/

/-- The name that a statement binds. -/
def Statement.target : Statement → String
  | .assign name _ => name
  | .define name _ _ => name

namespace Program

variable {outer own next : Context} {statements : List Statement}

/-- A statement binds its target and nothing else. -/
theorem exists_value_of_runStatement
    {origin : Origin}
    {statement : Statement}
    (ran : runStatement outer origin own statement = .ok next) :
    ∃ value, next = own.set statement.target value := by
  cases statement with
  | assign name expression =>
      simp only [runStatement] at ran
      cases evaluated : expression.eval (scope outer own) with
      | error cause =>
          rw [evaluated] at ran
          contradiction
      | ok value =>
          rw [evaluated] at ran
          exact ⟨value, (Except.ok.inj ran).symm⟩
  | define name parameters body =>
      obtain ⟨defaults, -, rest⟩ := exists_of_bind_eq_ok ran
      exact ⟨_, (Except.ok.inj rest).symm⟩

/-- A run keeps names distinct, and binds no name but the targets of its statements. -/
theorem get?_of_runFrom
    {run position : Nat}
    (distinct : own.names.Nodup)
    (ran : runFrom outer run position own statements = .ok next) :
    next.names.Nodup ∧
      ∀ name, name ∉ statements.map Statement.target → next.get? name = own.get? name := by
  induction statements generalizing own position with
  | nil =>
      obtain rfl := Except.ok.inj ran
      exact ⟨distinct, fun _ _ => rfl⟩
  | cons statement statements inductionHypothesis =>
      obtain ⟨reached, stepped, rest⟩ := exists_of_bind_eq_ok ran
      obtain ⟨value, rfl⟩ := exists_value_of_runStatement stepped
      have stillDistinct := Table.nodup_set distinct statement.target value
      obtain ⟨finallyDistinct, kept⟩ := inductionHypothesis stillDistinct rest
      refine ⟨finallyDistinct, fun name absent => ?_⟩
      rw [List.map_cons, List.mem_cons, not_or] at absent
      rw [kept name absent.2, Table.get?_set, if_neg absent.1]

/-- What is harvested from a program changes the context under the targets of its statements. -/
theorem changesOnly_of_harvest
    {run : Nat}
    {source : String}
    {context after : Context}
    (harvested : harvest run source context = .ok after) :
    ∃ statements, parseProgram source = .ok statements ∧
      context.ChangesOnly (· ∈ statements.map Statement.target) after := by
  obtain ⟨bound, ran, merged⟩ := exists_of_bind_eq_ok harvested
  obtain rfl := Except.ok.inj merged
  unfold bindings at ran
  split at ran
  · contradiction
  · rename_i statements parsed
    obtain ⟨distinct, kept⟩ :=
      @get?_of_runFrom context .empty bound statements run 0 List.nodup_nil ran
    exact ⟨statements, parsed, .merge distinct kept context⟩

end Program

/-! ## Lines that assign -/

/-- A text starts with a name and an equals sign, and what follows is apart from them. -/
def Statement.AssignsTo (name : String) (text : List Char) : Prop :=
  ∃ rest, text = name.toList ++ " =".toList ++ rest ∧ ∀ first ∈ rest.head?, first = ' '

namespace Statement

open TokenParser

variable {name : String} {line text : List Char}

/-- A text that is continued behind a space still assigns to its name. -/
theorem AssignsTo.append
    (assigns : AssignsTo name text)
    (more : List Char) :
    AssignsTo name (text ++ ' ' :: more) := by
  obtain ⟨rest, rfl, spaced⟩ := assigns
  refine ⟨rest ++ ' ' :: more, by simp, ?_⟩
  cases rest with
  | nil => simp
  | cons first rest => simpa using spaced

/-- A text that assigns to a name still does with the next line behind it. -/
theorem AssignsTo.extend_pending
    (assigns : AssignsTo name text)
    (line : List Char) :
    AssignsTo name (LogicalLine.extend text line).1 := by
  have nonempty : text.isEmpty = false := by
    obtain ⟨rest, rfl, -⟩ := assigns
    simp
  simp only [LogicalLine.extend, nonempty, Bool.false_eq_true, if_false]
  simpa using assigns.append _

/-- What is cut from the end of a line is behind the equals sign. -/
theorem AssignsTo.of_kept
    {rest kept : List Char}
    (spaced : ∀ first ∈ rest.head?, first = ' ')
    (starts : kept <+: rest) :
    AssignsTo name (name.toList ++ " =".toList ++ kept) := by
  refine ⟨kept, rfl, ?_⟩
  cases kept with
  | nil => simp
  | cons first kept =>
      obtain ⟨behind, rfl⟩ := starts
      simpa using spaced

/-- A continued line loses no more than what is behind its equals sign. -/
theorem exists_of_cutBackslash
    {front : List Char}
    (last : ∃ character ∈ front.getLast?, isBlank character = false ∧ character ≠ '\\')
    (rest : List Char) :
    ∃ kept, (LogicalLine.cutBackslash (front ++ rest)).1 = front ++ kept ∧ kept <+: rest := by
  obtain ⟨character, isLast, noBlank, noBackslash⟩ := last
  have trimmed := trimEndWhere_append_of_getLast? ⟨character, isLast, noBlank⟩ rest
  unfold LogicalLine.cutBackslash
  simp only [trimmed]
  split
  · rename_i continued
    have remains : trimEndWhere isBlank rest ≠ [] := by
      intro empty
      rw [empty, List.append_nil, Option.mem_def.mp isLast] at continued
      exact noBackslash (Option.some.inj continued)
    exact ⟨(trimEndWhere isBlank rest).dropLast, List.dropLast_append_of_ne_nil remains,
      .trans ( List.dropLast_prefix _) (prefix_of_trimEndWhere isBlank rest)⟩
  · exact ⟨rest, rfl, List.prefix_rfl⟩

/-- A line that assigns to a word starts with a character that is no blank, nor a comment. -/
theorem AssignsTo.head?
    (assigns : AssignsTo name line)
    (isRun : IsWordRun name.toList) :
    ∃ first ∈ line.head?, isBlank first = false ∧ first ≠ '#' := by
  obtain ⟨rest, rfl, -⟩ := assigns
  obtain ⟨nonempty, wordParts⟩ := isRun
  cases spelled : name.toList with
  | nil => contradiction
  | cons first others =>
      have wordPart := wordParts first (by simp [spelled])
      exact ⟨first, rfl, isBlank_eq_false_of_isWordPart wordPart,
        ne_of_isWordPart wordPart '#' (by decide)⟩

/-- A logical line that starts with a line which assigns to a name assigns to it. -/
theorem AssignsTo.extend
    (assigns : AssignsTo name line)
    (isRun : IsWordRun name.toList) :
    AssignsTo name (LogicalLine.extend [] line).1 := by
  obtain ⟨rest, rfl, spaced⟩ := assigns
  have isLast : (name.toList ++ " =".toList).getLast? = some '=' := by simp
  obtain ⟨kept, cut, starts⟩ :=
    exists_of_cutBackslash ⟨'=', isLast, by decide, by decide⟩ rest
  have startsWord : AssignsTo name (name.toList ++ " =".toList ++ kept) := .of_kept spaced starts
  have first : (name.toList ++ " =".toList ++ kept).dropWhile isBlank =
      name.toList ++ " =".toList ++ kept := by
    obtain ⟨first, isFirst, noBlank, -⟩ := startsWord.head? isRun
    refine dropWhile_eq_self fun other isOther => ?_
    rwa [← Option.mem_unique isFirst isOther]
  have text : (LogicalLine.extend [] (name.toList ++ " =".toList ++ rest)).1 =
      name.toList ++ " =".toList ++ trimEndWhere isBlank kept := by
    simp only [LogicalLine.extend, cut, List.isEmpty_nil, if_true, List.nil_append]
    rw [trimWhere, first, trimEndWhere_append_of_getLast? ⟨'=', isLast, by decide⟩]
  rw [text]
  exact .of_kept spaced ((prefix_of_trimEndWhere isBlank kept).trans starts)

/-- Every logical line of lines that assign to words assigns to one of the words. -/
theorem AssignsTo.of_group
    {names : List String}
    (areRuns : ∀ name ∈ names, IsWordRun name.toList)
    {lines : List (List Char)}
    (assigns : ∀ line ∈ lines, ∃ name ∈ names, AssignsTo name line)
    {number : Nat}
    {pending : Option LogicalLine}
    (started : ∀ line ∈ pending, ∃ name ∈ names, AssignsTo name line.text)
    {found : List LogicalLine}
    (grouped : LogicalLine.group number pending lines = .ok found) :
    ∀ line ∈ found, ∃ name ∈ names, AssignsTo name line.text := by
  induction lines generalizing number pending found with
  | nil =>
      cases pending with
      | some line => contradiction
      | none =>
          obtain rfl := Except.ok.inj grouped
          simp
  | cons line lines inductionHypothesis =>
      rw [List.forall_mem_cons] at assigns
      obtain ⟨⟨name, isName, lineAssigns⟩, laterAssign⟩ := assigns
      have notSkipped := LogicalLine.isSkipped_eq_false
        (lineAssigns.head? (areRuns name isName))
      -- A line goes on with what is pending, which assigns already, or starts anew.
      have extended : ∃ name ∈ names, AssignsTo name
          (LogicalLine.extend (pending.getD ⟨number, []⟩).text line).1 := by
        cases pending with
        | none => exact ⟨name, isName, lineAssigns.extend (areRuns name isName)⟩
        | some start =>
            obtain ⟨name, isName, startAssigns⟩ := started start rfl
            exact ⟨name, isName, startAssigns.extend_pending line⟩
      rw [LogicalLine.group] at grouped
      simp only [notSkipped, Bool.and_false, Bool.false_eq_true, if_false] at grouped
      split at grouped
      · exact inductionHypothesis laterAssign (by simpa using extended) grouped
      · obtain ⟨others, following, last⟩ := exists_of_bind_eq_ok grouped
        obtain rfl := Except.ok.inj last
        rw [List.forall_mem_cons]
        exact ⟨extended, inductionHypothesis laterAssign (by simp) following⟩

/-- The first token of a statement is a name or the keyword of definitions. -/
theorem exists_token_of_run
    {tokens rest : List Token}
    {result : Statement}
    (read : statement.run tokens = .ok (result, rest)) :
    ∃ token following, tokens = token :: following ∧ token.OpensStatement := by
  by_cases isKeyword : tokens.head? = some (.symbol .defKeyword)
  · obtain ⟨following, rfl⟩ := List.head?_eq_some_iff.mp isKeyword
    exact ⟨_, following, rfl, .inl rfl⟩
  · have stays := run_eat_of_ne isKeyword
    match tokens with
    | .name name :: following => exact ⟨_, following, rfl, .inr ⟨name, rfl⟩⟩
    | [] | .int _ :: _ | .float _ :: _ | .str _ :: _ | .symbol _ :: _ =>
        simp [statement, stays, isName] at read

/-- The tokens behind a word that is assigned to start with the equals sign. -/
theorem lex_equalsSign
    {rest : List Char}
    (spaced : ∀ first ∈ rest.head?, first = ' ') :
    lex (' ' :: '=' :: rest) = (lex rest).map (.symbol .assign :: ·) := by
  apply lex_of_scanToken rfl
  cases rest with
  | nil => rfl
  | cons first rest =>
      obtain rfl := spaced first rfl
      rfl

/-- A statement that starts with a name and an equals sign binds the name. -/
theorem target_of_run
    {following rest : List Token}
    {result : Statement}
    (read : statement.run (.name name :: .symbol .assign :: following) = .ok (result, rest)) :
    result.target = name := by
  have behindName : statement.run (.name name :: .symbol .assign :: following) =
      assignment.run (.name name :: .symbol .assign :: following) := by
    simp [statement, isName]
  rw [behindName] at read
  unfold assignment ownName at read
  simp only [run_bind, run_expectName_name, resume_ok] at read
  split at read
  · contradiction
  · simp only [run_pure, resume_ok, run_bind, run_next, List.tail_cons] at read
    cases value : expression.run following with
    | error cause =>
        rw [value] at read
        contradiction
    | ok found =>
        rw [value] at read
        obtain ⟨isResult, -⟩ := Prod.mk.inj (Except.ok.inj read)
        rw [← isResult, target]

/-- A statement whose text assigns to a word binds the word. -/
theorem AssignsTo.target_eq
    (assigns : AssignsTo name text)
    (isRun : IsWordRun name.toList)
    {result : Statement}
    (parsed : parse (.ofList text) = .ok result) :
    result.target = name := by
  obtain ⟨rest, rfl, spaced⟩ := assigns
  rw [parse, tokenize, String.toList_ofList] at parsed
  obtain ⟨tokens, lexed, ran⟩ := exists_of_bind_eq_ok parsed
  have read := runAll_eq_ok_iff.mp ran
  obtain ⟨token, following, rfl, opens⟩ := exists_token_of_run read
  have spelled : name.toList ++ " =".toList ++ rest = name.toList ++ ' ' :: '=' :: rest := by
    simp
  rw [spelled] at lexed
  obtain ⟨-, isToken, behind⟩ := opens.eq_ofWord isRun (startsApart_space _) lexed
  rw [lex_equalsSign spaced] at behind
  cases others : lex rest with
  | error cause =>
      rw [others] at behind
      contradiction
  | ok more =>
      rw [others] at behind
      obtain rfl := Except.ok.inj behind
      rcases opens with rfl | ⟨own, rfl⟩
      · obtain ⟨parameter, tokens, isName⟩ := exists_name_of_run read
        contradiction
      · have same := (Token.eq_of_ofWord isToken.symm).2
        rw [String.ofList_toList] at same
        subst same
        exact target_of_run read

/-- The statements of a program whose lines assign to words bind some of the words. -/
theorem target_mem_of_parseProgram
    {names : List String}
    (areRuns : ∀ name ∈ names, IsWordRun name.toList)
    {source : String}
    (assigns : ∀ line ∈ lineLists source.toList, ∃ name ∈ names, AssignsTo name line)
    {statements : List Statement}
    (parsed : parseProgram source = .ok statements) :
    ∀ statement ∈ statements, statement.target ∈ names := by
  intro statement among
  obtain ⟨grouped, isGrouped, mapped⟩ := exists_of_bind_eq_ok parsed
  obtain ⟨line, isLine, stated⟩ := exists_of_mem_of_mapM_eq_ok mapped among
  obtain ⟨name, isName, lineAssigns⟩ :=
    AssignsTo.of_group areRuns assigns (by simp) isGrouped line isLine
  rw [lineAssigns.target_eq (areRuns name isName) (eq_ok_of_mapError_eq_ok stated)]
  exact isName

end Statement
end TemplatedMarkup
