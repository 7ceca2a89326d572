import TemplatedMarkup.Proofs.Expression.Parsed
import TemplatedMarkup.Proofs.Expression.PrintedLine
import TemplatedMarkup.Proofs.Expression.Reparsing
import TemplatedMarkup.Proofs.Program.LogicalLine

/-!
# Statements around the text of an expression

The text of an assignment, and that of the definition of a function of a value and an optional
argument, are statements exactly when the text of the expression in them is an expression.
-/

namespace TemplatedMarkup

namespace Expression

/-- A token in front of tokens is in front of what follows them. -/
theorem lex_step
    {source rest remaining : List Char}
    {first : Char}
    {token : Token}
    {tokens : List Token}
    {following : Except SourceError (List Token)}
    (skipped : skipBlanks false source = first :: rest)
    (scanned : scanToken first rest = .ok (token, remaining))
    (others : lex remaining = inFront [] tokens following) :
    lex source = inFront [] (token :: tokens) following := by
  rw [lex_of_scanToken skipped scanned, others, map_cons_eq_inFront, inFront_inFront]
  rfl

/-- A space in front of a source stands in front of its tokens. -/
theorem lex_space_eq_inFront (rest : List Char) :
    lex (' ' :: rest) = inFront [] [] (lex rest) := by
  rw [lex_space]
  cases lex rest <;> rfl

/-- A whole run succeeds when the run leaves nothing. -/
theorem TokenParser.runAll_eq_ok_iff
    {Result : Type}
    {parser : TokenParser Result}
    {leftOver : Option Token → SourceError}
    {tokens : List Token}
    {value : Result} :
    runAll parser leftOver tokens = .ok value ↔ parser.run tokens = .ok (value, []) := by
  unfold runAll
  cases parser.run tokens with
  | error cause => simp
  | ok result =>
      obtain ⟨found, rest⟩ := result
      cases rest <;> simp

/-- A source is an expression when its tokens are, and nothing is left. -/
theorem parse_eq_ok_iff
    {source : String}
    {expression : Expr} :
    parse source = .ok expression ↔ ∃ tokens, lex source.toList = .ok tokens ∧
      Expression.expression.run tokens = .ok (expression, []) := by
  unfold parse tokenize
  cases lex source.toList with
  | error cause => simp [bind, Except.bind]
  | ok tokens =>
      simp only [bind, Except.bind, parseTokens, Except.ok.injEq, exists_eq_left']
      exact TokenParser.runAll_eq_ok_iff

end Expression

namespace Statement

open Expression TokenParser

/-- Tokens that a statement starts with before an expression which completes it. -/
structure Heads
    (text : List Char)
    (tokens : List Token)
    (complete : Expr → Statement) : Prop where
  /-- The text in front of a source gives the tokens in front of those of the source. -/
  lexed : ∀ source, lex (text ++ source) = inFront [] tokens (lex source)
  /-- Behind the tokens an expression is read. -/
  read : ∀ following, statement.run (tokens ++ following) =
    resume (Expression.expression.run following) fun value => Pure.pure (complete value)

/-- A head and a source are a statement exactly when the source is an expression. -/
theorem Heads.parse_eq_ok_iff
    {text : List Char}
    {tokens : List Token}
    {complete : Expr → Statement}
    (heads : Heads text tokens complete)
    {source : List Char}
    {result : Statement} :
    parse (.ofList (text ++ source)) = .ok result ↔
      ∃ expression, Expression.parse (.ofList source) = .ok expression ∧
        result = complete expression := by
  have run (following : List Token) :
      statement.run (tokens ++ following) = .ok (result, []) ↔
        ∃ expression, Expression.expression.run following = .ok (expression, []) ∧
          result = complete expression := by
    rw [heads.read]
    cases Expression.expression.run following with
    | error cause => simp
    | ok read =>
        obtain ⟨expression, rest⟩ := read
        simp only [resume_ok, run_pure, Except.ok.injEq, Prod.mk.injEq]
        constructor
        · rintro ⟨rfl, rfl⟩
          exact ⟨expression, ⟨rfl, rfl⟩, rfl⟩
        · rintro ⟨_, ⟨rfl, rfl⟩, rfl⟩
          exact ⟨rfl, rfl⟩
  unfold parse tokenize
  simp only [String.toList_ofList, heads.lexed, Expression.parse_eq_ok_iff]
  cases lex source with
  | error cause => simp [Bind.bind, Except.bind]
  | ok following =>
      simp only [inFront_nil_ok, Bind.bind, Except.bind, runAll_eq_ok_iff, run, Except.ok.injEq,
        exists_eq_left']

/-- A head without open brackets and an expression behind it state a statement. -/
theorem Heads.states
    {text : List Char}
    {tokens : List Token}
    {complete : Expr → Statement}
    (heads : Heads text tokens complete)
    (balanced : depth tokens = 0)
    {source : List Char}
    {expression : Expr}
    (parsed : Expression.parse (.ofList source) = .ok expression)
    (isComplete : LogicalLine.IsComplete (text ++ source)) :
    LogicalLine.States (text ++ source) (complete expression) := by
  refine ⟨isComplete, ?_, heads.parse_eq_ok_iff.mpr ⟨expression, parsed, rfl⟩⟩
  obtain ⟨following, lexed, read⟩ := Expression.parse_eq_ok_iff.mp parsed
  rw [String.toList_ofList] at lexed
  have closes := ((lexes_of_lex lexed).writable_and_balanced (runAll_eq_ok_iff.mpr read)).2
  have whole : lex (text ++ source) = .ok (tokens ++ following) := by
    rw [heads.lexed, lexed, inFront_nil_ok]
  rw [LogicalLine.openBrackets_of_lexes (lexes_of_lex whole) isComplete.oneLine]
  simp only [depth, List.map_append, List.sum_append] at balanced closes ⊢
  omega

/-! ## Assignments -/

/-- The text in front of the expression of an assignment. -/
def assignHead (name : String) : List Char :=
  name.toList ++ " = ".toList

/-- A name and an equals sign head an assignment. -/
theorem heads_assign
    {name : String}
    (own : IsOwnName name) :
    Heads (assignHead name) [.name name, .symbol .assign] (.assign name) := by
  constructor
  · intro source
    have equals : lex (' ' :: '=' :: ' ' :: source) =
        inFront [] [.symbol .assign] (lex source) :=
      lex_step rfl rfl (lex_space_eq_inFront source)
    have spelled : assignHead name ++ source = name.toList ++ ' ' :: '=' :: ' ' :: source := by
      simp [assignHead]
    rw [spelled, lex_name own.toIsName (startsApart_space _), equals, map_cons_eq_inFront,
      inFront_inFront]
    rfl
  · intro following
    simp [statement, isName, assignment, ownName, own.notReserved]

/-- A logical line that assigns the value of an expression is that statement. -/
theorem statement_assign
    {name : String}
    {source : List Char}
    {value : Expr}
    (own : IsOwnName name)
    (parsed : Expression.parse (.ofList source) = .ok value)
    (number : Nat) :
    LogicalLine.statement ⟨number, assignHead name ++ source⟩ = .ok (.assign name value) := by
  rw [LogicalLine.statement, (heads_assign own).parse_eq_ok_iff.mpr ⟨_, parsed, rfl⟩]
  rfl

/-- An assignment is no head of a definition, as the keyword is no name. -/
theorem not_isDefinitionHead_assign
    {name : String}
    (own : IsOwnName name)
    (source : List Char) :
    LogicalLine.isDefinitionHead (assignHead name ++ source) = false := by
  have noPrefix : "def ".toList.isPrefixOf (assignHead name ++ source) = false := by
    by_contra isHead
    rw [Bool.not_eq_false, List.isPrefixOf_iff_prefix] at isHead
    obtain ⟨rest, same⟩ := isHead
    have parts : ∀ part ∈ name.toList, Text.isNamePart part = true := own.isWord.isNamePart
    have taken := (@span_append _ _ (' ' :: '=' :: ' ' :: source) parts (by simp; rfl)).1
    have spelled : assignHead name ++ source = name.toList ++ ' ' :: '=' :: ' ' :: source := by
      simp [assignHead]
    rw [← spelled, ← same] at taken
    have isKeyword : name = "def" := String.toList_inj.mp taken.symm
    have noKeyword := own.noKeyword
    rw [isKeyword] at noKeyword
    contradiction
  rw [LogicalLine.isDefinitionHead, noPrefix, Bool.false_and]

/-- An assignment stands for itself unless a backslash ends it. -/
theorem isComplete_assign
    {name : String}
    (own : IsOwnName name)
    {source : List Char}
    (oneLine : '\n' ∉ source)
    (last : ∃ character ∈ source.getLast?, Text.isBlank character = false ∧ character ≠ '\\') :
    LogicalLine.IsComplete (assignHead name ++ source) := by
  have isWord := own.isWord
  have printed := isWord.isPrinted
  refine ⟨?_, ?_, ?_, ?_⟩
  · cases spelled : name.toList with
    | nil => exact (spelled ▸ isWord).elim
    | cons first rest =>
        rw [spelled] at isWord
        have part := Text.isNamePart_of_isNameStart isWord.1
        exact ⟨first, by simp [assignHead, spelled], Text.isBlank_eq_false_of_isNamePart part,
          Text.ne_of_isNamePart part '#' (by decide) rfl⟩
  · obtain ⟨character, isLast, noBlank⟩ := last
    refine ⟨character, ?_, noBlank⟩
    rw [Option.mem_def] at isLast ⊢
    rw [List.getLast?_append, isLast]
    rfl
  · exact not_isDefinitionHead_assign own source
  · simp [assignHead, printed.oneLine, oneLine]

/-! ## Definitions -/

/-- A definition is only read behind the keyword when a name follows it. -/
theorem exists_name_of_run
    {following rest : List Token}
    {result : Statement}
    (read : statement.run (.symbol .defKeyword :: following) = .ok (result, rest)) :
    ∃ name tokens, following = .name name :: tokens := by
  cases following with
  | nil => simp [statement, definition, ownName, expectName] at read
  | cons first tokens =>
      cases first with
      | name name => exact ⟨name, tokens, rfl⟩
      | _ => simp [statement, definition, ownName, expectName] at read

/-! ## Definitions of a value and an optional argument -/

/-- The text in front of the body of a function of a value and an optional argument. -/
def defineHead (name : String) : List Char :=
  "def ".toList ++ name.toList ++ "(a, b=None): return ".toList

/-- The parameters of a function of a value and an optional argument. -/
def valueAndArgument : List (String × Option Expr) :=
  [("a", none), ("b", some (.literal .none))]

/-- The tokens in front of the body of a function of a value and an optional argument. -/
def defineTokens (name : String) : List Token := [
  .symbol .defKeyword, .name name, .symbol .leftParen, .name "a", .symbol .comma, .name "b",
  .symbol .assign, .symbol .noneKeyword, .symbol .rightParen, .symbol .colon,
  .symbol .returnKeyword]

/-- The absent value is read as an expression. -/
theorem run_expression_none (following : List Token) :
    Expression.expression.run (.symbol .noneKeyword :: .symbol .rightParen :: following) =
      .ok (.literal .none, .symbol .rightParen :: following) := by
  have derives := Expr.derives_wholePhrase (Expr.derives_literal .none)
  have read := derives.reads maxNesting (.symbol .rightParen :: following) Nat.zero_lt_one
  rwa [limited_of_le (by decide)] at read

/-- One parameter and the comma behind it, unless the closing symbol or the end is there. -/
def parameterStep (state : List (String × Option Expr) × Bool) :
    TokenParser (Option (List (String × Option Expr) × Bool)) := do
  if state.2 || (← peek) = some (.symbol .rightParen) then
    return none
  else
    let next ← parameter state.1
    return some (state.1 ++ [next], !(← eat .comma))

theorem parameterList_eq :
    parameterList = (repeatFrom parameterStep ([], false) >>= fun state =>
      Pure.pure state.1) := rfl

/-- The parameters of a value and an optional argument are read up to the parenthesis. -/
theorem run_parameterList (following : List Token) :
    parameterList.run (.name "a" :: .symbol .comma :: .name "b" :: .symbol .assign ::
        .symbol .noneKeyword :: .symbol .rightParen :: following) =
      .ok (valueAndArgument, .symbol .rightParen :: following) := by
  have value (rest : List Token) :
      (parameterStep ([], false)).run (.name "a" :: .symbol .comma :: .name "b" :: rest) =
        .ok (some ([("a", none)], false), .name "b" :: rest) := by
    simp [parameterStep, parameter, ownName, parameterDefault,
      show isReserved "a" = false by decide]
  have argument :
      (parameterStep ([("a", none)], false)).run (.name "b" :: .symbol .assign ::
          .symbol .noneKeyword :: .symbol .rightParen :: following) =
        .ok (some (valueAndArgument, true), .symbol .rightParen :: following) := by
    simp [parameterStep, parameter, ownName, parameterDefault, run_expression_none,
      show isReserved "b" = false by decide, valueAndArgument]
  have finished : (parameterStep (valueAndArgument, true)).run (.symbol .rightParen :: following) =
      .ok (none, .symbol .rightParen :: following) := by
    simp [parameterStep]
  rw [parameterList_eq, run_bind, run_repeatFrom_of_some (value _) (by simp),
    run_repeatFrom_of_some argument (by simp), run_repeatFrom_of_none finished]
  rfl

/-- The keyword, a name and the two parameters head a definition. -/
theorem heads_define
    {name : String}
    (own : IsOwnName name) :
    Heads (defineHead name) (defineTokens name) (.define name valueAndArgument) := by
  constructor
  · intro source
    have signature : lex ("(a, b=None): return ".toList ++ source) =
        inFront [] ((defineTokens name).drop 2) (lex source) :=
      lex_step rfl rfl (lex_step rfl rfl (lex_step rfl rfl (lex_step rfl rfl (lex_step rfl rfl
        (lex_step rfl rfl (lex_step rfl rfl (lex_step rfl rfl (lex_step rfl rfl
          (lex_space_eq_inFront source)))))))))
    have named : lex (name.toList ++ ("(a, b=None): return ".toList ++ source)) =
        inFront [] ((defineTokens name).drop 1) (lex source) := by
      have apart : StartsApart ("(a, b=None): return ".toList ++ source) :=
        @startsApart_single '(' (by decide) _
      rw [lex_name own.toIsName apart, signature, map_cons_eq_inFront, inFront_inFront]
      rfl
    have keyword :
        lex ("def ".toList ++ (name.toList ++ ("(a, b=None): return ".toList ++ source))) =
          inFront [] (defineTokens name) (lex source) :=
      lex_step rfl rfl ((lex_space _).trans named)
    simpa [defineHead] using keyword
  · intro following
    simp [statement, defineTokens, definition, ownName, own.notReserved, run_parameterList]

/-- The definition of a function stands for itself when its name is on one line. -/
theorem isComplete_define
    {name : String}
    (oneLine : '\n' ∉ name.toList)
    {source : List Char}
    (printed : IsPrinted source) :
    LogicalLine.IsComplete (defineHead name ++ source) := by
  have whole := @IsPrinted.append (defineHead name) source printed (by simp [defineHead, oneLine])
  obtain ⟨character, isLast, ends⟩ := whole.last
  refine ⟨⟨'d', rfl, by decide⟩, ⟨character, isLast, ends.noBlank, ends.ne.1⟩, ?_, whole.oneLine⟩
  simp [LogicalLine.isDefinitionHead, Option.mem_def.mp isLast, ends.ne.2]

end Statement
end TemplatedMarkup
