import TemplatedMarkup.Proofs.Document.Filter
import TemplatedMarkup.Proofs.Expression.Word

/-!
# The argument of a filter that declares none

Every filter is compiled to a function that may be given an argument.  A filter that declares one
parameter sees such an argument exactly under the name of the second parameter of its function:
where its expression has this name free, and does not declare it as the parameter it has.
-/

namespace TemplatedMarkup

open Expression Text

/-! ## Names of definitions -/

/-- A word between the keyword and a parenthesis of a statement can be referred to. -/
theorem Statement.isName_of_parse
    {word rest : List Char}
    {result : Statement}
    (isRun : IsWordRun word)
    (parsed : parse (.ofList ("def ".toList ++ (word ++ '(' :: rest))) = .ok result) :
    IsName (.ofList word) := by
  have keyword : lex ("def ".toList ++ (word ++ '(' :: rest)) =
      (lex (word ++ '(' :: rest)).map (.symbol .defKeyword :: ·) := by
    rw [← lex_space (word ++ '(' :: rest)]
    exact lex_of_scanToken rfl rfl
  rw [parse, tokenize, String.toList_ofList, keyword] at parsed
  cases lexed : lex (word ++ '(' :: rest) with
  | error cause =>
      rw [lexed] at parsed
      contradiction
  | ok following =>
      simp only [lexed, Except.map, bind, Except.bind] at parsed
      obtain ⟨name, tokens, rfl⟩ :=
        exists_name_of_run (TokenParser.runAll_eq_ok_iff.mp parsed)
      have apart : StartsApart ('(' :: rest) := startsApart_single (by decide) _
      have opens : (Token.name name).OpensStatement := .inr ⟨name, rfl⟩
      obtain ⟨isWord, isToken, -⟩ := opens.eq_ofWord isRun apart lexed
      refine ⟨by rwa [String.toList_ofList], ?_⟩
      exact (Token.eq_of_ofWord isToken.symm).1

namespace Document

/-- The name of a filter on a line is a word. -/
theorem isWordRun_of_readFilter
    {line : String}
    {definition : FilterDefinition}
    (read : readFilter? line = some definition) :
    IsWordRun definition.name.toList := by
  unfold readFilter? spanWord at read
  generalize skipBlanks line.toList = text at read
  have wordParts : ∀ part ∈ text.takeWhile isWordPart, isWordPart part = true :=
    List.all_eq_true.mp List.all_takeWhile
  obtain ⟨rest, -, read⟩ := Option.bind_eq_some_iff.mp read
  simp only at read
  split at read
  · contradiction
  · rename_i present
    obtain ⟨rest, -, read⟩ := Option.bind_eq_some_iff.mp read
    split at read
    · obtain ⟨body, -, read⟩ := Option.bind_eq_some_iff.mp read
      obtain rfl := Option.some.inj read
      simp only [Bool.or_eq_true, List.isEmpty_iff, not_or] at present
      exact ⟨by simpa using present.1, by simpa using wordParts⟩
    · contradiction

namespace FilterDefinition

variable
  {definition : FilterDefinition}
  {function : Function}

/-- A filter that is compiled has an allowed name and an expression. -/
theorem exists_expression_of_compile
    (compiled : definition.compile = .ok function) :
    definition.isForbidden = false ∧ ∃ expression, parse definition.body = .ok expression := by
  unfold compile at compiled
  split at compiled
  · contradiction
  · rename_i allowed
    refine ⟨by simpa using allowed, ?_⟩
    cases parsed : parse definition.body with
    | ok expression => exact ⟨expression, rfl⟩
    | error cause =>
        simp [program, compiledBody, parsed, bind, Except.bind] at compiled

/-- A filter on a line that is compiled has a name that can be referred to. -/
theorem isOwnName_of_compile
    {line : String}
    (read : readFilter? line = some definition)
    (compiled : definition.compile = .ok function) :
    IsOwnName definition.name := by
  have isRun := isWordRun_of_readFilter read
  obtain ⟨allowed, expression, parsed⟩ := exists_expression_of_compile compiled
  have oneLine : '\n' ∉ definition.name.toList := fun among =>
    absurd (isRun.wordParts '\n' among) (by decide)
  have writable := (writable_of_parse parsed).rename definition.isOwnName_image
  have complete := Statement.isComplete_define oneLine writable.isPrinted
  rw [compile_of_program allowed (program_eq parsed)] at compiled
  cases fetched : Program.fetch 0 (.ofList (Statement.defineHead definition.name ++
      (expression.rename definition.image).text)) definition.name with
  | error cause =>
      rw [fetched] at compiled
      cases compiled
  | ok value =>
      obtain ⟨statement, stated⟩ := exists_statement_of_fetch complete fetched
      have spelled : Statement.defineHead definition.name ++
          (expression.rename definition.image).text =
          "def ".toList ++ (definition.name.toList ++ '(' :: ("a, b=None): return ".toList ++
            (expression.rename definition.image).text)) := by
        simp [Statement.defineHead]
      rw [spelled] at stated
      have isName := Statement.isName_of_parse isRun stated
      rw [String.ofList_toList] at isName
      exact ⟨isName, isReserved_of_isForbidden allowed⟩

end FilterDefinition

/-! ## Calls -/

/-- What the body of a filter sees: the argument and the value. -/
def filterScope (value argument : Value) : Scope :=
  fun name => if name = "b" then some argument else if name = "a" then some value else none

theorem frame_eq
    (name : String)
    (value argument : Value)
    {given : List Value}
    (isGiven : given.head?.or (some .none) = some argument) :
    Closure.frame name [⟨"a", none⟩, ⟨"b", some .none⟩] (value :: given) =
      .ok (filterScope value argument) := by
  simp only [Closure.frame, List.head?_cons, Option.some_or, List.tail_cons, isGiven]
  change Except.ok _ = Except.ok _
  congr 1
  funext other
  by_cases isArgument : other = "b"
  · simp [filterScope, isArgument]
  · simp [filterScope, isArgument]

/-- A filter is called with its argument in its scope; a missing one counts as the absent value. -/
theorem call_compiledFunction
    (name : String)
    (body : Expr)
    (value argument : Value) :
    (compiledFunction name body).call [value, argument] =
        body.evalWith (filterScope value argument) (Closure.callWithin 31) ∧
      (compiledFunction name body).call [value] =
        body.evalWith (filterScope value .none) (Closure.callWithin 31) := by
  have called {arguments : List Value} {scope : Scope}
      (bound : Closure.bindArguments (compiledFunction name body) arguments = .ok scope) :
      (compiledFunction name body).call arguments =
        body.evalWith scope (Closure.callWithin 31) := by
    change Closure.callWithin (31 + 1) _ _ = _
    rw [Closure.callWithin, bound]
    rfl
  exact ⟨called (@frame_eq name value argument [argument] rfl),
    called (@frame_eq name value .none [] rfl)⟩

/-- A body that does not name the argument gives the same with any argument and without one. -/
theorem call_eq_of_not_mem
    {name : String}
    {body : Expr}
    (unnamed : "b" ∉ body.names)
    (value argument : Value) :
    (compiledFunction name body).call [value, argument] =
      (compiledFunction name body).call [value] := by
  obtain ⟨withArgument, without⟩ := call_compiledFunction name body value argument
  rw [withArgument, without]
  refine Expr.evalWith_congr body fun other free => ?_
  have different : other ≠ "b" := fun same => unnamed (same ▸ free)
  simp [filterScope, different]

namespace FilterDefinition

variable
  {definition : FilterDefinition}
  {function : Function}

/-- Without a declared argument only its own name stands for the argument. -/
theorem image_eq_argument_iff
    (single : definition.argument = none)
    {name : String}
    (own : IsOwnName name) :
    definition.image name = "b" ↔ definition.value ≠ "b" ∧ name = "b" := by
  have noPlaceholder : name ≠ undeclaredArgument := by
    rintro rfl
    exact absurd own.notReserved (by decide)
  simp only [image, single, Option.getD_none, noPlaceholder, if_false]
  by_cases isValue : name = definition.value
  · simp [isValue]
  · simp only [isValue, if_false]
    constructor
    · rintro rfl
      exact ⟨fun same => isValue same.symm, rfl⟩
    · exact And.right

/--
A filter of one parameter that is compiled from a line has an expression, and its function names
the argument exactly when the expression has the name of the argument free and does not declare
it as the parameter.  Otherwise a call gives the same result with any argument and without one.
-/
theorem call_eq_of_single
    {line : String}
    (read : readFilter? line = some definition)
    (single : definition.argument = none)
    (compiled : definition.compile = .ok function) :
    ∃ expression, parse definition.body = .ok expression ∧
      ("b" ∈ function.body.names ↔ definition.value ≠ "b" ∧ "b" ∈ expression.names) ∧
      (definition.value = "b" ∨ "b" ∉ expression.names →
        ∀ value argument, function.call [value, argument] = function.call [value]) := by
  obtain ⟨allowed, expression, parsed⟩ := exists_expression_of_compile compiled
  have own := isOwnName_of_compile read compiled
  obtain ⟨body, reparsed, rfl⟩ := (compile_eq_ok_iff own allowed parsed).mp compiled
  have writable := writable_of_parse parsed
  have names : "b" ∈ body.names ↔ definition.value ≠ "b" ∧ "b" ∈ expression.names := by
    obtain ⟨-, rfl⟩ := Expr.eq_readBack_of_parse_print
      (writable.rename definition.isOwnName_image) reparsed
    rw [Expr.mem_names_readBack (by decide), Expr.names_rename, List.mem_map]
    constructor
    · rintro ⟨name, free, isArgument⟩
      have ownName := writable.isOwnName_of_mem free
      obtain ⟨different, rfl⟩ := (image_eq_argument_iff single ownName).mp isArgument
      exact ⟨different, free⟩
    · rintro ⟨different, free⟩
      have ownName := writable.isOwnName_of_mem free
      exact ⟨"b", free, (image_eq_argument_iff single ownName).mpr ⟨different, rfl⟩⟩
  refine ⟨expression, parsed, names, fun unseen => call_eq_of_not_mem fun free => ?_⟩
  obtain ⟨different, named⟩ := names.mp free
  rcases unseen with same | unnamed
  · exact different same
  · exact unnamed named

set_option maxRecDepth 20000 in
/-- A filter that does not name the argument gives the same with any argument and without one. -/
theorem call_eq_of_single_sum :
    ∃ definition function, readFilter? "next(x) <= (x + 1)" = some definition ∧
      definition.argument = none ∧ definition.compile = .ok function ∧
      ∀ value argument, function.call [value, argument] = function.call [value] := by
  have read : readFilter? "next(x) <= (x + 1)" = some ⟨"next", "x", none, "(x + 1)"⟩ := by cbv
  have own : IsOwnName "next" := ⟨⟨⟨rfl, List.all_eq_true.mp rfl⟩, rfl⟩, rfl⟩
  have writable : (Expr.binary .add (.variable "x") (.literal (.int 1))).Writable :=
    .binary (.reference ⟨⟨⟨rfl, by simp⟩, rfl⟩, rfl⟩)
      (.literal (show 0 ≤ (1 : Int64).toInt by decide))
  have exact : ∀ constant ∈ (Expr.binary .add (.variable "x") (.literal (.int 1))).constants,
      constant.isExact = true := by
    simp [Expr.constants, Literal.isExact]
  have parsed : parse "(x + 1)" = .ok (.binary .add (.variable "x") (.literal (.int 1))) :=
    Expr.parse_of_tokens writable exact (by decide) (by cbv)
  have compiled : compile ⟨"next", "x", none, "(x + 1)"⟩ =
      .ok (compiledFunction "next" (.binary .add (.variable "a") (.literal (.int 1)))) :=
    compile_of_isExact own (by decide) parsed (by decide) exact
  obtain ⟨expression, same, -, unseen⟩ := call_eq_of_single read rfl compiled
  obtain rfl := Except.ok.inj (parsed.symm.trans same)
  exact ⟨_, _, read, rfl, compiled, unseen (.inr (by decide))⟩

set_option maxRecDepth 20000 in
/-- A filter of one parameter that names the argument gives the argument. -/
theorem call_ne_of_single :
    ∃ definition function, readFilter? "f(x) <= b" = some definition ∧
      definition.argument = none ∧ definition.compile = .ok function ∧
      function.call [.str "v", .str "w"] = .ok (.str "w") ∧
      function.call [.str "v"] = .ok .none ∧
      function.call [.str "v", .str "w"] ≠ function.call [.str "v"] := by
  have read : readFilter? "f(x) <= b" = some ⟨"f", "x", none, "b"⟩ := by cbv
  have own : IsOwnName "f" := ⟨⟨⟨rfl, by simp⟩, rfl⟩, rfl⟩
  have writable : (Expr.variable "b").Writable := .reference ⟨⟨⟨rfl, by simp⟩, rfl⟩, rfl⟩
  have exact : ∀ constant ∈ (Expr.variable "b").constants, constant.isExact = true := by
    simp [Expr.constants]
  have parsed : parse "b" = .ok (.variable "b") :=
    Expr.parse_of_tokens writable exact (by decide) (by cbv)
  have compiled : compile ⟨"f", "x", none, "b"⟩ =
      .ok (compiledFunction "f" (.variable "b")) :=
    compile_of_isExact own (by decide) parsed (by decide) exact
  obtain ⟨withArgument, without⟩ :=
    call_compiledFunction "f" (.variable "b") (.str "v") (.str "w")
  have given : (compiledFunction "f" (.variable "b")).call [.str "v", .str "w"] =
      .ok (.str "w") := withArgument
  have missing : (compiledFunction "f" (.variable "b")).call [.str "v"] = .ok .none := without
  refine ⟨_, _, read, rfl, compiled, given, missing, ?_⟩
  rw [given, missing]
  simp

end FilterDefinition
end Document
end TemplatedMarkup
