import TemplatedMarkup.Document.Filter
import TemplatedMarkup.Proofs.Expression.FreeName
import TemplatedMarkup.Proofs.Expression.RoundTrip
import TemplatedMarkup.Proofs.Program.Statement

/-!
# Compiling filters

The body of a filter is parsed, renamed, printed into the definition of a function and parsed
again.  So a filter is compiled to what its body reads back as: this is the renamed body itself
unless the body holds a double that is printed as another constant or its text is nested too deeply.
-/

namespace TemplatedMarkup
namespace Document

open Expression

/-- The function of a filter with a given name and body. -/
def compiledFunction
    (name : String)
    (body : Expr) : Function where
  origin := ⟨0, 0⟩
  name := name
  parameters := [⟨"a", none⟩, ⟨"b", some .none⟩]
  body := body

/-- A program that states the definition of a filter binds its function. -/
theorem fetch_of_states
    {line : List Char}
    {name : String}
    {body : Expr}
    (states : LogicalLine.States line (.define name Statement.valueAndArgument body)) :
    Program.fetch 0 (.ofList line) name = .ok (.function (compiledFunction name body)) := by
  have parsed : parseProgram (.ofList line) =
      .ok [.define name Statement.valueAndArgument body] := by
    rw [states.complete.parseProgram_eq, if_neg (Int.not_lt.mpr states.closed), states.parsed]
    rfl
  have bound : Program.bindings 0 (.ofList line) .empty =
      .ok (Table.empty.set name (.function (compiledFunction name body))) := by
    unfold Program.bindings
    rw [parsed]
    rfl
  have found : (Table.empty.set name (Value.function (compiledFunction name body))).get? name =
      some (.function (compiledFunction name body)) := by
    simp [Table.empty, Table.set, Table.setIn, Table.get?]
  unfold Program.fetch
  rw [bound]
  simp only [bind, Except.bind, found]
  rfl

/-- A value can only be fetched from a program of one line when the line is a statement. -/
theorem exists_statement_of_fetch
    {line : List Char}
    {name : String}
    {value : Value}
    (complete : LogicalLine.IsComplete line)
    (fetched : Program.fetch 0 (.ofList line) name = .ok value) :
    ∃ statement, Statement.parse (.ofList line) = .ok statement := by
  cases parsed : Statement.parse (.ofList line) with
  | ok statement => exact ⟨statement, rfl⟩
  | error cause =>
      have refused : ∃ other, parseProgram (.ofList line) = .error other := by
        rw [complete.parseProgram_eq, parsed]
        split
        · exact ⟨_, rfl⟩
        · exact ⟨_, rfl⟩
      obtain ⟨other, isError⟩ := refused
      unfold Program.fetch Program.bindings at fetched
      rw [isError] at fetched
      contradiction

namespace FilterDefinition

variable
  {definition : FilterDefinition}
  {expression : Expr}

/-- An allowed name is not reserved. -/
theorem isReserved_of_isForbidden
    (allowed : definition.isForbidden = false) :
    isReserved definition.name = false := by
  unfold isForbidden at allowed
  unfold isReserved
  cases spelled : definition.name.toList with
  | nil => rfl
  | cons first rest =>
      have noUnderscore : first ≠ '_' := by simpa [spelled] using allowed
      simp [List.isPrefixOf, Ne.symm noUnderscore]

/-- The compiled names can be referred to when the names in the body can. -/
theorem isOwnName_image
    (definition : FilterDefinition)
    (name : String)
    (own : IsOwnName name) :
    IsOwnName (definition.image name) := by
  unfold image
  split
  · exact ⟨⟨⟨rfl, by simp⟩, rfl⟩, rfl⟩
  · split
    · exact ⟨⟨⟨rfl, by simp⟩, rfl⟩, rfl⟩
    · exact own

/-- The program of a filter is one line: the head of a definition and the renamed body. -/
theorem program_eq
    (parsed : parse definition.body = .ok expression) :
    definition.program = .ok (.ofList
      (Statement.defineHead definition.name ++ (expression.rename definition.image).text)) := by
  have compiled : definition.compiledBody = .ok (expression.rename definition.image) := by
    simp [compiledBody, parsed, bind, Except.bind, pure, Except.pure]
  simp only [program, compiled]
  congr 1
  apply String.toList_inj.mp
  simp [Statement.defineHead, Expr.print, toString]

/-- A filter with an allowed name is compiled to what its program binds the name to. -/
theorem compile_of_program
    {source : String}
    (allowed : definition.isForbidden = false)
    (program : definition.program = .ok source) :
    definition.compile =
      match Program.fetch 0 source definition.name with
      | .ok (.function closure) => .ok closure
      | .ok other =>
          .error (.evaluation
            s!"filter '{definition.name}' compiled to {other.kind.name}, not a function")
      | .error cause => .error (.ofProgram cause) := by
  unfold compile
  rw [if_neg (by simp [allowed]), program]
  cases fetched : Program.fetch 0 source definition.name with
  | error cause => simp [bind, Except.bind, Except.mapError, fetched]
  | ok value =>
      simp only [bind, Except.bind, Except.mapError, fetched]
      cases value <;> rfl

/-- A filter is compiled exactly when its printed body is an expression, which is its body. -/
theorem compile_eq_ok_iff
    (own : IsOwnName definition.name)
    (allowed : definition.isForbidden = false)
    (parsed : parse definition.body = .ok expression)
    {function : Function} :
    definition.compile = .ok function ↔
      ∃ body, parse (expression.rename definition.image).print = .ok body ∧
        function = compiledFunction definition.name body := by
  have writable := (writable_of_parse parsed).rename definition.isOwnName_image
  have complete := Statement.isComplete_define own.isWord.isPrinted.oneLine writable.isPrinted
  have heads := Statement.heads_define own
  rw [compile_of_program allowed (program_eq parsed)]
  constructor
  · intro compiled
    cases fetched : Program.fetch 0 (.ofList (Statement.defineHead definition.name ++
        (expression.rename definition.image).text)) definition.name with
    | error cause =>
        rw [fetched] at compiled
        cases compiled
    | ok value =>
        obtain ⟨statement, stated⟩ := exists_statement_of_fetch complete fetched
        obtain ⟨body, read, rfl⟩ := heads.parse_eq_ok_iff.mp stated
        rw [fetch_of_states (heads.states rfl read complete)] at compiled
        exact ⟨body, read, (Except.ok.inj compiled).symm⟩
  · rintro ⟨body, read, rfl⟩
    rw [fetch_of_states (heads.states rfl read complete)]

/-- A filter with an exact expression is compiled to a function of the renamed expression. -/
theorem compile_of_isExact
    (own : IsOwnName definition.name)
    (allowed : definition.isForbidden = false)
    (parsed : parse definition.body = .ok expression)
    (fits : expression.nesting + 1 ≤ maxNesting)
    (exact : ∀ constant ∈ expression.constants, constant.isExact = true) :
    definition.compile =
      .ok (compiledFunction definition.name (expression.rename definition.image)) := by
  have writable := (writable_of_parse parsed).rename definition.isOwnName_image
  have reads := Expr.parse_print_eq_self_iff writable
  rw [Expr.nesting_rename, Expr.constants_rename] at reads
  exact (compile_eq_ok_iff own allowed parsed).mpr ⟨_, reads.mpr ⟨fits, exact⟩, rfl⟩

/-! ## Filters that compile to what they say -/

/-- The names of the parameters in the function that a filter says it is. -/
def statedImage
    (definition : FilterDefinition)
    (name : String) : String :=
  if name = definition.value then "a"
  else if definition.argument = some name then "b"
  else name

/--
A filter compiles to what it says when its function takes a value and an optional argument and
has the expression of the filter as its body, with the parameters renamed.
-/
def CompilesTo
    (definition : FilterDefinition)
    (expression : Expr) : Prop :=
  ∃ function, definition.compile = .ok function ∧
    function.parameters = [⟨"a", none⟩, ⟨"b", some .none⟩] ∧
    function.body = expression.rename definition.statedImage

/-- The renaming of a definition is the one that it says, on names that can be referred to. -/
theorem image_eq_statedImage
    (distinct : definition.argument ≠ some definition.value)
    {name : String}
    (own : IsOwnName name) :
    definition.image name = definition.statedImage name := by
  have noPlaceholder : name ≠ undeclaredArgument := by
    rintro rfl
    exact absurd own.notReserved (by decide)
  unfold image statedImage
  cases declared : definition.argument with
  | none => simp [noPlaceholder]
  | some argument =>
      rw [declared] at distinct
      by_cases isArgument : name = argument
      · subst isArgument
        have notValue : name ≠ definition.value := fun same => distinct (by rw [same])
        simp [notValue]
      · simp [isArgument, Ne.symm isArgument]

/--
A filter with a name, one parameter or two and an expression compiles to what it says exactly
when the text of the expression opens no more levels than are allowed and holds no double of
at least ten to the sixteenth.
-/
theorem compilesTo_iff
    (identifier : tokenize definition.name = .ok [.name definition.name])
    (allowed : definition.isForbidden = false)
    (distinct : definition.argument ≠ some definition.value)
    (parsed : parse definition.body = .ok expression) :
    definition.CompilesTo expression ↔
      expression.nesting + 1 ≤ maxNesting ∧
        ∀ constant ∈ expression.constants, constant.isExact = true := by
  have own := isOwnName_of_tokenize identifier (isReserved_of_isForbidden allowed)
  have writable := writable_of_parse parsed
  have renamed : expression.rename definition.image = expression.rename definition.statedImage :=
    Expr.rename_congr expression fun name free =>
      image_eq_statedImage distinct (writable.isOwnName_of_mem free)
  constructor
  · rintro ⟨function, compiled, -, isBody⟩
    obtain ⟨body, read, rfl⟩ := (compile_eq_ok_iff own allowed parsed).mp compiled
    change body = _ at isBody
    rw [isBody, ← renamed, Expr.parse_print_eq_self_iff (writable.rename
      definition.isOwnName_image), Expr.nesting_rename, Expr.constants_rename] at read
    exact read
  · rintro ⟨fits, exact⟩
    exact ⟨_, compile_of_isExact own allowed parsed fits exact, rfl, renamed⟩

set_option maxRecDepth 20000 in
/-- A filter of two parameters whose expression adds them compiles to what it says. -/
theorem compilesTo_iff_sum :
    let definition : FilterDefinition := ⟨"extend", "x", some "more", "(x + more)"⟩
    definition.CompilesTo (.binary .add (.variable "x") (.variable "more")) := by
  intro definition
  have writable : (Expr.binary .add (.variable "x") (.variable "more")).Writable :=
    .binary (.reference ⟨⟨⟨rfl, by simp⟩, rfl⟩, rfl⟩)
      (.reference ⟨⟨⟨rfl, List.all_eq_true.mp rfl⟩, rfl⟩, rfl⟩)
  have parsed : parse definition.body =
      .ok (.binary .add (.variable "x") (.variable "more")) :=
    Expr.parse_of_tokens writable (by simp [Expr.constants]) (by decide) (by cbv)
  refine (compilesTo_iff (by cbv) (by decide) (by decide) parsed).mpr ⟨by decide, ?_⟩
  simp [Expr.constants]

set_option maxRecDepth 4000 in
/-- A filter whose expression is a large double compiles to a function of an integer instead. -/
theorem not_compilesTo_large :
    let definition : FilterDefinition := ⟨"large", "x", none, "1e17"⟩
    tokenize definition.name = .ok [.name definition.name] ∧
      definition.isForbidden = false ∧
      definition.argument ≠ some definition.value ∧
      parse definition.body = .ok (.literal (.float 1e17)) ∧
      definition.compile =
        .ok (compiledFunction "large" (.literal (.int 100000000000000000))) ∧
      ¬ definition.CompilesTo (.literal (.float 1e17)) := by
  intro definition
  have identifier : tokenize definition.name = .ok [.name definition.name] := by cbv
  have parsed : parse definition.body = .ok (.literal (.float 1e17)) := by
    have spelled : definition.body.toList = ['1', 'e', '1', '7'] := by decide
    have lexed : lex ['1', 'e', '1', '7'] = (lex []).map (.float 1e17 :: ·) :=
      lex_of_scanToken rfl rfl
    have reads (value : Float) (levels : Nat) :
        Reads (trailers (withLevels levels)) 8 levels 0 [.float value]
          (.literal (.float value)) := by
      intro rest apart
      rw [trailers_eq, TokenParser.run_bind]
      exact TokenParser.run_repeatFrom_of_none (run_trailerStep_of_binding_lt apart)
    have read := parseTokens_of_reads (reads_expression
      (fun levels => (reads 1e17 levels).alone ⟨_, rfl, rfl⟩) maxNesting)
    rw [parse, tokenize, spelled, lexed, lex_nil]
    exact read
  have compiled : definition.compile =
      .ok (compiledFunction "large" (.literal (.int 100000000000000000))) := by
    rw [compile_eq_ok_iff (isOwnName_of_tokenize identifier (by decide)) (by decide) parsed]
    refine ⟨_, ?_, rfl⟩
    have unbounded : ¬ Float.abs 1e17 < Decimal.fractionBound := by decide +kernel
    have finite : Decimal.isFinite 1e17 = true := by decide +kernel
    have written : Decimal.floatLiteral 1e17 = "100000000000000000".toList := by decide +kernel
    have value : Decimal.digitsValue "100000000000000000".toList = 100000000000000000 := by decide
    have fits : ¬ Int64.maxValue.toInt < ((100000000000000000 : Nat) : Int) := by decide
    have checked : (Literal.float 1e17).check = .ok () := by
      rw [Literal.check, if_neg unbounded, if_pos finite, written, value, if_neg fits]
    have read : (Literal.float 1e17).readBack = .literal (.int 100000000000000000) := by
      rw [Literal.readBack, if_neg unbounded, if_pos finite, written, value]
      rfl
    rw [parse_print ((writable_of_parse parsed).rename definition.isOwnName_image)]
    simp only [Expr.rename, Expr.constants, Expr.readBack, List.forM_cons, checked, read]
    rfl
  refine ⟨identifier, by decide, by decide, parsed, compiled, ?_⟩
  rintro ⟨function, same, -, isBody⟩
  rw [compiled] at same
  obtain rfl := Except.ok.inj same
  change Expr.literal (.int _) = .literal (.float _) at isBody
  simp at isBody

end FilterDefinition
end Document
end TemplatedMarkup
