import TemplatedMarkup.Proofs.Document.Filter
import TemplatedMarkup.Proofs.Table

/-!
# Registering filters

What the lines of a block register depends on the lines alone.  They put it over the filters that
are there, up to the first line that fails, so that registering the same lines again changes
nothing.  A line fails when strict reading refuses it, or when its filter is not compiled: its name
is forbidden or no name at all, or its body is no expression.
-/

namespace TemplatedMarkup
namespace Document

/-- Lines register the same filters, and report the same, over any registry. -/
theorem exists_registerFilters_eq_merge
    (strict : Bool)
    (number : Nat)
    (lines : List String) :
    ∃ registered outcome, ∀ registry,
      registerFilters strict number registry lines = (registry.merge registered, outcome) := by
  induction lines generalizing number with
  | nil => exact ⟨.empty, .ok [], fun registry => rfl⟩
  | cons line lines inductionHypothesis =>
      have following := inductionHypothesis (number + 1)
      simp only [registerFilters]
      split
      · exact following
      · split
        · split
          · exact ⟨.empty, .error (unreadableFilter number), fun registry => rfl⟩
          · exact following
        · rename_i definition _
          split
          · rename_i cause _
            exact ⟨.empty, .error cause, fun registry => rfl⟩
          · rename_i closure _
            obtain ⟨⟨registered⟩, outcome, merges⟩ := following
            refine ⟨⟨(definition.name, closure) :: registered⟩,
              outcome.map (definition.name :: ·), fun registry => ?_⟩
            rw [merges]
            rfl

/-- Lines that strict reading accepts register the same filters in either mode. -/
theorem registerFilters_of_strict
    (strict : Bool)
    {number : Nat}
    {registry after : FilterRegistry}
    {lines names : List String}
    (registered : registerFilters true number registry lines = (after, .ok names)) :
    registerFilters strict number registry lines = (after, .ok names) := by
  induction lines generalizing number registry after names with
  | nil => exact registered
  | cons line lines inductionHypothesis =>
      rw [registerFilters] at registered ⊢
      split
      · rename_i blank
        rw [if_pos blank] at registered
        exact inductionHypothesis registered
      · rename_i notBlank
        rw [if_neg notBlank] at registered
        cases read : readFilter? line with
        | none =>
            rw [read] at registered
            cases (Prod.mk.inj registered).2
        | some definition =>
            rw [read] at registered
            cases compiled : definition.compile with
            | error cause =>
                simp only [compiled] at registered
                cases (Prod.mk.inj registered).2
            | ok closure =>
                simp only [compiled] at registered ⊢
                cases following : registerFilters true (number + 1)
                    (registry.set definition.name closure) lines with
                | mk reached outcome =>
                    rw [following] at registered
                    cases outcome with
                    | error cause => cases (Prod.mk.inj registered).2
                    | ok others =>
                        rw [inductionHypothesis following]
                        exact registered

/-! ## The first line that fails -/

open Expression

/-- The body of a filter reads back as an expression when it is parsed, renamed and printed. -/
def FilterDefinition.ReadsBackAs
    (definition : FilterDefinition)
    (body : Expr) : Prop :=
  ∃ expression, parse definition.body = .ok expression ∧
    parse (expression.rename definition.image).print = .ok body

/-- Why a line of filters fails. -/
inductive LineFails (strict : Bool) (number : Nat) (line : String) : DocumentError → Prop
  /-- Strict reading refuses a line that is not blank and defines no filter. -/
  | unreadable
      (isStrict : strict = true)
      (notBlank : line.toList.all Text.isBlank = false)
      (noFilter : readFilter? line = none) :
      LineFails strict number line (unreadableFilter number)
  /-- The name of the filter is forbidden. -/
  | forbidden {definition : FilterDefinition}
      (read : readFilter? line = some definition)
      (isForbidden : definition.isForbidden = true) :
      LineFails strict number line (.forbiddenName definition.name)
  /-- The name of the filter is a word that no function can be bound to. -/
  | noName {definition : FilterDefinition} {cause : DocumentError}
      (read : readFilter? line = some definition)
      (allowed : definition.isForbidden = false)
      (notOwn : ¬ IsOwnName definition.name)
      (fails : definition.compile = .error cause) :
      LineFails strict number line cause
  /-- The body of the filter is no expression, or does not read back as one. -/
  | noBody {definition : FilterDefinition} {cause : DocumentError}
      (read : readFilter? line = some definition)
      (allowed : definition.isForbidden = false)
      (unread : ∀ body, ¬ definition.ReadsBackAs body)
      (fails : definition.compile = .error cause) :
      LineFails strict number line cause

/-- A line that defines a filter is not blank. -/
theorem not_blank_of_readFilter?
    {line : String}
    {definition : FilterDefinition}
    (read : readFilter? line = some definition) :
    ¬ line.toList.all Text.isBlank = true := by
  intro blank
  have nothing : skipBlanks line.toList = [] :=
    List.dropWhile_eq_nil_iff.mpr (List.all_eq_true.mp blank)
  rw [readFilter?, nothing] at read
  contradiction

/-- A line whose filter is not compiled fails with the error of the filter. -/
theorem lineFails_of_compile
    {strict : Bool}
    {number : Nat}
    {line : String}
    {definition : FilterDefinition}
    {cause : DocumentError}
    (read : readFilter? line = some definition)
    (fails : definition.compile = .error cause) :
    LineFails strict number line cause := by
  cases forbidden : definition.isForbidden with
  | true =>
      have isCause : DocumentError.forbiddenName definition.name = cause := by
        rw [FilterDefinition.compile, if_pos forbidden] at fails
        exact Except.error.inj fails
      exact isCause ▸ .forbidden read forbidden
  | false =>
      by_cases own : IsOwnName definition.name
      · refine .noBody read forbidden (fun body readsBack => ?_) fails
        obtain ⟨expression, parsed, readBack⟩ := readsBack
        have compiled := (FilterDefinition.compile_eq_ok_iff own forbidden parsed).mpr
          ⟨body, readBack, rfl⟩
        rw [fails] at compiled
        contradiction
      · exact .noName read forbidden own fails

namespace LineFails

variable
  {strict : Bool}
  {number : Nat}
  {line : String}
  {cause : DocumentError}

/-- A line that fails cannot be read in strict mode, or has a filter that is not compiled. -/
theorem unreadable_or_compile (fails : LineFails strict number line cause) :
    (strict = true ∧ line.toList.all Text.isBlank = false ∧ readFilter? line = none ∧
        cause = unreadableFilter number) ∨
      ∃ definition, readFilter? line = some definition ∧ definition.compile = .error cause := by
  cases fails with
  | unreadable isStrict notBlank noFilter => exact .inl ⟨isStrict, notBlank, noFilter, rfl⟩
  | @forbidden definition read isForbidden =>
      exact .inr ⟨definition, read, by rw [FilterDefinition.compile, if_pos isForbidden]⟩
  | @noName definition _ read _ _ fails => exact .inr ⟨definition, read, fails⟩
  | @noBody definition _ read _ _ fails => exact .inr ⟨definition, read, fails⟩

/-- A line that fails leaves the filters as they are, whatever follows it. -/
theorem registerFilters_cons
    (fails : LineFails strict number line cause)
    (registry : FilterRegistry)
    (lines : List String) :
    registerFilters strict number registry (line :: lines) = (registry, .error cause) := by
  rw [registerFilters]
  rcases fails.unreadable_or_compile with
    ⟨isStrict, notBlank, noFilter, rfl⟩ | ⟨definition, read, notCompiled⟩
  · rw [if_neg (by simp [notBlank]), noFilter, if_pos isStrict]
  · simp only [if_neg (not_blank_of_readFilter? read), read, notCompiled]

end LineFails

/-- The filter that a line registers, if there is one. -/
def filterOnLine? (line : String) : Option (String × Function) := do
  let definition ← readFilter? line
  let closure ← definition.compile.toOption
  return (definition.name, closure)

/-- The filters that lines register, in order. -/
def filtersOnLines (lines : List String) : List (String × Function) :=
  lines.filterMap filterOnLine?

/-- What is registered and reported behind lines that have registered names. -/
def reportBehind
    (names : List String)
    (result : FilterRegistry × Except DocumentError (List String)) :
    FilterRegistry × Except DocumentError (List String) :=
  (result.1, result.2.map (names ++ ·))

@[simp] theorem reportBehind_error
    (names : List String)
    (registry : FilterRegistry)
    (cause : DocumentError) :
    reportBehind names (registry, .error cause) = (registry, .error cause) := rfl

@[simp] theorem reportBehind_ok
    (names others : List String)
    (registry : FilterRegistry) :
    reportBehind names (registry, .ok others) = (registry, .ok (names ++ others)) := rfl

@[simp] theorem reportBehind_nil
    (result : FilterRegistry × Except DocumentError (List String)) :
    reportBehind [] result = result := by
  obtain ⟨registry, outcome⟩ := result
  cases outcome <;> simp

theorem reportBehind_reportBehind
    (names others : List String)
    (result : FilterRegistry × Except DocumentError (List String)) :
    reportBehind names (reportBehind others result) = reportBehind (names ++ others) result := by
  obtain ⟨registry, outcome⟩ := result
  cases outcome <;> simp

/-- A line that does not fail registers its filter, and then the lines behind it are read. -/
theorem registerFilters_cons_of_passes
    {strict : Bool}
    {number : Nat}
    {line : String}
    (passes : ∀ cause, ¬ LineFails strict number line cause)
    (registry : FilterRegistry)
    (lines : List String) :
    registerFilters strict number registry (line :: lines) =
      reportBehind ((filtersOnLines [line]).map (·.1))
        (registerFilters strict (number + 1) (registry.merge ⟨filtersOnLines [line]⟩) lines) := by
  rw [registerFilters]
  cases read : readFilter? line with
  | none =>
      have nothing : filtersOnLines [line] = [] := by
        simp [filtersOnLines, filterOnLine?, read]
      rw [nothing, List.map_nil, reportBehind_nil]
      split
      · rfl
      · rename_i notBlank
        have lenient : ¬ strict = true := fun isStrict =>
          passes _ (.unreadable isStrict (by simpa using notBlank) read)
        simp only [if_neg lenient]
        rfl
  | some definition =>
      rw [if_neg (not_blank_of_readFilter? read)]
      cases compiled : definition.compile with
      | error cause => exact absurd (lineFails_of_compile read compiled) (passes cause)
      | ok closure =>
          have registers : filtersOnLines [line] = [(definition.name, closure)] := by
            simp [filtersOnLines, filterOnLine?, read, compiled, Except.toOption]
          rw [registers]
          simp only [compiled]
          rfl

/-- Lines that do not fail register their filters, and then the lines behind them are read. -/
theorem registerFilters_append
    {strict : Bool}
    {number : Nat}
    {front : List String}
    (passes : ∀ index line, front[index]? = some line →
      ∀ cause, ¬ LineFails strict (number + index) line cause)
    (registry : FilterRegistry)
    (lines : List String) :
    registerFilters strict number registry (front ++ lines) =
      reportBehind ((filtersOnLines front).map (·.1))
        (registerFilters strict (number + front.length)
          (registry.merge ⟨filtersOnLines front⟩) lines) := by
  induction front generalizing number registry with
  | nil => exact (reportBehind_nil _).symm
  | cons line front inductionHypothesis =>
      have first : ∀ cause, ¬ LineFails strict number line cause := passes 0 line rfl
      have later : ∀ index other, front[index]? = some other →
          ∀ cause, ¬ LineFails strict (number + 1 + index) other cause := by
        intro index other isLine
        rw [Nat.add_assoc, Nat.add_comm 1]
        exact passes (index + 1) other isLine
      have together : filtersOnLines (line :: front) =
          filtersOnLines [line] ++ filtersOnLines front :=
        List.filterMap_append (l := [line])
      have merged : (registry.merge ⟨filtersOnLines [line]⟩).merge ⟨filtersOnLines front⟩ =
          registry.merge ⟨filtersOnLines (line :: front)⟩ := by
        rw [together]
        exact List.foldl_append.symm
      rw [List.cons_append, registerFilters_cons_of_passes first, inductionHypothesis later, merged,
        reportBehind_reportBehind, ← List.map_append, ← together, List.length_cons, Nat.add_assoc,
        Nat.add_comm 1]

/-- The line at an index, counted from zero, fails. -/
def FailsAt
    (strict : Bool)
    (lines : List String)
    (index : Nat)
    (cause : DocumentError) : Prop :=
  ∃ line, lines[index]? = some line ∧ LineFails strict (index + 1) line cause

/--
Lines are read in order, up to the first one that fails.  The filters of the lines in front of it,
and of all lines if none fails, are put over the registry: the last filter of a name is the one that
it has, and names without a filter on these lines keep their functions.  The result is the error of
the failing line, and otherwise the names of the filters in order.
-/
theorem compileFilters_stops_at_failure
    (lines : List String)
    (registry : FilterRegistry)
    (strict : Bool) :
    ((∀ index cause, ¬ FailsAt strict lines index cause) →
      compileFilters lines registry strict =
        (registry.merge ⟨filtersOnLines lines⟩, .ok ((filtersOnLines lines).map (·.1)))) ∧
    (∀ index cause, FailsAt strict lines index cause →
      (∀ earlier < index, ∀ other, ¬ FailsAt strict lines earlier other) →
        compileFilters lines registry strict =
          (registry.merge ⟨filtersOnLines (lines.take index)⟩, .error cause)) ∧
    ∀ filters, registry.PutsOver filters (registry.merge ⟨filters⟩) := by
  refine ⟨fun passes => ?_, fun index cause fails first => ?_, Table.putsOver_merge registry⟩
  · have read := @registerFilters_append strict 1 lines (fun index line isLine cause fails =>
      passes index cause ⟨line, isLine, Nat.add_comm 1 index ▸ fails⟩) registry []
    rw [List.append_nil] at read
    rw [compileFilters, read]
    simp [registerFilters]
  · obtain ⟨line, isLine, failsThere⟩ := fails
    obtain ⟨inside, isThere⟩ := List.getElem?_eq_some_iff.mp isLine
    have split : lines = lines.take index ++ line :: lines.drop (index + 1) := by
      rw [← isThere, List.getElem_cons_drop, List.take_append_drop]
    have passes : ∀ earlier other, (lines.take index)[earlier]? = some other →
        ∀ cause, ¬ LineFails strict (1 + earlier) other cause := by
      intro earlier other isOther cause failsEarlier
      rw [List.getElem?_take] at isOther
      split at isOther
      · rename_i isEarlier
        exact first earlier isEarlier cause ⟨other, isOther, Nat.add_comm 1 earlier ▸ failsEarlier⟩
      · contradiction
    have reached : 1 + (lines.take index).length = index + 1 := by
      rw [List.length_take_of_le (Nat.le_of_lt inside), Nat.add_comm]
    have read := registerFilters_append passes registry (line :: lines.drop (index + 1))
    rw [← split, reached, failsThere.registerFilters_cons] at read
    rw [compileFilters, read]
    rfl

set_option maxRecDepth 4000 in
/-- The lines behind a forbidden name are not read, and the filters in front of it are registered. -/
theorem compileFilters_stops_at_forbidden_name :
    let lines := ["same(x) <= x", " ", "garbage", "_no(x) <= x", "last(x) <= x"]
    let old := compiledFunction "old" (.variable "a")
    let same := compiledFunction "same" (.variable "a")
    ((∀ index cause, ¬ FailsAt false (lines.take 3) index cause) ∧
      compileFilters (lines.take 3) ⟨[("old", old)]⟩ false =
        (⟨[("old", old), ("same", same)]⟩, .ok ["same"])) ∧
    FailsAt false lines 3 (.forbiddenName "_no") ∧
      (∀ earlier < 3, ∀ other, ¬ FailsAt false lines earlier other) ∧
      compileFilters lines ⟨[("old", old)]⟩ false =
        (⟨[("old", old), ("same", same)]⟩, .error (.forbiddenName "_no")) := by
  intro lines old same
  have writable : (Expr.variable "x").Writable :=
    .reference ⟨⟨⟨rfl, by simp⟩, rfl⟩, rfl⟩
  have parsed : parse "x" = .ok (.variable "x") :=
    Expr.parse_of_tokens writable (by simp [Expr.constants]) (by decide) (by cbv)
  have own : IsOwnName "same" := isOwnName_of_tokenize (by cbv) (by decide)
  have exact : ∀ constant ∈ (Expr.variable "x").constants, constant.isExact = true := by
    simp [Expr.constants]
  have compiled : FilterDefinition.compile ⟨"same", "x", none, "x"⟩ = .ok same :=
    FilterDefinition.compile_of_isExact own (by decide) parsed (by decide) exact
  have readsSame : readFilter? "same(x) <= x" = some ⟨"same", "x", none, "x"⟩ := by cbv
  have readsBlank : readFilter? " " = none := by cbv
  have readsGarbage : readFilter? "garbage" = none := by cbv
  have readsForbidden : readFilter? "_no(x) <= x" = some ⟨"_no", "x", none, "x"⟩ := by cbv
  have passes : ∀ index cause, ¬ FailsAt false (lines.take 3) index cause := by
    rintro index cause ⟨line, isLine, fails⟩
    have among : line ∈ ["same(x) <= x", " ", "garbage"] := List.mem_of_getElem? isLine
    rcases fails.unreadable_or_compile with ⟨isStrict, -⟩ | ⟨definition, read, notCompiled⟩
    · contradiction
    · simp only [List.mem_cons, List.not_mem_nil, or_false] at among
      rcases among with rfl | rfl | rfl
      · obtain rfl := Option.some.inj (readsSame.symm.trans read)
        rw [compiled] at notCompiled
        contradiction
      · rw [readsBlank] at read
        contradiction
      · rw [readsGarbage] at read
        contradiction
  have registered : filtersOnLines (lines.take 3) = [("same", same)] := by
    simp [filtersOnLines, filterOnLine?, lines, readsSame, readsBlank, readsGarbage, compiled,
      Except.toOption]
  have fails : FailsAt false lines 3 (.forbiddenName "_no") :=
    ⟨_, rfl, .forbidden readsForbidden (by decide)⟩
  have first : ∀ earlier < 3, ∀ other, ¬ FailsAt false lines earlier other := by
    rintro earlier isEarlier other ⟨line, isLine, failsEarlier⟩
    refine passes earlier other ⟨line, ?_, failsEarlier⟩
    rw [List.getElem?_take_of_lt isEarlier, isLine]
  have merged : (Table.mk [("old", old)]).merge ⟨[("same", same)]⟩ =
      ⟨[("old", old), ("same", same)]⟩ := by
    simp [Table.merge, Table.set, Table.setIn]
  refine ⟨⟨passes, ?_⟩, fails, first, ?_⟩
  · rw [(compileFilters_stops_at_failure (lines.take 3) ⟨[("old", old)]⟩ false).1 passes,
      registered, merged]
    rfl
  · rw [(compileFilters_stops_at_failure lines ⟨[("old", old)]⟩ false).2.1 3 _ fails first,
      registered, merged]

end Document
end TemplatedMarkup
