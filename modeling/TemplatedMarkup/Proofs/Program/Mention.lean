import TemplatedMarkup.Proofs.Expression.FreeName
import TemplatedMarkup.Proofs.Program.Assignment

/-!
# What a program can observe

A statement looks up names of its own tokens only: the free names of a phrase stand among its
tokens, and a definition evaluates the defaults of its parameters but not its body.  So a program
binds the same values over all contexts that agree on the names it mentions, or fails with the
same error over all of them.
-/

namespace TemplatedMarkup

namespace Expression

/-- The free names of a phrase stand among its tokens. -/
theorem Derives.mem_tokens_of_mem_names
    {form : Form}
    {phrase : Phrase}
    {name : String}
    (derives : Derives form phrase)
    (free : name ∈ phrase.tree.names) :
    .name name ∈ phrase.tokens := by
  induction derives with
  | whole _ body => exact body free
  | conditional _ _ _ consequence condition alternative =>
      simp only [Expr.names, List.mem_append] at free
      rcases free with (inside | inside) | inside
      · simp [condition inside]
      · simp [consequence inside]
      · simp [alternative inside]
  | alone _ _ body => exact body free
  | joined _ _ _ _ left right =>
      rcases List.mem_append.mp free with inside | inside
      · simp [Phrase.joined, left inside]
      · simp [Phrase.joined, right inside]
  | not _ operand => simp [Phrase.under, operand free]
  | chained _ _ _ first links =>
      rcases List.mem_append.mp free with inside | inside
      · simp [Phrase.chained, first inside]
      · obtain ⟨_, isLink, inside⟩ := Expr.mem_linksNames.mp inside
        obtain ⟨link, among, rfl⟩ := List.mem_map.mp isLink
        refine List.mem_append_right _ (List.mem_flatMap.mpr ⟨link, among, ?_⟩)
        simp [links link among inside]
  | sign _ _ operand => simp [Phrase.under, operand free]
  | power _ _ base exponent =>
      rcases List.mem_append.mp free with inside | inside
      · simp [base inside]
      · simp [exponent inside]
  | index _ _ subject position =>
      rcases List.mem_append.mp free with inside | inside
      · simp [subject inside]
      · simp [position inside]
  | slice _ _ _ _ _ subject start stop step =>
      have bound
          {bound : Option Phrase}
          (holds : ∀ present ∈ bound, name ∈ present.tree.names → .name name ∈ present.tokens)
          (inside : ∃ present ∈ bound.map Phrase.tree, name ∈ present.names) :
          .name name ∈ bound.elim [] Phrase.tokens := by
        obtain ⟨_, isTree, inside⟩ := inside
        obtain ⟨present, rfl, rfl⟩ := Option.map_eq_some_iff.mp isTree
        exact holds present rfl inside
      simp only [Phrase.sliced, Expr.names, List.mem_append, Expr.mem_boundNames] at free
      rcases free with ((inside | inside) | inside) | inside
      · simp [Phrase.sliced, subject inside]
      · simp [Phrase.sliced, bound start inside]
      · simp [Phrase.sliced, bound stop inside]
      · simp [Phrase.sliced, bound step inside]
  | method _ _ receiver arguments =>
      rcases List.mem_append.mp free with inside | inside
      · simp [receiver inside]
      · obtain ⟨_, isTree, inside⟩ := Expr.mem_itemsNames.mp inside
        obtain ⟨argument, among, rfl⟩ := List.mem_map.mp isTree
        simp [mem_argumentTokens among (arguments argument among inside)]
  | constant _ | strings _ => simp [Expr.names] at free
  | reference _ => simpa [Expr.names] using free
  | call _ _ arguments =>
      rcases List.mem_cons.mp free with rfl | inside
      · simp
      · obtain ⟨_, isTree, inside⟩ := Expr.mem_itemsNames.mp inside
        obtain ⟨argument, among, rfl⟩ := List.mem_map.mp isTree
        simp [mem_argumentTokens among (arguments argument among inside)]
  | parenthesized _ body => simp [body free]
  | list _ items =>
      obtain ⟨_, isTree, inside⟩ := Expr.mem_itemsNames.mp free
      obtain ⟨item, among, rfl⟩ := List.mem_map.mp isTree
      simp [mem_listed (List.mem_map_of_mem among) (items item among inside)]
  | dict _ _ keys values =>
      obtain ⟨_, isTree, inside⟩ := Expr.mem_entriesNames.mp free
      obtain ⟨entry, among, rfl⟩ := List.mem_map.mp isTree
      have within : .name name ∈ Phrase.entryTokens entry := by
        rcases inside with inside | inside
        · simp [Phrase.entryTokens, keys entry among inside]
        · simp [Phrase.entryTokens, values entry among inside]
      simp [mem_listed (List.mem_map_of_mem among) within]

/-- The free names of an expression stand among the tokens that are taken for it. -/
theorem takes_names :
    Takes expression fun taken tree => ∀ name ∈ tree.names, .name name ∈ taken := by
  refine (deriving_withLevels maxNesting).expression.mono ?_
  rintro _ _ ⟨phrase, fits, rfl, rfl⟩ name free
  exact fits.derives.mem_tokens_of_mem_names free

end Expression

open Expression

/-! ## The names that a statement looks up -/

/-- The names that the defaults of parameters look up. -/
def defaultNames (parameters : List (String × Option Expr)) : List String :=
  parameters.flatMap fun parameter => Expr.boundNames parameter.2

namespace Statement

/-- The names that a statement looks up when it is carried out. -/
def names : Statement → List String
  | .assign _ value => value.names
  | .define _ parameters _ => defaultNames parameters

open TokenParser Takes

/-- Names of which each stands among tokens. -/
def Named
    (names : List String)
    (tokens : List Token) : Prop :=
  ∀ name ∈ names, .name name ∈ tokens

theorem Named.mono
    {names : List String}
    {tokens others : List Token}
    (named : Named names tokens)
    (included : tokens ⊆ others) :
    Named names others :=
  fun name isName => included (named name isName)

theorem takes_parameterDefault (earlier : List (String × Option Expr)) :
    Takes (parameterDefault earlier) fun taken default =>
      Named (Expr.boundNames default) taken := by
  refine eat (takes_names.bind fun before tree named => pure ?_)
    (ite (fun _ => fail) fun _ => pure (by simp [Named, Expr.boundNames]))
  exact Named.mono named (by simp)

theorem takes_parameter (earlier : List (String × Option Expr)) :
    Takes (parameter earlier) fun taken parameter =>
      Named (Expr.boundNames parameter.2) taken := by
  have named : Takes (ownName "parameter name") fun _ _ => True :=
    expectName.bind fun _ _ _ => ite (fun _ => fail) fun _ => pure trivial
  refine named.bind fun before name _ => ite (fun _ => fail) fun _ => ?_
  exact (takes_parameterDefault earlier).bind fun taken default holds =>
    pure (holds.mono (by simp))

theorem takes_parameterStep
    {before : List Token}
    {state : List (String × Option Expr) × Bool}
    (earlier : Named (defaultNames state.1) before) :
    Takes (parameterStep state) fun taken following =>
      Named (defaultNames (following.getD state).1) (before ++ taken) := by
  refine peek.bind ?_
  rintro _ found rfl
  refine ite (fun _ => pure (by simpa using earlier)) fun _ => ?_
  refine (takes_parameter state.1).bind fun taken parameter named => ?_
  refine eat_comma.bind fun comma more _ => pure ?_
  have both : Named (defaultNames state.1 ++ Expr.boundNames parameter.2) (before ++ taken) :=
    List.forall_mem_append.mpr ⟨earlier.mono (by simp), named.mono (by simp)⟩
  simp only [Option.getD_some, defaultNames, List.flatMap_append, List.flatMap_singleton]
  exact both.mono (by simp)

theorem takes_parameterList :
    Takes parameterList fun taken parameters => Named (defaultNames parameters) taken := by
  rw [parameterList_eq]
  let reached (taken : List Token) (state : List (String × Option Expr) × Bool) : Prop :=
    Named (defaultNames state.1) taken
  have none : reached [] ([], false) := by simp [reached, Named, defaultNames]
  refine (@Takes.repeatFrom _ _ reached (fun _ _ earlier => takes_parameterStep earlier) _ _
    none).bind fun before state named => pure ?_
  simpa using named

/-- The names that a statement looks up stand among its tokens. -/
theorem takes_statement :
    Takes statement fun taken result => Named result.names taken := by
  have ownName (what : String) : Takes (Statement.ownName what) fun _ _ => True :=
    expectName.bind fun _ _ _ => ite (fun _ => fail) fun _ => pure trivial
  refine eat ?_ (peek.bind fun _ first _ => peekSecond.bind fun _ second _ =>
    ite (fun _ => ?_) fun _ => fail)
  · refine (ownName _).bind fun _ name _ => expect.bind fun _ _ _ => ?_
    refine takes_parameterList.bind fun taken parameters named => ?_
    refine expect.bind fun _ _ _ => expect.bind fun _ _ _ => expect.bind fun _ _ _ => ?_
    refine takes_names.bind fun _ body _ => pure fun name isName => ?_
    simp [named name isName]
  · refine (ownName _).bind fun _ name _ => next.bind fun _ _ _ => ?_
    refine takes_names.bind fun taken value named => pure fun name isName => ?_
    simp [named name isName]

/-- The names that the statement of a text looks up stand among the tokens of the text. -/
theorem named_of_parse
    {line : String}
    {statement : Statement}
    (parsed : parse line = .ok statement) :
    ∃ tokens, lex line.toList = .ok tokens ∧ Named statement.names tokens := by
  obtain ⟨tokens, lexed, ran⟩ := exists_of_bind_eq_ok parsed
  exact ⟨tokens, lexed, takes_statement.of_runAll ran⟩

end Statement

/-! ## Runs over contexts that agree -/

/-- Two contexts bind the names of a kind to the same values, or both leave them unbound. -/
def Context.AgreeOn
    (IsSeen : String → Prop)
    (first second : Context) : Prop :=
  ∀ name, IsSeen name → first.get? name = second.get? name

namespace Program

/-- A name stands among the tokens of a logical line of a program. -/
def Mentions (source name : String) : Prop :=
  ∃ lines, LogicalLine.ofSource source = .ok lines ∧
    ∃ line ∈ lines, ∃ tokens, lex line.text = .ok tokens ∧ .name name ∈ tokens

/-- A program mentions every name that one of its statements looks up. -/
theorem mentions_of_parseProgram
    {source name : String}
    {statements : List Statement}
    {statement : Statement}
    (parsed : parseProgram source = .ok statements)
    (among : statement ∈ statements)
    (looksUp : name ∈ statement.names) :
    Mentions source name := by
  obtain ⟨lines, grouped, mapped⟩ := exists_of_bind_eq_ok parsed
  obtain ⟨line, isLine, stated⟩ := exists_of_mem_of_mapM_eq_ok mapped among
  obtain ⟨tokens, lexed, named⟩ := Statement.named_of_parse (eq_ok_of_mapError_eq_ok stated)
  rw [String.toList_ofList] at lexed
  exact ⟨lines, grouped, line, isLine, tokens, lexed, named name looksUp⟩

section Agreement

variable
  {first second own : Context}
  {IsSeen : String → Prop}

/-- An expression has the same value over contexts that agree on the names it looks up. -/
theorem eval_congr
    {expression : Expr}
    (agree : first.AgreeOn IsSeen second)
    (seen : ∀ name ∈ expression.names, IsSeen name) :
    expression.eval (scope first own) = expression.eval (scope second own) :=
  expression.evalWith_congr fun name free => by
    rw [scope, scope, agree name (seen name free)]

/-- A parameter has the same default over contexts that agree on the names it looks up. -/
theorem evalParameter_congr
    {parameter : String × Option Expr}
    (agree : first.AgreeOn IsSeen second)
    (seen : ∀ name ∈ Expr.boundNames parameter.2, IsSeen name) :
    evalParameter (scope first own) parameter = evalParameter (scope second own) parameter := by
  obtain ⟨name, default⟩ := parameter
  cases default with
  | none => rfl
  | some default =>
      have same : default.eval (scope first own) = default.eval (scope second own) :=
        eval_congr agree seen
      simp only [evalParameter, same]

/-- A statement does the same over contexts that agree on the names it looks up. -/
theorem runStatement_congr
    {statement : Statement}
    (agree : first.AgreeOn IsSeen second)
    (seen : ∀ name ∈ statement.names, IsSeen name)
    (origin : Origin) :
    runStatement first origin own statement = runStatement second origin own statement := by
  cases statement with
  | assign name value => rw [runStatement, runStatement, eval_congr agree seen]
  | define name parameters body =>
      have defaults : parameters.mapM (evalParameter (scope first own)) =
          parameters.mapM (evalParameter (scope second own)) :=
        mapM_congr fun parameter among => evalParameter_congr agree fun name free =>
          seen name (List.mem_flatMap.mpr ⟨parameter, among, free⟩)
      rw [runStatement, runStatement, defaults]

/-- A run does the same over contexts that agree on the names its statements look up. -/
theorem runFrom_congr
    {statements : List Statement}
    (agree : first.AgreeOn IsSeen second)
    (seen : ∀ statement ∈ statements, ∀ name ∈ statement.names, IsSeen name)
    (run position : Nat)
    (own : Context) :
    runFrom first run position own statements = runFrom second run position own statements := by
  induction statements generalizing position own with
  | nil => rfl
  | cons statement statements inductionHypothesis =>
      rw [List.forall_mem_cons] at seen
      rw [runFrom, runFrom, runStatement_congr agree seen.1]
      simp only [inductionHypothesis seen.2]

/-- A program binds the same over contexts that agree on the names it mentions. -/
theorem bindings_congr
    {source : String}
    (agree : first.AgreeOn (Mentions source) second)
    (run : Nat) :
    bindings run source first = bindings run source second := by
  unfold bindings
  cases parsed : parseProgram source with
  | error cause => rfl
  | ok statements =>
      exact runFrom_congr agree (fun statement among name looksUp =>
        mentions_of_parseProgram parsed among looksUp) run 0 .empty

end Agreement

/-- A run keeps what is bound and binds the targets of its statements. -/
theorem isSome_get?_of_runFrom
    {outer own next : Context}
    {statements : List Statement}
    {run position : Nat}
    {name : String}
    (ran : runFrom outer run position own statements = .ok next)
    (bound : (own.get? name).isSome ∨ name ∈ statements.map Statement.target) :
    (next.get? name).isSome := by
  induction statements generalizing own position with
  | nil =>
      obtain rfl := Except.ok.inj ran
      simpa using bound
  | cons statement statements inductionHypothesis =>
      obtain ⟨reached, stepped, rest⟩ := exists_of_bind_eq_ok ran
      obtain ⟨value, rfl⟩ := exists_value_of_runStatement stepped
      refine inductionHypothesis rest ?_
      rw [Table.get?_set]
      rcases bound with bound | isTarget
      · left
        split
        · rfl
        · exact bound
      · rcases List.mem_cons.mp isTarget with rfl | later
        · simp
        · exact .inr later

/-- The bindings of a program over a context bind the targets of its statements, and no others. -/
theorem exists_statements_of_bindings
    {run : Nat}
    {source : String}
    {context bound : Context}
    (ran : bindings run source context = .ok bound) :
    ∃ statements, parseProgram source = .ok statements ∧ bound.names.Nodup ∧
      (∀ name ∈ statements.map Statement.target, (bound.get? name).isSome) ∧
      ∀ name ∉ statements.map Statement.target, bound.get? name = none := by
  unfold bindings at ran
  split at ran
  · contradiction
  · rename_i statements parsed
    obtain ⟨distinct, kept⟩ :=
      @get?_of_runFrom context .empty bound statements run 0 List.nodup_nil ran
    exact ⟨statements, parsed, distinct,
      fun name isTarget => isSome_get?_of_runFrom ran (.inr isTarget), kept⟩

/--
A program can observe only the names it mentions.  Over two contexts that bind each of these names
to one value, or both leave it unbound, a run harvests the same: it fails with one error over
both, or binds every target of its statements to one value in both and leaves each context as it
is under every other name.
-/
theorem harvest_of_agreeOn_mentions
    {source : String}
    {first second : Context}
    (agree : first.AgreeOn (Mentions source) second)
    (run : Nat) :
    (∃ cause, harvest run source first = .error cause ∧
      harvest run source second = .error cause) ∨
    ∃ statements firstAfter secondAfter, parseProgram source = .ok statements ∧
      harvest run source first = .ok firstAfter ∧
      harvest run source second = .ok secondAfter ∧
      (∀ name ∈ statements.map Statement.target, ∃ value,
        firstAfter.get? name = some value ∧ secondAfter.get? name = some value) ∧
      ∀ name ∉ statements.map Statement.target,
        firstAfter.get? name = first.get? name ∧ secondAfter.get? name = second.get? name := by
  have same := bindings_congr agree run
  cases ran : bindings run source second with
  | error cause =>
      rw [ran] at same
      exact .inl ⟨cause, by rw [harvest, same]; rfl, by rw [harvest, ran]; rfl⟩
  | ok bound =>
      rw [ran] at same
      obtain ⟨statements, parsed, distinct, binds, leaves⟩ := exists_statements_of_bindings ran
      refine .inr ⟨statements, first.merge bound, second.merge bound, parsed,
        by rw [harvest, same]; rfl, by rw [harvest, ran]; rfl, fun name isTarget => ?_,
        fun name isOther => ?_⟩
      · obtain ⟨value, isValue⟩ := Option.isSome_iff_exists.mp (binds name isTarget)
        refine ⟨value, ?_, ?_⟩ <;> rw [Table.get?_merge distinct, isValue, Option.some_or]
      · constructor <;> rw [Table.get?_merge distinct, leaves name isOther, Option.none_or]

set_option maxRecDepth 20000 in
/-- A program of two assignments does not see a name that neither of them mentions. -/
theorem harvest_of_agreeOn_mentions_assign :
    let source := "y = [x]\nx = y"
    let first : Context := .ofList [("x", .int 1), ("w", .int 2)]
    let second : Context := .ofList [("x", .int 1), ("w", .str "other")]
    first.AgreeOn (Mentions source) second ∧
    ((∃ cause, harvest 0 source first = .error cause ∧
      harvest 0 source second = .error cause) ∨
    ∃ statements firstAfter secondAfter, parseProgram source = .ok statements ∧
      harvest 0 source first = .ok firstAfter ∧
      harvest 0 source second = .ok secondAfter ∧
      (∀ name ∈ statements.map Statement.target, ∃ value,
        firstAfter.get? name = some value ∧ secondAfter.get? name = some value) ∧
      ∀ name ∉ statements.map Statement.target,
        firstAfter.get? name = first.get? name ∧ secondAfter.get? name = second.get? name) := by
  intro source first second
  have lines : LogicalLine.ofSource source =
      .ok [⟨1, "y = [x]".toList⟩, ⟨2, "x = y".toList⟩] := by cbv
  have display : lex "y = [x]".toList = .ok [.name "y", .symbol .assign, .symbol .leftBracket,
      .name "x", .symbol .rightBracket] := by cbv
  have copy : lex "x = y".toList = .ok [.name "x", .symbol .assign, .name "y"] := by cbv
  have agree : first.AgreeOn (Mentions source) second := by
    rintro name ⟨found, isFound, line, isLine, tokens, lexed, isToken⟩
    obtain rfl := Except.ok.inj (lines.symm.trans isFound)
    have mentioned : name = "x" ∨ name = "y" := by
      rcases List.mem_pair.mp isLine with rfl | rfl
      · obtain rfl := Except.ok.inj (display.symm.trans lexed)
        simpa [or_comm] using isToken
      · obtain rfl := Except.ok.inj (copy.symm.trans lexed)
        simpa using isToken
    rcases mentioned with rfl | rfl
    · rfl
    · rfl
  exact ⟨agree, harvest_of_agreeOn_mentions agree 0⟩

end Program
end TemplatedMarkup
