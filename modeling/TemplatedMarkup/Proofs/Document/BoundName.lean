import TemplatedMarkup.Proofs.Document.DeclaredName
import TemplatedMarkup.Proofs.Program.Mention

/-!
# Names that an inference binds

The declarations of a block are lines of one program.  A declaration whose line stays open takes the
next declarations into its own statement, as a part of a string or of a comment.  What an inference
binds is the names of the declarations that start a statement, and what the context binds.
-/

namespace TemplatedMarkup
namespace Document

open Expression Text Program

/-- Whether the line of a declaration stays open: it ends in a backslash or inside a bracket. -/
def Declaration.staysOpen (declaration : Declaration) : Bool :=
  (LogicalLine.extend [] declaration.statement.toList).2

/-- The declarations that start a statement, behind the text of one that is still open. -/
def startersBehind (pending : Option (List Char)) : List Declaration → List Declaration
  | [] => []
  | declaration :: declarations =>
      let (text, open?) :=
        LogicalLine.extend (pending.getD []) declaration.statement.toList
      let others := startersBehind (if open? then some text else none) declarations
      if pending.isNone then declaration :: others else others

/-- The declarations of a block that start a statement of its program. -/
def starters (declarations : List Declaration) : List Declaration :=
  startersBehind none declarations

/-- When no line stays open, every declaration starts a statement. -/
theorem starters_eq_self
    {declarations : List Declaration}
    (closed : ∀ declaration ∈ declarations, declaration.staysOpen = false) :
    starters declarations = declarations := by
  unfold starters
  induction declarations with
  | nil => rfl
  | cons declaration declarations inductionHypothesis =>
      rw [List.forall_mem_cons] at closed
      have alone : (LogicalLine.extend [] declaration.statement.toList).2 = false := closed.1
      simp [startersBehind, alone, inductionHypothesis closed.2]

/-! ## Statements of a program -/

/--
Every logical line of a program of declarations assigns to the name of the declaration that starts
it; `front` is the name that a pending line assigns to.
-/
theorem assigns_of_group
    {declarations : List Declaration}
    (areRuns : ∀ declaration ∈ declarations, IsWordRun declaration.name.toList)
    {number : Nat}
    {pending : Option LogicalLine}
    {front : List String}
    (started : List.Forall₂ (fun name line => Statement.AssignsTo name line.text)
      front pending.toList)
    {found : List LogicalLine}
    (grouped : LogicalLine.group number pending
      (declarations.map fun declaration => declaration.statement.toList) = .ok found) :
    List.Forall₂ (fun name line => Statement.AssignsTo name line.text)
      (front ++ (startersBehind (pending.map LogicalLine.text) declarations).map
        Declaration.name) found := by
  induction declarations generalizing number pending front found with
  | nil =>
      cases pending with
      | some line => cases grouped
      | none =>
          obtain rfl := Except.ok.inj grouped
          simpa [startersBehind] using started
  | cons declaration declarations inductionHypothesis =>
      rw [List.forall_mem_cons] at areRuns
      have assigns := declaration.assignsTo
      have notSkipped := LogicalLine.isSkipped_eq_false (assigns.head? areRuns.1)
      -- The line goes on with what is pending, or starts a statement of its own.
      obtain ⟨name, extended, names⟩ : ∃ name,
          Statement.AssignsTo name (LogicalLine.extend (pending.getD ⟨number, []⟩).text
            declaration.statement.toList).1 ∧
          front ++ (startersBehind (pending.map LogicalLine.text)
              (declaration :: declarations)).map Declaration.name =
            name :: (startersBehind
              (if (LogicalLine.extend (pending.getD ⟨number, []⟩).text
                  declaration.statement.toList).2 then
                some (LogicalLine.extend (pending.getD ⟨number, []⟩).text
                  declaration.statement.toList).1
              else none) declarations).map Declaration.name := by
        cases pending with
        | none =>
            obtain rfl : front = [] := by simpa using started
            exact ⟨declaration.name, assigns.extend areRuns.1, rfl⟩
        | some line =>
            obtain ⟨name, rest, startAssigns, finished, rfl⟩ :=
              List.forall₂_cons_right_iff.mp started
            obtain rfl := List.forall₂_nil_right_iff.mp finished
            exact ⟨name, startAssigns.extend_pending _, rfl⟩
      rw [List.map_cons, LogicalLine.group] at grouped
      simp only [notSkipped, Bool.and_false, Bool.false_eq_true, if_false] at grouped
      rw [names]
      split at grouped
      · rename_i isOpen
        rw [if_pos isOpen]
        have begun : List.Forall₂ (fun name line => Statement.AssignsTo name line.text) [name]
            (some (LogicalLine.mk (pending.getD ⟨number, []⟩).number _)).toList :=
          .cons extended .nil
        exact inductionHypothesis areRuns.2 begun grouped
      · rename_i isClosed
        rw [if_neg isClosed]
        obtain ⟨others, following, last⟩ := exists_of_bind_eq_ok grouped
        obtain rfl := Except.ok.inj last
        exact .cons extended (@inductionHypothesis areRuns.2 _ none [] .nil _ following)

/-- Statements whose lines assign to words bind these words. -/
theorem map_target_eq
    {names : List String}
    (areRuns : ∀ name ∈ names, IsWordRun name.toList)
    {lines : List LogicalLine}
    (assigns : List.Forall₂ (fun name line => Statement.AssignsTo name line.text) names lines)
    {statements : List Statement}
    (stated : lines.mapM LogicalLine.statement = .ok statements) :
    statements.map Statement.target = names := by
  induction assigns generalizing statements with
  | nil =>
      obtain rfl := Except.ok.inj stated
      rfl
  | @cons name line names lines lineAssigns _ inductionHypothesis =>
      rw [List.forall_mem_cons] at areRuns
      rw [List.mapM_cons] at stated
      obtain ⟨first, own, rest⟩ := exists_of_bind_eq_ok stated
      obtain ⟨others, following, last⟩ := exists_of_bind_eq_ok rest
      obtain rfl := Except.ok.inj last
      rw [List.map_cons, inductionHypothesis areRuns.2 following,
        lineAssigns.target_eq areRuns.1 (eq_ok_of_mapError_eq_ok own)]

/-- The declarations that start a statement are among the declarations. -/
theorem starters_sublist (declarations : List Declaration) :
    (starters declarations).Sublist declarations := by
  unfold starters
  generalize none = pending
  induction declarations generalizing pending with
  | nil => exact List.Sublist.refl _
  | cons declaration declarations inductionHypothesis =>
      rw [startersBehind]
      simp only
      split
      · exact (inductionHypothesis _).cons_cons declaration
      · exact (inductionHypothesis _).cons declaration

/-- The statements of the program of declarations bind the names of those that start them. -/
theorem map_target_of_parseProgram
    {declarations : List Declaration}
    (areLines : ∀ declaration ∈ declarations,
      declaration.IsTrimmed ∧ IsWordRun declaration.name.toList)
    {statements : List Statement}
    (parsed : parseProgram (programOf declarations) = .ok statements) :
    statements.map Statement.target = (starters declarations).map Declaration.name := by
  obtain ⟨lines, grouped, stated⟩ := exists_of_bind_eq_ok parsed
  rw [LogicalLine.ofSource, lineLists_programOf areLines] at grouped
  have assigns := @assigns_of_group declarations
    (fun declaration among => (areLines declaration among).2) 1 none [] .nil lines grouped
  refine map_target_eq ?_ assigns stated
  rw [List.nil_append, List.forall_mem_map]
  exact fun declaration among =>
    (areLines declaration ((starters_sublist declarations).mem among)).2

/-! ## Bound names -/

/--
A successful inference binds the names of the declarations that start a statement, and besides them
only what the context binds.  It binds every declared name when no line of
a declaration stays open.
-/
theorem infer_binds
    {block : String}
    {context after : Context}
    {strict : Bool}
    (inferred : infer block context strict = .ok after) :
    ∃ found, declarations block strict = .ok found ∧
      (∀ name, (after.get? name).isSome = true ↔
        name ∈ (starters found).map Declaration.name ∨ (context.get? name).isSome = true) ∧
      ((∀ declaration ∈ found, declaration.staysOpen = false) →
        ∀ declaration ∈ found, (after.get? declaration.name).isSome = true) := by
  obtain ⟨found, read, inferred⟩ := exists_of_bind_eq_ok inferred
  have binds : ∀ name, (after.get? name).isSome = true ↔
      name ∈ (starters found).map Declaration.name ∨ (context.get? name).isSome = true := by
    intro name
    split at inferred
    · rename_i nothing
      obtain rfl := Except.ok.inj inferred
      obtain rfl := List.isEmpty_iff.mp nothing
      simp [starters, startersBehind]
    · obtain ⟨result, harvested, checked⟩ := exists_of_bind_eq_ok inferred
      obtain rfl := Except.ok.inj (checkKinds_refines result found strict after checked)
      obtain ⟨bound, ran, merged⟩ :=
        exists_of_bind_eq_ok (eq_ok_of_mapError_eq_ok harvested)
      obtain rfl := Except.ok.inj merged
      obtain ⟨statements, parsed, distinct, bindsTargets, bindsNothingElse⟩ :=
        exists_statements_of_bindings ran
      have targets := map_target_of_parseProgram (fun declaration among => by
        obtain ⟨trimmed, line, -, declares⟩ := of_mem_declarations read declaration among
        exact ⟨trimmed, declares.isWordRun⟩) parsed
      rw [targets] at bindsTargets bindsNothingElse
      rw [Table.get?_merge distinct, Option.isSome_or, Bool.or_eq_true]
      refine or_congr_left ⟨fun isBound => ?_, bindsTargets name⟩
      by_contra isOther
      rw [bindsNothingElse name isOther] at isBound
      cases isBound
  refine ⟨found, read, binds, fun closed declaration among => (binds _).mpr (.inl ?_)⟩
  rw [starters_eq_self closed]
  exact List.mem_map_of_mem among

/-- A line that assigns a string literal to a name is that statement. -/
theorem statement_of_string
    {name text : String}
    {source : List Char}
    (identifier : tokenize name = .ok [.name name])
    (notReserved : isReserved name = false)
    (lexed : lex source = .ok [.str text])
    (number : Nat) :
    LogicalLine.statement ⟨number, Statement.assignHead name ++ source⟩ =
      .ok (.assign name (.literal (.str text))) := by
  have parsed : Expression.parse (.ofList source) = .ok (.literal (.str text)) :=
    Expr.parse_of_tokens (.literal trivial) (by simp [Expr.constants, Literal.isExact])
      (by simp [Expr.nesting, maxNesting]) (by rw [String.toList_ofList, lexed]; rfl)
  exact Statement.statement_assign (isOwnName_of_tokenize identifier notReserved) parsed number

set_option maxRecDepth 20000 in
/-- The first of three declarations goes on into the second one, which ends its string. -/
theorem infer_binds_joinedString :
    let block := "a: str => 'x \\\nb: str => y'\nc: str => 'z'"
    let after : Context := ⟨[("a", .str "x b = y"), ("c", .str "z")]⟩
    infer block .empty true = .ok after ∧
      ∀ name, (after.get? name).isSome = true ↔ name = "a" ∨ name = "c" := by
  intro block after
  have read : declarations block true =
      .ok [⟨"a", .str, "'x \\"⟩, ⟨"b", .str, "y'"⟩, ⟨"c", .str, "'z'"⟩] := by cbv
  have lines : LogicalLine.ofSource "a = 'x \\\nb = y'\nc = 'z'" =
      .ok [⟨1, Statement.assignHead "a" ++ "'x b = y'".toList⟩,
        ⟨3, Statement.assignHead "c" ++ "'z'".toList⟩] := by cbv
  have parsed : parseProgram "a = 'x \\\nb = y'\nc = 'z'" =
      .ok [.assign "a" (.literal (.str "x b = y")), .assign "c" (.literal (.str "z"))] := by
    simp only [parseProgram, lines, bind, Except.bind, List.mapM_cons]
    rw [@statement_of_string "a" "x b = y" _ (by cbv) (by decide) (by cbv) 1,
      @statement_of_string "c" "z" _ (by cbv) (by decide) (by cbv) 3]
    rfl
  have inferred : infer block .empty true = .ok after := by
    rw [infer, read]
    change ((Program.harvest 0 "a = 'x \\\nb = y'\nc = 'z'" .empty).mapError _ >>= _) = _
    rw [Program.harvest, Program.bindings, parsed]
    rfl
  obtain ⟨found, isFound, binds, -⟩ := infer_binds inferred
  obtain rfl := Except.ok.inj (read.symm.trans isFound)
  have isStarter : (starters [⟨"a", .str, "'x \\"⟩, ⟨"b", .str, "y'"⟩, ⟨"c", .str, "'z'"⟩]).map
      Declaration.name = ["a", "c"] := by cbv
  refine ⟨inferred, fun name => (binds name).trans ?_⟩
  rw [isStarter]
  simp

set_option maxRecDepth 20000 in
/--
The comment behind the first declaration ends in a backslash, so the second one becomes a part of
the comment and its name is not bound.
-/
theorem not_binds_behind_backslash :
    let block := "a: str => 'x' # \\\nb: str => 'y'"
    ∃ after, infer block .empty true = .ok after ∧
      declarations block true = .ok [⟨"a", .str, "'x' # \\"⟩, ⟨"b", .str, "'y'"⟩] ∧
      after.get? "b" = none := by
  intro block
  have read : declarations block true =
      .ok [⟨"a", .str, "'x' # \\"⟩, ⟨"b", .str, "'y'"⟩] := by cbv
  have lines : LogicalLine.ofSource "a = 'x' # \\\nb = 'y'" =
      .ok [⟨1, Statement.assignHead "a" ++ "'x' # b = 'y'".toList⟩] := by cbv
  have parsed : parseProgram "a = 'x' # \\\nb = 'y'" =
      .ok [.assign "a" (.literal (.str "x"))] := by
    simp only [parseProgram, lines, bind, Except.bind, List.mapM_cons]
    rw [@statement_of_string "a" "x" _ (by cbv) (by decide) (by cbv) 1]
    rfl
  refine ⟨⟨[("a", .str "x")]⟩, ?_, read, rfl⟩
  rw [infer, read]
  change ((Program.harvest 0 "a = 'x' # \\\nb = 'y'" .empty).mapError _ >>= _) = _
  rw [Program.harvest, Program.bindings, parsed]
  rfl

end Document
end TemplatedMarkup
