import TemplatedMarkup.Document.Declaration
import TemplatedMarkup.Proofs.Expression.RoundTrip
import TemplatedMarkup.Proofs.Outcome
import TemplatedMarkup.Proofs.Program.Statement
import TemplatedMarkup.Proofs.Table

/-!
# Declarations as bindings

The declarations of a context block run as one program.  When each of them declares a name with an
expression, the program binds the names one after the other, each to the value of its expression
over the bindings before it.
-/

namespace TemplatedMarkup
namespace Document

open Expression Text

/-- The source of the declared expression: that of a dict is put into braces. -/
def Declaration.source (declaration : Declaration) : String :=
  match declaration.kind with
  | .list | .str => declaration.expression
  | .dict => s!"\x7b{declaration.expression}\x7d"

/-- A declaration that binds a name to an expression. -/
structure Declaration.Binds
    (declaration : Declaration)
    (expression : Expr) : Prop where
  /-- The declared name is one name. -/
  identifier : tokenize declaration.name = .ok [.name declaration.name]
  /-- The declared name is not reserved. -/
  notReserved : isReserved declaration.name = false
  /-- The declared source is the expression. -/
  parsed : parse declaration.source = .ok expression
  /-- No backslash continues the line of the expression. -/
  noBackslash : declaration.kind ≠ .dict →
    declaration.expression.toList.getLast? ≠ some '\\'

/-- Put the value of a declared expression over a context, in which it is evaluated. -/
def bindDeclared
    (context : Context)
    (declared : Declaration × Expr) : Except DocumentError Context :=
  match declared.2.eval context.scope with
  | .ok value => .ok (context.set declared.1.name value)
  | .error cause => .error (.evaluation s!"{declared.1.name}: {cause.message}")

/-! ## Reading declarations -/

/-- The text of an expression that was read from a line: it is on one line and has no end blank. -/
structure Declaration.IsTrimmed (declaration : Declaration) : Prop where
  /-- There is one line only. -/
  oneLine : '\n' ∉ declaration.expression.toList
  /-- The last character is no blank. -/
  last : ∀ character ∈ declaration.expression.toList.getLast?, isBlank character = false

/-- What follows a punctuation is part of what it stands in. -/
theorem mem_of_mem_skipMark
    {mark text rest : List Char}
    {character : Char}
    (skipped : skipMark? mark text = some rest)
    (among : character ∈ rest) :
    character ∈ text := by
  unfold skipMark? at skipped
  simp only at skipped
  split at skipped
  · obtain rfl := Option.some.inj skipped
    have behind := List.mem_of_mem_drop ((List.dropWhile_sublist isBlank).mem among)
    exact (List.dropWhile_sublist isBlank).mem behind
  · contradiction

/-- The expression that is read from a line is a part of it without blanks at its end. -/
theorem exists_trimEndWhere_of_readDeclaration
    {line name kind expression : List Char}
    (read : readDeclaration? line = some (name, kind, expression)) :
    ∃ text, expression = trimEndWhere isBlank text ∧ ∀ character ∈ text, character ∈ line := by
  unfold readDeclaration? spanWord at read
  simp only at read
  split at read
  · contradiction
  · obtain ⟨behindName, colon, read⟩ := Option.bind_eq_some_iff.mp read
    obtain ⟨text, arrow, read⟩ := Option.bind_eq_some_iff.mp read
    obtain ⟨-, -, rfl⟩ : _ ∧ _ ∧ _ = expression := by simpa using read
    refine ⟨text, rfl, fun character among => ?_⟩
    have inKind := (List.dropWhile_sublist isWordPart).mem (mem_of_mem_skipMark arrow among)
    have inRest := (List.dropWhile_sublist isWordPart).mem (mem_of_mem_skipMark colon inKind)
    exact (List.dropWhile_sublist isBlank).mem inRest

/-- The expression that is read from a line is trimmed. -/
theorem isTrimmed_of_declarationOnLine
    {number : Nat}
    {line : List Char}
    {declaration : Declaration}
    (oneLine : '\n' ∉ line)
    (read : declarationOnLine number line = .ok declaration) :
    declaration.IsTrimmed := by
  unfold declarationOnLine at read
  split at read
  · contradiction
  · rename_i found
    obtain ⟨text, rfl, inside⟩ := exists_trimEndWhere_of_readDeclaration found
    split at read
    · contradiction
    · obtain rfl := Except.ok.inj read
      refine ⟨?_, ?_⟩
      · rw [String.toList_ofList]
        exact fun among => oneLine (inside _ (mem_of_mem_trimEndWhere among))
      · rw [String.toList_ofList]
        exact getLast?_trimEndWhere isBlank text

/-- Every line of a block that strict reading accepts is blank or holds the next declaration. -/
theorem readDeclarations_strict_cons
    {number : Nat}
    {line : List Char}
    {lines : List (List Char)}
    {found : List Declaration}
    (read : readDeclarations true number (line :: lines) = .ok found) :
    (line.all isBlank = true ∧ readDeclarations true (number + 1) lines = .ok found) ∨
      ∃ declaration others, line.all isBlank = false ∧
        declarationOnLine number line = .ok declaration ∧
        readDeclarations true (number + 1) lines = .ok others ∧ found = declaration :: others := by
  rw [readDeclarations] at read
  split at read
  · rename_i blank
    exact .inl ⟨blank, read⟩
  · rename_i notBlank
    split at read
    · contradiction
    · rename_i declaration onLine
      cases others : readDeclarations true (number + 1) lines with
      | error cause =>
          rw [others] at read
          contradiction
      | ok more =>
          rw [others] at read
          refine .inr ⟨declaration, more, by simpa using notBlank, onLine, rfl, ?_⟩
          exact (Except.ok.inj read).symm

/-- What strict reading accepts is trimmed, and it is read alike in either mode. -/
theorem readDeclarations_of_strict
    (strict : Bool)
    {number : Nat}
    {lines : List (List Char)}
    {found : List Declaration}
    (oneLine : ∀ line ∈ lines, '\n' ∉ line)
    (read : readDeclarations true number lines = .ok found) :
    readDeclarations strict number lines = .ok found ∧
      ∀ declaration ∈ found, declaration.IsTrimmed := by
  induction lines generalizing number found with
  | nil =>
      obtain rfl := Except.ok.inj read
      exact ⟨rfl, by simp⟩
  | cons line lines inductionHypothesis =>
      have later : ∀ other ∈ lines, '\n' ∉ other := fun other among =>
        oneLine other (by simp [among])
      rcases readDeclarations_strict_cons read with
        ⟨blank, following⟩ | ⟨declaration, others, notBlank, onLine, following, rfl⟩
      · obtain ⟨alike, trimmed⟩ := inductionHypothesis later following
        refine ⟨?_, trimmed⟩
        rw [readDeclarations, if_pos blank, alike]
      · obtain ⟨alike, trimmed⟩ := inductionHypothesis later following
        have first := isTrimmed_of_declarationOnLine (oneLine line (by simp)) onLine
        refine ⟨?_, List.forall_mem_cons.mpr ⟨first, trimmed⟩⟩
        rw [readDeclarations, if_neg (by simp [notBlank]), onLine, alike]
        rfl

/-! ## The program of declarations -/

/-- The statement of a declaration is the assignment of its source. -/
theorem Declaration.statement_eq (declaration : Declaration) :
    declaration.statement.toList =
      Statement.assignHead declaration.name ++ declaration.source.toList := by
  cases kind : declaration.kind <;>
    simp [Declaration.statement, Declaration.source, kind, Statement.assignHead, toString]

/-- The empty text is no expression. -/
theorem ne_nil_of_parse
    {source : String}
    {expression : Expr}
    (parsed : parse source = .ok expression) :
    source.toList ≠ [] := by
  intro empty
  have refused : parse source = .error (.unexpected none) := by
    rw [parse, tokenize, empty, lex_nil]
    rfl
  cases refused.symm.trans parsed

/-- The braces of a dict are the only difference between a source and its expression. -/
theorem Declaration.source_eq (declaration : Declaration) :
    declaration.source.toList =
      if declaration.kind = .dict then '{' :: declaration.expression.toList ++ ['}']
      else declaration.expression.toList := by
  cases kind : declaration.kind <;> simp [source, kind, toString]

/-- The source of what was read from a line is on one line and has no blank at its end. -/
theorem Declaration.IsTrimmed.source
    {declaration : Declaration}
    (trimmed : declaration.IsTrimmed) :
    '\n' ∉ declaration.source.toList ∧
      ∀ character ∈ declaration.source.toList.getLast?, isBlank character = false := by
  rw [declaration.source_eq]
  split
  · refine ⟨by simp [trimmed.oneLine], fun character isLast => ?_⟩
    rw [List.getLast?_concat, Option.mem_some_iff] at isLast
    subst isLast
    decide
  · exact ⟨trimmed.oneLine, trimmed.last⟩

/-- The source of a declaration that binds a name is one line that nothing continues. -/
theorem Declaration.Binds.source_line
    {declaration : Declaration}
    {expression : Expr}
    (binds : declaration.Binds expression)
    (trimmed : declaration.IsTrimmed) :
    '\n' ∉ declaration.source.toList ∧
      ∃ character ∈ declaration.source.toList.getLast?,
        isBlank character = false ∧ character ≠ '\\' := by
  obtain ⟨oneLine, last⟩ := trimmed.source
  refine ⟨oneLine, ?_⟩
  cases isLast : declaration.source.toList.getLast? with
  | none => exact absurd (List.getLast?_eq_none_iff.mp isLast) (ne_nil_of_parse binds.parsed)
  | some character =>
      refine ⟨character, rfl, last character isLast, ?_⟩
      rintro rfl
      rw [declaration.source_eq] at isLast
      split at isLast
      · rw [List.getLast?_concat] at isLast
        contradiction
      · rename_i notDict
        exact binds.noBackslash notDict isLast

/-- A declaration that binds a name states its assignment. -/
theorem Declaration.Binds.states
    {declaration : Declaration}
    {expression : Expr}
    (binds : declaration.Binds expression)
    (trimmed : declaration.IsTrimmed) :
    LogicalLine.States declaration.statement.toList (.assign declaration.name expression) := by
  have own := isOwnName_of_tokenize binds.identifier binds.notReserved
  obtain ⟨oneLine, last⟩ := binds.source_line trimmed
  have complete := Statement.isComplete_assign own oneLine last
  have parsed := binds.parsed
  rw [← String.ofList_toList (s := declaration.source)] at parsed
  rw [declaration.statement_eq]
  exact (Statement.heads_assign own).states rfl parsed complete

/-- The program of declarations that bind names has an assignment for each. -/
theorem parseProgram_programOf
    {declared : List (Declaration × Expr)}
    (binds : ∀ entry ∈ declared, entry.1.Binds entry.2)
    (trimmed : ∀ entry ∈ declared, entry.1.IsTrimmed) :
    parseProgram (programOf (declared.map (·.1))) =
      .ok (declared.map fun entry => .assign entry.1.name entry.2) := by
  have stated : List.Forall₂ LogicalLine.States
      (declared.map fun entry => entry.1.statement.toList)
      (declared.map fun entry => .assign entry.1.name entry.2) := by
    rw [List.forall₂_map_left_iff, List.forall₂_map_right_iff, List.forall₂_same]
    exact fun entry among => (binds entry among).states (trimmed entry among)
  have parsed := LogicalLine.parseProgram_of_states stated
  simpa [programOf, join, Function.comp_def] using parsed

/-- Assignments put over a context bind one name after the other. -/
theorem merge_runFrom
    (context : Context)
    (declared : List (Declaration × Expr))
    (run position : Nat)
    {own : Context}
    (distinct : own.names.Nodup) :
    ((Program.runFrom context run position own
        (declared.map fun entry => .assign entry.1.name entry.2)).map context.merge).mapError
          DocumentError.ofProgram =
      declared.foldlM bindDeclared (context.merge own) := by
  induction declared generalizing own position with
  | nil => rfl
  | cons entry declared inductionHypothesis =>
      have sameScope : Program.scope context own = Context.scope (context.merge own) := by
        funext name
        exact (Table.get?_merge distinct context name).symm
      rw [List.map_cons, Program.runFrom, List.foldlM_cons]
      simp only [Program.runStatement, bindDeclared, sameScope]
      cases entry.2.eval (Context.scope (context.merge own)) with
      | error cause => rfl
      | ok value =>
          have following := inductionHypothesis (position + 1)
            (Table.nodup_set distinct entry.1.name value)
          rw [Table.merge_set distinct] at following
          exact following

/-- Checking the kinds of declared names keeps what is inferred for them. -/
theorem checkKinds_refines
    (inferred : Context)
    (declarations : List Declaration)
    (strict : Bool) :
    Refines
      (do
        if strict then
          declarations.forM (checkKind inferred)
        return inferred)
      (.ok inferred) := by
  intro after checked
  cases strict with
  | false => exact checked
  | true =>
      simp only [if_true] at checked
      obtain ⟨-, -, last⟩ := exists_of_bind_eq_ok checked
      exact last

/-- The declarations of a block bind their names one after the other. -/
theorem infer_eq_foldlM
    {block : String}
    {context : Context}
    {declared : List (Declaration × Expr)}
    (read : declarations block true = .ok (declared.map (·.1)))
    (binds : ∀ entry ∈ declared, entry.1.Binds entry.2) :
    infer block context false = declared.foldlM bindDeclared context := by
  have oneLine : ∀ line ∈ lineLists block.toList, '\n' ∉ line := fun line =>
    not_mem_of_mem_lineLists
  obtain ⟨lenient, trimmed⟩ := readDeclarations_of_strict false oneLine read
  have parsed := parseProgram_programOf binds fun entry among =>
    trimmed entry.1 (List.mem_map_of_mem among)
  have folded := @merge_runFrom context declared 0 0 .empty List.nodup_nil
  have harvested : (Program.harvest 0 (programOf (declared.map (·.1))) context).mapError
      DocumentError.ofProgram = declared.foldlM bindDeclared context := by
    refine Eq.trans ?_ folded
    rw [Program.harvest, Program.bindings, parsed]
    rfl
  unfold infer declarations
  simp only [lenient, bind, Except.bind, harvested]
  cases declared with
  | nil => rfl
  | cons entry declared =>
      cases (entry :: declared).foldlM bindDeclared context <;> simp [pure, Except.pure]

/-- Binding declared names leaves the other names of a context as they are. -/
theorem get?_of_foldlM_bindDeclared
    {declared : List (Declaration × Expr)}
    {context result : Context}
    {name : String}
    (folded : declared.foldlM bindDeclared context = .ok result)
    (undeclared : name ∉ declared.map (·.1.name)) :
    result.get? name = context.get? name := by
  induction declared generalizing context with
  | nil =>
      obtain rfl := Except.ok.inj folded
      rfl
  | cons entry declared inductionHypothesis =>
      rw [List.map_cons, List.mem_cons, not_or] at undeclared
      rw [List.foldlM_cons] at folded
      cases evaluated : entry.2.eval context.scope with
      | error cause =>
          simp [bindDeclared, evaluated, bind, Except.bind] at folded
      | ok value =>
          simp only [bindDeclared, evaluated, bind, Except.bind] at folded
          rw [inductionHypothesis folded undeclared.2, Table.get?_set, if_neg undeclared.1]

/--
A block whose lines declare names with expressions is inferred as the fold of its declarations:
each expression is evaluated over the context with the bindings before it, and its value replaces
an earlier one of the same name.  The first evaluation that fails is the error of the block, and
names that are not declared keep their values.
-/
theorem infer_folds
    {block : String}
    {context : Context}
    {declared : List (Declaration × Expr)}
    (read : declarations block true = .ok (declared.map (·.1)))
    (binds : ∀ entry ∈ declared, entry.1.Binds entry.2) :
    infer block context false = declared.foldlM bindDeclared context ∧
      (∀ before entry after reached cause, declared = before ++ entry :: after →
        before.foldlM bindDeclared context = .ok reached →
        entry.2.eval reached.scope = .error cause →
        infer block context false =
          .error (.evaluation s!"{entry.1.name}: {cause.message}")) ∧
      ∀ result, infer block context false = .ok result →
        ∀ name, name ∉ declared.map (·.1.name) → result.get? name = context.get? name := by
  have folds := @infer_eq_foldlM block context declared read binds
  refine ⟨folds, ?_, ?_⟩
  · rintro before entry after reached cause rfl evaluated fails
    rw [folds, List.foldlM_append, evaluated]
    change (entry :: after).foldlM bindDeclared reached = _
    rw [List.foldlM_cons, bindDeclared, fails]
    rfl
  · intro result inferred name undeclared
    rw [folds] at inferred
    exact get?_of_foldlM_bindDeclared inferred undeclared

set_option maxRecDepth 20000 in
/-- A block with a bracket in a string, another one in a comment, and a dict that uses a list. -/
theorem infer_folds_list :
    infer "a: list => ['['] # [\nd: dict => 'k': a" .empty false =
      .ok ⟨[("a", .list [.str "["]), ("d", .dict [(.str "k", .list [.str "["])])]⟩ := by
  let declared : List (Declaration × Expr) := [
    (⟨"a", .list, "['['] # ["⟩, .list [.literal (.str "[")]),
    (⟨"d", .dict, "'k': a"⟩, .dict [(.literal (.str "k"), .variable "a")])]
  have read : declarations "a: list => ['['] # [\nd: dict => 'k': a" true =
      .ok (declared.map (·.1)) := by cbv
  have listWritable : (Expr.list [.literal (.str "[")]).Writable :=
    .list (List.forall_mem_singleton.mpr (.literal trivial))
  have dictWritable : (Expr.dict [(.literal (.str "k"), .variable "a")]).Writable :=
    .dict (List.forall_mem_singleton.mpr (.literal trivial))
      (List.forall_mem_singleton.mpr (.reference ⟨⟨⟨rfl, by simp⟩, rfl⟩, rfl⟩))
  have binds : ∀ entry ∈ declared, entry.1.Binds entry.2 := by
    refine List.forall_mem_cons.mpr ⟨?_, List.forall_mem_cons.mpr ⟨?_, by simp⟩⟩
    · have parsed : parse (Declaration.source ⟨"a", .list, "['['] # ["⟩) =
          .ok (.list [.literal (.str "[")]) :=
        Expr.parse_of_tokens listWritable (by simp [Expr.constants, Expr.itemsConstants,
          Literal.isExact]) (by decide) (by cbv)
      exact ⟨by cbv, by decide, parsed, by decide⟩
    · have parsed : parse (Declaration.source ⟨"d", .dict, "'k': a"⟩) =
          .ok (.dict [(.literal (.str "k"), .variable "a")]) :=
        Expr.parse_of_tokens dictWritable (by simp [Expr.constants, Expr.entriesConstants,
          Literal.isExact]) (by decide) (by cbv)
      exact ⟨by cbv, by decide, parsed, by decide⟩
  rw [(infer_folds read binds).1]
  cbv

end Document
end TemplatedMarkup
