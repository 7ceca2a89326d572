import TemplatedMarkup.Proofs.Expression.Accepting
import TemplatedMarkup.Proofs.Template.Path
import TemplatedMarkup.Template.Render

/-!
# Paths as conditions

A dotted path is read as a variable by splitting its text, and as a condition by the parser of
expressions, which takes its attributes for subscripts.  Both find the same value, and a condition
without a value does not hold, as the text of a path that breaks off is empty.
-/

namespace TemplatedMarkup
namespace Template

open Expression (Expr Token Phrase Derives IsName)

/-! ## Reading -/

/-- The item of a value under a string. -/
def indexBy (subject : Expr) (segment : String) : Expr :=
  .index subject (.literal (.str segment))

/-- A path as an expression. -/
def pathCondition (name : String) (attributes : List String) : Expr :=
  attributes.foldl indexBy (.variable name)

section Tokens

variable {name : String} {attributes : List String}

/-- The tokens of attributes with points in front. -/
def dottedTokens (attributes : List String) : List Token :=
  attributes.flatMap fun segment => [.symbol .dot, .name segment]

/-- The tokens of attributes in brackets. -/
def bracketedTokens (attributes : List String) : List Token :=
  attributes.flatMap fun segment => [.symbol .leftBracket, .str segment, .symbol .rightBracket]

theorem lex_pathText
    (isName : IsName name)
    (areNames : ∀ segment ∈ attributes, IsName segment) :
    Expression.lex (pathText name attributes) = .ok (.name name :: dottedTokens attributes) := by
  induction attributes generalizing name with
  | nil =>
      rw [pathText_nil]
      exact tokenize_eq_iff_isName.mpr isName
  | cons segment attributes inductionHypothesis =>
      rw [List.forall_mem_cons] at areNames
      obtain ⟨first, rest, isText, start⟩ := exists_pathText_eq areNames.1 attributes
      have noDigit : ∀ following ∈ (pathText segment attributes).head?,
          following.isDigit = false := by
        simpa [isText] using Text.isDigit_eq_false_of_isNameStart start
      have apart : Expression.StartsApart ('.' :: pathText segment attributes) :=
        ⟨by simp; decide, fun second isSecond _ => noDigit second isSecond⟩
      rw [pathText_cons, Expression.lex_name isName apart, Expression.lex_dot noDigit,
        inductionHypothesis areNames.1 areNames.2]
      rfl

theorem subscriptAttributes_dottedTokens (attributes : List String) :
    subscriptAttributes (dottedTokens attributes) = bracketedTokens attributes := by
  induction attributes with
  | nil => rfl
  | cons segment attributes inductionHypothesis =>
      -- What follows a name in a path is a point, which is no call.
      have step : subscriptAttributes (.symbol .dot :: .name segment :: dottedTokens attributes) =
          [.symbol .leftBracket, .str segment, .symbol .rightBracket] ++
            subscriptAttributes (dottedTokens attributes) := by
        cases attributes <;> rfl
      exact step.trans (congrArg _ inductionHypothesis)

end Tokens

section Phrases

variable {subject : Phrase}

/-- A phrase with a string in brackets behind it. -/
def subscripted (subject : Phrase) (segment : String) : Phrase where
  tokens := subject.tokens ++ [.symbol .leftBracket, .str segment, .symbol .rightBracket]
  tree := indexBy subject.tree segment
  levels := max subject.levels 1

theorem derives_subscripted
    (derives : Derives .trailers subject)
    (segment : String) :
    Derives .trailers (subscripted subject segment) := by
  have atom : Derives .atom ⟨[.str segment], .literal (.str segment), 0⟩ := by
    simpa [String.join] using @Derives.strings [segment] (List.cons_ne_nil _ _)
  have position := Derives.whole (atom.loosen (by decide) (by decide))
  simpa [subscripted, indexBy] using derives.index position

theorem derives_foldl_subscripted
    (derives : Derives .trailers subject)
    (attributes : List String) :
    Derives .trailers (attributes.foldl subscripted subject) := by
  induction attributes generalizing subject with
  | nil => exact derives
  | cons segment attributes inductionHypothesis =>
      exact inductionHypothesis (derives_subscripted derives segment)

theorem foldl_subscripted_eq (attributes : List String) :
    ∃ levels ≤ max subject.levels 1, attributes.foldl subscripted subject =
      ⟨subject.tokens ++ bracketedTokens attributes, attributes.foldl indexBy subject.tree,
        levels⟩ := by
  induction attributes generalizing subject with
  | nil => exact ⟨subject.levels, le_max_left _ _, by simp [bracketedTokens]⟩
  | cons segment attributes inductionHypothesis =>
      obtain ⟨levels, bounded, same⟩ := @inductionHypothesis (subscripted subject segment)
      refine ⟨levels, by simpa [subscripted] using bounded, ?_⟩
      rw [List.foldl_cons, same]
      simp [subscripted, bracketedTokens]

end Phrases

/-- The tokens of a path with its attributes in brackets are its expression. -/
theorem parseTokens_bracketedTokens
    {name : String}
    (unreserved : Expression.isReserved name = false)
    (attributes : List String) :
    Expression.parseTokens (.name name :: bracketedTokens attributes) =
      .ok (pathCondition name attributes) := by
  let start : Phrase := ⟨[.name name], .variable name, 0⟩
  have trailers : Derives .trailers start :=
    (Derives.reference unreserved).loosen (by decide) (by decide)
  have derives := derives_foldl_subscripted trailers attributes
  obtain ⟨levels, bounded, same⟩ := @foldl_subscripted_eq start attributes
  rw [same] at derives
  have parsed := (Derives.whole (derives.loosen (by decide) (by decide))).parseTokens_eq
  have shallow : levels + 1 ≤ Expression.maxNesting := by
    simp only [start, Nat.max_eq_right (Nat.zero_le 1)] at bounded
    exact Nat.le_trans (Nat.succ_le_succ bounded) (by decide)
  rwa [Expression.TokenParser.limited_of_le shallow] at parsed

theorem isReserved_eq_false
    {name : String}
    (notHidden : name.toList.head? ≠ some '_') :
    Expression.isReserved name = false := by
  rw [Expression.isReserved]
  cases written : name.toList with
  | nil => rfl
  | cons first rest =>
      have other : first ≠ '_' := by simpa [written] using notHidden
      simp [List.isPrefixOf, Ne.symm other]

/-- A path is read as a condition. -/
theorem IsPath.readCondition
    {name : String}
    {attributes : List String}
    (isPath : IsPath name attributes)
    (line : Nat) :
    readCondition (pathText name attributes) line = .ok (pathCondition name attributes) := by
  have unbroken := isPath.isUnbroken
  have notBlank : (pathText name attributes).all Text.isBlank = false := by
    obtain ⟨first, rest, isText⟩ := List.exists_cons_of_ne_nil unbroken.nonempty
    rw [isText, List.all_cons, unbroken.noBlank first (by simp [isText]), Bool.false_and]
  have subscripts : subscriptAttributes (.name name :: dottedTokens attributes) =
      .name name :: bracketedTokens attributes :=
    congrArg _ (subscriptAttributes_dottedTokens attributes)
  rw [Template.readCondition, notBlank, lex_pathText isPath.isName isPath.areNames]
  change (Expression.parseTokens (subscriptAttributes _)).mapError _ = _
  rw [subscripts, parseTokens_bracketedTokens (isReserved_eq_false isPath.notHidden)]
  rfl

/-! ## Evaluation -/

section Evaluation

variable {value : Value} {segment name : String} {attributes : List String} {scope : Scope}

/-- A name is no index that is spelled out. -/
theorem itemNamed?_of_isName (isName : IsName segment) : itemNamed? value segment = none := by
  obtain ⟨first, rest, isText, start⟩ := exists_pathText_eq isName []
  rw [pathText_nil] at isText
  rw [itemNamed?, isText, readInt64?_of_isNameStart start]
  rfl

/-- A subscript finds what an attribute does that calls no method. -/
theorem toOption_item_eq_attribute?
    (isName : IsName segment)
    (noMethod : segment ∉ attributeMethods) :
    (value.item (.str segment)).toOption = attribute? value segment := by
  have noCall : methodNamed? value segment = none := by
    rw [methodNamed?, if_neg (by simpa using noMethod)]
  rw [attribute?, itemNamed?_of_isName isName, noCall, Option.or_none, Option.or_none]
  cases value with
  | dict entries =>
      rw [Value.item, entryNamed?]
      cases Value.lookup? (.str segment) entries <;> rfl
  | _ => rfl

section Subscripts

variable {run : Function → List Value → Except EvalError Value}

theorem evalWith_indexBy (subject : Expr) :
    (indexBy subject segment).evalWith scope run =
      subject.evalWith scope run >>= (·.item (.str segment)) := by
  rw [indexBy, Expr.evalWith, Expr.evalWith]
  rfl

/-- Subscripts find what attributes do that call no methods. -/
theorem toOption_evalWith_foldl_indexBy
    (areNames : ∀ segment ∈ attributes, IsName segment)
    (noMethod : ∀ segment ∈ attributes, segment ∉ attributeMethods)
    (subject : Expr) :
    ((attributes.foldl indexBy subject).evalWith scope run).toOption =
      (subject.evalWith scope run).toOption.bind fun value =>
        attributes.foldlM attribute? value := by
  induction attributes generalizing subject with
  | nil => simp
  | cons segment attributes inductionHypothesis =>
      rw [List.forall_mem_cons] at areNames noMethod
      rw [List.foldl_cons, inductionHypothesis areNames.2 noMethod.2]
      simp only [List.foldlM_cons, ← toOption_item_eq_attribute? areNames.1 noMethod.1,
        evalWith_indexBy]
      cases subject.evalWith scope run <;> rfl

end Subscripts

/-- The expression of a path has the value of the path, unless it breaks off. -/
theorem IsPath.toOption_eval (isPath : IsPath name attributes) (scope : Scope) :
    ((pathCondition name attributes).eval scope).toOption = valueAt? scope name attributes := by
  rw [pathCondition, Expr.eval, toOption_evalWith_foldl_indexBy isPath.areNames isPath.noMethod,
    Expr.evalWith, valueAt?]
  cases scope name <;> rfl

/-- A path holds as a condition when its value is true. -/
theorem IsPath.holds_pathCondition (isPath : IsPath name attributes) (scope : Scope) :
    holds (pathCondition name attributes) scope =
      ((Operand.path name attributes).eval scope).value.truthy := by
  rw [Operand.eval, ← isPath.toOption_eval, holds]
  cases (pathCondition name attributes).eval scope <;> rfl

end Evaluation

/-! ## Tags -/

section Tags

variable {name : String} {attributes : List String}

/-- The tag of a branch with a path opens it. -/
theorem IsPath.readTag_branch
    (isPath : IsPath name attributes)
    (reading : Reading)
    (line : Nat) :
    reading.readTag (tagContent "if".toList (pathText name attributes)) line =
      .ok (reading.push (.branch [] (pathCondition name attributes))) := by
  have noEnd (opened : OpenTag) : String.ofList "if".toList ∉ opened.ends := by
    cases opened <;> simp [OpenTag.ends]
  rw [Reading.readTag_tagContent (by decide) isPath.isUnbroken.trimWhere_eq noEnd,
    String.ofList_toList, Reading.readStart.eq_3, isPath.readCondition]
  rfl

/-- A variable with a path is added. -/
theorem IsPath.readPiece_variable
    (isPath : IsPath name attributes)
    (reading : Reading)
    (line : Nat) :
    reading.readPiece ⟨.delimited .variable, ' ' :: (pathText name attributes ++ [' ']), line⟩ =
      .ok (reading.add (.variable ⟨.path name attributes, []⟩)).begin := by
  have isBlank : ∀ character ∈ [' '], Text.isBlank character = true :=
    List.forall_mem_singleton.mpr (by decide)
  have trimmed : Text.trimWhere Text.isBlank (' ' :: (pathText name attributes ++ [' '])) =
      pathText name attributes :=
    Text.trimWhere_append isPath.isUnbroken.trimWhere_eq isBlank isBlank
  rw [Reading.readPiece, Reading.readVariable, trimmed,
    List.isEmpty_eq_false_iff.mpr isPath.isUnbroken.nonempty, isPath.readChain]
  rfl

/--
A dotted path is read in the tag of a branch and in that of a variable, wherever they stand in a
source, and in every scope the branch is taken exactly if the value of the variable is true.
-/
theorem branch_taken_iff_truthy
    (isPath : IsPath name attributes) :
    let path := pathText name attributes
    let chain : FilterChain := ⟨.path name attributes, []⟩
    ∃ condition,
      (∀ (reading : Reading) line rest,
        reading.readSource line (DelimitedKind.tag.source (tagContent "if".toList path) ++ rest) =
          (reading.push (.branch [] condition)).begin.readSource line rest) ∧
      (∀ (reading : Reading) line rest,
        reading.readSource line (DelimitedKind.variable.source (' ' :: (path ++ [' '])) ++ rest) =
          (reading.add (.variable chain)).begin.readSource line rest) ∧
      ∀ registry scope, ∃ marked, chain.eval registry scope = .ok marked ∧
        ∀ include? overrides body branches,
          Node.renderBranch? ⟨registry, include?⟩ overrides ((condition, body) :: branches) scope =
            if marked.value.truthy then
              some (Node.renderAll ⟨registry, include?⟩ overrides body scope)
            else Node.renderBranch? ⟨registry, include?⟩ overrides branches scope := by
  intro path chain
  have noFeed : '\n' ∉ path := isPath.not_mem (by decide) (by decide)
  refine ⟨pathCondition name attributes, fun reading line rest => ?_, fun reading line rest => ?_,
    fun registry scope => ⟨(Operand.path name attributes).eval scope, rfl, ?_⟩⟩
  · have closes : ¬['%', '}'] <:+: path := fun inside =>
      isPath.not_mem (by decide) (by decide) (inside.subset List.mem_cons_self)
    exact Reading.readSource_source_of_oneLine
      (DelimitedKind.encloses_tag (not_infix_tagContent (by decide) closes))
      (by simpa [tagContent] using noFeed) (Reading.readPiece_tag (isPath.readTag_branch _ _))
  · have encloses : DelimitedKind.variable.Encloses (' ' :: (path ++ [' '])) := by
      have noBrace : '}' ∉ path := isPath.not_mem (by decide) (by decide)
      have absent : '}' ∉ ' ' :: (path ++ [' ']) := by simpa using noBrace
      exact ⟨fun inside => absent (inside.subset List.mem_cons_self),
        fun _ isLast => absent (List.mem_of_getLast? isLast)⟩
    exact Reading.readSource_source_of_oneLine encloses (by simpa using noFeed)
      (isPath.readPiece_variable _ _)
  · intro include? overrides body branches
    rw [Node.renderBranch?, isPath.holds_pathCondition]

/-- An entry of a dict that is not empty. -/
theorem branch_taken_iff_truthy_entry :
    let scope : Scope := fun name =>
      if name = "page" then some (.dict [(.str "author", .str "a")]) else none
    IsPath "page" ["author"] ∧ ∃ condition,
      (∀ (reading : Reading) rest,
        reading.readSource 1 ("\x7b% if page.author %\x7d".toList ++ rest) =
          (reading.push (.branch [] condition)).begin.readSource 1 rest) ∧
      ∀ body, Node.renderBranch? ⟨.empty, none⟩ (fun _ => none) [(condition, body)] scope =
        some (Node.renderAll ⟨.empty, none⟩ (fun _ => none) body scope) := by
  intro scope
  have isPath : IsPath "page" ["author"] := by
    have isName : IsName "page" := ⟨⟨rfl, by simp; decide⟩, rfl⟩
    have goesOn : IsName "author" := ⟨⟨rfl, by simp; decide⟩, rfl⟩
    exact ⟨tokenize_eq_iff_isName.mpr isName, by decide,
      List.forall_mem_singleton.mpr (tokenize_eq_iff_isName.mpr goesOn), by decide⟩
  obtain ⟨condition, reads, -, taken⟩ := branch_taken_iff_truthy isPath
  obtain ⟨marked, evaluated, branch⟩ := taken .empty scope
  obtain rfl := Except.ok.inj evaluated
  refine ⟨isPath, condition, fun reading rest => reads reading 1 rest, fun body => ?_⟩
  have isTrue : ((Operand.path "page" ["author"]).eval scope).value.truthy = true := by cbv
  rw [branch, if_pos isTrue]

end Tags

end Template
end TemplatedMarkup
