import TemplatedMarkup.Proofs.Expression.Parsed
import TemplatedMarkup.Proofs.Expression.Reparsing

/-!
# Printing and parsing back

What the text of a writable expression is parsed as, exactly: every constant reads back on its
own, and the text is refused when a constant is no token or when it opens too many levels.  Hence
printing undoes parsing for expressions without doubles, up to the bound on nesting.
-/

namespace TemplatedMarkup
namespace Expression

open TokenParser (limited runAll limited_of_le limited_eq_or)

/-- The tokens of a writable expression are parsed as the expression read back. -/
theorem parseTokens_tokens
    {expression : Expr}
    (writable : expression.Writable) :
    parseTokens expression.tokens =
      limited (expression.nesting + 1) maxNesting (.ok expression.readBack) :=
  (Expr.derives_wholePhrase writable.derives).parseTokens_eq

/-- The text of a writable expression is parsed as the expression read back. -/
theorem parse_print
    {expression : Expr}
    (writable : expression.Writable) :
    parse expression.print = (do
      forM expression.constants Literal.check
      limited (expression.nesting + 1) maxNesting (.ok expression.readBack)) := by
  have lexed := writable.spells [] startsApart_nil
  rw [List.append_nil, lex_nil] at lexed
  rw [← parseTokens_tokens writable]
  simp only [parse, tokenize, Expr.print, String.toList_ofList, lexed, inFront]
  cases forM expression.constants Literal.check with
  | error cause => rfl
  | ok => simp [bind, Except.bind, pure, Except.pure]

namespace Expr

/-- No constant of the expression is a double. -/
def IsFloatFree (expression : Expr) : Prop :=
  ∀ constant ∈ expression.constants, ∀ value, constant ≠ .float value

/--
An expression that is not too tall is what its text is parsed as; the text of any other one is
parsed as the expression too or refused for its nesting.
-/
def RoundTrips (expression : Expr) : Prop :=
  (expression.height ≤ 31 → parse expression.print = .ok expression) ∧
    (parse expression.print = .ok expression ∨
      parse expression.print = .error .nestedTooDeeply)

/-- Constants that are exact pass their check. -/
theorem forM_check_of_isExact
    {constants : List Literal}
    (exact : ∀ constant ∈ constants, constant.isExact = true) :
    forM constants Literal.check = .ok () := by
  induction constants with
  | nil => rfl
  | cons constant constants inductionHypothesis =>
      rw [List.forM_cons, Literal.check_of_isExact (exact constant (by simp))]
      exact inductionHypothesis fun other among => exact other (by simp [among])

/-- A writable expression whose constants are exact is parsed back, if its text may be nested. -/
theorem parse_print_of_isExact
    {expression : Expr}
    (writable : expression.Writable)
    (exact : ∀ constant ∈ expression.constants, constant.isExact = true) :
    parse expression.print =
      limited (expression.nesting + 1) maxNesting (.ok expression) := by
  rw [parse_print writable, forM_check_of_isExact exact, expression.readBack_eq_self_iff.mpr exact]
  rfl

/-- What the text of a writable expression is parsed as is the expression read back. -/
theorem eq_readBack_of_parse_print
    {expression body : Expr}
    (writable : expression.Writable)
    (parsed : parse expression.print = .ok body) :
    expression.nesting + 1 ≤ maxNesting ∧ body = expression.readBack := by
  rw [parse_print writable] at parsed
  cases checked : forM expression.constants Literal.check with
  | error cause =>
      rw [checked] at parsed
      cases parsed
  | ok =>
      rw [checked] at parsed
      change limited _ _ _ = _ at parsed
      unfold limited at parsed
      split at parsed
      · rename_i fits
        exact ⟨fits, (Except.ok.inj parsed).symm⟩
      · cases parsed

/-- A writable expression is parsed back exactly when its text may be nested and is exact. -/
theorem parse_print_eq_self_iff
    {expression : Expr}
    (writable : expression.Writable) :
    parse expression.print = .ok expression ↔
      expression.nesting + 1 ≤ maxNesting ∧
        ∀ constant ∈ expression.constants, constant.isExact = true := by
  constructor
  · intro parsed
    obtain ⟨fits, same⟩ := eq_readBack_of_parse_print writable parsed
    exact ⟨fits, expression.readBack_eq_self_iff.mp same.symm⟩
  · rintro ⟨fits, exact⟩
    rw [parse_print_of_isExact writable exact, limited_of_le fits]

/-- A source with the tokens of an exact expression is parsed as the expression. -/
theorem parse_of_tokens
    {expression : Expr}
    {source : String}
    (writable : expression.Writable)
    (exact : ∀ constant ∈ expression.constants, constant.isExact = true)
    (fits : expression.nesting + 1 ≤ maxNesting)
    (spelled : lex source.toList = .ok expression.tokens) :
    parse source = .ok expression := by
  rw [parse, tokenize, spelled]
  change parseTokens expression.tokens = _
  rw [parseTokens_tokens writable, limited_of_le fits, expression.readBack_eq_self_iff.mpr exact]

/-- An operator between the tokens of two operands needs no parentheses around it. -/
theorem parse_of_operand_tokens
    {left right : Expr}
    {operator : BinaryOperator}
    {source : String}
    (writableLeft : left.Writable)
    (writableRight : right.Writable)
    (noPower : operator ≠ .power)
    (fits : max left.nesting right.nesting + 1 ≤ maxNesting)
    (spelled : lex source.toList = .ok (left.tokens ++ .symbol operator.symbol :: right.tokens)) :
    parse source = .ok (.binary operator left.readBack right.readBack) := by
  rw [parse, tokenize, spelled]
  have parsed := (Derives.whole (derives_joined noPower writableLeft.derives
    writableRight.derives)).parseTokens_eq
  exact parsed.trans (limited_of_le fits _)

theorem IsFloatFree.rename
    {expression : Expr}
    (floatFree : expression.IsFloatFree)
    (image : String → String) :
    (expression.rename image).IsFloatFree := by
  unfold IsFloatFree
  rw [constants_rename]
  exact floatFree

theorem IsFloatFree.isExact
    {expression : Expr}
    (floatFree : expression.IsFloatFree) :
    ∀ constant ∈ expression.constants, constant.isExact = true := by
  intro constant among
  cases constant with
  | float value => exact absurd rfl (floatFree _ among value)
  | _ => rfl

/-- A writable expression without doubles is parsed back from its text. -/
theorem Writable.roundTrips
    {expression : Expr}
    (writable : expression.Writable)
    (floatFree : expression.IsFloatFree) :
    expression.RoundTrips := by
  have parsed := parse_print_of_isExact writable floatFree.isExact
  refine ⟨fun low => ?_, ?_⟩
  · have nested := expression.nesting_le
    rw [parsed, limited_of_le]
    unfold maxNesting
    omega
  · rw [parsed]
    exact limited_eq_or _ _ _

end Expr

/--
Printing undoes parsing: an expression without doubles that a source is parsed as, and the
expression after a renaming to ordinary names, is what its text is parsed as, unless its text is
nested too deeply; a tree of a height of at most 31 never is.
-/
theorem roundTrips_of_parse
    {source : String}
    {expression : Expr}
    (parsed : parse source = .ok expression)
    (floatFree : expression.IsFloatFree)
    {image : String → String}
    (ordinary : ∀ name, image name = name ∨ IsOrdinaryName (image name)) :
    expression.RoundTrips ∧ (expression.rename image).RoundTrips ∧
      SourceError.nestedTooDeeply.message = "expression nested too deeply" := by
  have writable := writable_of_parse parsed
  refine ⟨writable.roundTrips floatFree, ?_, rfl⟩
  have renames : ∀ name, IsOwnName name → IsOwnName (image name) := by
    intro name own
    cases ordinary name with
    | inl unchanged => rwa [unchanged]
    | inr isOrdinary => exact isOrdinary.isOwnName
  exact (writable.rename renames).roundTrips (floatFree.rename image)

set_option maxRecDepth 20000 in
/-- A source with a call, a comparison and a string, and a renaming of one of its names. -/
theorem roundTrips_of_parse_call :
    let expression : Expr :=
      .comparison (.call "f" [.variable "x"]) [(.notMember, .literal (.str "it's"))]
    let image := fun name => if name = "x" then "value" else name
    expression.RoundTrips ∧ (expression.rename image).RoundTrips ∧
      SourceError.nestedTooDeeply.message = "expression nested too deeply" := by
  intro expression image
  have floatFree : expression.IsFloatFree := by
    simp [expression, Expr.IsFloatFree, Expr.constants, Expr.itemsConstants,
      Expr.linksConstants]
  have writable : expression.Writable := by
    refine .comparison (.call ⟨⟨⟨rfl, by simp⟩, rfl⟩, rfl⟩ ?_) (by simp) ?_
    · exact List.forall_mem_singleton.mpr (.reference ⟨⟨⟨rfl, by simp⟩, rfl⟩, rfl⟩)
    · exact List.forall_mem_singleton.mpr (.literal trivial)
  have parsed : parse "(f(x) not in 'it\\'s')" = .ok expression :=
    Expr.parse_of_tokens writable floatFree.isExact (by decide) (by cbv)
  refine roundTrips_of_parse parsed floatFree fun name => ?_
  by_cases renamed : name = "x"
  · right
    simp only [image, renamed, if_true]
    exact ⟨⟨'v', rfl, rfl⟩, List.all_eq_true.mp rfl, rfl⟩
  · left
    simp only [image, renamed, if_false]

end Expression
end TemplatedMarkup
