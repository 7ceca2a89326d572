import TemplatedMarkup.Expression.Eval

/-!
# Chains of comparisons

A chain compares each of its operands with the next, as long as the comparisons hold.  It means the
conjunction of these comparisons, in which every operand but the first and the last stands twice:
both give the same value, and where one of them fails the other one fails with the same error.
-/

namespace TemplatedMarkup
namespace Expression
namespace Expr

/-- The comparisons of a chain as comparisons of two operands each, joined by `and` from the right. -/
def conjunction (first : Expr) (link : Comparison × Expr) : List (Comparison × Expr) → Expr
  | [] => .comparison first [link]
  | next :: links => .binary .and (.comparison first [link]) (conjunction link.2 next links)

variable
  {scope : Scope}
  {run : Function → List Value → Except EvalError Value}

/-- A conjunction has the value of its right operand unless the left one is false. -/
theorem evalWith_and (left right : Expr) :
    (binary .and left right).evalWith scope run =
      left.evalWith scope run >>= fun value =>
        if value.truthy then right.evalWith scope run else .ok value := by
  rw [evalWith]
  congr 1
  funext value
  cases truth : value.truthy with
  | false => simp [BinaryOperator.isDecidedBy, truth, pure, Except.pure]
  | true =>
      simp only [BinaryOperator.isDecidedBy, truth, BinaryOperator.apply]
      cases right.evalWith scope run <;> rfl

/-- The links of a chain hold when the first one holds and, behind its operand, the others do. -/
theorem evalLinks_cons
    (left : Value)
    (link : Comparison × Expr)
    (links : List (Comparison × Expr)) :
    evalLinks scope run left (link :: links) =
      link.2.evalWith scope run >>= fun right =>
        link.1.holds left right >>= fun holds =>
          if holds then evalLinks scope run right links else .ok false := by
  obtain ⟨relation, operand⟩ := link
  rw [evalLinks]
  rfl

/-- A comparison of two operands tells whether it holds between their values. -/
theorem evalWith_comparison_singleton (first : Expr) (link : Comparison × Expr) :
    (comparison first [link]).evalWith scope run =
      first.evalWith scope run >>= fun left =>
        link.2.evalWith scope run >>= fun right =>
          (link.1.holds left right).map .bool := by
  rw [evalWith]
  simp only [evalLinks_cons]
  cases first.evalWith scope run with
  | error cause => rfl
  | ok left =>
      cases link.2.evalWith scope run with
      | error cause => rfl
      | ok right =>
          simp only [bind, Except.bind]
          cases link.1.holds left right with
          | error cause => rfl
          | ok holds => cases holds <;> rfl

/--
A chain of two links and more says that its first comparison holds and that the chain behind it,
which starts with the second operand, does.
-/
theorem evalWith_comparison_cons_cons
    (first : Expr)
    (link next : Comparison × Expr)
    (links : List (Comparison × Expr)) :
    (comparison first (link :: next :: links)).evalWith scope run =
      (binary .and (comparison first [link]) (comparison link.2 (next :: links))).evalWith
        scope run := by
  rw [evalWith_and, evalWith_comparison_singleton, evalWith, evalWith]
  simp only [evalLinks_cons _ link]
  cases first.evalWith scope run with
  | error cause => rfl
  | ok left =>
      cases link.2.evalWith scope run with
      | error cause => rfl
      | ok right =>
          simp only [bind, Except.bind]
          cases link.1.holds left right with
          | error cause => rfl
          | ok holds => cases holds <;> rfl

/--
A chain of comparisons gives what the conjunction of its comparisons gives, value or error, in every
scope and however functions are called.
-/
theorem evalWith_comparison_eq_conjunction
    (scope : Scope)
    (run : Function → List Value → Except EvalError Value)
    (first : Expr)
    (link : Comparison × Expr)
    (links : List (Comparison × Expr)) :
    (comparison first (link :: links)).evalWith scope run =
      (conjunction first link links).evalWith scope run := by
  induction links generalizing first link with
  | nil => rfl
  | cons next links inductionHypothesis =>
      rw [evalWith_comparison_cons_cons, evalWith_and, inductionHypothesis, conjunction,
        evalWith_and]

end Expr
end Expression
end TemplatedMarkup
