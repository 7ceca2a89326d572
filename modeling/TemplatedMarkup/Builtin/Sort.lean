import TemplatedMarkup.Sorting.Stable
import TemplatedMarkup.Value.Order

/-!
# Sorting values

Values are sorted by their order.  Two values that have none are sorted as if they were equal, and
then the sort ends with an error, unless it finds out first that values were put out of order.
-/

namespace TemplatedMarkup

instance : Sorting.HasDisorder EvalError := ⟨.disorder⟩

namespace Value

/-- Whether a value comes strictly before another one. -/
def precedes (left right : Value) : Except EvalError Bool := do
  return (← left.compare right) = .lt

/-- The order by which two values are sorted; values that have no order count as equal. -/
def rank (left right : Value) : Ordering :=
  match left.compare right with
  | .ok order => order
  | .error _ => .eq

/-- Whether a value is sorted before another one. -/
def ranksBefore : Sorting.Comparison EvalError Value :=
  fun left right => .ok (left.rank right = .lt)

/--
The values in ascending order, equal ones in the order they had.  A sort goes on after a comparison
that fails, so it may still find out that there is no order; if it does not, the first comparison
that failed is its error.
-/
def sort (values : List Value) : Except EvalError (List Value) := do
  let _ ← Sorting.sort ranksBefore values
  Sorting.sort precedes values

end Value
end TemplatedMarkup
