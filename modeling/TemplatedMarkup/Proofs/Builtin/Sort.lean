import TemplatedMarkup.Builtin.Function
import TemplatedMarkup.Proofs.Sorting.Stability
import TemplatedMarkup.Proofs.Value.Comparison

/-!
# Sorting exact values

Exact values are sorted stably, as long as every two of them have an order.  Values without one
never end up in a sorted list.  The sort ranks them as equal, which is not handed on, and so a list
that is too long for insertion may turn out to have no order at all: then the sort gives up.
-/

namespace TemplatedMarkup
namespace Value

open Sorting

/-! ## The order as a comparison -/

section Order

variable {left right : Value}

/-- A value precedes another one, or does not, as their order says. -/
theorem precedes_eq_ok_iff {answer : Bool} :
    precedes left right = .ok answer ↔
      ∃ order, left.compare right = .ok order ∧ decide (order = .lt) = answer := by
  rw [precedes]
  cases left.compare right with
  | error cause => exact ⟨nofun, nofun⟩
  | ok order =>
      exact ⟨fun answers => ⟨order, rfl, Except.ok.inj answers⟩,
        fun ⟨_, isOrder, isAnswer⟩ => by cases isOrder; exact congrArg _ isAnswer⟩

/-- A value comes before another one if it is less. -/
theorem isBefore_precedes : IsBefore precedes left right ↔ left.compare right = .ok .lt := by
  rw [IsBefore, precedes_eq_ok_iff]
  simp

/-- The comparison fails as the order does. -/
theorem precedes_eq_error_iff {cause : EvalError} :
    precedes left right = .error cause ↔ left.compare right = .error cause := by
  rw [precedes]
  cases left.compare right with
  | error other => exact ⟨fun fails => by cases fails; rfl, fun fails => by cases fails; rfl⟩
  | ok order => exact ⟨nofun, nofun⟩

/-- A value may stand in front of another one if it is less than or equal to it. -/
theorem IsExact.isNotAfter_iff
    (leftExact : left.IsExact)
    (rightExact : right.IsExact) :
    IsNotAfter precedes left right ↔ ∃ order, left.compare right = .ok order ∧ order ≠ .gt := by
  rw [IsNotAfter, precedes_eq_ok_iff]
  constructor
  · rintro ⟨order, compared, notBefore⟩
    refine ⟨order.swap, rightExact.compare_swap leftExact compared, ?_⟩
    cases order <;> simp_all
  · rintro ⟨order, compared, notAfter⟩
    refine ⟨order.swap, leftExact.compare_swap rightExact compared, ?_⟩
    cases order <;> simp_all

/-- As far as exact values have an order, they are ordered by it. -/
theorem isOrderAmong_exact : IsOrderAmong precedes IsExact where
  self leftExact rightExact answers := by
    obtain ⟨order, compared, -⟩ := precedes_eq_ok_iff.mp answers
    exact precedes_eq_ok_iff.mpr ⟨.eq, leftExact.compare_self rightExact compared, rfl⟩
  back leftExact rightExact answers := by
    obtain ⟨order, compared, isAnswer⟩ := precedes_eq_ok_iff.mp answers
    refine ⟨_, precedes_eq_ok_iff.mpr ⟨_, leftExact.compare_swap rightExact compared, rfl⟩, ?_⟩
    rintro rfl
    rw [of_decide_eq_true isAnswer]
    rfl
  trans leftExact middleExact rightExact first second := by
    rw [leftExact.isNotAfter_iff middleExact] at first
    rw [middleExact.isNotAfter_iff rightExact] at second
    rw [leftExact.isNotAfter_iff rightExact]
    obtain ⟨order, compared, notAfter⟩ := first
    obtain ⟨nextOrder, nextCompared, nextNotAfter⟩ := second
    refine ⟨order.then nextOrder, leftExact.compare_trans middleExact rightExact compared
      nextCompared notAfter nextNotAfter, ?_⟩
    cases order <;> simp_all

end Order

/-! ## The ranking -/

/-- A ranking of some values is a total preorder. -/
structure OrdersTotally (rank : Value → Value → Ordering) (values : List Value) : Prop where
  /-- The other way round, the ranking is opposite. -/
  swap : ∀ left ∈ values, ∀ right ∈ values, rank right left = (rank left right).swap
  /-- Rankings are handed on: the first one that is not equality decides. -/
  trans : ∀ left ∈ values, ∀ middle ∈ values, ∀ right ∈ values,
    rank left middle ≠ .gt → rank middle right ≠ .gt →
      rank left right = (rank left middle).then (rank middle right)

section Ranking

variable {left right : Value}

/-- Values that have an order are ranked by it. -/
theorem rank_of_compare
    {order : Ordering}
    (compared : left.compare right = .ok order) :
    left.rank right = order := by
  rw [rank, compared]

/-- Values that have no order are ranked as equal. -/
theorem rank_of_not_comparable (incomparable : ¬left.Comparable right) :
    left.rank right = .eq := by
  rw [rank]
  cases compared : left.compare right with
  | error cause => rfl
  | ok order => exact absurd ⟨order, compared⟩ incomparable

/-- Exact values have an order either way round, or neither way. -/
theorem IsExact.comparable_comm
    (leftExact : left.IsExact)
    (rightExact : right.IsExact)
    (comparable : left.Comparable right) :
    right.Comparable left := by
  obtain ⟨order, compared⟩ := comparable
  exact ⟨order.swap, leftExact.compare_swap rightExact compared⟩

/-- The other way round, exact values are ranked opposite. -/
theorem IsExact.rank_swap
    (leftExact : left.IsExact)
    (rightExact : right.IsExact) :
    right.rank left = (left.rank right).swap := by
  by_cases comparable : left.Comparable right
  · obtain ⟨order, compared⟩ := comparable
    rw [rank_of_compare compared, rank_of_compare (leftExact.compare_swap rightExact compared)]
  · rw [rank_of_not_comparable comparable, rank_of_not_comparable fun back =>
      comparable (rightExact.comparable_comm leftExact back)]
    rfl

end Ranking

variable {values : List Value}

/--
The ranking of exact values is a total preorder exactly when two values without an order are always
ranked alike against all values.
-/
theorem ordersTotally_rank_iff (exact : ∀ value ∈ values, value.IsExact) :
    OrdersTotally rank values ↔ ∀ left ∈ values, ∀ right ∈ values, ¬left.Comparable right →
      ∀ value ∈ values, left.rank value = right.rank value := by
  constructor
  · intro total left isLeft right isRight incomparable value isValue
    have beside : left.rank right = .eq := rank_of_not_comparable incomparable
    have besideBack : right.rank left = .eq := by
      rw [total.swap left isLeft right isRight, beside]; rfl
    cases ranked : right.rank value with
    | lt | eq =>
        rw [total.trans left isLeft right isRight value isValue (by simp [beside])
          (by simp [ranked]), beside, ranked]
        rfl
    | gt =>
        have rankedBack : value.rank right = .lt := by
          rw [total.swap right isRight value isValue, ranked]; rfl
        rw [total.swap value isValue left isLeft,
          total.trans value isValue right isRight left isLeft (by simp [rankedBack])
            (by simp [besideBack]), rankedBack]
        rfl
  · intro alike
    refine ⟨fun left isLeft right isRight =>
      (exact left isLeft).rank_swap (exact right isRight), ?_⟩
    intro left isLeft middle isMiddle right isRight notAfter nextNotAfter
    by_cases comparable : left.Comparable middle
    · by_cases nextComparable : middle.Comparable right
      · obtain ⟨order, compared⟩ := comparable
        obtain ⟨nextOrder, nextCompared⟩ := nextComparable
        rw [rank_of_compare compared] at notAfter ⊢
        rw [rank_of_compare nextCompared] at nextNotAfter ⊢
        exact rank_of_compare ((exact left isLeft).compare_trans (exact middle isMiddle)
          (exact right isRight) compared nextCompared notAfter nextNotAfter)
      · have same := alike middle isMiddle right isRight nextComparable left isLeft
        rw [rank_of_not_comparable nextComparable,
          (exact right isRight).rank_swap (exact left isLeft), ← same,
          (exact middle isMiddle).rank_swap (exact left isLeft)]
        simp
    · rw [alike left isLeft middle isMiddle comparable right isRight,
        rank_of_not_comparable comparable]
      rfl

/-- Exact values have their orders both ways round. -/
theorem pairwise_comparable_iff (exact : ∀ value ∈ values, value.IsExact) :
    values.Pairwise Comparable ↔
      values.Pairwise fun left right => left.Comparable right ∧ right.Comparable left :=
  ⟨fun comparable => comparable.imp_of_mem fun isLeft isRight comparable =>
      ⟨comparable, (exact _ isLeft).comparable_comm (exact _ isRight) comparable⟩,
    fun both => both.imp And.left⟩

/-- Of values every two of which have an order, two that are not the same have one. -/
theorem comparable_of_ne
    (exact : ∀ value ∈ values, value.IsExact)
    (comparable : values.Pairwise Comparable)
    {left right : Value}
    (isLeft : left ∈ values)
    (isRight : right ∈ values)
    (differ : left ≠ right) :
    left.Comparable right := by
  have : Std.Symm fun left right : Value => left.Comparable right ∧ right.Comparable left :=
    ⟨fun _ _ both => both.symm⟩
  exact (((pairwise_comparable_iff exact).mp comparable).forall isLeft isRight differ).1

/-- Values every two of which have an order are ranked by a total preorder. -/
theorem ordersTotally_of_comparable
    (exact : ∀ value ∈ values, value.IsExact)
    (comparable : values.Pairwise Comparable) :
    OrdersTotally rank values := by
  refine (ordersTotally_rank_iff exact).mpr fun left isLeft right isRight incomparable => ?_
  by_cases same : left = right
  · simp [same]
  · exact absurd (comparable_of_ne exact comparable isLeft isRight same) incomparable

/-- By a total preorder the ranking orders values, and has an answer for all of them. -/
theorem OrdersTotally.isOrderAmong (total : OrdersTotally rank values) :
    IsOrderAmong ranksBefore (· ∈ values) where
  self {left _ _} isLeft _ _ := by
    have same := total.swap left isLeft left isLeft
    have isEqual : left.rank left ≠ .lt := fun isLess => by simp [isLess] at same
    simp [ranksBefore, isEqual]
  back {left right _} isLeft isRight answers := by
    refine ⟨_, rfl, fun isYes => ?_⟩
    rw [ranksBefore, isYes, Except.ok.injEq, decide_eq_true_eq] at answers
    rw [total.swap left isLeft right isRight, answers]
    rfl
  trans {left middle right} isLeft isMiddle isRight first second := by
    simp only [IsNotAfter, ranksBefore, Except.ok.injEq, decide_eq_false_iff_not] at first second ⊢
    have notAfter : left.rank middle ≠ .gt := by
      rw [total.swap middle isMiddle left isLeft]
      cases ranked : middle.rank left <;> simp_all
    have nextNotAfter : middle.rank right ≠ .gt := by
      rw [total.swap right isRight middle isMiddle]
      cases ranked : right.rank middle <;> simp_all
    rw [total.swap left isLeft right isRight,
      total.trans left isLeft middle isMiddle right isRight notAfter nextNotAfter]
    cases ranked : left.rank middle <;> simp_all

/-! ## The sort -/

/-- The sort of exact values by their order fails only with a comparison of two of them. -/
theorem ends_sort_precedes (exact : ∀ value ∈ values, value.IsExact) :
    Ends (fun cause => ∃ left ∈ values, ∃ right ∈ values, left.compare right = .error cause)
      (Sorts precedes values) (Sorting.sort precedes values) := by
  have order : IsOrderAmong precedes (· ∈ values) :=
    isOrderAmong_exact.of_imp exact
  have ends := ends_sort order fun _ isValue => isValue
  refine ⟨ends.fails.mono fun cause fails => ?_, ends.gives⟩
  obtain ⟨left, right, isLeft, isRight, fails⟩ := fails
  exact ⟨left, isLeft, right, isRight, precedes_eq_error_iff.mp fails⟩

/-- Values that are ranked by a total preorder are sorted, unless a comparison of two fails. -/
theorem OrdersTotally.ends_sort
    (total : OrdersTotally rank values)
    (exact : ∀ value ∈ values, value.IsExact) :
    Ends (fun cause => ∃ left ∈ values, ∃ right ∈ values, left.compare right = .error cause)
      (Sorts precedes values) (Value.sort values) := by
  have ranked := Sorting.ends_sort total.isOrderAmong fun _ isValue => isValue
  refine Ends.bind ⟨fun cause fails => ?_, Gives.any _⟩ fun _ _ => ends_sort_precedes exact
  obtain ⟨_, _, _, _, nothing⟩ := ranked.fails cause fails
  cases nothing

/-- Of several values every two of which have an order, each has one to itself. -/
theorem comparable_of_mem
    (exact : ∀ value ∈ values, value.IsExact)
    (comparable : values.Pairwise Comparable)
    (several : 1 < values.length)
    {left right : Value}
    (isLeft : left ∈ values)
    (isRight : right ∈ values) :
    left.Comparable right := by
  by_cases differ : left = right
  · subst differ
    obtain ⟨before, after, rfl⟩ := List.append_of_mem isLeft
    have others : 0 < (before ++ after).length := by
      simp only [List.length_append, List.length_cons] at several ⊢
      omega
    obtain ⟨other, isOther⟩ := List.exists_mem_of_length_pos others
    have otherExact : other.IsExact := exact other (by simp at isOther ⊢; tauto)
    obtain ⟨order, compared⟩ : left.Comparable other := by
      rw [List.pairwise_append, List.pairwise_cons] at comparable
      rcases List.mem_append.mp isOther with isBefore | isAfter
      · exact otherExact.comparable_comm (exact left isLeft)
          (comparable.2.2 other isBefore left List.mem_cons_self)
      · exact comparable.2.1.1 other isAfter
    exact ⟨.eq, (exact left isLeft).compare_self otherExact compared⟩
  · exact comparable_of_ne exact comparable isLeft isRight differ

/-- Values every two of which have an order are sorted. -/
theorem exists_sorts_of_comparable
    (exact : ∀ value ∈ values, value.IsExact)
    (comparable : values.Pairwise Comparable) :
    ∃ sorted, Value.sort values = .ok sorted ∧ Sorts precedes values sorted := by
  match values with
  | [] => exact ⟨[], rfl, .refl _, .nil⟩
  | [value] => exact ⟨[value], rfl, .refl _, List.pairwise_singleton _ value⟩
  | first :: second :: others =>
      have ends := (ordersTotally_of_comparable exact comparable).ends_sort exact
      cases result : Value.sort (first :: second :: others) with
      | ok sorted => exact ⟨sorted, rfl, ends.gives sorted result⟩
      | error cause =>
          obtain ⟨left, isLeft, right, isRight, fails⟩ := ends.fails cause result
          obtain ⟨order, compared⟩ :=
            comparable_of_mem exact comparable (by simp) isLeft isRight
          cases fails.symm.trans compared

/-- Every two of the values in a sorted list have an order. -/
theorem pairwise_comparable_of_sort
    (exact : ∀ value ∈ values, value.IsExact)
    {sorted : List Value}
    (succeeds : Value.sort values = .ok sorted) :
    values.Pairwise Comparable := by
  obtain ⟨_, _, succeeds⟩ := exists_of_bind_eq_ok succeeds
  have sorts := (ends_sort_precedes exact).gives sorted succeeds
  have sortedExact := sorts.among exact
  have ascends : sorted.Pairwise Comparable := sorts.ascends.imp_of_mem fun isLeft isRight before =>
    have ⟨order, compared, _⟩ :=
      ((sortedExact _ isLeft).isNotAfter_iff (sortedExact _ isRight)).mp before
    ⟨order, compared⟩
  rw [pairwise_comparable_iff sortedExact] at ascends
  rw [pairwise_comparable_iff exact]
  exact (sorts.stable.perm.pairwise_iff fun both => both.symm).mpr ascends

/-- A list that is sorted by insertion fails only with a comparison of two of its values. -/
theorem fails_sort_of_short
    (exact : ∀ value ∈ values, value.IsExact)
    (short : values.length ≤ maxInsertionLength) :
    FailsWith (fun cause => ∃ left ∈ values, ∃ right ∈ values, left.compare right = .error cause)
      (Value.sort values) := by
  have ranked : FailsWith (fun _ => False) (Sorting.sort ranksBefore values) := by
    rw [Sorting.sort, if_pos short]
    exact fails_sortByInsertion (fun _ _ => .ok _) values
  exact .bind (ranked.mono fun _ impossible => impossible.elim) fun _ _ =>
    (ends_sort_precedes exact).fails

/--
The ranking of exact values is a total preorder exactly when two values without an order are always
ranked alike against all values, and so whenever every two values have an order.  Then the sort
never gives up: it fails only because two of the values have no order.
-/
theorem ranking_of_exact (exact : ∀ value ∈ values, value.IsExact) :
    (OrdersTotally rank values ↔ ∀ left ∈ values, ∀ right ∈ values, ¬left.Comparable right →
        ∀ value ∈ values, left.rank value = right.rank value) ∧
      (values.Pairwise Comparable → OrdersTotally rank values) ∧
      (OrdersTotally rank values → ∀ cause, Value.sort values = .error cause →
        ∃ left ∈ values, ∃ right ∈ values, left.compare right = .error cause) :=
  ⟨ordersTotally_rank_iff exact, ordersTotally_of_comparable exact,
    fun total => (total.ends_sort exact).fails⟩

/-- An integer and a truth value are ranked by a total preorder. -/
theorem ranking_of_exact_numbers : OrdersTotally rank [.int 2, .bool true] :=
  (ranking_of_exact (by simpa using ⟨.int 2, .bool true⟩)).2.1
    (List.pairwise_pair.mpr ⟨_, compare_numbers rfl rfl⟩)

/-- A string is ranked as equal to two integers, of which one is less than the other. -/
theorem not_ordersTotally_mixed : ¬OrdersTotally rank [.int 1, .str "a", .int 0] := by
  intro total
  have first : rank (.int 0) (.str "a") = .eq := by simp [rank, compare, number?]
  have second : rank (.str "a") (.int 1) = .eq := by simp [rank, compare, number?]
  have both := total.trans (.int 0) (by simp) (.str "a") (by simp) (.int 1) (by simp)
    (by simp [first]) (by simp [second])
  have less : rank (.int 0) (.int 1) = .lt := by
    simp [rank, compare, number?, Number.compare]
    rfl
  rw [first, second, less] at both
  cases both

end Value

namespace Builtin

open Value Sorting

/-- A call sorts its first argument, and reverses the result if the second one is true. -/
theorem call_sorted (values others : List Value) :
    call .sorted (.list values :: others) = (do
      let sorted ← Value.sort values
      return .list (if others.head?.any Value.truthy then sorted.reverse else sorted)) := by
  cases others <;> rfl

/--
Exact values every two of which have an order are sorted: in ascending order, equal values in the
order they had, and the other way round if the second argument is true.  If two values have no
order, the call fails.  It fails for that reason if the list is short enough for insertion, or if
the ranking is a total preorder.
-/
theorem sorted_of_exact
    {values : List Value}
    (exact : ∀ value ∈ values, value.IsExact) :
    (values.Pairwise Comparable → ∃ ascending : List Value,
      call .sorted [.list values] = .ok (.list ascending) ∧
      (∀ reversed, call .sorted [.list values, reversed] =
        .ok (.list (if reversed.truthy then ascending.reverse else ascending))) ∧
      ascending.Perm values ∧
      ascending.Pairwise (fun left right =>
        left.compare right = .ok .lt ∨ left.compare right = .ok .eq) ∧
      ∀ value ∈ values, ascending.filter value.equal = values.filter value.equal) ∧
    (¬values.Pairwise Comparable → ∀ others, ∃ cause,
      call .sorted (.list values :: others) = .error cause ∧
      (values.length ≤ maxInsertionLength ∨ OrdersTotally rank values →
        ∃ left ∈ values, ∃ right ∈ values, left.compare right = .error cause)) := by
  constructor
  · intro comparable
    obtain ⟨ascending, succeeds, sorts⟩ := exists_sorts_of_comparable exact comparable
    refine ⟨ascending, ?_, fun reversed => ?_, sorts.stable.perm.symm, ?_, fun value isValue => ?_⟩
    · rw [call_sorted, succeeds]
      rfl
    · rw [call_sorted, succeeds]
      rfl
    · have ascendingExact := sorts.among exact
      refine sorts.ascends.imp_of_mem fun isLeft isRight before => ?_
      obtain ⟨order, compared, notAfter⟩ :=
        ((ascendingExact _ isLeft).isNotAfter_iff (ascendingExact _ isRight)).mp before
      cases order <;> simp_all
    · refine sorts.stable.filter_eq fun left right isLeft isRight equalLeft equalRight before => ?_
      have leftExact := exact left isLeft
      have same : left.equal right = true :=
        equatesAmong_exact.trans leftExact (exact value isValue) (exact right isRight)
          (equatesAmong_exact.symm (exact value isValue) leftExact equalLeft) equalRight
      have compared := isBefore_precedes.mp before
      cases (leftExact.eq_iff_equal (exact right isRight) compared).mpr same
  · intro incomparable others
    rw [call_sorted]
    cases result : Value.sort values with
    | ok sorted => exact absurd (pairwise_comparable_of_sort exact result) incomparable
    | error cause =>
        refine ⟨cause, rfl, ?_⟩
        rintro (short | total)
        · exact fails_sort_of_short exact short cause result
        · exact (total.ends_sort exact).fails cause result

/-- Numbers are sorted, and an integer and a string are not. -/
theorem sorted_of_exact_numbers :
    (∃ ascending, call .sorted [.list [.int 2, .bool true]] = .ok (.list ascending) ∧
      ascending.Perm [.int 2, .bool true]) ∧
      ∃ cause, call .sorted [.list [.int 1, .str "a"], .bool true] = .error cause := by
  have comparable : Comparable (.int 2) (.bool true) := ⟨_, compare_numbers rfl rfl⟩
  have incomparable : ¬Comparable (.int 1) (.str "a") := by
    rintro ⟨order, compared⟩
    simp [Value.compare, number?] at compared
  obtain ⟨ascending, succeeds, -, rearranged, -⟩ :=
    (sorted_of_exact (by simpa using ⟨.int 2, .bool true⟩)).1 (List.pairwise_pair.mpr comparable)
  obtain ⟨cause, fails, -⟩ := (sorted_of_exact (by simpa using ⟨.int 1, .str "a"⟩)).2
    (mt List.pairwise_pair.mp incomparable) [.bool true]
  exact ⟨⟨ascending, succeeds, rearranged⟩, cause, fails⟩

/-- A list of integers and a string on which the ends of a merge pass each other. -/
theorem sorted_gives_up :
    let values : List Value := [.int 9, .int 8, .int 9, .int 9, .int 9, .str "a", .int 0, .int 0,
      .int 0, .int 0] ++ List.replicate 11 (.int 5)
    (∀ value ∈ values, value.IsExact) ∧ call .sorted [.list values] = .error .disorder ∧
      EvalError.disorder.isCrash = true := by
  refine ⟨?_, rfl, rfl⟩
  simp [List.replicate, IsExact.int, IsExact.str]

end Builtin
end TemplatedMarkup
