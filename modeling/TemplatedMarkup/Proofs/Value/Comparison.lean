import TemplatedMarkup.Proofs.Value.ExactEquality
import TemplatedMarkup.Value.Order

/-!
# The order of values

Numbers, strings and lists have an order among their own kind, as far as the first items in which
two lists differ have one.  Where exact values are compared, the answers agree with each other and
with equality: the other way round the answer is the opposite, values are ordered as equal exactly
when they are equal, and orders are handed on.
-/

namespace TemplatedMarkup
namespace Value

/-- Two values have an order. -/
def Comparable (left right : Value) : Prop :=
  ∃ order, left.compare right = .ok order

/-! ## What is compared -/

section Kinds

variable {left right : Value}

/-- Integers and truth values are compared as numbers. -/
theorem compare_numbers
    {leftNumber rightNumber : Int64}
    (isLeft : left.number? = some (.int leftNumber))
    (isRight : right.number? = some (.int rightNumber)) :
    left.compare right = .ok (Ord.compare leftNumber.toInt rightNumber.toInt) := by
  cases left <;> cases isLeft <;> cases right <;> cases isRight <;> simp [compare, number?] <;> rfl

@[simp] theorem compare_strings (left right : String) :
    compare (.str left) (.str right) = .ok (Ord.compare left right) := by
  simp [compare, number?]

@[simp] theorem compare_lists (lefts rights : List Value) :
    compare (.list lefts) (.list rights) = compareItems lefts rights := by
  simp [compare, number?]

/-- Equal numbers are the same number. -/
theorem equal_numbers
    {leftNumber rightNumber : Int64}
    (isLeft : left.number? = some (.int leftNumber))
    (isRight : right.number? = some (.int rightNumber)) :
    left.equal right = decide (leftNumber.toInt = rightNumber.toInt) := by
  cases left <;> cases isLeft <;> cases right <;> cases isRight <;>
    simp [equal, number?, Number.equal, beq_eq_decide, Int64.toInt_inj]

/-- How two exact values with an order are compared: as numbers, as strings or as lists. -/
inductive ComparedAs : Value → Value → Ordering → Prop where
  | numbers
      {left right : Value}
      {leftNumber rightNumber : Int64}
      (isLeft : left.number? = some (.int leftNumber))
      (isRight : right.number? = some (.int rightNumber)) :
      ComparedAs left right (Ord.compare leftNumber.toInt rightNumber.toInt)
  | strings (left right : String) :
      ComparedAs (.str left) (.str right) (Ord.compare left right)
  | lists
      {lefts rights : List Value}
      {order : Ordering}
      (compared : compareItems lefts rights = .ok order) :
      ComparedAs (.list lefts) (.list rights) order

/-- Exact values have an order only among their kind. -/
theorem IsExact.comparedAs
    {order : Ordering}
    (leftExact : left.IsExact)
    (rightExact : right.IsExact)
    (compared : left.compare right = .ok order) :
    ComparedAs left right order := by
  cases leftExact <;> cases rightExact <;>
    first
    | (obtain rfl := Except.ok.inj ((compare_numbers rfl rfl).symm.trans compared)
       exact .numbers rfl rfl)
    | (obtain rfl := Except.ok.inj ((compare_strings _ _).symm.trans compared)
       exact .strings _ _)
    | exact .lists ((compare_lists _ _).symm.trans compared)
    | simp [compare, number?] at compared

end Kinds

/-! ## The laws of an order -/

/-- Of two lawful orders in a row, the first one that is not equality is their order together. -/
theorem compare_eq_then
    {Item : Type}
    [Ord Item]
    [Std.TransOrd Item]
    [Std.LawfulEqOrd Item]
    {left middle right : Item}
    (first : Ord.compare left middle ≠ .gt)
    (second : Ord.compare middle right ≠ .gt) :
    Ord.compare left right = (Ord.compare left middle).then (Ord.compare middle right) := by
  cases firstOrder : Ord.compare left middle with
  | gt => contradiction
  | eq => rw [Std.compare_eq_iff_eq.mp firstOrder, Ordering.eq_then]
  | lt =>
      cases secondOrder : Ord.compare middle right with
      | gt => contradiction
      | eq => rw [← Std.compare_eq_iff_eq.mp secondOrder, firstOrder]; rfl
      | lt => exact Std.TransCmp.lt_trans firstOrder secondOrder

/-- Items are compared up to the first two that differ. -/
theorem compareItems_cons
    {left right : Value}
    {lefts rights : List Value} :
    compareItems (left :: lefts) (right :: rights) =
      if left.equal right then compareItems lefts rights else left.compare right := by
  rw [compareItems]

section Laws

variable
  {left middle right : Value}
  {lefts middles rights : List Value}
  {order nextOrder : Ordering}

/-- Lists are ordered as equal exactly when they are equal, if that holds for their items. -/
theorem eq_iff_equal_of_items
    (each : ∀ left ∈ lefts, ∀ right ∈ rights, ∀ {order}, left.compare right = .ok order →
      (order = .eq ↔ left.equal right = true))
    (compared : compareItems lefts rights = .ok order) :
    order = .eq ↔ equal (.list lefts) (.list rights) = true := by
  have unfolded : equal (.list lefts) (.list rights) = equalItems lefts rights := by
    simp [equal, number?]
  rw [unfolded]
  clear unfolded
  induction lefts generalizing rights with
  | nil => cases rights <;> cases compared <;> simp [equalItems]
  | cons left lefts inductionHypothesis =>
      cases rights with
      | nil => cases compared; simp [equalItems]
      | cons right rights =>
          rw [compareItems_cons] at compared
          rw [equalItems, Bool.and_eq_true]
          split at compared
          · rename_i same
            rw [and_iff_right same]
            exact inductionHypothesis (fun item isItem other isOther => each item
              (List.mem_cons_of_mem _ isItem) other (List.mem_cons_of_mem _ isOther)) compared
          · rename_i differ
            rw [each left (by simp) right (by simp) compared]
            simp [differ]

/-- Exact values are ordered as equal exactly when they are equal. -/
theorem IsExact.eq_iff_equal
    (leftExact : left.IsExact)
    (rightExact : right.IsExact)
    (compared : left.compare right = .ok order) :
    order = .eq ↔ left.equal right = true := by
  induction leftExact using inductionOnItems generalizing right order with
  | step left leftExact each =>
  cases leftExact.comparedAs rightExact compared with
  | numbers isLeft isRight =>
      rw [equal_numbers isLeft isRight, decide_eq_true_eq, Std.compare_eq_iff_eq]
  | strings => simp [equal, number?]
  | lists compared =>
      cases leftExact with
      | list leftItems =>
          cases rightExact with
          | list rightItems =>
              exact eq_iff_equal_of_items (fun item isItem other isOther {_} comparedItems =>
                each _ rfl item isItem (leftItems item isItem) (rightItems other isOther)
                  comparedItems)
                compared

/-- Lists compared the other way round are in the opposite order, if their items are. -/
theorem compareItems_swap_of_items
    (leftsExact : ∀ left ∈ lefts, left.IsExact)
    (rightsExact : ∀ right ∈ rights, right.IsExact)
    (each : ∀ left ∈ lefts, ∀ right ∈ rights, ∀ {order}, left.compare right = .ok order →
      right.compare left = .ok order.swap)
    (compared : compareItems lefts rights = .ok order) :
    compareItems rights lefts = .ok order.swap := by
  induction lefts generalizing rights with
  | nil => cases rights <;> cases compared <;> rfl
  | cons left lefts inductionHypothesis =>
      cases rights with
      | nil => cases compared; rfl
      | cons right rights =>
          rw [List.forall_mem_cons] at leftsExact rightsExact
          have symm : left.equal right = right.equal left := Bool.eq_iff_iff.mpr
            ⟨equatesAmong_exact.symm leftsExact.1 rightsExact.1,
              equatesAmong_exact.symm rightsExact.1 leftsExact.1⟩
          rw [compareItems_cons] at compared ⊢
          rw [← symm]
          by_cases same : left.equal right = true
          · rw [if_pos same] at compared ⊢
            exact inductionHypothesis leftsExact.2 rightsExact.2
              (fun item isItem other isOther => each item (List.mem_cons_of_mem _ isItem) other
                (List.mem_cons_of_mem _ isOther)) compared
          · rw [if_neg same] at compared ⊢
            exact each left (by simp) right (by simp) compared

/-- Exact values compared the other way round are in the opposite order. -/
theorem IsExact.compare_swap
    (leftExact : left.IsExact)
    (rightExact : right.IsExact)
    (compared : left.compare right = .ok order) :
    right.compare left = .ok order.swap := by
  induction leftExact using inductionOnItems generalizing right order with
  | step left leftExact each =>
  cases leftExact.comparedAs rightExact compared with
  | numbers isLeft isRight =>
      rw [compare_numbers isRight isLeft, Std.OrientedOrd.eq_swap]
  | strings => rw [compare_strings, Std.OrientedOrd.eq_swap]
  | lists compared =>
      cases leftExact with
      | list leftItems =>
          cases rightExact with
          | list rightItems =>
              rw [compare_lists]
              exact compareItems_swap_of_items leftItems rightItems
                (fun item isItem other isOther {_} comparedItems =>
                  each _ rfl item isItem (leftItems item isItem) (rightItems other isOther)
                    comparedItems)
                compared

/-- A list takes the place of an equal one in a comparison, if its items do. -/
theorem compareItems_of_equal_of_items
    (leftsExact : ∀ left ∈ lefts, left.IsExact)
    (middlesExact : ∀ middle ∈ middles, middle.IsExact)
    (rightsExact : ∀ right ∈ rights, right.IsExact)
    (each : ∀ left ∈ lefts, ∀ middle ∈ middles, ∀ right ∈ rights, ∀ {order},
      left.equal middle = true → middle.compare right = .ok order →
        left.compare right = .ok order)
    (same : equalItems lefts middles = true)
    (compared : compareItems middles rights = .ok order) :
    compareItems lefts rights = .ok order := by
  induction lefts generalizing middles rights with
  | nil =>
      cases middles with
      | nil => exact compared
      | cons => simp [equalItems] at same
  | cons left lefts inductionHypothesis =>
      cases middles with
      | nil => simp [equalItems] at same
      | cons middle middles =>
          rw [equalItems, Bool.and_eq_true] at same
          cases rights with
          | nil => exact compared
          | cons right rights =>
              rw [List.forall_mem_cons] at leftsExact middlesExact rightsExact
              have sameRight : left.equal right = middle.equal right := Bool.eq_iff_iff.mpr
                ⟨equatesAmong_exact.trans middlesExact.1 leftsExact.1 rightsExact.1
                    (equatesAmong_exact.symm leftsExact.1 middlesExact.1 same.1),
                  equatesAmong_exact.trans leftsExact.1 middlesExact.1 rightsExact.1 same.1⟩
              rw [compareItems_cons] at compared ⊢
              rw [sameRight]
              by_cases equalRight : middle.equal right = true
              · rw [if_pos equalRight] at compared ⊢
                exact inductionHypothesis leftsExact.2 middlesExact.2 rightsExact.2
                  (fun item isItem between isBetween other isOther => each item
                    (List.mem_cons_of_mem _ isItem) between (List.mem_cons_of_mem _ isBetween)
                    other (List.mem_cons_of_mem _ isOther)) same.2 compared
              · rw [if_neg equalRight] at compared ⊢
                exact each left (by simp) middle (by simp) right (by simp) same.1 compared

/-- An exact value takes the place of an equal one in a comparison. -/
theorem IsExact.compare_of_equal
    (leftExact : left.IsExact)
    (middleExact : middle.IsExact)
    (rightExact : right.IsExact)
    (same : left.equal middle = true)
    (compared : middle.compare right = .ok order) :
    left.compare right = .ok order := by
  induction leftExact using inductionOnItems generalizing middle right order with
  | step left leftExact each =>
  cases middleExact.comparedAs rightExact compared with
  | numbers isMiddle isRight =>
      cases leftExact with
      | none | str | list | dict => cases middleExact <;> simp_all [equal, number?]
      | bool value | int value =>
          have sameNumber := (equal_numbers rfl isMiddle).symm.trans same
          rw [decide_eq_true_eq] at sameNumber
          rw [compare_numbers rfl isRight, sameNumber]
  | strings text =>
      cases leftExact with
      | none | bool | int | list | dict => simp [equal, number?] at same
      | str other =>
          obtain rfl : other = text := by simpa [equal, number?] using same
          exact compared
  | lists comparedItems =>
      cases leftExact with
      | none | bool | int | str | dict => simp [equal, number?] at same
      | list leftItems =>
          cases middleExact with
          | list middleItems =>
              cases rightExact with
              | list rightItems =>
                  rw [compare_lists]
                  exact compareItems_of_equal_of_items leftItems middleItems rightItems
                    (fun item isItem between isBetween other isOther {_} sameItem comparedItem =>
                      each _ rfl item isItem (leftItems item isItem)
                        (middleItems between isBetween) (rightItems other isOther) sameItem
                        comparedItem)
                    (by simpa [equal, number?] using same) comparedItems

/-- An order that is neither after nor beside is before. -/
theorem eq_lt_of_ne
    (notAfter : order ≠ .gt)
    (notBeside : order ≠ .eq) :
    order = .lt := by
  cases order <;> trivial

/-- Orders of lists are handed on, if those of their items are. -/
theorem compareItems_trans_of_items
    (leftsExact : ∀ left ∈ lefts, left.IsExact)
    (middlesExact : ∀ middle ∈ middles, middle.IsExact)
    (rightsExact : ∀ right ∈ rights, right.IsExact)
    (each : ∀ left ∈ lefts, ∀ middle ∈ middles, ∀ right ∈ rights, ∀ {order nextOrder},
      left.compare middle = .ok order → middle.compare right = .ok nextOrder →
        order ≠ .gt → nextOrder ≠ .gt → left.compare right = .ok (order.then nextOrder))
    (first : compareItems lefts middles = .ok order)
    (second : compareItems middles rights = .ok nextOrder)
    (notAfter : order ≠ .gt)
    (nextNotAfter : nextOrder ≠ .gt) :
    compareItems lefts rights = .ok (order.then nextOrder) := by
  induction lefts generalizing middles rights with
  | nil =>
      cases middles with
      | nil => cases first; exact second
      | cons =>
          cases first
          cases rights with
          | nil => cases second; contradiction
          | cons => rfl
  | cons left lefts inductionHypothesis =>
      cases middles with
      | nil => cases first; contradiction
      | cons middle middles =>
          cases rights with
          | nil => cases second; contradiction
          | cons right rights =>
              rw [List.forall_mem_cons] at leftsExact middlesExact rightsExact
              rw [compareItems_cons] at first second ⊢
              by_cases same : left.equal middle = true
              · have sameRight : left.equal right = middle.equal right := Bool.eq_iff_iff.mpr
                  ⟨equatesAmong_exact.trans middlesExact.1 leftsExact.1 rightsExact.1
                      (equatesAmong_exact.symm leftsExact.1 middlesExact.1 same),
                    equatesAmong_exact.trans leftsExact.1 middlesExact.1 rightsExact.1 same⟩
                rw [if_pos same] at first
                rw [sameRight]
                by_cases equalRight : middle.equal right = true
                · rw [if_pos equalRight] at second ⊢
                  exact inductionHypothesis leftsExact.2 middlesExact.2 rightsExact.2
                    (fun item isItem between isBetween other isOther => each item
                      (List.mem_cons_of_mem _ isItem) between (List.mem_cons_of_mem _ isBetween)
                      other (List.mem_cons_of_mem _ isOther)) first second
                · rw [if_neg equalRight] at second ⊢
                  obtain rfl := eq_lt_of_ne nextNotAfter fun isEqual => equalRight
                    ((middlesExact.1.eq_iff_equal rightsExact.1 second).mp isEqual)
                  have moved := leftsExact.1.compare_of_equal middlesExact.1 rightsExact.1 same
                    second
                  rw [moved]
                  cases order <;> trivial
              · rw [if_neg same] at first
                obtain rfl := eq_lt_of_ne notAfter fun isEqual => same
                  ((leftsExact.1.eq_iff_equal middlesExact.1 first).mp isEqual)
                have before : left.compare right = .ok .lt := by
                  by_cases equalRight : middle.equal right = true
                  · have back := rightsExact.1.compare_of_equal middlesExact.1 leftsExact.1
                      (equatesAmong_exact.symm middlesExact.1 rightsExact.1 equalRight)
                      (leftsExact.1.compare_swap middlesExact.1 first)
                    exact rightsExact.1.compare_swap leftsExact.1 back
                  · rw [if_neg equalRight] at second
                    exact each left (by simp) middle (by simp) right (by simp) first second
                      notAfter nextNotAfter
                have differ : ¬left.equal right = true := fun isEqual =>
                  nomatch (leftsExact.1.eq_iff_equal rightsExact.1 before).mpr isEqual
                rw [if_neg differ]
                exact before

/-- Orders of exact values are handed on: the first one that is not equality decides. -/
theorem IsExact.compare_trans
    (leftExact : left.IsExact)
    (middleExact : middle.IsExact)
    (rightExact : right.IsExact)
    (first : left.compare middle = .ok order)
    (second : middle.compare right = .ok nextOrder)
    (notAfter : order ≠ .gt)
    (nextNotAfter : nextOrder ≠ .gt) :
    left.compare right = .ok (order.then nextOrder) := by
  induction leftExact using inductionOnItems generalizing middle right order nextOrder with
  | step left leftExact each =>
  cases leftExact.comparedAs middleExact first with
  | numbers isLeft isMiddle =>
      cases middleExact.comparedAs rightExact second with
      | numbers isSame isRight =>
          obtain rfl := Number.int.inj (Option.some.inj (isMiddle.symm.trans isSame))
          rw [compare_numbers isLeft isRight, compare_eq_then notAfter nextNotAfter]
      | strings | lists => cases isMiddle
  | strings =>
      cases middleExact.comparedAs rightExact second with
      | numbers isMiddle => cases isMiddle
      | strings => rw [compare_strings, compare_eq_then notAfter nextNotAfter]
  | lists firstItems =>
      cases middleExact.comparedAs rightExact second with
      | numbers isMiddle => cases isMiddle
      | lists secondItems =>
          cases leftExact with
          | list leftItems =>
              cases middleExact with
              | list middleItems =>
                  cases rightExact with
                  | list rightItems =>
                      rw [compare_lists]
                      exact compareItems_trans_of_items leftItems middleItems rightItems
                        (fun item isItem between isBetween other isOther {_ _} =>
                          each _ rfl item isItem (leftItems item isItem)
                            (middleItems between isBetween) (rightItems other isOther))
                        firstItems secondItems notAfter nextNotAfter

/-- A list is in order equal to itself if its items equal themselves. -/
theorem compareItems_self
    {items : List Value}
    (same : ∀ item ∈ items, item.equal item = true) :
    compareItems items items = .ok .eq := by
  induction items with
  | nil => rfl
  | cons item items inductionHypothesis =>
      rw [List.forall_mem_cons] at same
      rw [compareItems_cons, if_pos same.1]
      exact inductionHypothesis same.2

/-- An exact value that has an order to some exact value is in order equal to itself. -/
theorem IsExact.compare_self
    (leftExact : left.IsExact)
    (rightExact : right.IsExact)
    (compared : left.compare right = .ok order) :
    left.compare left = .ok .eq := by
  cases leftExact.comparedAs rightExact compared with
  | numbers isLeft isRight => rw [compare_numbers isLeft isLeft, Std.ReflOrd.compare_self]
  | strings => rw [compare_strings, Std.ReflOrd.compare_self]
  | lists =>
      cases leftExact with
      | list items =>
          rw [compare_lists]
          exact compareItems_self fun item isItem => equatesAmong_exact.self (items item isItem)

end Laws

/--
Where exact values have an order, it is consistent: the other way round it is the opposite, it is
equality exactly for equal values, and of two orders in a row that are not descending, the first one
that is not equality is the order of both together.
-/
theorem compare_consistent
    {left middle right : Value}
    (leftExact : left.IsExact)
    (middleExact : middle.IsExact)
    (rightExact : right.IsExact) :
    (∀ order, left.compare middle = .ok order →
      middle.compare left = .ok order.swap ∧ (order = .eq ↔ left.equal middle = true)) ∧
      ∀ order nextOrder, left.compare middle = .ok order → middle.compare right = .ok nextOrder →
        order ≠ .gt → nextOrder ≠ .gt → left.compare right = .ok (order.then nextOrder) :=
  ⟨fun _ compared => ⟨leftExact.compare_swap middleExact compared,
      leftExact.eq_iff_equal middleExact compared⟩,
    fun _ _ first second notAfter nextNotAfter =>
      leftExact.compare_trans middleExact rightExact first second notAfter nextNotAfter⟩

/-- Lists with equal items that have no order, in front of the items that decide. -/
theorem compare_consistent_lists :
    let empty : Value := .dict []
    let left : Value := .list [.none, empty, .list [.bool true, .str "a"]]
    let middle : Value := .list [.none, empty, .list [.int 1, .str "b"], .none]
    let right : Value := .list [.none, empty, .list [.int 1, .str "b", .none]]
    middle.compare left = .ok .gt ∧ left.compare right = .ok .lt := by
  intro empty left middle right
  have emptyExact : empty.IsExact := .dict .nil (by simp) (by simp)
  have leftExact : left.IsExact := .list (by
    simpa [emptyExact] using ⟨.none, .list (by simpa using ⟨.bool true, .str "a"⟩)⟩)
  have middleExact : middle.IsExact := .list (by
    simpa [emptyExact] using ⟨.none, .list (by simpa using ⟨.int 1, .str "b"⟩), .none⟩)
  have rightExact : right.IsExact := .list (by
    simpa [emptyExact] using ⟨.none, .list (by simpa using ⟨.int 1, .str "b", .none⟩)⟩)
  have laws := compare_consistent leftExact middleExact rightExact
  have first : left.compare middle = .ok .lt := by
    simp [left, middle, empty, compareItems, equal, equalItems, hasEntries, number?, Number.equal]
    rfl
  have second : middle.compare right = .ok .lt := by
    simp [middle, right, empty, compareItems, equal, equalItems, hasEntries, number?, Number.equal]
  exact ⟨(laws.1 _ first).1, laws.2 _ _ first second (by simp) (by simp)⟩

end Value
end TemplatedMarkup
