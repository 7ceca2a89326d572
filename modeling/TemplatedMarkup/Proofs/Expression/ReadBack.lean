import TemplatedMarkup.Proofs.Expression.Spelling

/-!
# Expressions read back, and the nesting of their text

`readBack` puts what its text reads back as in the place of every constant.  `nesting` counts the
levels that reading the text of an expression opens behind the position it is read from; it is at
most twice the height of the tree.
-/

namespace TemplatedMarkup
namespace Expression
namespace Expr

mutual

/-- An expression with every constant read back. -/
def readBack : Expr → Expr
  | .literal value => value.readBack
  | .variable name => .variable name
  | .list items => .list (readBackItems items)
  | .dict entries => .dict (readBackEntries entries)
  | .unary operator operand => .unary operator operand.readBack
  | .binary operator left right => .binary operator left.readBack right.readBack
  | .comparison first links => .comparison first.readBack (readBackLinks links)
  | .conditional condition consequence alternative =>
      .conditional condition.readBack consequence.readBack alternative.readBack
  | .call name arguments => .call name (readBackItems arguments)
  | .method receiver name arguments => .method receiver.readBack name (readBackItems arguments)
  | .index collection position => .index collection.readBack position.readBack
  | .slice collection start stop step =>
      .slice collection.readBack (readBackBound start) (readBackBound stop) (readBackBound step)

/-- Expressions with every constant read back. -/
def readBackItems : List Expr → List Expr
  | [] => []
  | item :: items => item.readBack :: readBackItems items

/-- Keys and values with every constant read back. -/
def readBackEntries : List (Expr × Expr) → List (Expr × Expr)
  | [] => []
  | (key, value) :: entries => (key.readBack, value.readBack) :: readBackEntries entries

/-- Links with every constant read back. -/
def readBackLinks : List (Comparison × Expr) → List (Comparison × Expr)
  | [] => []
  | (operator, operand) :: links => (operator, operand.readBack) :: readBackLinks links

/-- A bound with every constant read back. -/
def readBackBound : Option Expr → Option Expr
  | none => none
  | some bound => some bound.readBack

end

mutual

/-- How many levels reading the text of an expression opens. -/
def nesting : Expr → Nat
  | .literal _ => 0
  | .variable _ => 0
  | .list items => nestingItems items
  | .dict entries => nestingEntries entries
  | .unary _ operand => operand.nesting + 2
  | .binary .power left right => max left.nesting (right.nesting + 1) + 1
  | .binary _ left right => max left.nesting right.nesting + 1
  | .comparison first links => max first.nesting (nestingLinks links) + 1
  | .conditional condition consequence alternative =>
      max (max consequence.nesting condition.nesting) (alternative.nesting + 1) + 1
  | .call _ arguments => nestingItems arguments
  | .method receiver _ arguments => max receiver.nesting (nestingItems arguments)
  | .index collection position => max collection.nesting (position.nesting + 1)
  | .slice collection start stop step =>
      max (max (max collection.nesting (nestingBound start)) (nestingBound stop))
        (nestingBound step)

/-- How many levels reading the items of a list opens. -/
def nestingItems : List Expr → Nat
  | [] => 0
  | item :: items => max (item.nesting + 1) (nestingItems items)

/-- How many levels reading keys and values opens. -/
def nestingEntries : List (Expr × Expr) → Nat
  | [] => 0
  | (key, value) :: entries =>
      max (max (key.nesting + 1) (value.nesting + 1)) (nestingEntries entries)

/-- How many levels reading the operands of a chain opens. -/
def nestingLinks : List (Comparison × Expr) → Nat
  | [] => 0
  | (_, operand) :: links => max operand.nesting (nestingLinks links)

/-- How many levels reading a bound opens. -/
def nestingBound : Option Expr → Nat
  | none => 0
  | some bound => bound.nesting + 1

end

/-! ## Exact constants -/

theorem readBackItems_eq_self_iff
    {items : List Expr}
    (exact : ∀ item ∈ items,
      (item.readBack = item ↔ ∀ constant ∈ item.constants, constant.isExact = true)) :
    readBackItems items = items ↔
      ∀ constant ∈ itemsConstants items, constant.isExact = true := by
  induction items with
  | nil => simp [readBackItems, itemsConstants]
  | cons item items inductionHypothesis =>
      have first := exact item (by simp)
      have others := inductionHypothesis fun other among => exact other (by simp [among])
      simp [readBackItems, itemsConstants, first, others, or_imp, forall_and]

theorem readBackEntries_eq_self_iff
    {entries : List (Expr × Expr)}
    (exact : ∀ entry ∈ entries,
      (entry.1.readBack = entry.1 ↔ ∀ constant ∈ entry.1.constants, constant.isExact = true) ∧
      (entry.2.readBack = entry.2 ↔ ∀ constant ∈ entry.2.constants, constant.isExact = true)) :
    readBackEntries entries = entries ↔
      ∀ constant ∈ entriesConstants entries, constant.isExact = true := by
  induction entries with
  | nil => simp [readBackEntries, entriesConstants]
  | cons entry entries inductionHypothesis =>
      obtain ⟨key, value⟩ := exact entry (by simp)
      have others := inductionHypothesis fun other among => exact other (by simp [among])
      simp [readBackEntries, entriesConstants, Prod.ext_iff, key, value, others, or_imp,
        forall_and, and_assoc]

theorem readBackLinks_eq_self_iff
    {links : List (Comparison × Expr)}
    (exact : ∀ link ∈ links,
      (link.2.readBack = link.2 ↔ ∀ constant ∈ link.2.constants, constant.isExact = true)) :
    readBackLinks links = links ↔
      ∀ constant ∈ linksConstants links, constant.isExact = true := by
  induction links with
  | nil => simp [readBackLinks, linksConstants]
  | cons link links inductionHypothesis =>
      have first := exact link (by simp)
      have others := inductionHypothesis fun other among => exact other (by simp [among])
      simp [readBackLinks, linksConstants, Prod.ext_iff, first, others, or_imp, forall_and]

theorem readBackBound_eq_self_iff
    {bound : Option Expr}
    (exact : ∀ present ∈ bound,
      (present.readBack = present ↔ ∀ constant ∈ present.constants, constant.isExact = true)) :
    readBackBound bound = bound ↔
      ∀ constant ∈ boundConstants bound, constant.isExact = true := by
  cases bound with
  | none => simp [readBackBound, boundConstants]
  | some present => simp [readBackBound, boundConstants, exact present rfl]

/-- An expression reads back as itself exactly when all its constants do. -/
theorem readBack_eq_self_iff (expression : Expr) :
    expression.readBack = expression ↔
      ∀ constant ∈ expression.constants, constant.isExact = true := by
  induction expression using partsInduction with
  | literal value =>
      simp only [readBack, constants, List.mem_singleton, forall_eq]
      cases exact : value.isExact with
      | false => simp [Literal.readBack_ne exact]
      | true => simp [Literal.readBack_of_isExact exact]
  | reference name => simp [readBack, constants]
  | list items exact => simp [readBack, constants, readBackItems_eq_self_iff exact]
  | dict entries exact => simp [readBack, constants, readBackEntries_eq_self_iff exact]
  | unary operator operand exact => simp [readBack, constants, exact]
  | binary operator left right leftExact rightExact =>
      simp [readBack, constants, leftExact, rightExact, or_imp, forall_and]
  | comparison first links firstExact linksExact =>
      simp [readBack, constants, firstExact, readBackLinks_eq_self_iff linksExact, or_imp,
        forall_and]
  | conditional condition consequence alternative conditionExact consequenceExact
      alternativeExact =>
      simp only [readBack, constants, conditional.injEq, conditionExact, consequenceExact,
        alternativeExact, List.mem_append, or_imp, forall_and]
      constructor
      · rintro ⟨first, second, third⟩
        exact ⟨⟨second, first⟩, third⟩
      · rintro ⟨⟨second, first⟩, third⟩
        exact ⟨first, second, third⟩
  | call name arguments exact => simp [readBack, constants, readBackItems_eq_self_iff exact]
  | method receiver name arguments receiverExact argumentsExact =>
      simp [readBack, constants, receiverExact, readBackItems_eq_self_iff argumentsExact, or_imp,
        forall_and]
  | index collection position collectionExact positionExact =>
      simp [readBack, constants, collectionExact, positionExact, or_imp, forall_and]
  | slice collection start stop step collectionExact startExact stopExact stepExact =>
      simp [readBack, constants, collectionExact, readBackBound_eq_self_iff startExact,
        readBackBound_eq_self_iff stopExact, readBackBound_eq_self_iff stepExact, or_imp,
        forall_and]

/-! ## Nesting and height -/

theorem nestingItems_le
    {items : List Expr}
    (bounded : ∀ item ∈ items, item.nesting ≤ 2 * item.height) :
    nestingItems items ≤ 2 * heightItems items := by
  induction items with
  | nil => simp [nestingItems]
  | cons item items inductionHypothesis =>
      have first := bounded item (by simp)
      have others := inductionHypothesis fun other among => bounded other (by simp [among])
      simp only [nestingItems, heightItems]
      omega

theorem nestingEntries_le
    {entries : List (Expr × Expr)}
    (bounded : ∀ entry ∈ entries,
      entry.1.nesting ≤ 2 * entry.1.height ∧ entry.2.nesting ≤ 2 * entry.2.height) :
    nestingEntries entries ≤ 2 * heightEntries entries := by
  induction entries with
  | nil => simp [nestingEntries]
  | cons entry entries inductionHypothesis =>
      have first := bounded entry (by simp)
      have others := inductionHypothesis fun other among => bounded other (by simp [among])
      simp only [nestingEntries, heightEntries]
      omega

theorem nestingLinks_le
    {links : List (Comparison × Expr)}
    (bounded : ∀ link ∈ links, link.2.nesting ≤ 2 * link.2.height)
    (nonempty : links ≠ []) :
    nestingLinks links + 2 ≤ 2 * heightLinks links := by
  induction links with
  | nil => contradiction
  | cons link links inductionHypothesis =>
      have first := bounded link (by simp)
      simp only [nestingLinks, heightLinks]
      cases links with
      | nil =>
          simp only [nestingLinks, heightLinks]
          omega
      | cons second links =>
          have others := inductionHypothesis
            (fun other among => bounded other (by simp [among])) (by simp)
          omega

theorem nestingBound_le
    {bound : Option Expr}
    (bounded : ∀ present ∈ bound, present.nesting ≤ 2 * present.height) :
    nestingBound bound ≤ 2 * heightBound bound := by
  cases bound with
  | none => simp [nestingBound]
  | some present =>
      have inner := bounded present rfl
      simp only [nestingBound, heightBound]
      omega

/-- Every step down a tree opens at most two levels. -/
theorem nesting_le (expression : Expr) : expression.nesting ≤ 2 * expression.height := by
  induction expression using partsInduction with
  | literal value => simp [nesting]
  | reference name => simp [nesting]
  | list items bounded => exact nestingItems_le bounded
  | dict entries bounded => exact nestingEntries_le bounded
  | unary operator operand bounded =>
      simp only [nesting, height]
      omega
  | binary operator left right leftBounded rightBounded =>
      cases operator with
      | power =>
          simp only [nesting, height]
          omega
      | _ =>
          simp only [nesting, height]
          omega
  | comparison first links firstBounded linksBounded =>
      simp only [nesting, height]
      cases links with
      | nil =>
          simp only [nestingLinks, heightLinks]
          omega
      | cons link links =>
          have chain := nestingLinks_le linksBounded (by simp)
          omega
  | conditional condition consequence alternative conditionBounded consequenceBounded
      alternativeBounded =>
      simp only [nesting, height]
      omega
  | call name arguments bounded => exact nestingItems_le bounded
  | method receiver name arguments receiverBounded argumentsBounded =>
      have inner := nestingItems_le argumentsBounded
      simp only [nesting, height]
      omega
  | index collection position collectionBounded positionBounded =>
      simp only [nesting, height]
      omega
  | slice collection start stop step collectionBounded startBounded stopBounded stepBounded =>
      have first := nestingBound_le startBounded
      have second := nestingBound_le stopBounded
      have third := nestingBound_le stepBounded
      simp only [nesting, height]
      omega

/-! ## Nesting and renaming -/

mutual

/-- A renaming opens no levels. -/
theorem nesting_rename
    (expression : Expr)
    (image : String → String) :
    (expression.rename image).nesting = expression.nesting := by
  cases expression with
  | literal value => rfl
  | «variable» name => rfl
  | list items => exact nestingItems_rename items image
  | dict entries => exact nestingEntries_rename entries image
  | unary operator operand =>
      simp only [rename, nesting, nesting_rename operand image]
  | binary operator left right =>
      cases operator <;>
        simp only [rename, nesting, nesting_rename left image, nesting_rename right image]
  | comparison first links =>
      simp only [rename, nesting, nesting_rename first image, nestingLinks_rename links image]
  | conditional condition consequence alternative =>
      simp only [rename, nesting, nesting_rename condition image,
        nesting_rename consequence image, nesting_rename alternative image]
  | call name arguments => exact nestingItems_rename arguments image
  | method receiver name arguments =>
      simp only [rename, nesting, nesting_rename receiver image,
        nestingItems_rename arguments image]
  | index collection position =>
      simp only [rename, nesting, nesting_rename collection image, nesting_rename position image]
  | slice collection start stop step =>
      simp only [rename, nesting, nesting_rename collection image,
        nestingBound_rename start image, nestingBound_rename stop image,
        nestingBound_rename step image]

theorem nestingItems_rename
    (items : List Expr)
    (image : String → String) :
    nestingItems (renameItems image items) = nestingItems items := by
  cases items with
  | nil => rfl
  | cons item items =>
      simp only [renameItems, nestingItems, nesting_rename item image,
        nestingItems_rename items image]

theorem nestingEntries_rename
    (entries : List (Expr × Expr))
    (image : String → String) :
    nestingEntries (renameEntries image entries) = nestingEntries entries := by
  match entries with
  | [] => rfl
  | (key, value) :: entries =>
      simp only [renameEntries, nestingEntries, nesting_rename key image,
        nesting_rename value image, nestingEntries_rename entries image]

theorem nestingLinks_rename
    (links : List (Comparison × Expr))
    (image : String → String) :
    nestingLinks (renameLinks image links) = nestingLinks links := by
  match links with
  | [] => rfl
  | (operator, operand) :: links =>
      simp only [renameLinks, nestingLinks, nesting_rename operand image,
        nestingLinks_rename links image]

theorem nestingBound_rename
    (bound : Option Expr)
    (image : String → String) :
    nestingBound (renameBound image bound) = nestingBound bound := by
  cases bound with
  | none => rfl
  | some present => simp only [renameBound, nestingBound, nesting_rename present image]

end

end Expr
end Expression
end TemplatedMarkup
