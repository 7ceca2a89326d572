import TemplatedMarkup.Proofs.Expression.Lexing
import TemplatedMarkup.Proofs.Expression.Tree

/-!
# Expressions that a source can write

The trees that come out of the parser share a few properties that their type does not state: their
names are names, their numbers carry no sign, and their comparison chains have links.  Renaming
to other names keeps these properties.
-/

namespace TemplatedMarkup
namespace Expression

open Text

/-- A name that an expression can refer to. -/
structure IsOwnName (name : String) : Prop extends IsName name where
  /-- The name is not reserved. -/
  notReserved : isReserved name = false

/--
A name of letters, digits and underscores that starts with a letter and is no keyword.
-/
structure IsOrdinaryName (name : String) : Prop where
  /-- The name starts with a letter. -/
  startsWithLetter : ∃ first ∈ name.toList.head?, isLetter first = true
  /-- The name goes on with letters, numbers and underscores. -/
  goesOn : ∀ part ∈ name.toList.tail, (isLetter part || isNumber part || part == '_') = true
  /-- The name is no keyword. -/
  noKeyword : Symbol.ofWord? name = none

/-- An ordinary name can be referred to. -/
theorem IsOrdinaryName.isOwnName
    {name : String}
    (ordinary : IsOrdinaryName name) :
    IsOwnName name := by
  obtain ⟨first, isFirst, letter⟩ := ordinary.startsWithLetter
  obtain ⟨parts, spelled⟩ : ∃ parts, name.toList = first :: parts := by
    cases spelled : name.toList with
    | nil => simp [spelled] at isFirst
    | cons other parts =>
        simp only [spelled, List.head?_cons, Option.mem_some_iff] at isFirst
        exact ⟨parts, by rw [isFirst]⟩
  have noUnderscore : first ≠ '_' := by
    rintro rfl
    exact absurd letter (by decide)
  refine ⟨⟨?_, ordinary.noKeyword⟩, ?_⟩
  · rw [spelled]
    refine ⟨by simp [isNameStart, letter], ?_⟩
    have goesOn := ordinary.goesOn
    rwa [spelled] at goesOn
  · simp [isReserved, spelled, List.isPrefixOf, Ne.symm noUnderscore]

/-- A constant that a source can write: a number without a sign, or anything else. -/
def Literal.Writable : Literal → Prop
  | .int value => 0 ≤ value.toInt
  | .float value => ∃ bits ≤ Decimal.infinityBits, value = Decimal.withSign false bits
  | _ => True

namespace Expr

/-- The expressions that a source can write. -/
inductive Writable : Expr → Prop where
  | literal {value : Literal} :
      value.Writable → Writable (.literal value)
  | reference {name : String} :
      IsOwnName name → Writable (.variable name)
  | list {items : List Expr} :
      (∀ item ∈ items, Writable item) → Writable (.list items)
  | dict {entries : List (Expr × Expr)} :
      (∀ entry ∈ entries, Writable entry.1) → (∀ entry ∈ entries, Writable entry.2) →
      Writable (.dict entries)
  | unary {operator : UnaryOperator} {operand : Expr} :
      Writable operand → Writable (.unary operator operand)
  | binary {operator : BinaryOperator} {left right : Expr} :
      Writable left → Writable right → Writable (.binary operator left right)
  | comparison {first : Expr} {links : List (Comparison × Expr)} :
      Writable first → links ≠ [] → (∀ link ∈ links, Writable link.2) →
      Writable (.comparison first links)
  | conditional {condition consequence alternative : Expr} :
      Writable condition → Writable consequence → Writable alternative →
      Writable (.conditional condition consequence alternative)
  | call {name : String} {arguments : List Expr} :
      IsOwnName name → (∀ argument ∈ arguments, Writable argument) →
      Writable (.call name arguments)
  | method {receiver : Expr} {name : String} {arguments : List Expr} :
      Writable receiver → IsName name → (∀ argument ∈ arguments, Writable argument) →
      Writable (.method receiver name arguments)
  | index {collection position : Expr} :
      Writable collection → Writable position → Writable (.index collection position)
  | slice {collection : Expr} {start stop step : Option Expr} :
      Writable collection → (∀ bound ∈ start, Writable bound) →
      (∀ bound ∈ stop, Writable bound) → (∀ bound ∈ step, Writable bound) →
      Writable (.slice collection start stop step)

/-- A renaming that gives names an expression can refer to keeps it writable. -/
theorem Writable.rename
    {expression : Expr}
    {image : String → String}
    (writable : expression.Writable)
    (renames : ∀ name, IsOwnName name → IsOwnName (image name)) :
    (expression.rename image).Writable := by
  induction writable with
  | literal constant => exact .literal constant
  | reference own => exact .reference (renames _ own)
  | list _ inductionHypothesis =>
      simp only [Expr.rename, renameItems_eq_map]
      exact .list (List.forall_mem_map.mpr inductionHypothesis)
  | dict _ _ keys values =>
      simp only [Expr.rename, renameEntries_eq_map]
      exact .dict (List.forall_mem_map.mpr keys) (List.forall_mem_map.mpr values)
  | unary _ operand => exact .unary operand
  | binary _ _ left right => exact .binary left right
  | comparison _ nonempty _ first links =>
      simp only [Expr.rename, renameLinks_eq_map]
      exact .comparison first (by simpa using nonempty) (List.forall_mem_map.mpr links)
  | conditional _ _ _ condition consequence alternative =>
      exact .conditional condition consequence alternative
  | call own _ arguments =>
      simp only [Expr.rename, renameItems_eq_map]
      exact .call (renames _ own) (List.forall_mem_map.mpr arguments)
  | method _ isName _ receiver arguments =>
      simp only [Expr.rename, renameItems_eq_map]
      exact .method receiver isName (List.forall_mem_map.mpr arguments)
  | index _ _ collection position => exact .index collection position
  | slice _ _ _ _ collection start stop step =>
      simp only [Expr.rename, renameBound_eq_map]
      refine .slice collection ?_ ?_ ?_
      · simpa using start
      · simpa using stop
      · simpa using step

end Expr
end Expression
end TemplatedMarkup
