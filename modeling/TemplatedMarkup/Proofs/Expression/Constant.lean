import TemplatedMarkup.Expression.Printer
import TemplatedMarkup.Proofs.Expression.Writable

/-!
# Constants read back

The text of a constant is one token.  All constants read back as themselves, except for the
doubles from ten to the sixteenth on: these are written without a point, so that they read back
as an integer, as no token at all when that integer is too large, or, if infinite, as a name.
-/

namespace TemplatedMarkup
namespace Expression

namespace Literal

/-- Whether a constant reads back as itself. -/
def isExact : Literal → Bool
  | .float value => value.abs < Decimal.fractionBound
  | _ => true

/-- The token that the text of a constant is, provided that it is one. -/
def token : Literal → Token
  | .none => .symbol .noneKeyword
  | .bool true => .symbol .trueKeyword
  | .bool false => .symbol .falseKeyword
  | .int value => .int value
  | .str text => .str text
  | .float value =>
      if value.abs < Decimal.fractionBound then .float value
      else if Decimal.isFinite value then
        .int (.ofNat (Decimal.digitsValue (Decimal.floatLiteral value)))
      else .name "inf"

/-- The expression that the text of a constant reads back as, provided that it is a token. -/
def readBack : Literal → Expr
  | .float value =>
      if value.abs < Decimal.fractionBound then .literal (.float value)
      else if Decimal.isFinite value then
        .literal (.int (.ofNat (Decimal.digitsValue (Decimal.floatLiteral value))))
      else .variable "inf"
  | value => .literal value

/-- Refuse a constant whose text is an integer that is too large for a token. -/
def check : Literal → Except SourceError Unit
  | .float value =>
      if value.abs < Decimal.fractionBound then .ok ()
      else if Decimal.isFinite value then
        if Int64.maxValue.toInt < Decimal.digitsValue (Decimal.floatLiteral value) then
          .error (.integerTooLarge (.ofList (Decimal.floatLiteral value)))
        else .ok ()
      else .ok ()
  | _ => .ok ()

theorem check_of_isExact
    {value : Literal}
    (exact : value.isExact = true) :
    value.check = .ok () := by
  cases value with
  | float value =>
      simp only [isExact, decide_eq_true_eq] at exact
      simp [check, exact]
  | _ => rfl

theorem readBack_of_isExact
    {value : Literal}
    (exact : value.isExact = true) :
    value.readBack = .literal value := by
  cases value with
  | float value =>
      simp only [isExact, decide_eq_true_eq] at exact
      simp [readBack, exact]
  | _ => rfl

/-- A constant that is not exact reads back as another expression. -/
theorem readBack_ne
    {value : Literal}
    (inexact : value.isExact = false) :
    value.readBack ≠ .literal value := by
  cases value with
  | float value =>
      simp only [isExact, decide_eq_false_iff_not] at inexact
      simp only [readBack, if_neg inexact]
      split <;> simp
  | _ => simp [isExact] at inexact

end Literal

/-! ## The constants of an expression -/

namespace Expr

mutual

/-- The constants of an expression, in the order of its text. -/
def constants : Expr → List Literal
  | .literal value => [value]
  | .variable _ => []
  | .list items => itemsConstants items
  | .dict entries => entriesConstants entries
  | .unary _ operand => operand.constants
  | .binary _ left right => left.constants ++ right.constants
  | .comparison first links => first.constants ++ linksConstants links
  | .conditional condition consequence alternative =>
      consequence.constants ++ condition.constants ++ alternative.constants
  | .call _ arguments => itemsConstants arguments
  | .method receiver _ arguments => receiver.constants ++ itemsConstants arguments
  | .index collection position => collection.constants ++ position.constants
  | .slice collection start stop step =>
      collection.constants ++ boundConstants start ++ boundConstants stop ++ boundConstants step

/-- The constants of the expressions of a list. -/
def itemsConstants : List Expr → List Literal
  | [] => []
  | item :: items => item.constants ++ itemsConstants items

/-- The constants of keys and values. -/
def entriesConstants : List (Expr × Expr) → List Literal
  | [] => []
  | (key, value) :: entries => key.constants ++ value.constants ++ entriesConstants entries

/-- The constants of the operands of a chain. -/
def linksConstants : List (Comparison × Expr) → List Literal
  | [] => []
  | (_, operand) :: links => operand.constants ++ linksConstants links

/-- The constants of a bound; an absent one has none. -/
def boundConstants : Option Expr → List Literal
  | none => []
  | some bound => bound.constants

end

theorem itemsConstants_map
    {change : Expr → Expr}
    {items : List Expr}
    (same : ∀ item ∈ items, (change item).constants = item.constants) :
    itemsConstants (items.map change) = itemsConstants items := by
  induction items with
  | nil => rfl
  | cons item items inductionHypothesis =>
      have others := inductionHypothesis fun other among => same other (by simp [among])
      simp [itemsConstants, same item (by simp), others]

theorem entriesConstants_map
    {change : Expr → Expr}
    {entries : List (Expr × Expr)}
    (same : ∀ entry ∈ entries,
      (change entry.1).constants = entry.1.constants ∧
        (change entry.2).constants = entry.2.constants) :
    entriesConstants (entries.map fun entry => (change entry.1, change entry.2)) =
      entriesConstants entries := by
  induction entries with
  | nil => rfl
  | cons entry entries inductionHypothesis =>
      have first := same entry (by simp)
      have others := inductionHypothesis fun other among => same other (by simp [among])
      simp [entriesConstants, first.1, first.2, others]

theorem linksConstants_map
    {change : Expr → Expr}
    {links : List (Comparison × Expr)}
    (same : ∀ link ∈ links, (change link.2).constants = link.2.constants) :
    linksConstants (links.map fun link => (link.1, change link.2)) = linksConstants links := by
  induction links with
  | nil => rfl
  | cons link links inductionHypothesis =>
      have others := inductionHypothesis fun other among => same other (by simp [among])
      simp [linksConstants, same link (by simp), others]

theorem boundConstants_map
    {change : Expr → Expr}
    {bound : Option Expr}
    (same : ∀ present ∈ bound, (change present).constants = present.constants) :
    boundConstants (bound.map change) = boundConstants bound := by
  cases bound with
  | none => rfl
  | some present => simp [boundConstants, same present rfl]

/-- Renaming leaves the constants as they are. -/
theorem constants_rename
    (expression : Expr)
    (image : String → String) :
    (expression.rename image).constants = expression.constants := by
  induction expression using partsInduction with
  | literal value => rfl
  | reference name => rfl
  | list items same => simp [rename, constants, itemsConstants_map same]
  | dict entries same => simp [rename, constants, entriesConstants_map same]
  | unary operator operand same => simp [rename, constants, same]
  | binary operator left right leftSame rightSame =>
      simp [rename, constants, leftSame, rightSame]
  | comparison first links firstSame linksSame =>
      simp [rename, constants, firstSame, linksConstants_map linksSame]
  | conditional condition consequence alternative conditionSame consequenceSame
      alternativeSame =>
      simp [rename, constants, conditionSame, consequenceSame, alternativeSame]
  | call name arguments same => simp [rename, constants, itemsConstants_map same]
  | method receiver name arguments receiverSame argumentsSame =>
      simp [rename, constants, receiverSame, itemsConstants_map argumentsSame]
  | index collection position collectionSame positionSame =>
      simp [rename, constants, collectionSame, positionSame]
  | slice collection start stop step collectionSame startSame stopSame stepSame =>
      simp [rename, constants, collectionSame, boundConstants_map startSame,
        boundConstants_map stopSame, boundConstants_map stepSame]

end Expr

/-! ## Tokens behind constants -/

/-- Tokens in front of those of what follows, when the constants among them are tokens. -/
def inFront
    (constants : List Literal)
    (tokens : List Token)
    (following : Except SourceError (List Token)) : Except SourceError (List Token) := do
  forM constants Literal.check
  return tokens ++ (← following)

@[simp] theorem inFront_nil_ok (tokens following : List Token) :
    inFront [] tokens (.ok following) = .ok (tokens ++ following) := rfl

@[simp] theorem inFront_nil_error
    (tokens : List Token)
    (cause : SourceError) :
    inFront [] tokens (.error cause) = .error cause := rfl

/-- Tokens in front of tokens in front of what follows are in front of it together. -/
@[simp] theorem inFront_inFront
    (constants moreConstants : List Literal)
    (tokens moreTokens : List Token)
    (following : Except SourceError (List Token)) :
    inFront constants tokens (inFront moreConstants moreTokens following) =
      inFront (constants ++ moreConstants) (tokens ++ moreTokens) following := by
  unfold inFront
  rw [List.forM_append]
  cases forM constants Literal.check with
  | error cause => rfl
  | ok =>
      cases forM moreConstants Literal.check with
      | error cause => rfl
      | ok =>
          cases following with
          | error cause => rfl
          | ok others => simp [bind, Except.bind, pure, Except.pure]

/-- A token without constants is in front of what follows. -/
@[simp] theorem map_cons_eq_inFront
    (token : Token)
    (following : Except SourceError (List Token)) :
    following.map (token :: ·) = inFront [] [token] following := by
  cases following <;> rfl

end Expression
end TemplatedMarkup
