import TemplatedMarkup.Value.Error
import TemplatedMarkup.Value.Text

/-!
# Size limits

Lists, strings and collections are refused when they would grow too large.  Sizes are counted up
to a greatest count, where they stay.
-/

namespace TemplatedMarkup

/-- The longest list that an evaluation may build. -/
def maxSequenceLength : Nat := 100000

/-- The longest string that an evaluation may build, in bytes. -/
def maxStringSize : Nat := 1048576

/-- The largest footprint of a list or dict. -/
def maxFootprint : Nat := 16777216

/-- The greatest count; larger ones stay at it. -/
def maxCount : Nat := 18446744073709551615

/-- A count that stays at the greatest one. -/
def saturate (count : Nat) : Nat :=
  min count maxCount

/-- How much room a value takes: a bound on the length of its literal. -/
def Value.footprint (value : Value) : Nat :=
  saturate value.weight

/-- Refuse a sequence longer than the limit. -/
def checkLength (length : Nat) : Except EvalError Unit :=
  if maxSequenceLength < length then .error (.sequenceTooLong length maxSequenceLength)
  else .ok ()

/-- Refuse a string longer than the limit. -/
def checkStringSize (size : Nat) : Except EvalError Unit :=
  if maxStringSize < size then .error (.stringTooLong size maxStringSize)
  else .ok ()

/-- Refuse a collection whose footprint exceeds the limit. -/
def checkFootprint (footprint : Nat) : Except EvalError Unit :=
  if maxFootprint < footprint then .error (.valueTooLarge footprint maxFootprint)
  else .ok ()

end TemplatedMarkup
