import TemplatedMarkup.Expression.Printer
import TemplatedMarkup.Value.Basic

/-!
# The text of a value

A value as it is written in a source, as it is shown in a page, and a bound on the length of the
former that is found without writing it.
-/

namespace TemplatedMarkup
namespace Value

/-- A value as it is written in a source. -/
def literalText : Value → List Char
  | .none => Expression.Literal.none.text
  | .bool value => (Expression.Literal.bool value).text
  | .int value => (Expression.Literal.int value).text
  | .float value => (Expression.Literal.float value).text
  | .str text => (Expression.Literal.str text).text
  | .list items => '[' :: ", ".toList.intercalate (items.map literalText) ++ [']']
  | .dict entries =>
      '{' :: ", ".toList.intercalate
        (entries.map fun entry =>
          entry.1.literalText ++ ": ".toList ++ entry.2.literalText) ++ ['}']
  | .function closure => "<function ".toList ++ closure.name.toList ++ ['>']
decreasing_by
  · have smaller := List.sizeOf_lt_of_mem ‹_›
    simp only [list.sizeOf_spec]
    omega
  all_goals
    have smaller := sizeOf_entry_lt ‹_›
    simp only [dict.sizeOf_spec]
    omega

/-- A value as it is written in a source, as a string. -/
def literal (value : Value) : String :=
  .ofList value.literalText

/-- A value as it is shown: a string as it is, everything else as a literal. -/
def display : Value → String
  | .str text => text
  | value => value.literal

/-- The footprint of a value, before it is cut off at the largest count. -/
def weight : Value → Nat
  | .none | .bool _ => 5
  | .int _ => 20
  | .float _ => 24
  | .str text => 2 * text.utf8ByteSize + 2
  | .list items => items.foldl (fun total item => total + item.weight + 2) 2
  | .dict entries =>
      entries.foldl (fun total entry => total + entry.1.weight + entry.2.weight + 4) 2
  | .function closure => closure.name.utf8ByteSize + 12
decreasing_by
  · have smaller := List.sizeOf_lt_of_mem ‹_›
    simp only [list.sizeOf_spec]
    omega
  all_goals
    have smaller := sizeOf_entry_lt ‹_›
    simp only [dict.sizeOf_spec]
    omega

end Value
end TemplatedMarkup
