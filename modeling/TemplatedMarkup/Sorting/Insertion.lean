/-!
# Sorting by insertion

Values are sorted by a comparison that may fail.  A sort asks for its comparisons in a fixed order
and ends with the first failure, so the order of the questions is part of its meaning.
-/

namespace TemplatedMarkup
namespace Sorting

/-- Whether a value comes strictly before another one, or the reason why they have no order. -/
abbrev Comparison (Failure Item : Type) :=
  Item → Item → Except Failure Bool

variable {Failure Item : Type}

/--
Insert a value into a list in descending order, in front of the first value that it does not
precede.
-/
def insertDescending
    (precedes : Comparison Failure Item)
    (value : Item) : List Item → Except Failure (List Item)
  | [] => .ok [value]
  | greatest :: others => do
      if ← precedes value greatest then
        return greatest :: (← insertDescending precedes value others)
      else
        return value :: greatest :: others

/-- Insert values one after another into a list in descending order. -/
def insertAll
    (precedes : Comparison Failure Item)
    (descending values : List Item) : Except Failure (List Item) :=
  values.foldlM (fun sorted value => insertDescending precedes value sorted) descending

/-- Sort by inserting the values one after another. -/
def sortByInsertion
    (precedes : Comparison Failure Item)
    (values : List Item) : Except Failure (List Item) := do
  return (← insertAll precedes [] values).reverse

end Sorting
end TemplatedMarkup
