/-!
# Searching text

Occurrences of a pattern are found from the left and do not overlap.  The empty pattern occurs
before every character and at the end.
-/

namespace TemplatedMarkup
namespace Text

/--
Collect the pieces between the occurrences of a pattern that is not empty.  `piece` holds the
characters since the last occurrence and `done` the finished pieces, both in reverse.
-/
def piecesFrom
    (pattern : List Char)
    (piece : List Char)
    (done : List (List Char)) : List Char → List (List Char)
  | [] => (piece.reverse :: done).reverse
  | character :: rest =>
      if pattern.isPrefixOf (character :: rest) then
        piecesFrom pattern [] (piece.reverse :: done) (rest.drop (pattern.length - 1))
      else
        piecesFrom pattern (character :: piece) done rest
termination_by text => text.length
decreasing_by
  · simp only [List.length_drop, List.length_cons]
    omega
  · simp only [List.length_cons]
    omega

/-- The pieces between the occurrences of a pattern that is not empty. -/
def pieces
    (pattern text : List Char) : List (List Char) :=
  piecesFrom pattern [] [] text

/-- How often a pattern occurs. -/
def occurrences
    (pattern text : List Char) : Nat :=
  if pattern.isEmpty then text.length + 1 else (pieces pattern text).length - 1

/-- Write a replacement for every occurrence of a pattern. -/
def replace
    (pattern replacement text : List Char) : List Char :=
  if pattern.isEmpty then
    replacement ++ text.flatMap fun character => character :: replacement
  else
    replacement.intercalate (pieces pattern text)

/-- Count the characters before the first occurrence of a pattern, starting from `passed`. -/
def findFrom
    (pattern : List Char)
    (passed : Nat) : List Char → Option Nat
  | [] => if pattern.isEmpty then some passed else none
  | character :: rest =>
      if pattern.isPrefixOf (character :: rest) then some passed
      else findFrom pattern (passed + 1) rest

/-- The number of characters before the first occurrence of a pattern. -/
def find?
    (pattern text : List Char) : Option Nat :=
  findFrom pattern 0 text

/-- Whether a pattern occurs at all. -/
def occursIn
    (pattern text : List Char) : Bool :=
  (find? pattern text).isSome

/--
The text before the first occurrence of a pattern that is not empty, and the text behind it.  The
search gives up at a character of the barrier.
-/
def cutAround?
    (barrier : Char → Bool)
    (pattern : List Char) : List Char → Option (List Char × List Char)
  | [] => none
  | character :: rest =>
      if pattern.isPrefixOf (character :: rest) then
        some ([], (character :: rest).drop pattern.length)
      else if barrier character then none
      else
        (cutAround? barrier pattern rest).map fun (before, after) => (character :: before, after)

/-- What is behind an occurrence is no longer than the text. -/
theorem length_cutAround_le
    {barrier : Char → Bool}
    {pattern text before after : List Char}
    (found : cutAround? barrier pattern text = some (before, after)) :
    after.length ≤ text.length := by
  induction text generalizing before with
  | nil => simp [cutAround?] at found
  | cons character rest inductionHypothesis =>
      unfold cutAround? at found
      split at found
      · simp only [Option.some.injEq, Prod.mk.injEq] at found
        simp only [← found.2, List.length_drop]
        omega
      · split at found
        · contradiction
        · obtain ⟨⟨inner, tail⟩, searched, same⟩ := Option.map_eq_some_iff.1 found
          simp only [Prod.mk.injEq] at same
          rw [same.2] at searched
          have shorter := inductionHypothesis searched
          simp only [List.length_cons]
          omega

end Text
end TemplatedMarkup
