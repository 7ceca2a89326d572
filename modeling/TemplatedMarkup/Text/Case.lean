import TemplatedMarkup.Text.Character
import TemplatedMarkup.Text.Table.CaseMap
import TemplatedMarkup.Text.Table.Casing

/-!
# Letter case

Upper and lower case forms of characters and texts.  A character may have a form of several
characters, and a capital sigma at the end of a word has a lower case form of its own.
-/

namespace TemplatedMarkup
namespace Text

/-- Look a character up among the expansions, then among the runs. -/
def caseForm
    (expansions : List (Nat × List Nat))
    (runs : List CaseRun)
    (character : Char) : List Char :=
  match expansions.lookup character.toNat with
  | some codes => codes.map Char.ofNat
  | none =>
      match imageInRuns runs character.toNat with
      | some code => [Char.ofNat code]
      | none => [character]

/-- The upper case form of a character. -/
def upperForm (character : Char) : List Char :=
  if character.toNat < 128 then [character.toUpper]
  else caseForm upperCaseExpansions upperCaseRuns character

/-- The lower case form of a character, taken on its own. -/
def lowerForm (character : Char) : List Char :=
  if character.toNat < 128 then [character.toLower]
  else caseForm lowerCaseExpansions lowerCaseRuns character

/-- The text in upper case. -/
def upper (text : List Char) : List Char :=
  text.flatMap upperForm

/-- Whether a cased character follows, after characters that casing ignores. -/
def reachesCased (text : List Char) : Bool :=
  match text.dropWhile fun character => inRanges caseIgnorableRanges character.toNat with
  | [] => false
  | character :: _ => inRanges casedRanges character.toNat

/-- The lower case form of a capital sigma, given the reversed text before it and that after. -/
def lowerSigma
    (before after : List Char) : Char :=
  if reachesCased before && !reachesCased after then 'ς' else 'σ'

/--
Lower the rest of a text.  `before` holds the characters already passed and `done` their lower
case forms, both in reverse.
-/
def lowerFrom
    (before done : List Char) : List Char → List Char
  | [] => done.reverse
  | character :: rest =>
      let form :=
        if character = 'Σ' then [lowerSigma before rest] else lowerForm character
      lowerFrom (character :: before) (form.reverse ++ done) rest

/-- The text in lower case, with the final form of a sigma at the end of a word. -/
def lower (text : List Char) : List Char :=
  lowerFrom [] [] text

/-- The first character in upper case, the others left as they are. -/
def upperFirst : List Char → List Char
  | [] => []
  | first :: rest => upperForm first ++ rest

/-- The first character in upper case, the others in lower case. -/
def capitalize : List Char → List Char
  | [] => []
  | first :: rest => upperForm first ++ lower rest

/-- Put the rest of a text in title case, given whether a letter precedes it. -/
def titleFrom
    (afterLetter : Bool)
    (done : List Char) : List Char → List Char
  | [] => done.reverse
  | character :: rest =>
      if isLetter character then
        let form := if afterLetter then lowerForm character else upperForm character
        titleFrom true (form.reverse ++ done) rest
      else
        titleFrom false (character :: done) rest

/-- Every letter after a letter in lower case, every other letter in upper case. -/
def title (text : List Char) : List Char :=
  titleFrom false [] text

end Text
end TemplatedMarkup
