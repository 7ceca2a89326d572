import TemplatedMarkup.Proofs.Text.Search
import TemplatedMarkup.Proofs.Text.Trim
import TemplatedMarkup.Template.Tag

/-!
# Words and constants of tags

A tag with a word and arguments, set apart by blanks, is read as that word and those arguments.  A
text between quotes that it does not hold is read as a constant.
-/

namespace TemplatedMarkup
namespace Template

/-- A tag with a word and arguments, as it is written between delimiters. -/
def tagContent (word arguments : List Char) : List Char :=
  ' ' :: (word ++ ' ' :: (arguments ++ [' ']))

section Words

variable {word arguments : List Char}

/-- A tag with arguments starts with its word. -/
theorem firstWord_tagContent
    (unbroken : Text.IsUnbroken word) :
    firstWord (tagContent word arguments) = word := by
  rw [tagContent, firstWord, Text.words_space, unbroken.words_append]
  rfl

/-- The arguments of a tag stand behind its word. -/
theorem behindFirstWord_tagContent
    (unbroken : Text.IsUnbroken word)
    (trimmed : Text.trimWhere Text.isBlank arguments = arguments) :
    behindFirstWord (tagContent word arguments) = arguments := by
  have behindBlank : (tagContent word arguments).dropWhile Text.isBlank =
      word ++ ' ' :: (arguments ++ [' ']) := by
    rw [tagContent, List.dropWhile_cons_of_pos (by decide)]
    cases word with
    | nil => exact absurd rfl unbroken.nonempty
    | cons first word =>
        exact List.dropWhile_cons_of_neg
          (by simpa using unbroken.noBlank first List.mem_cons_self)
  have first : firstWord (word ++ ' ' :: (arguments ++ [' '])) = word := by
    rw [firstWord, unbroken.words_append]
    rfl
  rw [behindFirstWord, behindBlank, first, List.drop_left]
  have isBlank : ∀ character ∈ [' '], Text.isBlank character = true :=
    List.forall_mem_singleton.mpr (by decide)
  exact Text.trimWhere_append trimmed isBlank isBlank

/-- The arguments of a tag close it only if they hold the closing delimiter. -/
theorem not_infix_tagContent
    (noPercent : '%' ∉ word)
    (closes : ¬['%', '}'] <:+: arguments) :
    ¬['%', '}'] <:+: tagContent word arguments := by
  have closesWord : ¬['%', '}'] <:+: ' ' :: (word ++ [' ']) := fun inside =>
    absurd (inside.subset List.mem_cons_self) (by simpa using noPercent)
  have closesBehind : ¬['%', '}'] <:+: arguments ++ [' '] := by
    intro inside
    rcases Text.infix_append_of_pair inside with inArguments | inBlank | ⟨-, isBrace⟩
    · exact closes inArguments
    · exact absurd (inBlank.subset List.mem_cons_self) (by decide)
    · exact absurd isBrace (by decide)
  have parts : tagContent word arguments = (' ' :: (word ++ [' '])) ++ (arguments ++ [' ']) := by
    simp [tagContent]
  intro inside
  rw [parts] at inside
  rcases Text.infix_append_of_pair inside with inWord | inArguments | ⟨isPercent, -⟩
  · exact closesWord inWord
  · exact closesBehind inArguments
  · rw [← List.cons_append, List.getLast?_concat] at isPercent
    exact absurd isPercent (by decide)

end Words

/-! ## Constants between quotes -/

section Quotes

variable {mark : Char} {text : List Char}

/-- A text between quotes, with one at its start and one at its end. -/
def quotedBy (mark : Char) (text : List Char) : List Char :=
  mark :: text ++ [mark]

/-- Nothing is cut between quotes. -/
theorem cutUnquotedFrom_quote
    (absent : mark ∉ text)
    (separator : Char)
    (piece rest : List Char) :
    cutUnquotedFrom separator ⟨some mark, piece⟩ (text ++ mark :: rest) =
      cutUnquotedFrom separator ⟨none, mark :: (text.reverse ++ piece)⟩ rest := by
  induction text generalizing piece with
  | nil => simp [cutUnquotedFrom]
  | cons character text inductionHypothesis =>
      rw [List.mem_cons, not_or] at absent
      simp only [List.cons_append, cutUnquotedFrom, if_neg (Ne.symm absent.1)]
      rw [inductionHypothesis absent.2]
      simp

/-- Trimming leaves quotes as they are. -/
theorem trimWhere_quotedBy
    (isQuote : mark = '\'' ∨ mark = '"') :
    Text.trimWhere Text.isBlank (quotedBy mark text) = quotedBy mark text := by
  have notBlank : Text.isBlank mark = false := by
    rcases isQuote with rfl | rfl <;> decide
  refine Text.trimWhere_eq_self (by simpa [quotedBy] using notBlank) ?_
  rw [quotedBy, List.getLast?_concat]
  simpa using notBlank

/-- A text between quotes closes a tag only if it does so by itself. -/
theorem not_infix_quotedBy
    (isQuote : mark = '\'' ∨ mark = '"')
    (closes : ¬['%', '}'] <:+: text) :
    ¬['%', '}'] <:+: quotedBy mark text := by
  have notPercent : mark ≠ '%' := by
    rcases isQuote with rfl | rfl <;> decide
  have notBrace : mark ≠ '}' := by
    rcases isQuote with rfl | rfl <;> decide
  intro inside
  rcases Text.infix_append_of_pair inside with inFront | inMark | ⟨-, isBrace⟩
  · rcases List.infix_cons_iff.mp inFront with starts | inText
    · exact notPercent (List.cons_prefix_cons.mp starts).1.symm
    · exact closes inText
  · simpa using inMark.length_le
  · exact notBrace (Option.some.inj isBrace)

/-- A text between quotes is a chain of a constant without filters. -/
theorem readChain_quotedBy
    (isQuote : mark = '\'' ∨ mark = '"')
    (absent : mark ∉ text)
    (line : Nat) :
    readChain (quotedBy mark text) line = .ok ⟨.literal (.str (.ofList text)), []⟩ := by
  have single : cutUnquoted '|' (quotedBy mark text) = [quotedBy mark text] := by
    rw [cutUnquoted, quotedBy, List.cons_append, cutUnquotedFrom]
    simp only [if_pos isQuote]
    rw [cutUnquotedFrom_quote absent]
    simp [cutUnquotedFrom]
  have content : unquoted? (quotedBy mark text) = some text := by
    rw [quotedBy, List.cons_append, unquoted?, if_pos ⟨isQuote, List.getLast?_concat⟩,
      List.dropLast_concat]
  have isLiteral : literal? (quotedBy mark text) = some (.str (.ofList text)) := by
    rw [literal?, content]
  rw [readChain, single, List.headD_cons, readOperand, trimWhere_quotedBy isQuote, isLiteral]
  rfl

end Quotes

end Template
end TemplatedMarkup
