import TemplatedMarkup.Proofs.Text.Search
import TemplatedMarkup.Template.Piece

/-!
# Cutting a source at its delimiters

A text in which no delimiter opens, with something between delimiters behind it, is cut into the
text and what is between the delimiters.
-/

namespace TemplatedMarkup
namespace Template

/-- No delimiter opens in a text. -/
def HasNoOpening (text : List Char) : Prop :=
  ∀ kind : DelimitedKind, ¬['{', kind.openMark] <:+: text

namespace DelimitedKind

/-- A content between the delimiters of a kind. -/
def source (kind : DelimitedKind) (content : List Char) : List Char :=
  '{' :: kind.openMark :: (content ++ [kind.closeMark, '}'])

theorem source_tag (content : List Char) :
    tag.source content = '{' :: '%' :: (content ++ ['%', '}']) := rfl

/-- A content does not close the delimiters around it too early. -/
structure Encloses (kind : DelimitedKind) (content : List Char) : Prop where
  /-- The closing delimiter is not in the content. -/
  absent : ¬[kind.closeMark, '}'] <:+: content
  /-- A brace at the end of the content is not taken for the closing delimiter of a variable. -/
  apart : kind.closeMark = '}' → content.getLast? ≠ some kind.closeMark

/-- Delimiters are on the lines of their content. -/
theorem lineAfter_source (kind : DelimitedKind) (line : Nat) (content : List Char) :
    lineAfter line (kind.source content) = lineAfter line content := by
  cases kind <;> simp [lineAfter, source, openMark, closeMark]

theorem encloses_tag
    {content : List Char}
    (absent : ¬['%', '}'] <:+: content) :
    tag.Encloses content :=
  ⟨absent, fun same => absurd same (by decide)⟩

end DelimitedKind

section Cutting

variable {line : Nat} {text content rest : List Char}

theorem lineAfter_append (line : Nat) (text rest : List Char) :
    lineAfter line (text ++ rest) = lineAfter (lineAfter line text) rest := by
  simp [lineAfter, Nat.add_assoc]

theorem HasNoOpening.ofPart
    (noOpening : HasNoOpening text)
    (inside : content <:+: text) :
    HasNoOpening content :=
  fun kind opens => noOpening kind (opens.trans inside)

/-- No delimiter opens in a text without braces. -/
theorem hasNoOpening_of_not_mem
    (noBrace : '{' ∉ text) :
    HasNoOpening text :=
  fun _ opens => noBrace (opens.subset List.mem_cons_self)

/-- A delimiter opens where two texts meet only if a brace ends the first of them. -/
theorem HasNoOpening.append
    (noOpening : HasNoOpening text)
    (noOpeningBehind : HasNoOpening rest)
    (apart : text.getLast? = some '{' →
      ∀ kind : DelimitedKind, rest.head? ≠ some kind.openMark) :
    HasNoOpening (text ++ rest) := by
  intro kind opens
  rcases Text.infix_append_of_pair opens with inText | inRest | ⟨isBrace, isMark⟩
  · exact noOpening kind inText
  · exact noOpeningBehind kind inRest
  · exact apart isBrace kind isMark

theorem HasNoOpening.append_of_getLast?_ne
    (noOpening : HasNoOpening text)
    (noOpeningBehind : HasNoOpening rest)
    (last : text.getLast? ≠ some '{') :
    HasNoOpening (text ++ rest) :=
  noOpening.append noOpeningBehind fun isBrace => absurd isBrace last

/-- A character opens a delimiter only if it is a brace. -/
theorem HasNoOpening.cons
    {character : Char}
    (noOpening : HasNoOpening text)
    (apart : character = '{' → ∀ kind : DelimitedKind, text.head? ≠ some kind.openMark) :
    HasNoOpening (character :: text) := by
  have alone : HasNoOpening [character] := fun _ opens => by simpa using opens.length_le
  exact alone.append noOpening fun isBrace => apart (by simpa using isBrace)

/-- No delimiter opens at the start of a text, whatever follows it. -/
theorem opened?_append
    {character : Char}
    (noOpening : HasNoOpening (character :: text))
    (last : (character :: text).getLast? ≠ some '{')
    (rest : List Char) :
    opened? (character :: (text ++ rest)) = none := by
  unfold opened?
  split
  · rename_i mark after starts
    obtain ⟨rfl, behind⟩ := List.cons_eq_cons.mp starts
    cases text with
    | nil => exact absurd rfl last
    | cons next text =>
        obtain ⟨rfl, -⟩ := List.cons_eq_cons.mp behind
        rw [Option.map_eq_none_iff, DelimitedKind.ofMark?, List.find?_eq_none]
        intro kind _ isMark
        rw [beq_iff_eq] at isMark
        exact noOpening kind ⟨[], text, by simp [isMark]⟩
  · rfl

theorem cutFrom_of_opened_none
    {character : Char}
    (closed : opened? (character :: rest) = none) :
    cutFrom line text (character :: rest) = cutFrom line (character :: text) rest := by
  rw [cutFrom]
  split
  · rfl
  · rename_i opens
    rw [closed] at opens
    contradiction

/-- A text in which no delimiter opens is kept together. -/
theorem cutFrom_append
    (noOpening : HasNoOpening content)
    (last : content.getLast? ≠ some '{')
    (rest : List Char) :
    cutFrom line text (content ++ rest) = cutFrom line (content.reverse ++ text) rest := by
  induction content generalizing text with
  | nil => rfl
  | cons character content inductionHypothesis =>
      have lastBehind : content.getLast? ≠ some '{' := by
        intro isLast
        rw [List.getLast?_cons, isLast] at last
        exact last rfl
      rw [List.cons_append, cutFrom_of_opened_none (opened?_append noOpening last rest),
        inductionHypothesis (noOpening.ofPart (List.suffix_cons _ _).isInfix) lastBehind]
      simp

/-- What is between delimiters ends at the first closing one. -/
theorem cutFrom_source
    {kind : DelimitedKind}
    (encloses : kind.Encloses content)
    (rest : List Char) :
    cutFrom line text (kind.source content ++ rest) =
      textPiece line text.reverse ++
        ⟨.delimited kind, content, lineAfter line text⟩ ::
          cutFrom (lineAfter (lineAfter line text) (kind.source content)) [] rest := by
  have source : kind.source content ++ rest =
      '{' :: kind.openMark :: (content ++ kind.closeMark :: '}' :: rest) := by
    simp [DelimitedKind.source]
  have opens (after : List Char) :
      opened? ('{' :: kind.openMark :: after) = some (kind, after) := by
    cases kind <;> rfl
  have closes : kind.close? (content ++ kind.closeMark :: '}' :: rest) = some (content, rest) :=
    Text.cutAround?_append encloses.absent encloses.apart rest
  rw [source, cutFrom]
  split
  · rename_i isNone
    rw [opens] at isNone
    contradiction
  · rename_i other inside isKind
    rw [opens] at isKind
    obtain ⟨rfl, rfl⟩ := Prod.mk.inj (Option.some.inj isKind)
    rw [closes, DelimitedKind.lineAfter_source]

/-- A text is cut from what is between delimiters behind it. -/
theorem cutFrom_append_source
    {kind : DelimitedKind}
    (noOpening : HasNoOpening text)
    (last : text.getLast? ≠ some '{')
    (encloses : kind.Encloses content)
    (rest : List Char) :
    cutFrom line [] (text ++ (kind.source content ++ rest)) =
      textPiece line text ++ cutFrom (lineAfter line text) [] (kind.source content ++ rest) := by
  have sameLine : lineAfter line text.reverse = lineAfter line text := by
    simp [lineAfter]
  rw [cutFrom_append noOpening last, cutFrom_source encloses, cutFrom_source encloses,
    List.append_nil, List.reverse_reverse, sameLine]
  rfl

end Cutting

end Template
end TemplatedMarkup
