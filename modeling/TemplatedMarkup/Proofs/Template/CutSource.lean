import TemplatedMarkup.Proofs.Template.Piece

/-!
# How a source is cut

The pieces of a source lie in it one behind the other.  A text reaches up to the first opening
delimiter with a closing one behind it, and what is between delimiters up to the first closing one.
-/

namespace TemplatedMarkup
namespace Template

/-- The delimiter that opens first in a text is not closed in it. -/
def IsLeftOpen (text : List Char) : Prop :=
  ∃ (before : List Char) (kind : DelimitedKind) (inside : List Char),
    text = before ++ '{' :: kind.openMark :: inside ∧ HasNoOpening before ∧
      before.getLast? ≠ some '{' ∧ ¬[kind.closeMark, '}'] <:+: inside

/-- How a source that starts on a line is cut into pieces. -/
inductive Cuts : Nat → List Char → List Piece → Prop where
  /-- The rest of a source is text when nothing opens in it or what opens first is left open. -/
  | rest {line : Nat} {text : List Char} :
      HasNoOpening text ∨ IsLeftOpen text → Cuts line text (textPiece line text)
  /-- A text, something between delimiters, and the pieces of what is behind it. -/
  | delimited
      {line : Nat} {text content behind : List Char} {kind : DelimitedKind} {pieces : List Piece} :
      HasNoOpening text → text.getLast? ≠ some '{' → kind.Encloses content →
      Cuts (lineAfter (lineAfter line text) (kind.source content)) behind pieces →
      Cuts line (text ++ (kind.source content ++ behind))
        (textPiece line text ++ ⟨.delimited kind, content, lineAfter line text⟩ :: pieces)

/-! ## Cutting -/

section Cutting

variable {line : Nat} {text source inside content after : List Char} {kind : DelimitedKind}

/-- What opens at the start of a source is an opening delimiter. -/
theorem eq_of_opened?
    (opens : opened? source = some (kind, inside)) :
    source = '{' :: kind.openMark :: inside := by
  unfold opened? at opens
  split at opens
  · obtain ⟨found, isKind, same⟩ := Option.map_eq_some_iff.mp opens
    obtain ⟨rfl, rfl⟩ := Prod.mk.inj same
    rw [show found.openMark = _ by simpa using List.find?_some isKind]
  · contradiction

/-- Nothing opens at a brace only if no mark of a delimiter follows it. -/
theorem head?_ne_of_opened?_eq_none
    (closed : opened? ('{' :: source) = none)
    (kind : DelimitedKind) :
    source.head? ≠ some kind.openMark := by
  intro isMark
  obtain ⟨rest, rfl⟩ := List.head?_eq_some_iff.mp isMark
  cases kind <;> contradiction

/-- A delimiter is closed where that is possible first. -/
theorem DelimitedKind.encloses_of_close?
    (closes : kind.close? inside = some (content, after)) :
    kind.Encloses content := by
  have first := Text.not_infix_append_of_cutAround? (List.cons_ne_nil _ _) closes
  refine ⟨fun within => first (within.trans (List.prefix_append _ _).isInfix), ?_⟩
  -- A brace in front of the closing braces would be the first of them.
  rintro isBrace isLast
  obtain ⟨front, rfl⟩ := List.getLast?_eq_some_iff.mp isLast
  exact first ⟨front, [], by simp [isBrace]⟩

theorem DelimitedKind.source_append_of_close?
    (closes : kind.close? inside = some (content, after)) :
    '{' :: kind.openMark :: inside = kind.source content ++ after := by
  simp [source, Text.eq_append_of_cutAround? closes]

/-- What has been passed over of a source is text: nothing opens in it, nor where it ends. -/
structure IsPassed (text source : List Char) : Prop where
  /-- Nothing opens in the text. -/
  noOpening : HasNoOpening text
  /-- The rest of the source does not make a brace at the end of the text an opening. -/
  apart : text.getLast? = some '{' → ∀ kind : DelimitedKind, source.head? ≠ some kind.openMark

theorem IsPassed.nil (source : List Char) : IsPassed [] source :=
  ⟨hasNoOpening_of_not_mem List.not_mem_nil, fun isLast => absurd isLast (by simp)⟩

/-- A character at which nothing opens is passed over. -/
theorem IsPassed.concat
    {character : Char}
    (passed : IsPassed text (character :: source))
    (closed : opened? (character :: source) = none) :
    IsPassed (text ++ [character]) source := by
  have alone : HasNoOpening [character] := fun _ opens => by simpa using opens.length_le
  refine ⟨passed.noOpening.append alone passed.apart, fun isLast => ?_⟩
  obtain rfl : character = '{' := by simpa using isLast
  exact head?_ne_of_opened?_eq_none closed

/-- No brace is passed over in front of an opening delimiter. -/
theorem IsPassed.getLast?_ne
    (passed : IsPassed text source)
    (opens : opened? source = some (kind, inside)) :
    text.getLast? ≠ some '{' := by
  intro isLast
  rw [eq_of_opened? opens] at passed
  exact passed.apart isLast .variable rfl

/-- The pieces of a source, behind a text that has been passed over. -/
theorem IsPassed.cuts
    (passed : IsPassed text.reverse source) :
    Cuts line (text.reverse ++ source) (cutFrom line text source) := by
  fun_induction cutFrom line text source with
  | case1 line text =>
      rw [List.append_nil]
      exact .rest (.inl passed.noOpening)
  | case2 line text character rest closed inductionHypothesis =>
      have further := passed.concat closed
      rw [← List.reverse_cons] at further
      simpa using inductionHypothesis further
  | case3 line text character rest kind inside opens notClosed =>
      have source := eq_of_opened? opens
      rw [DelimitedKind.close?, Text.cutAround?_eq_none_iff (by simp) (by simp)] at notClosed
      exact .rest (.inr ⟨text.reverse, kind, inside, by rw [source], passed.noOpening,
        passed.getLast?_ne opens, notClosed⟩)
  | case4 line text character rest kind inside opens content after closes start
      inductionHypothesis =>
      have encloses := DelimitedKind.encloses_of_close? closes
      have behind := inductionHypothesis (.nil after)
      have sameLine : lineAfter line text.reverse = start := by simp [start, lineAfter]
      rw [eq_of_opened? opens, DelimitedKind.source_append_of_close? closes]
      refine sameLine ▸ .delimited passed.noOpening (passed.getLast?_ne opens) encloses ?_
      rw [DelimitedKind.lineAfter_source, sameLine]
      exact behind

/-- A source is cut into its pieces. -/
theorem cuts_cutFrom (line : Nat) (source : List Char) :
    Cuts line source (cutFrom line [] source) :=
  @IsPassed.cuts line [] source (.nil source)

end Cutting

/-! ## The lines of pieces -/

/-- Pieces behind each other have the lines that they start on, the first of them on a given one. -/
def IsNumbered : Nat → List Piece → Prop
  | _, [] => True
  | line, piece :: pieces => piece.line = line ∧ IsNumbered (lineAfter line piece.source) pieces

theorem isNumbered_append
    {line : Nat}
    {front behind : List Piece} :
    IsNumbered line (front ++ behind) ↔
      IsNumbered line front ∧ IsNumbered (lineAfter line (front.flatMap Piece.source)) behind := by
  induction front generalizing line with
  | nil => simp [IsNumbered, lineAfter]
  | cons piece front inductionHypothesis =>
      simp [IsNumbered, inductionHypothesis, lineAfter_append, and_assoc]

/-! ## Pieces of a cut source -/

section Pieces

variable {line : Nat} {source text : List Char} {pieces : List Piece} {piece : Piece}

theorem mem_textPiece :
    piece ∈ textPiece line text ↔ text ≠ [] ∧ piece = ⟨.text, text, line⟩ := by
  cases text <;> simp [textPiece]

/-- The pieces of a source whose first delimiter is closed. -/
theorem mem_delimited
    {kind : DelimitedKind}
    {content : List Char}
    {start : Nat} :
    piece ∈ textPiece line text ++ ⟨.delimited kind, content, start⟩ :: pieces ↔
      (text ≠ [] ∧ piece = ⟨.text, text, line⟩) ∨ piece = ⟨.delimited kind, content, start⟩ ∨
        piece ∈ pieces := by
  rw [List.mem_append, List.mem_cons, mem_textPiece]

@[simp] theorem flatMap_textPiece (line : Nat) (text : List Char) :
    (textPiece line text).flatMap Piece.source = text := by
  cases text <;> simp [textPiece, Piece.source]

theorem isNumbered_textPiece (line : Nat) (text : List Char) :
    IsNumbered line (textPiece line text) := by
  cases text <;> simp [textPiece, IsNumbered]

/-- The source of a piece between delimiters. -/
theorem Piece.source_delimited (kind : DelimitedKind) (content : List Char) (line : Nat) :
    Piece.source ⟨.delimited kind, content, line⟩ = kind.source content := by
  simp [Piece.source, DelimitedKind.source]

namespace Cuts

/-- The pieces of a source, written back, are the source. -/
theorem flatMap_source
    (cuts : Cuts line source pieces) :
    pieces.flatMap Piece.source = source := by
  induction cuts with
  | rest _ => exact flatMap_textPiece _ _
  | delimited _ _ _ _ inductionHypothesis =>
      simp [inductionHypothesis, Piece.source_delimited]

theorem isNumbered
    (cuts : Cuts line source pieces) :
    IsNumbered line pieces := by
  induction cuts with
  | rest _ => exact isNumbered_textPiece _ _
  | delimited _ _ _ _ inductionHypothesis =>
      rw [isNumbered_append, flatMap_textPiece, IsNumbered, Piece.source_delimited]
      exact ⟨isNumbered_textPiece _ _, rfl, inductionHypothesis⟩

/-- A text among the pieces has no opening delimiter, or one that is left open. -/
theorem noOpening_or_isLeftOpen
    (cuts : Cuts line source pieces)
    (among : piece ∈ pieces)
    (isText : piece.kind = .text) :
    HasNoOpening piece.content ∨ IsLeftOpen piece.content := by
  induction cuts with
  | rest ends =>
      obtain ⟨-, rfl⟩ := mem_textPiece.mp among
      exact ends
  | delimited noOpening _ _ _ inductionHypothesis =>
      rcases mem_delimited.mp among with ⟨-, rfl⟩ | rfl | behind
      · exact .inl noOpening
      · contradiction
      · exact inductionHypothesis behind

/-- A text in front of other pieces has no opening delimiter. -/
theorem noOpening_of_mem_dropLast
    (cuts : Cuts line source pieces)
    (among : piece ∈ pieces.dropLast)
    (isText : piece.kind = .text) :
    HasNoOpening piece.content := by
  induction cuts with
  | @rest line text _ =>
      have single : (textPiece line text).dropLast = [] := by cases text <;> rfl
      rw [single] at among
      contradiction
  | @delimited _ _ _ _ _ pieces noOpening _ _ _ inductionHypothesis =>
      cases pieces with
      | nil =>
          rw [List.dropLast_concat] at among
          obtain ⟨-, rfl⟩ := mem_textPiece.mp among
          exact noOpening
      | cons first others =>
          rw [List.dropLast_append_cons, List.dropLast_cons_cons] at among
          rcases mem_delimited.mp among with ⟨-, rfl⟩ | rfl | behind
          · exact noOpening
          · contradiction
          · exact inductionHypothesis behind

/-- What is between delimiters does not close them. -/
theorem encloses
    {kind : DelimitedKind}
    (cuts : Cuts line source pieces)
    (among : piece ∈ pieces)
    (isDelimited : piece.kind = .delimited kind) :
    kind.Encloses piece.content := by
  induction cuts with
  | rest _ =>
      obtain ⟨-, rfl⟩ := mem_textPiece.mp among
      contradiction
  | delimited _ _ encloses _ inductionHypothesis =>
      rcases mem_delimited.mp among with ⟨-, rfl⟩ | rfl | behind
      · contradiction
      · obtain rfl := PieceKind.delimited.inj isDelimited
        exact encloses
      · exact inductionHypothesis behind

/-- No piece is empty. -/
theorem source_ne_nil
    (cuts : Cuts line source pieces)
    (among : piece ∈ pieces) :
    piece.source ≠ [] := by
  induction cuts with
  | rest _ =>
      obtain ⟨nonempty, rfl⟩ := mem_textPiece.mp among
      exact nonempty
  | delimited _ _ _ _ inductionHypothesis =>
      rcases mem_delimited.mp among with ⟨nonempty, rfl⟩ | rfl | behind
      · exact nonempty
      · simp [Piece.source]
      · exact inductionHypothesis behind

end Cuts

end Pieces

/-- How pieces make up a source. -/
structure IsMadeUpOf (source : List Char) (pieces : List Piece) : Prop where
  /-- The pieces, written back in order, are the source. -/
  lossless : pieces.flatMap Piece.source = source
  /-- Every piece has a first character. -/
  nonempty : ∀ piece ∈ pieces, piece.source ≠ []
  /-- The line of a piece is the one of its first character. -/
  line_eq : ∀ front piece behind, pieces = front ++ piece :: behind →
    piece.line = 1 + (front.flatMap Piece.source).count '\n'
  /-- At most the last piece is a text with an opening delimiter. -/
  noOpening : ∀ piece ∈ pieces.dropLast, piece.kind = .text → HasNoOpening piece.content
  /-- The first delimiter that opens in a text is not closed in it. -/
  leftOpen : ∀ piece ∈ pieces, piece.kind = .text →
    HasNoOpening piece.content ∨ IsLeftOpen piece.content
  /-- What is between delimiters does not hold the closing one. -/
  noClosing : ∀ piece ∈ pieces, ∀ kind, piece.kind = .delimited kind →
    ¬[kind.closeMark, '}'] <:+: piece.content

/-- The pieces of a source make it up. -/
theorem isMadeUpOf_pieces (source : String) : IsMadeUpOf source.toList (pieces source) := by
  have cuts : Cuts 1 source.toList (pieces source) := cuts_cutFrom 1 source.toList
  refine ⟨cuts.flatMap_source, fun _ => cuts.source_ne_nil, ?_,
    fun _ => cuts.noOpening_of_mem_dropLast, fun _ => cuts.noOpening_or_isLeftOpen,
    fun _ among _ isDelimited => (cuts.encloses among isDelimited).absent⟩
  intro front piece behind split
  have numbered := cuts.isNumbered
  rw [split, isNumbered_append] at numbered
  exact numbered.2.1

/-- A brace that closes nothing is text, and a line feed counts wherever it stands. -/
example : pieces "a\n\x7b\x7b b\n\x7d\x7d\x7d\x7b% c" = [
    ⟨.text, "a\n".toList, 1⟩, ⟨.delimited .variable, " b\n".toList, 2⟩,
    ⟨.text, "\x7d\x7b% c".toList, 3⟩] := by
  cbv

end Template
end TemplatedMarkup
