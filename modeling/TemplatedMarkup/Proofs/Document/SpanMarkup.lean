import TemplatedMarkup.Proofs.Document.LineMarkup
import TemplatedMarkup.Proofs.Text.Search

/-!
# Spans and links

Spans of each style are converted in one pass over the whole text, and links in the last pass.  When
plain text stands between any two spans or links, no pass takes a mark for that of another piece, so
each piece is converted on its own.
-/

namespace TemplatedMarkup
namespace Document

/-! ## Pieces of a body -/

/-- The styles of spans. -/
inductive Emphasis where
  | bold
  | italic
  | underline
deriving DecidableEq

/-- The mark on both sides of a span. -/
def Emphasis.mark : Emphasis → List Char
  | .bold => "**".toList
  | .italic => "*".toList
  | .underline => "__".toList

/-- The tag of a span. -/
def Emphasis.tag : Emphasis → List Char
  | .bold => "b".toList
  | .italic => "i".toList
  | .underline => "u".toList

/-- How a style is converted. -/
def Emphasis.style : Emphasis → SpanStyle
  | .bold => Document.bold
  | .italic => Document.italic
  | .underline => Document.underline

/-- A piece of a body. -/
inductive Piece where
  | plain (text : List Char)
  | span (emphasis : Emphasis) (text : List Char)
  | link (label target : List Char)

namespace Piece

/-- A text without the marks of lines, spans and links. -/
def IsInline (text : List Char) : Prop :=
  ∀ character ∈ text, character ∉ '-' :: marks

/-- Whether a piece is written as its constructor says. -/
def IsWritten : Piece → Prop
  | .plain text => IsInline text
  | .span _ text => text ≠ [] ∧ '\n' ∉ text ∧ IsInline text
  | .link label target => target ≠ [] ∧ ('\n' ∉ label ∧ ']' ∉ label ∧ IsInline label) ∧
      '\n' ∉ target ∧ ')' ∉ target ∧ IsInline target

/-- Whether a piece is a span or a link. -/
def IsMarkup : Piece → Prop
  | .plain _ => False
  | .span _ _ | .link _ _ => True

/-- The text of a piece when the spans of some styles are converted. -/
def text (done : List Emphasis) : Piece → List Char
  | .plain text => text
  | .span emphasis text =>
      if emphasis ∈ done then element emphasis.tag text
      else emphasis.mark ++ text ++ emphasis.mark
  | .link label target => '[' :: label ++ ']' :: '(' :: target ++ [')']

/-- The text of a piece as it is written. -/
def source : Piece → List Char :=
  text []

/-- What a piece becomes. -/
def html (isImage : Classifier) : Piece → List Char
  | .plain text => text
  | .span emphasis text => element emphasis.tag text
  | .link label target =>
      if isImage (.ofList target) then figure label target else anchor label target

/-- The target that the classifier is asked about. -/
def target? : Piece → Option String
  | .plain _ | .span _ _ => none
  | .link _ target => some (.ofList target)

end Piece

/-- Between any two spans or links stands plain text that is not empty. -/
def AreSeparated (pieces : List Piece) : Prop :=
  ∀ before first middle second after, pieces = before ++ first :: middle ++ second :: after →
    first.IsMarkup → second.IsMarkup → ∃ text, text ≠ [] ∧ .plain text ∈ middle

/-! ## Separated pieces -/

section Separated

variable {piece : Piece} {pieces : List Piece}

theorem AreSeparated.tail
    (separated : AreSeparated (piece :: pieces)) :
    AreSeparated pieces := by
  rintro before first middle second after rfl
  exact separated (piece :: before) first middle second after rfl

theorem AreSeparated.single (piece : Piece) : AreSeparated [piece] := by
  intro before first middle second after whole
  have lengths := congrArg List.length whole
  simp only [List.length_append, List.length_cons, List.length_nil] at lengths
  omega

theorem AreSeparated.cons_plain
    (separated : AreSeparated pieces)
    (text : List Char) :
    AreSeparated (.plain text :: pieces) := by
  intro before first middle second after whole firstIs secondIs
  cases before with
  | nil =>
      obtain ⟨rfl, -⟩ := List.cons.inj whole
      contradiction
  | cons other before => exact separated _ _ _ _ _ (List.cons.inj whole).2 firstIs secondIs

/-- Plain text that is not empty separates a piece from those behind it. -/
theorem AreSeparated.cons_cons_plain
    {text : List Char}
    (separated : AreSeparated pieces)
    (nonempty : text ≠ [])
    (piece : Piece) :
    AreSeparated (piece :: .plain text :: pieces) := by
  intro before first middle second after whole firstIs secondIs
  cases before with
  | cons other before =>
      exact separated.cons_plain text _ _ _ _ _ (List.cons.inj whole).2 firstIs secondIs
  | nil =>
      have behind : .plain text :: pieces = middle ++ second :: after := (List.cons.inj whole).2
      cases middle with
      | nil =>
          obtain ⟨rfl, -⟩ := List.cons.inj behind
          contradiction
      | cons other middle =>
          obtain ⟨rfl, -⟩ := List.cons.inj behind
          exact ⟨text, nonempty, List.mem_cons_self⟩

/-- Behind a span or a link, the next character is none of a mark. -/
theorem AreSeparated.head?_ne
    (separated : AreSeparated (piece :: pieces))
    (written : ∀ piece ∈ pieces, piece.IsWritten)
    (isMarkup : piece.IsMarkup)
    (done : List Emphasis) :
    (pieces.flatMap (Piece.text done)).head? ≠ some '*' := by
  have apart (middle : List Piece) (second : Piece) (after : List Piece)
      (split : pieces = middle ++ second :: after) (secondIs : second.IsMarkup) :
      ∃ text, text ≠ [] ∧ .plain text ∈ middle :=
    separated [] piece middle second after (by rw [split]; rfl) isMarkup secondIs
  clear separated
  induction pieces with
  | nil => simp
  | cons next pieces inductionHypothesis =>
      rw [List.forall_mem_cons] at written
      cases next with
      | plain text =>
          cases text with
          | nil =>
              refine inductionHypothesis written.2 fun middle second after split secondIs => ?_
              obtain ⟨text, nonempty, among⟩ :=
                apart (.plain [] :: middle) second after (by rw [split]; rfl) secondIs
              rcases List.mem_cons.mp among with same | among
              · exact absurd (Piece.plain.inj same) nonempty
              · exact ⟨text, nonempty, among⟩
          | cons character text =>
              rintro isStar
              obtain rfl := Option.some.inj isStar
              exact written.1 '*' List.mem_cons_self (by decide)
      | span emphasis text | link label target =>
          obtain ⟨text, -, among⟩ := apart [] _ pieces rfl trivial
          contradiction

end Separated

/-! ## One pass -/

section Pass

variable
  {emphasis : Emphasis}
  {done : List Emphasis}
  {piece : Piece}
  {text : List Char}
  {character : Char}

theorem Emphasis.mark_style (emphasis : Emphasis) : emphasis.style.mark = emphasis.mark := by
  cases emphasis <;> rfl

theorem Emphasis.tag_style (emphasis : Emphasis) : emphasis.style.tag = emphasis.tag := by
  cases emphasis <;> rfl

/-- The character that the mark of a style consists of. -/
def Emphasis.first : Emphasis → Char
  | .bold | .italic => '*'
  | .underline => '_'

theorem Emphasis.exists_mark_eq (emphasis : Emphasis) :
    ∃ others, emphasis.mark = emphasis.first :: others := by
  cases emphasis with
  | bold => exact ⟨['*'], rfl⟩
  | italic => exact ⟨[], rfl⟩
  | underline => exact ⟨['_'], rfl⟩

theorem Emphasis.first_mem (emphasis : Emphasis) : emphasis.first ∈ '-' :: marks := by
  cases emphasis <;> decide

/-- A line goes up to the first mark, when no character of it begins the mark. -/
theorem upTo?_of_not_mem
    {first : Char}
    (oneLine : '\n' ∉ text)
    (absent : first ∉ text)
    (others rest : List Char) :
    upTo? (first :: others) (text ++ (first :: others) ++ rest) = some (text, rest) := by
  refine Text.cutAround?_of_not_mem absent (fun character among => ?_) others rest
  exact beq_false_of_ne fun isEnd => oneLine (isEnd ▸ among)

/-- Behind an opening mark, a span goes up to the next mark. -/
theorem Emphasis.content?_eq
    (nonempty : text ≠ [])
    (oneLine : '\n' ∉ text)
    (isInline : Piece.IsInline text)
    (rest : List Char) :
    emphasis.style.content? (text ++ emphasis.mark ++ rest) = some (text, rest) := by
  have searched {text : List Char} (oneLine : '\n' ∉ text) (isInline : Piece.IsInline text) :
      upTo? emphasis.mark (text ++ emphasis.mark ++ rest) = some (text, rest) := by
    obtain ⟨others, isMark⟩ := emphasis.exists_mark_eq
    rw [isMark]
    exact upTo?_of_not_mem oneLine (fun among => isInline _ among emphasis.first_mem) _ _
  cases emphasis with
  | bold | italic => exact searched oneLine isInline
  | underline =>
      obtain ⟨character, text, rfl⟩ := List.exists_cons_of_ne_nil nonempty
      rw [List.mem_cons, not_or] at oneLine
      have later := searched oneLine.2 fun other among => isInline other (.tail _ among)
      rw [SpanStyle.content?, if_neg (by decide), Emphasis.mark_style, List.cons_append,
        List.cons_append, upToLater?, if_neg (Ne.symm oneLine.1)]
      exact congrArg (Option.map _) later

/-- A span is converted by the pass of its style. -/
theorem convertSpans_span
    (nonempty : text ≠ [])
    (oneLine : '\n' ∉ text)
    (isInline : Piece.IsInline text)
    (rest : List Char) :
    convertSpans emphasis.style (emphasis.mark ++ text ++ emphasis.mark ++ rest) =
      element emphasis.tag text ++ convertSpans emphasis.style rest := by
  obtain ⟨others, isMark⟩ := emphasis.exists_mark_eq
  have whole : emphasis.mark ++ text ++ emphasis.mark ++ rest =
      emphasis.first :: (others ++ (text ++ emphasis.mark ++ rest)) := by
    simp [isMark]
  have starts : emphasis.style.mark.isPrefixOf
      (emphasis.first :: (others ++ (text ++ emphasis.mark ++ rest))) = true := by
    rw [emphasis.mark_style, List.isPrefixOf_iff_prefix, ← whole, List.append_assoc,
      List.append_assoc]
    exact List.prefix_append _ _
  have behind : (others ++ (text ++ emphasis.mark ++ rest)).drop (emphasis.style.mark.length - 1) =
      text ++ emphasis.mark ++ rest := by
    rw [emphasis.mark_style, isMark]
    simp
  have found := @Emphasis.content?_eq emphasis _ nonempty oneLine isInline rest
  rw [whole, convertSpans, if_pos starts]
  split
  · rename_i content after isContent
    rw [behind, found] at isContent
    obtain ⟨rfl, rfl⟩ := Prod.mk.inj (Option.some.inj isContent)
    rw [emphasis.tag_style]
  · rename_i notFound
    rw [behind, found] at notFound
    contradiction

/-- A single star opens no bold span. -/
theorem convertSpans_bold_star
    (single : text.head? ≠ some '*') :
    convertSpans bold ('*' :: text) = '*' :: convertSpans bold text := by
  have notHere : ¬bold.mark.isPrefixOf ('*' :: text) = true := by
    rw [List.isPrefixOf_iff_prefix]
    rintro ⟨rest, same⟩
    exact single (congrArg List.head? (List.cons.inj same).2).symm
  rw [convertSpans, if_neg notHere]

/-- A piece has no mark that is not its own. -/
theorem Piece.not_mem_text
    (written : piece.IsWritten)
    (isMark : character ∈ '-' :: marks)
    (notBracket : character ≠ '[')
    (notOwn : ∀ emphasis text, piece = .span emphasis text → emphasis ∉ done →
      character ∉ emphasis.mark) :
    character ∉ piece.text done := by
  obtain ⟨notTag, notBrackets⟩ :
      character ∉ "</biu>".toList ∧ character ∉ "](".toList ++ [')'] := by
    simp only [marks, List.mem_cons, List.not_mem_nil, or_false] at isMark
    rcases isMark with rfl | rfl | rfl | rfl | rfl <;> decide
  cases piece with
  | plain text => exact fun among => written character among isMark
  | span emphasis text =>
      have inText : character ∉ text := fun among => written.2.2 character among isMark
      rw [Piece.text]
      split
      · have inTag : character ∉ emphasis.tag := by
          cases emphasis <;> simp_all [Emphasis.tag]
        simp_all [element]
      · rename_i notDone
        have inMark := notOwn emphasis text rfl notDone
        simp [inMark, inText]
  | link label target =>
      have inLabel : character ∉ label := fun among => written.2.1.2.2 character among isMark
      have inTarget : character ∉ target := fun among => written.2.2.2.2 character among isMark
      simp_all [Piece.text]

/-- An italic span that is on its own is not taken for a bold one. -/
theorem convertSpans_bold_italic
    {rest : List Char}
    (nonempty : text ≠ [])
    (isInline : Piece.IsInline text)
    (apart : rest.head? ≠ some '*') :
    convertSpans bold (['*'] ++ text ++ ['*'] ++ rest) =
      ['*'] ++ text ++ ['*'] ++ convertSpans bold rest := by
  have noStar : '*' ∉ text := fun among => isInline '*' among (by decide)
  have single : (text ++ '*' :: rest).head? ≠ some '*' := by
    obtain ⟨character, text, rfl⟩ := List.exists_cons_of_ne_nil nonempty
    rw [List.mem_cons, not_or] at noStar
    exact fun isStar => noStar.1 (Option.some.inj isStar).symm
  have whole (rest : List Char) :
      ['*'] ++ text ++ ['*'] ++ rest = '*' :: (text ++ '*' :: rest) := by
    simp
  rw [whole, whole, convertSpans_bold_star single, convertSpans_append rfl noStar,
    convertSpans_bold_star apart]

/-- A piece without the mark of a style stays as it is in the pass of the style. -/
theorem convertSpans_piece_of_not_mem
    (isOther : ∀ text, piece ≠ .span emphasis text)
    (absent : emphasis.first ∉ piece.text done)
    (rest : List Char) :
    convertSpans emphasis.style (piece.text done ++ rest) =
      piece.text (emphasis :: done) ++ convertSpans emphasis.style rest := by
  obtain ⟨others, isMark⟩ := emphasis.exists_mark_eq
  have same : piece.text (emphasis :: done) = piece.text done := by
    cases piece with
    | plain text | link label target => rfl
    | span own text =>
        have differs : own ≠ emphasis := fun same => isOther text (by rw [same])
        simp [Piece.text, differs]
  rw [convertSpans_append (emphasis.mark_style.trans isMark) absent, same]

/-- Of the styles with the same mark, italic waits until bold is done. -/
theorem Emphasis.eq_of_first_mem
    {own : Emphasis}
    (differs : own ≠ emphasis)
    (shared : emphasis.first ∈ own.mark) :
    (emphasis = .bold ∧ own = .italic) ∨ (emphasis = .italic ∧ own = .bold) := by
  cases emphasis <;> cases own <;> revert differs shared <;> decide

/-- The pass of a style converts the spans of this style and nothing else. -/
theorem convertSpans_piece
    {rest : List Char}
    (written : piece.IsWritten)
    (notDone : emphasis ∉ done)
    (boldFirst : emphasis = .italic → .bold ∈ done)
    (apart : piece.IsMarkup → rest.head? ≠ some '*') :
    convertSpans emphasis.style (piece.text done ++ rest) =
      piece.text (emphasis :: done) ++ convertSpans emphasis.style rest := by
  have notBracket : emphasis.first ≠ '[' := by
    cases emphasis <;> decide
  cases piece with
  | plain text | link label target =>
      refine convertSpans_piece_of_not_mem ?_ ?_ rest
      · exact nofun
      · exact Piece.not_mem_text written emphasis.first_mem notBracket nofun
  | span own text =>
      obtain ⟨nonempty, oneLine, isInline⟩ := written
      rcases eq_or_ne own emphasis with rfl | differs
      · rw [Piece.text, Piece.text, if_neg notDone, if_pos List.mem_cons_self]
        exact convertSpans_span nonempty oneLine isInline rest
      by_cases shared : emphasis.first ∈ own.mark ∧ own ∉ done
      · -- Bold and italic share their mark, and bold is converted first.
        rcases Emphasis.eq_of_first_mem differs shared.1 with ⟨rfl, rfl⟩ | ⟨rfl, rfl⟩
        · simp only [Piece.text, shared.2, List.mem_cons, differs, or_self, if_false]
          exact convertSpans_bold_italic nonempty isInline (apart trivial)
        · exact absurd (boldFirst rfl) shared.2
      · have isOther (other : List Char) : Piece.span own text ≠ .span emphasis other :=
          fun same => differs (Piece.span.inj same).1
        refine convertSpans_piece_of_not_mem isOther ?_ rest
        refine Piece.not_mem_text ⟨nonempty, oneLine, isInline⟩ emphasis.first_mem notBracket ?_
        intro otherOwn otherText same notOwnDone isShared
        obtain ⟨rfl, -⟩ := Piece.span.inj same
        exact shared ⟨isShared, notOwnDone⟩

theorem convertSpans_pieces
    {pieces : List Piece}
    (written : ∀ piece ∈ pieces, piece.IsWritten)
    (separated : AreSeparated pieces)
    (notDone : emphasis ∉ done)
    (boldFirst : emphasis = .italic → .bold ∈ done) :
    convertSpans emphasis.style (pieces.flatMap (Piece.text done)) =
      pieces.flatMap (Piece.text (emphasis :: done)) := by
  induction pieces with
  | nil => rw [List.flatMap_nil, convertSpans]; rfl
  | cons piece pieces inductionHypothesis =>
      rw [List.forall_mem_cons] at written
      rw [List.flatMap_cons, List.flatMap_cons,
        convertSpans_piece written.1 notDone boldFirst fun isMarkup =>
          separated.head?_ne written.2 isMarkup done,
        inductionHypothesis written.2 separated.tail]

end Pass

/-! ## All passes -/

section Transform

variable {pieces : List Piece} {done : List Emphasis} {character : Char}

theorem not_mem_pieces
    (written : ∀ piece ∈ pieces, piece.IsWritten)
    (isMark : character = '#' ∨ character = '-') :
    character ∉ pieces.flatMap (Piece.text done) := by
  intro among
  obtain ⟨piece, isPiece, inText⟩ := List.mem_flatMap.mp among
  have isOther : character ∈ '-' :: marks ∧ character ≠ '[' ∧
      ∀ emphasis : Emphasis, character ∉ emphasis.mark := by
    rcases isMark with rfl | rfl <;>
      exact ⟨by decide, by decide, fun emphasis => by cases emphasis <;> decide⟩
  exact Piece.not_mem_text (written piece isPiece) isOther.1 isOther.2.1
    (fun emphasis _ _ _ => isOther.2.2 emphasis) inText

/-- The styles, the last one to be converted first. -/
def allStyles : List Emphasis := [.underline, .italic, .bold]

theorem convertSpansAndLines_pieces
    (written : ∀ piece ∈ pieces, piece.IsWritten)
    (separated : AreSeparated pieces) :
    convertSpansAndLines (pieces.flatMap Piece.source) =
      pieces.flatMap (Piece.text allStyles) := by
  have positive : ∀ level ∈ headingLevels, 0 < level := by decide
  have noHash : '#' ∉ pieces.flatMap Piece.source := not_mem_pieces written (.inl rfl)
  have noDash : '-' ∉ pieces.flatMap (Piece.text allStyles) := not_mem_pieces written (.inr rfl)
  have bolded : convertSpans bold (pieces.flatMap Piece.source) =
      pieces.flatMap (Piece.text [.bold]) :=
    @convertSpans_pieces .bold _ _ written separated (by decide) (by decide)
  have slanted : convertSpans italic (pieces.flatMap (Piece.text [.bold])) =
      pieces.flatMap (Piece.text [.italic, .bold]) :=
    @convertSpans_pieces .italic _ _ written separated (by decide) (by decide)
  have underlined : convertSpans underline (pieces.flatMap (Piece.text [.italic, .bold])) =
      pieces.flatMap (Piece.text allStyles) :=
    @convertSpans_pieces .underline _ _ written separated (by decide) (by decide)
  rw [convertSpansAndLines, foldl_convertHeadings_eq_self positive noHash]
  change convertRules (convertSpans underline (convertSpans italic (convertSpans bold _))) = _
  rw [bolded, slanted, underlined, convertRules_eq_self noDash]

/-- The parts that a piece is read as when its spans are converted. -/
def Piece.parts : Piece → List Inline
  | .plain text => text.map .character
  | .span emphasis text => (element emphasis.tag text).map .character
  | .link label target => [.link label target]

theorem inlines_link
    {label target : List Char}
    (labelLine : '\n' ∉ label)
    (noBracket : ']' ∉ label)
    (targetLine : '\n' ∉ target)
    (noParenthesis : ')' ∉ target)
    (rest : List Char) :
    inlines ((Piece.link label target).text done ++ rest) = .link label target :: inlines rest := by
  have whole : (Piece.link label target).text done ++ rest =
      '[' :: (label ++ [']'] ++ ('(' :: (target ++ [')'] ++ rest))) := by
    simp [Piece.text]
  have labelled (behind : List Char) : upTo? [']'] (label ++ [']'] ++ behind) =
      some (label, behind) :=
    upTo?_of_not_mem labelLine noBracket [] behind
  have targeted : linkTarget ('(' :: (target ++ [')'] ++ rest)) = (target, rest) := by
    rw [linkTarget, upTo?_of_not_mem targetLine noParenthesis]
    rfl
  rw [whole, inlines, if_pos rfl]
  split
  · rename_i found after isLabel
    rw [labelled] at isLabel
    obtain ⟨rfl, rfl⟩ := Prod.mk.inj (Option.some.inj isLabel)
    rw [targeted]
  · rename_i notFound
    rw [labelled] at notFound
    contradiction

theorem inlines_pieces
    (written : ∀ piece ∈ pieces, piece.IsWritten) :
    inlines (pieces.flatMap (Piece.text allStyles)) = pieces.flatMap Piece.parts := by
  induction pieces with
  | nil => rw [List.flatMap_nil, inlines]; rfl
  | cons piece pieces inductionHypothesis =>
      rw [List.forall_mem_cons] at written
      rw [List.flatMap_cons, List.flatMap_cons, ← inductionHypothesis written.2]
      cases piece with
      | plain text => exact inlines_append (fun among => written.1 _ among (by decide)) _
      | span emphasis text =>
          have isDone : (Piece.span emphasis text).text allStyles = element emphasis.tag text :=
            if_pos (by cases emphasis <;> decide)
          have noBracket : '[' ∉ element emphasis.tag text := by
            have inText : '[' ∉ text := fun among => written.1.2.2 _ among (by decide)
            cases emphasis <;> simpa [element, Emphasis.tag] using inText
          rw [isDone]
          exact inlines_append noBracket _
      | link label target =>
          obtain ⟨-, ⟨labelLine, noBracket, -⟩, targetLine, noParenthesis, -⟩ := written.1
          exact inlines_link labelLine noBracket targetLine noParenthesis _

/-- The parts of a piece show what the piece becomes, and ask for its target. -/
theorem Piece.flatMap_render_parts
    {piece : Piece}
    (written : piece.IsWritten)
    (isImage : Classifier) :
    piece.parts.flatMap (·.render isImage) = piece.html isImage ∧
      piece.parts.filterMap Inline.target? = piece.target?.toList := by
  cases piece with
  | plain text | span emphasis text =>
      simp [Piece.parts, Piece.html, Piece.target?, Inline.render, Inline.target?,
        List.flatMap_map, Function.comp_def]
  | link label target =>
      simp [Piece.parts, Piece.html, Piece.target?, Inline.render, Inline.target?, written.1]

/--
Pieces between any two of which stands plain text are converted on their own, and the classifier is
asked about the targets of the links, in order.
-/
theorem transform_pieces
    (written : ∀ piece ∈ pieces, piece.IsWritten)
    (separated : AreSeparated pieces)
    (isImage : Classifier) :
    transform (.ofList (pieces.flatMap Piece.source)) isImage =
        .ofList (pieces.flatMap (Piece.html isImage)) ∧
      (transformWith (noting isImage) (.ofList (pieces.flatMap Piece.source))).run [] =
        (.ofList (pieces.flatMap (Piece.html isImage)), pieces.filterMap Piece.target?) := by
  have parts : inlines (convertSpansAndLines (pieces.flatMap Piece.source)) =
      pieces.flatMap Piece.parts := by
    rw [convertSpansAndLines_pieces written separated, inlines_pieces written]
  have rendered (piece : Piece) (isPiece : piece ∈ pieces) :=
    Piece.flatMap_render_parts (written piece isPiece) isImage
  have shown : transform (.ofList (pieces.flatMap Piece.source)) isImage =
      .ofList (pieces.flatMap (Piece.html isImage)) := by
    rw [transform_eq, String.toList_ofList, parts, List.flatMap_assoc,
      List.flatMap_congr fun piece isPiece => (rendered piece isPiece).1]
  have asked : linkTargets (.ofList (pieces.flatMap Piece.source)) =
      pieces.filterMap Piece.target? := by
    rw [linkTargets_eq, String.toList_ofList, parts, List.filterMap_flatMap,
      List.flatMap_congr fun piece isPiece => (rendered piece isPiece).2,
      List.filterMap_eq_flatMap_toList]
  exact ⟨shown, by rw [run_transformWith_noting_eq_linkTargets, shown, asked]⟩

/-- One span of each style and two links, the first of them to an image. -/
theorem transform_pieces_mixed :
    let pieces : List Piece := [.span .italic ['i'], .plain [' '], .span .bold ['b'], .plain ['\n'],
      .span .underline ['u'], .plain [']'], .link ['l'] ['x'], .plain ['('], .link [] ['y']]
    (∀ piece ∈ pieces, piece.IsWritten) ∧ AreSeparated pieces ∧
      let html := "<i>i</i> <b>b</b>\n<u>u</u>]" ++
        "<figure><img src='x' alt='l'/><figcaption>l</figcaption></figure>(<a href='y'>y</a>"
      transform "*i* **b**\n__u__][l](x)([](y)" (· == "x") = html ∧
        (transformWith (noting (· == "x")) "*i* **b**\n__u__][l](x)([](y)").run [] =
          (html, ["x", "y"]) := by
  intro pieces
  have written : ∀ piece ∈ pieces, piece.IsWritten := by
    simp [pieces, Piece.IsWritten, Piece.IsInline, marks]
  have separated : AreSeparated pieces := by
    refine .cons_cons_plain (.cons_cons_plain (.cons_cons_plain (.cons_cons_plain ?_
      (by simp) _) (by simp) _) (by simp) _) (by simp) _
    exact .single _
  exact ⟨written, separated, transform_pieces written separated _⟩

end Transform

end Document
end TemplatedMarkup
