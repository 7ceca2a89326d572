import TemplatedMarkup.Proofs.Outcome
import TemplatedMarkup.Proofs.Template.Path
import TemplatedMarkup.Proofs.Text.BlankRun

/-!
# Filter chains with single spaces

Blanks separate the parts of a filter chain and have no meaning there.  So a chain is read from a
text in which every run of blanks has given way to a space as it is from the text itself, unless a
string constant has a longer run of blanks or one of other blanks.
-/

namespace TemplatedMarkup
namespace Template

open Text (Collapses IsSpaced)

/-! ## Numbers -/

section Numbers

variable {text : List Char}

/-- The characters that numbers are spelled with. -/
def isNumeral (character : Char) : Bool :=
  character.isDigit || "+-.eE".toList.contains character

theorem isNumeral_of_isDigit {character : Char} (digit : character.isDigit = true) :
    isNumeral character = true := by
  simp [isNumeral, digit]

theorem isBlank_eq_false_of_isNumeral {character : Char} (numeral : isNumeral character = true) :
    Text.isBlank character = false :=
  Text.isBlank_eq_false_of_apart (by decide) numeral

theorem forall_isDigit_of_readNatural?
    {value : Nat}
    (read : Decimal.readNatural? text = some value) :
    ∀ character ∈ text, character.isDigit = true := by
  unfold Decimal.readNatural? at read
  split at read
  · contradiction
  · rename_i digits
    simpa using (Bool.or_eq_false_iff.mp (Bool.eq_false_of_not_eq_true digits)).2

theorem forall_isNumeral_of_readSign
    (digits : ∀ character ∈ (Decimal.readSign text).2, isNumeral character = true) :
    ∀ character ∈ text, isNumeral character = true := by
  unfold Decimal.readSign at digits
  split at digits
  · exact List.forall_mem_cons.mpr ⟨by decide, digits⟩
  · exact List.forall_mem_cons.mpr ⟨by decide, digits⟩
  · exact digits

theorem forall_isNumeral_of_readInteger?
    {value : Int}
    (read : Decimal.readInteger? text = some value) :
    ∀ character ∈ text, isNumeral character = true := by
  unfold Decimal.readInteger? at read
  cases isNatural : Decimal.readNatural? (Decimal.readSign text).2 with
  | none => simp [isNatural] at read
  | some natural =>
      exact forall_isNumeral_of_readSign fun character among =>
        isNumeral_of_isDigit (forall_isDigit_of_readNatural? isNatural character among)

theorem forall_isNumeral_of_readExponent?
    {value : Int}
    (read : Decimal.readExponent? text = some value) :
    ∀ character ∈ text, isNumeral character = true := by
  cases text with
  | nil => exact fun _ among => absurd among List.not_mem_nil
  | cons mark rest =>
      rw [Decimal.readExponent?] at read
      split at read
      · rename_i isMark
        refine List.forall_mem_cons.mpr ⟨?_, forall_isNumeral_of_readInteger? read⟩
        rcases Bool.or_eq_true_iff.mp isMark with lower | upper
        · rw [beq_iff_eq.mp lower]
          decide
        · rw [beq_iff_eq.mp upper]
          decide
      · contradiction

theorem forall_isNumeral_of_dropWhile
    (behind : ∀ character ∈ text.dropWhile Char.isDigit, isNumeral character = true) :
    ∀ character ∈ text, isNumeral character = true := by
  rw [← List.takeWhile_append_dropWhile (p := Char.isDigit) (l := text)]
  refine List.forall_mem_append.mpr ⟨fun character among => ?_, behind⟩
  exact isNumeral_of_isDigit (List.mem_takeWhile_imp among)

theorem forall_isNumeral_of_readDecimal?
    {negative : Bool}
    {value : Float}
    (read : Decimal.readDecimal? negative text = some value) :
    ∀ character ∈ text, isNumeral character = true := by
  refine forall_isNumeral_of_dropWhile ?_
  unfold Decimal.readDecimal? at read
  simp only at read
  split at read
  · rename_i rest behindWhole
    rw [behindWhole]
    split at read
    · contradiction
    · obtain ⟨exponent, isExponent, -⟩ := Option.map_eq_some_iff.mp read
      exact List.forall_mem_cons.mpr ⟨by decide,
        forall_isNumeral_of_dropWhile (forall_isNumeral_of_readExponent? isExponent)⟩
  · split at read
    · contradiction
    · obtain ⟨exponent, isExponent, -⟩ := Option.map_eq_some_iff.mp read
      exact forall_isNumeral_of_readExponent? isExponent

/-- With a point, a double is spelled with digits, a sign and an exponent. -/
theorem forall_isNumeral_of_readFloat?
    {value : Float}
    (point : '.' ∈ text)
    (read : Decimal.readFloat? text = some value) :
    ∀ character ∈ text, isNumeral character = true := by
  rw [readFloat?_of_point point] at read
  exact forall_isNumeral_of_readSign (forall_isNumeral_of_readDecimal? read)

/-- A number is spelled without blanks. -/
theorem noBlank_of_number?
    {value : Expression.Literal}
    (read : number? text = some value) :
    ∀ character ∈ text, Text.isBlank character = false := by
  suffices ∀ character ∈ text, isNumeral character = true from fun character among =>
    isBlank_eq_false_of_isNumeral (this character among)
  unfold number? at read
  split at read
  · rename_i integer isInteger
    unfold Decimal.readInt64? at isInteger
    split at isInteger
    · rename_i spelled
      exact forall_isNumeral_of_readInteger? spelled
    · contradiction
  · split at read
    · rename_i hasPoint
      obtain ⟨float, isFloat, -⟩ := Option.map_eq_some_iff.mp read
      exact forall_isNumeral_of_readFloat?
        (List.contains_iff_mem.mp (Bool.and_eq_true_iff.mp hasPoint).1) isFloat
    · contradiction

end Numbers

/-! ## Operands -/

/-- If an operand is a string constant, its blanks are single spaces. -/
def Operand.IsSpaced : Operand → Prop
  | .literal (.str text) => Text.IsSpaced text.toList
  | _ => True

/-- The blanks of all string constants of a chain are single spaces. -/
structure FilterChain.IsSpaced (chain : FilterChain) : Prop where
  /-- What the chain starts from. -/
  base : chain.base.IsSpaced
  /-- The arguments of the filters. -/
  arguments : ∀ filter ∈ chain.filters, ∀ argument ∈ filter.2, argument.IsSpaced

section Operands

variable {text collapsed content : List Char} {operand : Operand} {line : Nat}

/-- A text that has a content between quotes is that content between quotes. -/
theorem exists_eq_quotedBy
    (isQuoted : unquoted? text = some content) :
    ∃ mark, (mark = '\'' ∨ mark = '"') ∧ text = quotedBy mark content := by
  unfold unquoted? at isQuoted
  split at isQuoted
  · rename_i mark rest
    split at isQuoted
    · rename_i quotes
      obtain rfl := Option.some.inj isQuoted
      refine ⟨mark, quotes.1, ?_⟩
      rw [quotedBy, List.cons_append, List.dropLast_append_getLast? mark quotes.2]
    · contradiction
  · contradiction

theorem isNamePart_of_isIdentifier
    (identifier : isIdentifier text = true) :
    ∀ character ∈ text, Text.isNamePart character = true :=
  List.all_eq_true.mp (Bool.and_eq_true_iff.mp identifier).2

theorem noBlank_of_isIdentifier
    (identifier : isIdentifier text = true) :
    ∀ character ∈ text, Text.isBlank character = false :=
  fun character among =>
    Text.isBlank_eq_false_of_isNamePart (isNamePart_of_isIdentifier identifier character among)

theorem noBlank_of_path?
    (isPath : path? text = some operand) :
    ∀ character ∈ text, Text.isBlank character = false := by
  have joined : ['.'].intercalate (text.splitOn '.') = text := List.intercalate_splitOn '.'
  rw [← joined]
  refine forall_mem_intercalate (by simp; decide) fun part among => ?_
  refine noBlank_of_isIdentifier ?_
  unfold path? at isPath
  split at isPath
  · contradiction
  · rename_i name attributes cut
    split at isPath
    · rename_i valid
      have identifiers := (Bool.and_eq_true_iff.mp valid).1
      rw [← List.all_cons] at identifiers
      rw [cut] at among
      exact List.all_eq_true.mp identifiers part among
    · contradiction

/-- A constant whose blanks are single spaces is left alone. -/
theorem eq_of_literal?
    {value : Expression.Literal}
    (collapses : Collapses text collapsed)
    (isLiteral : literal? text = some value)
    (isSpaced : (Operand.literal value).IsSpaced) :
    collapsed = text := by
  unfold literal? at isLiteral
  split at isLiteral
  · rename_i content isQuoted
    obtain rfl := Option.some.inj isLiteral
    obtain ⟨mark, isMark, rfl⟩ := exists_eq_quotedBy isQuoted
    have notBlank : Text.isBlank mark = false := by
      rcases isMark with rfl | rfl <;> decide
    rw [quotedBy, List.cons_append] at collapses
    obtain ⟨rest, rfl, behind⟩ := collapses.exists_of_cons notBlank
    obtain ⟨inside, rfl, between⟩ := behind.exists_of_concat notBlank
    rw [between.eq_of_isSpaced (by simpa [Operand.IsSpaced] using isSpaced)]
    rfl
  · refine collapses.eq_of_noBlank ?_
    have ofKeyword (keyword : String) (noBlank : keyword.toList.any Text.isBlank = false)
        (same : String.ofList text = keyword) :
        ∀ character ∈ text, Text.isBlank character = false := by
      rw [← same, String.toList_ofList] at noBlank
      simpa using noBlank
    split at isLiteral
    · rename_i same
      exact ofKeyword _ (by decide) same
    · rename_i same
      exact ofKeyword _ (by decide) same
    · rename_i same
      exact ofKeyword _ (by decide) same
    · exact noBlank_of_number? isLiteral

/-- An operand is read from a collapsed text. -/
theorem readOperand_of_collapses
    (collapses : Collapses text collapsed)
    (read : readOperand text line = .ok operand)
    (isSpaced : operand.IsSpaced) :
    readOperand collapsed line = .ok operand := by
  have trimmed := collapses.trimWhere
  suffices Text.trimWhere Text.isBlank collapsed = Text.trimWhere Text.isBlank text by
    rwa [readOperand, this]
  unfold readOperand at read
  simp only at read
  split at read
  · rename_i value isLiteral
    obtain rfl := Except.ok.inj read
    exact eq_of_literal? trimmed isLiteral isSpaced
  · split at read
    · rename_i path isPath
      exact trimmed.eq_of_noBlank (noBlank_of_path? isPath)
    · contradiction

end Operands

/-! ## Cutting -/

section Cutting

variable {separator : Char} {text collapsed : List Char}

/-- Blanks are never cut at. -/
theorem cutUnquotedFrom_blanks
    (notBlank : Text.isBlank separator = false)
    {quote : Option Char}
    (quoteNotBlank : ∀ mark ∈ quote, Text.isBlank mark = false)
    {run : List Char}
    (areBlank : ∀ character ∈ run, Text.isBlank character = true)
    (piece rest : List Char) :
    cutUnquotedFrom separator ⟨quote, piece⟩ (run ++ rest) =
      cutUnquotedFrom separator ⟨quote, run.reverse ++ piece⟩ rest := by
  induction run generalizing piece with
  | nil => rfl
  | cons character run inductionHypothesis =>
      rw [List.forall_mem_cons] at areBlank
      have step : cutUnquotedFrom separator ⟨quote, piece⟩ (character :: (run ++ rest)) =
          cutUnquotedFrom separator ⟨quote, character :: piece⟩ (run ++ rest) := by
        have differs {other : Char} (otherNotBlank : Text.isBlank other = false) :
            character ≠ other := by
          rintro rfl
          rw [areBlank.1] at otherNotBlank
          contradiction
        rw [cutUnquotedFrom]
        cases quote with
        | none =>
            simp only [differs notBlank, @differs '\'' (by decide), @differs '"' (by decide),
              or_self, if_false]
        | some mark => simp only [differs (quoteNotBlank mark rfl), if_false]
      rw [List.cons_append, step, inductionHypothesis areBlank.2]
      simp

/-- The pieces of a collapsed text are the pieces of the text, collapsed. -/
theorem forall₂_cutUnquotedFrom
    (collapses : Collapses text collapsed)
    (notBlank : Text.isBlank separator = false)
    {quote : Option Char}
    (quoteNotBlank : ∀ mark ∈ quote, Text.isBlank mark = false)
    {piece collapsedPiece : List Char}
    (pieces : Collapses piece.reverse collapsedPiece.reverse) :
    List.Forall₂ Collapses (cutUnquotedFrom separator ⟨quote, piece⟩ text)
      (cutUnquotedFrom separator ⟨quote, collapsedPiece⟩ collapsed) := by
  induction collapses generalizing quote piece collapsedPiece with
  | nil => exact .cons pieces .nil
  | @keep character text collapsed charNotBlank _ inductionHypothesis =>
      have kept : Collapses (character :: piece).reverse (character :: collapsedPiece).reverse := by
        rw [List.reverse_cons, List.reverse_cons]
        exact pieces.append (.keep charNotBlank .nil)
      rw [cutUnquotedFrom, cutUnquotedFrom]
      cases quote with
      | some mark =>
          refine inductionHypothesis ?_ kept
          intro other isOther
          split at isOther
          · contradiction
          · exact quoteNotBlank other isOther
      | none =>
          simp only
          split
          · exact inductionHypothesis (by simpa using charNotBlank) kept
          · split
            · exact .cons pieces (inductionHypothesis (by simp) .nil)
            · exact inductionHypothesis (by simp) kept
  | @blanks run text collapsed nonempty areBlank _ inductionHypothesis =>
      rw [cutUnquotedFrom_blanks notBlank quoteNotBlank areBlank, ← List.singleton_append,
        cutUnquotedFrom_blanks notBlank quoteNotBlank
          (List.forall_mem_singleton.mpr Text.isBlank_space)]
      refine inductionHypothesis quoteNotBlank ?_
      rw [List.reverse_append, List.reverse_reverse, List.reverse_append]
      simpa using pieces.append (Collapses.nil.blanks nonempty areBlank)

theorem forall₂_cutUnquoted
    (collapses : Collapses text collapsed)
    (notBlank : Text.isBlank separator = false) :
    List.Forall₂ Collapses (cutUnquoted separator text) (cutUnquoted separator collapsed) :=
  forall₂_cutUnquotedFrom collapses notBlank (by simp) .nil

end Cutting

/-! ## Chains -/

section Chains

variable {text collapsed : List Char} {line : Nat}

theorem collapses_headD
    {parts collapsedParts : List (List Char)}
    (pieces : List.Forall₂ Collapses parts collapsedParts) :
    Collapses (parts.headD []) (collapsedParts.headD []) := by
  cases pieces with
  | nil => exact .nil
  | cons first _ => exact first

theorem forall₂_tail
    {parts collapsedParts : List (List Char)}
    (pieces : List.Forall₂ Collapses parts collapsedParts) :
    List.Forall₂ Collapses parts.tail collapsedParts.tail := by
  cases pieces with
  | nil => exact .nil
  | cons _ others => exact others

theorem collapses_intercalate
    {separator : Char}
    (notBlank : Text.isBlank separator = false)
    {parts collapsedParts : List (List Char)}
    (pieces : List.Forall₂ Collapses parts collapsedParts) :
    Collapses ([separator].intercalate parts) ([separator].intercalate collapsedParts) := by
  induction pieces with
  | nil => exact .nil
  | cons first others inductionHypothesis =>
      cases others with
      | nil => simpa using first
      | cons second others =>
          rw [List.intercalate_cons_cons, List.intercalate_cons_cons]
          exact (first.append (.keep notBlank .nil)).append inductionHypothesis

/-- A filter is read from a collapsed text. -/
theorem readFilter_of_collapses
    {filter : String × Option Operand}
    (collapses : Collapses text collapsed)
    (read : readFilter line text = .ok filter)
    (isSpaced : ∀ argument ∈ filter.2, argument.IsSpaced) :
    readFilter line collapsed = .ok filter := by
  have pieces := @forall₂_cutUnquoted ':' _ _ collapses (by decide)
  unfold readFilter at read ⊢
  simp only at read ⊢
  split at read
  · rename_i identifier
    have sameName := (collapses_headD pieces).trimWhere.eq_of_noBlank
      (noBlank_of_isIdentifier identifier)
    rw [sameName, if_pos identifier]
    have arguments := forall₂_tail pieces
    generalize (cutUnquoted ':' text).tail = written at read arguments
    generalize (cutUnquoted ':' collapsed).tail = collapsedWritten at arguments
    cases arguments with
    | nil => exact read
    | cons first others =>
        obtain ⟨argument, isArgument, isFilter⟩ := exists_of_bind_eq_ok read
        obtain rfl := Except.ok.inj isFilter
        have joined := @collapses_intercalate ':' (by decide) _ _ (.cons first others)
        have argumentRead := readOperand_of_collapses joined isArgument (isSpaced argument rfl)
        simp only [argumentRead]
        rfl
  · contradiction

/-- Filters are read from collapsed texts. -/
theorem mapM_readFilter_of_collapses
    {parts collapsedParts : List (List Char)}
    {filters : List (String × Option Operand)}
    (pieces : List.Forall₂ Collapses parts collapsedParts)
    (read : parts.mapM (readFilter line) = .ok filters)
    (isSpaced : ∀ filter ∈ filters, ∀ argument ∈ filter.2, argument.IsSpaced) :
    collapsedParts.mapM (readFilter line) = .ok filters := by
  induction pieces generalizing filters with
  | nil => exact read
  | cons first _ inductionHypothesis =>
      rw [List.mapM_cons] at read ⊢
      obtain ⟨filter, isFilter, rest⟩ := exists_of_bind_eq_ok read
      obtain ⟨others, areOthers, isAll⟩ := exists_of_bind_eq_ok rest
      obtain rfl := Except.ok.inj isAll
      rw [List.forall_mem_cons] at isSpaced
      rw [readFilter_of_collapses first isFilter isSpaced.1,
        inductionHypothesis areOthers isSpaced.2]
      rfl

/-- A filter chain is read from a collapsed text. -/
theorem readChain_of_collapses
    {chain : FilterChain}
    (collapses : Collapses text collapsed)
    (read : readChain text line = .ok chain)
    (isSpaced : chain.IsSpaced) :
    readChain collapsed line = .ok chain := by
  have pieces := @forall₂_cutUnquoted '|' _ _ collapses (by decide)
  obtain ⟨base, isBase, rest⟩ := exists_of_bind_eq_ok read
  obtain ⟨filters, areFilters, isChain⟩ := exists_of_bind_eq_ok rest
  obtain rfl := Except.ok.inj isChain
  have baseRead := readOperand_of_collapses (collapses_headD pieces) isBase isSpaced.base
  have filtersRead :=
    mapM_readFilter_of_collapses (forall₂_tail pieces) areFilters isSpaced.arguments
  rw [readChain]
  simp only [baseRead, filtersRead]
  rfl

end Chains

end Template
end TemplatedMarkup
