import TemplatedMarkup.Proofs.Expression.Lexed
import TemplatedMarkup.Proofs.Expression.PrintedLine
import TemplatedMarkup.Proofs.Template.Source
import TemplatedMarkup.Template.Eval

/-!
# Dotted paths

Names with points between them are a path.  A path is an operand of filter chains and an expression
whose attributes are subscripts.
-/

namespace TemplatedMarkup
namespace Template

open Expression (IsName IsWord)

/-- A path goes from a name, which is not hidden, through attributes that call no method. -/
structure IsPath (name : String) (attributes : List String) : Prop where
  /-- A path starts at a name. -/
  identifier : Expression.tokenize name = .ok [.name name]
  /-- A name with an underscore at its start is hidden. -/
  notHidden : name.toList.head? ≠ some '_'
  /-- Attributes are names. -/
  identifiers : ∀ segment ∈ attributes, Expression.tokenize segment = .ok [.name segment]
  /-- No attribute calls a method. -/
  noMethod : ∀ segment ∈ attributes, segment ∉ attributeMethods

/-- The names are the texts that are their own only token. -/
theorem tokenize_eq_iff_isName {name : String} :
    Expression.tokenize name = .ok [.name name] ↔ IsName name := by
  constructor
  · exact fun identifier => (Expression.lexes_of_lex identifier).lexed (.name name) (by simp)
  · intro isName
    have read := @Expression.lex_name name [] isName (by simp [Expression.StartsApart])
    rwa [List.append_nil, Expression.lex_nil] at read

namespace IsPath

variable {name : String} {attributes : List String}

theorem isName (isPath : IsPath name attributes) : IsName name :=
  tokenize_eq_iff_isName.mp isPath.identifier

theorem areNames (isPath : IsPath name attributes) : ∀ segment ∈ attributes, IsName segment :=
  fun segment among => tokenize_eq_iff_isName.mp (isPath.identifiers segment among)

theorem isName_of_mem
    {segment : String}
    (isPath : IsPath name attributes)
    (among : segment ∈ name :: attributes) :
    IsName segment :=
  List.forall_mem_cons.mpr ⟨isPath.isName, isPath.areNames⟩ segment among

end IsPath

/-- A path as it is written. -/
def pathText (name : String) (attributes : List String) : List Char :=
  ['.'].intercalate ((name :: attributes).map String.toList)

theorem pathText_nil (name : String) : pathText name [] = name.toList :=
  List.intercalate_singleton

theorem pathText_cons (name segment : String) (attributes : List String) :
    pathText name (segment :: attributes) =
      name.toList ++ '.' :: pathText segment attributes := by
  rw [pathText, List.map_cons, List.map_cons, List.intercalate_cons_cons, ← List.map_cons,
    ← pathText, List.append_assoc]
  rfl

/-! ## Characters -/

section Characters

variable {name : String} {attributes : List String}

/-- A path starts as a name does. -/
theorem exists_pathText_eq (isName : IsName name) (attributes : List String) :
    ∃ first rest, pathText name attributes = first :: rest ∧ Text.isNameStart first = true := by
  have isWord := isName.isWord
  have starts : ∃ rest, pathText name attributes = name.toList ++ rest := by
    cases attributes with
    | nil => exact ⟨[], by rw [pathText_nil, List.append_nil]⟩
    | cons segment attributes => exact ⟨_, pathText_cons _ _ _⟩
  obtain ⟨rest, isText⟩ := starts
  cases written : name.toList with
  | nil =>
      rw [written] at isWord
      exact isWord.elim
  | cons first parts =>
      rw [written] at isWord isText
      exact ⟨first, parts ++ rest, isText, isWord.1⟩

/-- What holds of a separator and of parts holds of the parts with the separator in between. -/
theorem forall_mem_intercalate
    {Holds : Char → Prop}
    {separator : List Char}
    {parts : List (List Char)}
    (ofSeparator : ∀ character ∈ separator, Holds character)
    (ofParts : ∀ part ∈ parts, ∀ character ∈ part, Holds character) :
    ∀ character ∈ separator.intercalate parts, Holds character := by
  induction parts with
  | nil => simp
  | cons part parts inductionHypothesis =>
      rw [List.forall_mem_cons] at ofParts
      cases parts with
      | nil => simpa using ofParts.1
      | cons other parts =>
          rw [List.intercalate_cons_cons, List.forall_mem_append, List.forall_mem_append]
          exact ⟨⟨ofParts.1, ofSeparator⟩, inductionHypothesis ofParts.2⟩

/-- A path is made of characters of names, and points. -/
theorem IsPath.isNamePart_or_eq (isPath : IsPath name attributes) :
    ∀ character ∈ pathText name attributes,
      Text.isNamePart character = true ∨ character = '.' := by
  refine forall_mem_intercalate (by simp) fun part among => ?_
  obtain ⟨segment, isSegment, rfl⟩ := List.mem_map.mp among
  have isName := isPath.isName_of_mem isSegment
  exact fun character inName => .inl (isName.isWord.isNamePart character inName)

/-- What is neither a character of names nor a point is not in a path. -/
theorem IsPath.not_mem
    (isPath : IsPath name attributes)
    {character : Char}
    (noPart : Text.isNamePart character = false)
    (noPoint : character ≠ '.') :
    character ∉ pathText name attributes := by
  intro among
  rcases isPath.isNamePart_or_eq character among with part | point
  · rw [noPart] at part
    contradiction
  · exact noPoint point

theorem IsPath.isUnbroken (isPath : IsPath name attributes) :
    Text.IsUnbroken (pathText name attributes) := by
  constructor
  · obtain ⟨first, rest, isText, -⟩ := exists_pathText_eq isPath.isName attributes
    rw [isText]
    exact List.cons_ne_nil _ _
  · intro character among
    rcases isPath.isNamePart_or_eq character among with part | rfl
    · exact Text.isBlank_eq_false_of_isNamePart part
    · decide

end Characters

/-! ## Operands -/

section Operands

/-- A text without quotes and separators is not cut. -/
theorem cutUnquoted_of_not_mem
    {separator : Char}
    {text : List Char}
    (noSingle : '\'' ∉ text)
    (noDouble : '"' ∉ text)
    (noSeparator : separator ∉ text) :
    cutUnquoted separator text = [text] := by
  suffices ∀ piece, cutUnquotedFrom separator ⟨none, piece⟩ text = [piece.reverse ++ text] from
    this []
  induction text with
  | nil => simp [cutUnquotedFrom]
  | cons character text inductionHypothesis =>
      intro piece
      rw [List.mem_cons, not_or] at noSingle noDouble noSeparator
      have noQuote : ¬(character = '\'' ∨ character = '"') :=
        not_or.mpr ⟨Ne.symm noSingle.1, Ne.symm noDouble.1⟩
      rw [cutUnquotedFrom]
      simp only [if_neg noQuote, if_neg (Ne.symm noSeparator.1)]
      rw [inductionHypothesis noSingle.2 noDouble.2 noSeparator.2]
      simp

section Numbers

variable {first : Char} {rest : List Char}

theorem readSign_of_isNamePart
    (part : Text.isNamePart first = true) :
    Decimal.readSign (first :: rest) = (false, first :: rest) := by
  have noMinus := Text.ne_of_isNamePart part '-' (by decide) rfl
  have noPlus := Text.ne_of_isNamePart part '+' (by decide) rfl
  rw [Decimal.readSign.eq_3 _ (by simp [noMinus]) (by simp [noPlus])]

/-- What starts as a name does is no integer. -/
theorem readInt64?_of_isNameStart
    (start : Text.isNameStart first = true) :
    Decimal.readInt64? (first :: rest) = none := by
  have noSign := @readSign_of_isNamePart first rest (Text.isNamePart_of_isNameStart start)
  have noDigit := Text.isDigit_eq_false_of_isNameStart start
  simp [Decimal.readInt64?, Decimal.readInteger?, noSign, Decimal.readNatural?, noDigit]

/-- A text with a point is no special value. -/
theorem readFloat?_of_point
    {text : List Char}
    (point : '.' ∈ text) :
    Decimal.readFloat? text =
      Decimal.readDecimal? (Decimal.readSign text).1 (Decimal.readSign text).2 := by
  have behindSign : '.' ∈ (Decimal.readSign text).2 := by
    unfold Decimal.readSign
    split <;> simpa using point
  have lowered : '.' ∈ (Decimal.readSign text).2.map Char.toLower :=
    List.mem_map.mpr ⟨'.', behindSign, by decide⟩
  have notSpecial (special : String) (pointless : '.' ∉ special.toList) :
      String.ofList ((Decimal.readSign text).2.map Char.toLower) ≠ special := by
    rintro rfl
    rw [String.toList_ofList] at pointless
    exact pointless lowered
  unfold Decimal.readFloat?
  simp only
  split
  · rename_i same
    exact absurd same (notSpecial _ (by decide))
  · rename_i same
    exact absurd same (notSpecial _ (by decide))
  · rename_i same
    exact absurd same (notSpecial _ (by decide))
  · rfl

/-- What starts as a name does is no number. -/
theorem number?_of_isNameStart
    (start : Text.isNameStart first = true) :
    number? (first :: rest) = none := by
  have part := Text.isNamePart_of_isNameStart start
  have noDigit := Text.isDigit_eq_false_of_isNameStart start
  have noPoint := Text.ne_of_isNamePart part '.' (by decide) rfl
  have noDecimal : Decimal.readDecimal? false (first :: rest) = none := by
    simp [Decimal.readDecimal?, noDigit, noPoint]
  rw [number?, readInt64?_of_isNameStart start]
  simp only [ite_eq_right_iff]
  intro hasPoint
  rw [readFloat?_of_point (List.contains_iff_mem.mp (Bool.and_eq_true_iff.mp hasPoint).1),
    readSign_of_isNamePart part, noDecimal, Option.map_none]

end Numbers

variable {name : String} {attributes : List String}

/-- A path is cut into its names. -/
theorem IsPath.splitOn_pathText (isPath : IsPath name attributes) :
    (pathText name attributes).splitOn '.' = (name :: attributes).map String.toList := by
  refine List.splitOn_intercalate '.' (fun written among => ?_) (by simp)
  obtain ⟨segment, isSegment, rfl⟩ := List.mem_map.mp among
  have isName := isPath.isName_of_mem isSegment
  exact fun point => absurd (isName.isWord.isNamePart '.' point) (by decide)

/-- A path is no keyword. -/
theorem IsPath.ofList_pathText_ne
    (isPath : IsPath name attributes)
    (keyword : String)
    (isKeyword : (Expression.Symbol.ofWord? keyword).isSome = true)
    (pointless : '.' ∉ keyword.toList) :
    String.ofList (pathText name attributes) ≠ keyword := by
  intro same
  have cut := isPath.splitOn_pathText
  rw [← String.toList_ofList (l := pathText name attributes), same,
    List.splitOn_eq_singleton pointless] at cut
  obtain ⟨isName, -⟩ := List.cons.inj cut
  rw [String.toList_inj.mp isName, isPath.isName.noKeyword] at isKeyword
  contradiction

/-- A path is no constant. -/
theorem IsPath.literal? (isPath : IsPath name attributes) :
    literal? (pathText name attributes) = none := by
  have notTrue := isPath.ofList_pathText_ne "True" (by decide) (by decide)
  have notFalse := isPath.ofList_pathText_ne "False" (by decide) (by decide)
  have notNone := isPath.ofList_pathText_ne "None" (by decide) (by decide)
  obtain ⟨first, rest, isText, start⟩ := exists_pathText_eq isPath.isName attributes
  have part := Text.isNamePart_of_isNameStart start
  have noSingle := Text.ne_of_isNamePart part '\'' (by decide) rfl
  have noDouble := Text.ne_of_isNamePart part '"' (by decide) rfl
  have noQuotes : unquoted? (first :: rest) = none := by
    simp [unquoted?, noSingle, noDouble]
  rw [isText] at notTrue notFalse notNone ⊢
  simp only [Template.literal?, noQuotes]
  exact number?_of_isNameStart start

theorem isIdentifier_of_isName
    {segment : String}
    (isName : IsName segment) :
    isIdentifier segment.toList = true := by
  have nonempty : segment.toList ≠ [] := by
    intro empty
    have isWord := isName.isWord
    rw [empty] at isWord
    exact isWord.elim
  rw [isIdentifier, List.isEmpty_eq_false_iff.mpr nonempty, Bool.not_false, Bool.true_and,
    List.all_eq_true]
  exact isName.isWord.isNamePart

theorem IsPath.path? (isPath : IsPath name attributes) :
    path? (pathText name attributes) = some (.path name attributes) := by
  have areIdentifiers : (attributes.map String.toList).all isIdentifier = true := by
    simpa using fun segment among => isIdentifier_of_isName (isPath.areNames segment among)
  rw [Template.path?, isPath.splitOn_pathText, List.map_cons]
  simp [isIdentifier_of_isName isPath.isName, areIdentifiers, isPath.notHidden]

/-- A path is a chain without filters. -/
theorem IsPath.readChain (isPath : IsPath name attributes) (line : Nat) :
    readChain (pathText name attributes) line = .ok ⟨.path name attributes, []⟩ := by
  have single : cutUnquoted '|' (pathText name attributes) = [pathText name attributes] :=
    cutUnquoted_of_not_mem (isPath.not_mem (by decide) (by decide))
      (isPath.not_mem (by decide) (by decide)) (isPath.not_mem (by decide) (by decide))
  rw [Template.readChain, single, List.headD_cons, readOperand, isPath.isUnbroken.trimWhere_eq,
    isPath.literal?, isPath.path?]
  rfl

end Operands

end Template
end TemplatedMarkup
