import TemplatedMarkup.Document.Filter
import TemplatedMarkup.Proofs.Document.DeclaredName

/-!
# Lines that are written

A declaration and the definition of a filter may be written with blanks around all of their parts.
Whatever these blanks are, and whichever punctuation the expression holds, reading the lines gives
back what was written: the first mark behind a word is the one that the line has there, and the
expression is all that follows the arrow.
-/

namespace TemplatedMarkup
namespace Document

open Text

/-- Blanks that stand around a part of a line. -/
structure Gap where
  /-- The blanks. -/
  text : List Char
  /-- They are blanks. -/
  blank : IsBlankRun text

/-- Blanks that do not end a line. -/
structure LineGap extends Gap where
  /-- There is no line feed. -/
  oneLine : '\n' ∉ text

/-- A text on one line without blanks at its ends. -/
structure IsTrimmedLine (text : String) : Prop where
  /-- There is no line feed. -/
  oneLine : '\n' ∉ text.toList
  /-- Trimming leaves the text as it is. -/
  trimmed : trim text = text

/-- What is left of a trimmed text between blanks is the text. -/
theorem IsTrimmedLine.trimWhere_append
    {text : String}
    (isTrimmed : IsTrimmedLine text)
    (before behind : Gap) :
    trimWhere isBlank (before.text ++ text.toList ++ behind.text) = text.toList := by
  refine Text.trimWhere_append ?_ before.blank behind.blank
  have same := congrArg String.toList isTrimmed.trimmed
  rwa [trim, String.toList_ofList] at same

/-! ## Declarations -/

/-- The word that a kind is declared with. -/
def DeclaredKind.word : DeclaredKind → String
  | .list => "list"
  | .dict => "dict"
  | .str => "str"

@[simp] theorem DeclaredKind.ofWord?_word (kind : DeclaredKind) :
    ofWord? kind.word = some kind := by
  cases kind <;> rfl

theorem DeclaredKind.isWordRun_word (kind : DeclaredKind) :
    IsWordRun kind.word.toList :=
  isWordRun_of_mem_kindWords _ (mem_kindWords_iff.mpr ⟨kind, kind.ofWord?_word⟩)

/-- What stands on a line in front of the expression that it declares. -/
def declarationHead
    (declared : Declaration)
    (indent behindName behindColon behindKind : Gap) : List Char :=
  indent.text ++ declared.name.toList ++ behindName.text ++ [':'] ++ behindColon.text ++
    declared.kind.word.toList ++ behindKind.text ++ ['=', '>']

/-- A line of a context block as it is written. -/
inductive WrittenLine where
  /-- A blank line. -/
  | blank (gap : LineGap)
  /-- A declaration of a word with a trimmed expression, which may be empty. -/
  | declaration
      (declared : Declaration)
      (isName : IsWordRun declared.name.toList)
      (isTrimmed : IsTrimmedLine declared.expression)
      (indent behindName behindColon behindKind behindArrow atEnd : LineGap)

namespace WrittenLine

/-- What is declared on a line. -/
def declaration? : WrittenLine → Option Declaration
  | .blank _ => none
  | .declaration declared .. => some declared

/-- The text of a line. -/
def source : WrittenLine → List Char
  | .blank gap => gap.text
  | .declaration declared _ _ indent behindName behindColon behindKind behindArrow atEnd =>
      declarationHead declared indent.toGap behindName.toGap behindColon.toGap behindKind.toGap ++
        (behindArrow.text ++ declared.expression.toList ++ atEnd.text)

/-- The text of a block with lines. -/
def blockText (lines : List WrittenLine) : String :=
  .ofList (['\n'].intercalate (lines.map source))

theorem oneLine_source (line : WrittenLine) : '\n' ∉ line.source := by
  cases line with
  | blank gap => exact gap.oneLine
  | declaration declared isName isTrimmed indent behindName behindColon behindKind behindArrow
      atEnd =>
      have noFeed {word : List Char} (isRun : IsWordRun word) : '\n' ∉ word := fun among =>
        absurd (isRun.wordParts '\n' among) (by decide)
      simp [source, declarationHead, indent.oneLine, behindName.oneLine, behindColon.oneLine,
        behindKind.oneLine, behindArrow.oneLine, atEnd.oneLine, isTrimmed.oneLine, noFeed isName,
        noFeed declared.kind.isWordRun_word]

end WrittenLine

/-- What a line of a block holds: nothing when it is blank, and otherwise a declaration. -/
inductive Holds (line : List Char) : Option Declaration → Prop
  /-- The line is blank. -/
  | nothing
      (blank : line.all isBlank = true) :
      Holds line none
  /-- A declaration is read from the line, whatever its number is. -/
  | declaration {declared : Declaration}
      (notBlank : line.all isBlank = false)
      (onLine : ∀ number, declarationOnLine number line = .ok declared) :
      Holds line (some declared)

/-- Lines that are blank or hold declarations are read in either mode. -/
theorem readDeclarations_of_holds
    {strict : Bool}
    {number : Nat}
    {lines : List (List Char)}
    {found : List (Option Declaration)}
    (holds : List.Forall₂ Holds lines found) :
    readDeclarations strict number lines = .ok (found.filterMap id) := by
  induction holds generalizing number with
  | nil => rfl
  | cons first _ inductionHypothesis =>
      rw [readDeclarations]
      cases first with
      | nothing blank =>
          rw [if_pos blank, inductionHypothesis]
          rfl
      | declaration notBlank onLine =>
          rw [if_neg (by simp [notBlank]), onLine, inductionHypothesis]
          rfl

/-- A line that starts as a declaration declares what follows the arrow, blanks apart. -/
theorem holds_of_trimWhere
    {declared : Declaration}
    (isName : IsWordRun declared.name.toList)
    (indent behindName behindColon behindKind : Gap)
    {expression : List Char}
    (trimmed : trimWhere isBlank expression = declared.expression.toList) :
    Holds (declarationHead declared indent behindName behindColon behindKind ++ expression)
      (some declared) := by
  have blanks : ∀ gap ∈ [indent.text, behindName.text, behindColon.text, behindKind.text],
      IsBlankRun gap := by
    simpa using ⟨indent.blank, behindName.blank, behindColon.blank, behindKind.blank⟩
  have read := readDeclaration?_append isName declared.kind.isWordRun_word blanks expression
  refine .declaration ?_ fun number => ?_
  · obtain ⟨first, among⟩ := List.exists_mem_of_ne_nil _ isName.nonempty
    have noBlank := isBlank_eq_false_of_isWordPart (isName.wordParts first among)
    exact List.all_eq_false.mpr ⟨first, by simp [declarationHead, among], by simp [noBlank]⟩
  · rw [trimmed] at read
    have parts : declarationHead declared indent behindName behindColon behindKind ++ expression =
        indent.text ++ (declared.name.toList ++ (behindName.text ++ [':'] ++ (behindColon.text ++
          (declared.kind.word.toList ++ (behindKind.text ++ ['=', '>'] ++ expression))))) := by
      simp [declarationHead]
    rw [declarationOnLine, parts, read]
    simp

namespace WrittenLine

/-- A line holds what is declared on it, with a carriage return at its end or without it. -/
theorem holds_source (line : WrittenLine) :
    Holds line.source line.declaration? ∧
      Holds (dropCarriageReturn line.source) line.declaration? := by
  cases line with
  | blank gap =>
      have all : gap.text.all isBlank = true := List.all_eq_true.mpr gap.blank
      refine ⟨.nothing all, .nothing (List.all_eq_true.mpr fun character among => ?_)⟩
      refine gap.blank character ?_
      rw [dropCarriageReturn] at among
      split at among
      · exact List.dropLast_subset _ among
      · exact among
  | declaration declared isName isTrimmed indent behindName behindColon behindKind behindArrow
      atEnd =>
      have trimmed := isTrimmed.trimWhere_append behindArrow.toGap atEnd.toGap
      have holds {expression : List Char}
          (trimmed : trimWhere isBlank expression = declared.expression.toList) :=
        holds_of_trimWhere isName indent.toGap behindName.toGap behindColon.toGap
          behindKind.toGap trimmed
      refine ⟨holds trimmed, ?_⟩
      -- A carriage return at the end of the line stands behind the arrow.
      have endsHead : (declarationHead declared indent.toGap behindName.toGap behindColon.toGap
          behindKind.toGap).getLast? = some '>' := by
        rw [declarationHead, List.getLast?_append]
        rfl
      rw [source, dropCarriageReturn_append_of_getLast? endsHead (by decide)]
      exact holds ((trimWhere_dropCarriageReturn _).trans trimmed)

/-- The lines of a block that is written hold what is declared on them. -/
theorem exists_holds_lineLists (lines : List WrittenLine) :
    ∃ found, List.Forall₂ Holds (lineLists (blockText lines).toList) found ∧
      found.filterMap id = lines.filterMap declaration? := by
  have all (others : List WrittenLine) :
      List.Forall₂ Holds (others.map fun line => dropCarriageReturn line.source)
        (others.map declaration?) := by
    rw [List.forall₂_map_left_iff, List.forall₂_map_right_iff, List.forall₂_same]
    exact fun line _ => line.holds_source.2
  have oneLines (others : List WrittenLine) : ∀ text ∈ others.map source, '\n' ∉ text :=
    List.forall_mem_map.mpr fun line _ => line.oneLine_source
  rw [blockText, String.toList_ofList]
  cases lines using List.reverseRecOn with
  | nil => exact ⟨[], .nil, rfl⟩
  | append_singleton lines last _ =>
      rw [List.map_append, List.map_singleton]
      by_cases isEmpty : last.source = []
      · have nothing : last.declaration? = none := by
          cases last with
          | blank gap => rfl
          | declaration => simp [source, declarationHead] at isEmpty
        rw [isEmpty, lineLists_intercalate_append_nil (oneLines lines), List.map_map]
        exact ⟨_, all lines, by simp [nothing]⟩
      · have separate := oneLines (lines ++ [last])
        rw [List.map_append, List.map_singleton] at separate
        rw [lineLists_intercalate_append separate isEmpty, List.map_map]
        refine ⟨(lines ++ [last]).map declaration?, ?_, List.filterMap_map⟩
        rw [List.map_append]
        exact List.rel_append (all lines) (.cons last.holds_source.1 .nil)

end WrittenLine

/-! ## Filters -/

/-- A parameter of a filter, behind the mark in front of it. -/
structure WrittenArgument where
  /-- The parameter. -/
  name : String
  /-- The parameter is a word. -/
  isName : IsWordRun name.toList
  /-- The blanks behind the comma. -/
  behindComma : Gap
  /-- The blanks behind the parameter. -/
  behindName : Gap

/-- The line of a filter as it is written. -/
structure WrittenFilter where
  /-- The name of the filter. -/
  name : String
  /-- The name is a word. -/
  isName : IsWordRun name.toList
  /-- The parameter for the filtered value. -/
  value : String
  /-- The parameter is a word. -/
  isValue : IsWordRun value.toList
  /-- The parameter for the argument, if there is one. -/
  argument : Option WrittenArgument
  /-- The text of the expression. -/
  body : String
  /-- There is a text. -/
  nonempty : body ≠ ""
  /-- The text stands on one line. -/
  isTrimmed : IsTrimmedLine body
  /-- The blanks in front of the name. -/
  indent : Gap
  /-- The blanks behind the name. -/
  behindName : Gap
  /-- The blanks behind the opening parenthesis. -/
  behindOpening : Gap
  /-- The blanks behind the parameter for the value. -/
  behindValue : Gap
  /-- The blanks behind the closing parenthesis. -/
  behindClosing : Gap
  /-- The blanks behind the arrow. -/
  behindArrow : Gap
  /-- The blanks at the end. -/
  atEnd : Gap

/-- A text starts with no blank when it starts with a mark. -/
theorem isBlank_eq_false_of_head?_cons
    {mark : Char}
    (noBlank : isBlank mark = false)
    (rest : List Char) :
    ∀ first ∈ (mark :: rest).head?, isBlank first = false := by
  simpa using noBlank

namespace WrittenArgument

/-- A comma and a parameter, if there is one. -/
def source : Option WrittenArgument → List Char
  | none => []
  | some argument =>
      [','] ++ (argument.behindComma.text ++ (argument.name.toList ++ argument.behindName.text))

/-- The blanks in front of the closing parenthesis. -/
def lastGap (behindValue : Gap) : Option WrittenArgument → Gap
  | none => behindValue
  | some argument => argument.behindName

variable
  (behindValue : Gap)
  (argument : Option WrittenArgument)
  (rest : List Char)

/-- The word of a parameter ends in front of what follows it. -/
theorem isWordPart_eq_false_of_head? :
    ∀ first ∈ (behindValue.text ++ source argument ++ ([')'] ++ rest)).head?,
      isWordPart first = false := by
  cases argument with
  | none =>
      have apart := @Document.isWordPart_eq_false_of_head? [] behindValue.text ')'
        behindValue.blank (by decide) rest
      simpa [source] using apart
  | some argument =>
      have apart := @Document.isWordPart_eq_false_of_head? [] behindValue.text ','
        behindValue.blank (by decide) (argument.behindComma.text ++ (argument.name.toList ++
          argument.behindName.text) ++ ([')'] ++ rest))
      simpa [source] using apart

/-- A second parameter is read when there is one, and nothing of the text otherwise. -/
theorem readSecondParameter_source :
    readSecondParameter (behindValue.text ++ source argument ++ ([')'] ++ rest)) =
      (argument.map (·.name.toList), (lastGap behindValue argument).text ++ [')'] ++ rest) := by
  cases argument with
  | none =>
      have reached : skipBlanks (behindValue.text ++ ([')'] ++ rest)) = ')' :: rest :=
        skipBlanks_append behindValue.blank (isBlank_eq_false_of_head?_cons (by decide) rest)
      have noComma : skipMark? [','] (behindValue.text ++ ([')'] ++ rest)) = none := by
        rw [skipMark?, reached]
        rfl
      rw [source, List.append_nil, readSecondParameter, noComma]
      simp [lastGap]
  | some argument =>
      have comma : skipMark? [','] (behindValue.text ++ source (some argument) ++
          ([')'] ++ rest)) =
          some (argument.name.toList ++ (argument.behindName.text ++ [')'] ++ rest)) := by
        have skipped := @skipMark?_append [] _ behindValue.text argument.behindComma.text ','
          behindValue.blank argument.behindComma.blank (by decide)
          (isBlank_eq_false_of_head? argument.isName (argument.behindName.text ++ [')'] ++ rest))
        simpa [source] using skipped
      have parameter := spanWord_append argument.isName.wordParts
        (@Document.isWordPart_eq_false_of_head? [] argument.behindName.text ')'
          argument.behindName.blank (by decide) rest)
      simp only [readSecondParameter, comma, parameter,
        List.isEmpty_eq_false_iff.mpr argument.isName.nonempty]
      rfl

end WrittenArgument

namespace WrittenFilter

/-- The filter that a line defines. -/
def definition (filter : WrittenFilter) : FilterDefinition :=
  ⟨filter.name, filter.value, filter.argument.map (·.name), filter.body⟩

/-- What stands behind the arrow of a filter. -/
def bodySource (filter : WrittenFilter) : List Char :=
  filter.behindArrow.text ++ filter.body.toList ++ filter.atEnd.text

/-- What stands behind the parameters of a filter. -/
def arrowSource (filter : WrittenFilter) : List Char :=
  filter.behindClosing.text ++ (['<', '='] ++ filter.bodySource)

/-- The text of a line. -/
def source (filter : WrittenFilter) : List Char :=
  filter.indent.text ++ (filter.name.toList ++ (filter.behindName.text ++ ['('] ++
    (filter.behindOpening.text ++ (filter.value.toList ++ (filter.behindValue.text ++
      WrittenArgument.source filter.argument ++ ([')'] ++ filter.arrowSource))))))

/-- The body of a filter is all that stands behind the arrow, blanks apart. -/
theorem readFilterBody?_bodySource (filter : WrittenFilter) :
    readFilterBody? filter.bodySource = some filter.body.toList := by
  have trimmed := filter.isTrimmed.trimWhere_append filter.behindArrow filter.atEnd
  have nonempty : filter.body.toList ≠ [] := by
    simpa using filter.nonempty
  simp only [readFilterBody?, bodySource, trimmed, List.isEmpty_eq_false_iff.mpr nonempty]
  rw [if_neg (by simp), if_neg (by simpa using filter.isTrimmed.oneLine)]

/-- The parameters of a filter end at the parenthesis in front of its arrow. -/
theorem skipMark?_arrowSource (filter : WrittenFilter) :
    skipMark? [')'] ((WrittenArgument.lastGap filter.behindValue filter.argument).text ++ [')'] ++
        filter.arrowSource) =
      some (['<', '='] ++ filter.bodySource) :=
  skipMark?_append (WrittenArgument.lastGap filter.behindValue filter.argument).blank
    filter.behindClosing.blank (by decide) (isBlank_eq_false_of_head?_cons (by decide) _)

/-- A line that is written is read back, whatever its blanks are. -/
theorem readFilter?_source (filter : WrittenFilter) :
    readFilter? (.ofList filter.source) = some filter.definition := by
  have atArrow : skipBlanks (['<', '='] ++ filter.bodySource) = ['<', '='] ++ filter.bodySource :=
    dropWhile_eq_self (isBlank_eq_false_of_head?_cons (by decide) _)
  rw [readFilter?, String.toList_ofList, source, skipBlanks_append filter.indent.blank
      (isBlank_eq_false_of_head? filter.isName _),
    spanWord_append filter.isName.wordParts
      (isWordPart_eq_false_of_head? filter.behindName.blank (by decide) _)]
  simp only
  rw [skipMark?_append filter.behindName.blank filter.behindOpening.blank (by decide)
    (isBlank_eq_false_of_head? filter.isValue _)]
  simp only [bind, Option.bind]
  rw [spanWord_append filter.isValue.wordParts
    (WrittenArgument.isWordPart_eq_false_of_head? filter.behindValue filter.argument _)]
  simp only [List.isEmpty_eq_false_iff.mpr filter.isName.nonempty,
    List.isEmpty_eq_false_iff.mpr filter.isValue.nonempty,
    WrittenArgument.readSecondParameter_source, skipMark?_arrowSource, atArrow]
  have starts : "<=".toList.isPrefixOf (['<', '='] ++ filter.bodySource) = true := rfl
  have body : (['<', '='] ++ filter.bodySource).drop 2 = filter.bodySource := rfl
  rw [if_neg (by simp), if_pos starts, body, readFilterBody?_bodySource]
  simp [definition, pure, Function.comp_def]

end WrittenFilter

/--
Reading gives back what is written: the declarations of a block in order, in strict mode and
otherwise, and the filter of a line.  Names and parameters are words, expressions and bodies are
trimmed texts on one line that may hold any punctuation, and blanks may stand around every part.
-/
theorem readsBack_written :
    (∀ (lines : List WrittenLine) (strict : Bool),
      declarations (WrittenLine.blockText lines) strict =
        .ok (lines.filterMap WrittenLine.declaration?)) ∧
    ∀ filter : WrittenFilter,
      readFilter? (.ofList filter.source) = some filter.definition := by
  refine ⟨fun lines strict => ?_, WrittenFilter.readFilter?_source⟩
  obtain ⟨found, holds, isFound⟩ := WrittenLine.exists_holds_lineLists lines
  rw [declarations, readDeclarations_of_holds holds, isFound]

/-- Separators in an expression and blanks around the parts of a line are told apart. -/
theorem readsBack_written_separators :
    declarations "\na : list=> x => y: <= \r\n" true = .ok [⟨"a", .list, "x => y: <="⟩] ∧
      readFilter? " f( x , y)<=\n x <= y, (1)" = some ⟨"f", "x", some "y", "x <= y, (1)"⟩ := by
  have blanks : ∀ text : List Char, text.all isBlank = true → IsBlankRun text := fun text all =>
    List.all_eq_true.mp all
  have word : ∀ text : List Char, text ≠ [] ∧ text.all isWordPart = true → IsWordRun text :=
    fun text ⟨nonempty, all⟩ => ⟨nonempty, List.all_eq_true.mp all⟩
  let nothing : LineGap := ⟨⟨[], blanks [] rfl⟩, by simp⟩
  let space : LineGap := ⟨⟨[' '], blanks [' '] rfl⟩, by simp⟩
  let atEnd : LineGap := ⟨⟨[' ', '\r'], blanks [' ', '\r'] rfl⟩, by simp⟩
  let lines : List WrittenLine := [.blank nothing,
    .declaration ⟨"a", .list, "x => y: <="⟩ (word _ (by decide +kernel)) ⟨by decide, by cbv⟩
      nothing space space nothing space atEnd, .blank nothing]
  let filter : WrittenFilter :=
    { name := "f", isName := word _ (by decide +kernel)
      value := "x", isValue := word _ (by decide +kernel)
      argument := some ⟨"y", word _ (by decide +kernel), space.toGap, nothing.toGap⟩
      body := "x <= y, (1)", nonempty := by decide, isTrimmed := ⟨by decide, by cbv⟩
      indent := space.toGap, behindName := nothing.toGap, behindOpening := space.toGap
      behindValue := space.toGap, behindClosing := nothing.toGap
      behindArrow := ⟨['\n', ' '], blanks _ rfl⟩, atEnd := nothing.toGap }
  have block : WrittenLine.blockText lines = "\na : list=> x => y: <= \r\n" := by cbv
  have line : String.ofList filter.source = " f( x , y)<=\n x <= y, (1)" := by cbv
  have found : lines.filterMap WrittenLine.declaration? = [⟨"a", .list, "x => y: <="⟩] := rfl
  have definition : filter.definition = ⟨"f", "x", some "y", "x <= y, (1)"⟩ := rfl
  have declared := readsBack_written.1 lines true
  have defined := readsBack_written.2 filter
  rw [block, found] at declared
  rw [line, definition] at defined
  exact ⟨declared, defined⟩

end Document
end TemplatedMarkup
