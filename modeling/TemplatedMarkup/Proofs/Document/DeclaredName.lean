import TemplatedMarkup.Proofs.Document.Declaration
import TemplatedMarkup.Proofs.Program.Assignment

/-!
# Declared names

What a line has to look like to declare a name, and what the declarations of a block do to a
context: however their lines are joined by the program that they run as, they bind no name that
none of them declares.
-/

namespace TemplatedMarkup

open Expression Text

/-! ## Declaring lines -/

namespace Document

/-- A text of blanks. -/
def IsBlankRun (text : List Char) : Prop :=
  ∀ character ∈ text, isBlank character = true

/-- The words that kinds are declared with. -/
def kindWords : List String := ["list", "dict", "str"]

/-- A line declares a name when the name, a colon, a kind and an arrow stand on it in this order. -/
def Declares (line : List Char) (name : String) : Prop :=
  ∃ indent behindName behindColon behindKind expression, ∃ kind ∈ kindWords,
    line = indent ++ (name.toList ++ (behindName ++ [':'] ++ (behindColon ++ (kind.toList ++
      (behindKind ++ ['=', '>'] ++ expression))))) ∧
    IsWordRun name.toList ∧
    ∀ gap ∈ [indent, behindName, behindColon, behindKind], IsBlankRun gap

/-- The words that kinds are declared with are those that name a kind. -/
theorem mem_kindWords_iff {word : String} :
    word ∈ kindWords ↔ ∃ kind, DeclaredKind.ofWord? word = some kind := by
  unfold DeclaredKind.ofWord?
  constructor
  · intro among
    simp only [kindWords, List.mem_cons, List.not_mem_nil, or_false] at among
    rcases among with rfl | rfl | rfl <;> exact ⟨_, rfl⟩
  · rintro ⟨kind, known⟩
    split at known
    case h_4 => contradiction
    all_goals simp [kindWords]

section Reading

variable {mark word text rest line : List Char}

/-- The blanks at the start of a text. -/
theorem isBlankRun_takeWhile (text : List Char) : IsBlankRun (text.takeWhile isBlank) :=
  List.all_eq_true.mp List.all_takeWhile

/-- What is skipped with a punctuation are the blanks around it. -/
theorem exists_blanks_of_skipMark
    (skipped : skipMark? mark text = some rest) :
    ∃ before behind, text = before ++ mark ++ (behind ++ rest) ∧
      IsBlankRun before ∧ IsBlankRun behind := by
  unfold skipMark? at skipped
  simp only at skipped
  split at skipped
  · rename_i starts
    obtain ⟨more, following⟩ := List.isPrefixOf_iff_prefix.mp starts
    rw [← following, List.drop_left] at skipped
    refine ⟨text.takeWhile isBlank, more.takeWhile isBlank, ?_,
      isBlankRun_takeWhile text, isBlankRun_takeWhile more⟩
    calc text = text.takeWhile isBlank ++ Document.skipBlanks text :=
          List.takeWhile_append_dropWhile.symm
      _ = text.takeWhile isBlank ++ mark ++ more := by rw [← following, List.append_assoc]
      _ = _ := by
          rw [← Option.some.inj skipped, Document.skipBlanks, List.takeWhile_append_dropWhile]
  · contradiction

/-- Blanks are skipped up to the first character that is none. -/
theorem skipBlanks_append
    {gap : List Char}
    (blank : IsBlankRun gap)
    (first : ∀ character ∈ text.head?, isBlank character = false) :
    Document.skipBlanks (gap ++ text) = text := by
  rw [Document.skipBlanks, List.dropWhile_append_of_pos blank]
  exact dropWhile_eq_self first

/-- A word is cut off in front of what cannot belong to it. -/
theorem spanWord_append
    (wordParts : ∀ part ∈ word, isWordPart part = true)
    (apart : ∀ first ∈ rest.head?, isWordPart first = false) :
    spanWord (word ++ rest) = (word, rest) := by
  have stops : rest.takeWhile isWordPart = [] := by
    cases rest with
    | nil => rfl
    | cons first rest => exact List.takeWhile_cons_of_neg (by simp [apart first rfl])
  rw [spanWord, List.takeWhile_append_of_pos wordParts, List.dropWhile_append_of_pos wordParts,
    stops, List.append_nil, dropWhile_eq_self apart]

/-- A punctuation is skipped with the blanks around it. -/
theorem skipMark?_append
    {before behind : List Char}
    {opening : Char}
    (blankBefore : IsBlankRun before)
    (blankBehind : IsBlankRun behind)
    (noBlank : isBlank opening = false)
    (first : ∀ character ∈ rest.head?, isBlank character = false) :
    skipMark? (opening :: mark) (before ++ opening :: mark ++ (behind ++ rest)) = some rest := by
  have reached : Document.skipBlanks (before ++ opening :: mark ++ (behind ++ rest)) =
      opening :: mark ++ (behind ++ rest) := by
    rw [List.append_assoc]
    exact skipBlanks_append blankBefore (by simpa using noBlank)
  have starts : (opening :: mark).isPrefixOf (opening :: mark ++ (behind ++ rest)) = true :=
    List.isPrefixOf_iff_prefix.mpr (List.prefix_append _ _)
  simp only [skipMark?, reached, starts, if_true, List.drop_left]
  rw [skipBlanks_append blankBehind first]

/-- The characters of a word at the start of a text. -/
theorem wordParts_takeWhile (text : List Char) :
    ∀ part ∈ text.takeWhile isWordPart, isWordPart part = true :=
  List.all_eq_true.mp List.all_takeWhile

/-- A line that a declaration is read from declares its name. -/
theorem declares_of_declarationOnLine
    {number : Nat}
    {declaration : Declaration}
    (read : declarationOnLine number line = .ok declaration) :
    Declares line declaration.name := by
  unfold declarationOnLine at read
  split at read
  · contradiction
  · rename_i name kind expression found
    split at read
    · contradiction
    · rename_i known isKnown
      obtain rfl := Except.ok.inj read
      unfold readDeclaration? spanWord at found
      simp only at found
      split at found
      · contradiction
      · rename_i nonempty
        obtain ⟨behindName, colon, found⟩ := Option.bind_eq_some_iff.mp found
        obtain ⟨text, arrow, found⟩ := Option.bind_eq_some_iff.mp found
        obtain ⟨isName, isKind, -⟩ : _ = name ∧ _ = kind ∧ _ := by simpa using found
        obtain ⟨before, behind, colonSplit, blankBefore, blankBehind⟩ :=
          exists_blanks_of_skipMark colon
        obtain ⟨beforeArrow, behindArrow, arrowSplit, blankBeforeArrow, -⟩ :=
          exists_blanks_of_skipMark arrow
        refine ⟨line.takeWhile isBlank, before, behind, beforeArrow, behindArrow ++ text,
          .ofList kind, mem_kindWords_iff.mpr ⟨known, isKnown⟩, ?_, ?_, ?_⟩
        · rw [String.toList_ofList, String.toList_ofList, ← arrowSplit, ← isName, ← isKind,
            List.takeWhile_append_dropWhile, ← colonSplit, List.takeWhile_append_dropWhile,
            Document.skipBlanks, List.takeWhile_append_dropWhile]
        · rw [String.toList_ofList, ← isName]
          exact ⟨by simpa using nonempty, wordParts_takeWhile _⟩
        · simpa using ⟨isBlankRun_takeWhile line, blankBefore, blankBehind, blankBeforeArrow⟩

/-- The words of kinds are words. -/
theorem isWordRun_of_mem_kindWords :
    ∀ kind ∈ kindWords, IsWordRun kind.toList := by
  have words : ∀ kind ∈ kindWords, kind.toList ≠ [] ∧ kind.toList.all isWordPart = true := by
    decide +kernel
  intro kind isKind
  obtain ⟨nonempty, wordParts⟩ := words kind isKind
  exact ⟨nonempty, List.all_eq_true.mp wordParts⟩

/-- No blank is at the start of a text that starts with a word. -/
theorem isBlank_eq_false_of_head?
    (isRun : IsWordRun word)
    (rest : List Char) :
    ∀ first ∈ (word ++ rest).head?, isBlank first = false := by
  intro first isFirst
  rw [List.head?_append_of_ne_nil _ isRun.nonempty] at isFirst
  exact isBlank_eq_false_of_isWordPart (isRun.wordParts first (List.mem_of_head? isFirst))

/-- No word goes on over blanks with a mark behind them. -/
theorem isWordPart_eq_false_of_head?
    {gap : List Char}
    {opening : Char}
    (blank : IsBlankRun gap)
    (noWord : isWordPart opening = false)
    (rest : List Char) :
    ∀ first ∈ (gap ++ opening :: mark ++ rest).head?, isWordPart first = false := by
  intro first isFirst
  cases gap with
  | nil =>
      obtain rfl := Option.some.inj isFirst
      exact noWord
  | cons character gap =>
      obtain rfl := Option.some.inj isFirst
      have isBlank := blank character (by simp)
      by_contra wordPart
      rw [Bool.not_eq_false] at wordPart
      rw [isBlank_eq_false_of_isWordPart wordPart] at isBlank
      contradiction

/-- A line with a name, a colon, a kind and an arrow on it, in this order, is read part by part. -/
theorem readDeclaration?_append
    {indent behindName behindColon behindKind name kind : List Char}
    (isName : IsWordRun name)
    (isKind : IsWordRun kind)
    (blanks : ∀ gap ∈ [indent, behindName, behindColon, behindKind], IsBlankRun gap)
    (expression : List Char) :
    readDeclaration? (indent ++ (name ++ (behindName ++ [':'] ++ (behindColon ++ (kind ++
        (behindKind ++ ['=', '>'] ++ expression)))))) =
      some (name, kind, trimWhere isBlank expression) := by
  simp only [List.forall_mem_cons, List.not_mem_nil, false_implies, implies_true, and_true]
    at blanks
  obtain ⟨blankIndent, blankName, blankColon, blankKind⟩ := blanks
  have arrow : behindKind ++ ['=', '>'] ++ expression = behindKind ++ ['=', '>'] ++
      (expression.takeWhile isBlank ++ expression.dropWhile isBlank) := by
    rw [List.takeWhile_append_dropWhile]
  rw [readDeclaration?, skipBlanks_append blankIndent (isBlank_eq_false_of_head? isName _),
    spanWord_append isName.wordParts
      (isWordPart_eq_false_of_head? blankName (by decide) _)]
  simp only [List.isEmpty_eq_false_iff.mpr isName.nonempty, Bool.false_eq_true, if_false]
  rw [skipMark?_append blankName blankColon (by decide)
    (isBlank_eq_false_of_head? isKind _)]
  simp only [bind, Option.bind]
  rw [spanWord_append isKind.wordParts
      (isWordPart_eq_false_of_head? blankKind (by decide) _), arrow]
  simp only
  rw [skipMark?_append blankKind (isBlankRun_takeWhile _) (by decide)
    (head?_dropWhile_stays isBlank expression)]
  rfl

/-- A line that declares a name is read as a declaration of it. -/
theorem exists_declarationOnLine_of_declares
    {name : String}
    (declares : Declares line name)
    (number : Nat) :
    ∃ declaration, declarationOnLine number line = .ok declaration ∧ declaration.name = name := by
  obtain ⟨indent, behindName, behindColon, behindKind, expression, kind, isKind, rfl, isName,
    blanks⟩ := declares
  obtain ⟨known, isKnown⟩ := mem_kindWords_iff.mp isKind
  have read := readDeclaration?_append isName (isWordRun_of_mem_kindWords kind isKind) blanks
    expression
  refine ⟨⟨name, known, .ofList (trimWhere isBlank expression)⟩, ?_, rfl⟩
  simp only [declarationOnLine, read, String.ofList_toList, isKnown]

/-- The lines that declare a name are those that a declaration of it is read from. -/
theorem declares_iff
    {name : String}
    (number : Nat) :
    Declares line name ↔
      ∃ declaration, declarationOnLine number line = .ok declaration ∧
        declaration.name = name := by
  constructor
  · exact fun declares => exists_declarationOnLine_of_declares declares number
  · rintro ⟨declaration, read, rfl⟩
    exact declares_of_declarationOnLine read

end Reading

/-- A line that declares a name has a word as its name. -/
theorem Declares.isWordRun
    {line : List Char}
    {name : String}
    (declares : Declares line name) :
    IsWordRun name.toList := by
  obtain ⟨-, -, -, -, -, -, -, -, isRun, -⟩ := declares
  exact isRun

/-- Every declaration that is read stands on one of the lines. -/
theorem exists_line_of_readDeclarations
    {strict : Bool}
    {number : Nat}
    {lines : List (List Char)}
    {found : List Declaration}
    (read : readDeclarations strict number lines = .ok found) :
    ∀ declaration ∈ found, ∃ line ∈ lines, ∃ place,
      declarationOnLine place line = .ok declaration := by
  induction lines generalizing number found with
  | nil =>
      obtain rfl := Except.ok.inj read
      simp
  | cons line lines inductionHypothesis =>
      have later {number : Nat} {found : List Declaration}
          (read : readDeclarations strict number lines = .ok found) :
          ∀ declaration ∈ found, ∃ other ∈ line :: lines, ∃ place,
            declarationOnLine place other = .ok declaration := by
        intro declaration among
        obtain ⟨other, isLine, onLine⟩ := inductionHypothesis read declaration among
        exact ⟨other, List.mem_cons_of_mem line isLine, onLine⟩
      rw [readDeclarations] at read
      split at read
      · exact later read
      · split at read
        · split at read
          · contradiction
          · exact later read
        · rename_i declaration onLine
          obtain ⟨others, following, last⟩ := exists_of_bind_eq_ok read
          obtain rfl := Except.ok.inj last
          rw [List.forall_mem_cons]
          exact ⟨⟨line, by simp, number, onLine⟩, later following⟩

/-- What is read from the lines of a block is trimmed and has words as names, which are declared. -/
theorem of_mem_declarations
    {block : String}
    {strict : Bool}
    {found : List Declaration}
    (read : declarations block strict = .ok found) :
    ∀ declaration ∈ found, declaration.IsTrimmed ∧
      ∃ line ∈ lineLists block.toList, Declares line declaration.name := by
  intro declaration among
  obtain ⟨line, isLine, place, onLine⟩ := exists_line_of_readDeclarations read declaration among
  exact ⟨isTrimmed_of_declarationOnLine (not_mem_of_mem_lineLists isLine) onLine,
    line, isLine, declares_of_declarationOnLine onLine⟩

/-! ## The program of declared names -/

/-- The statement of a declaration assigns to its name. -/
theorem Declaration.assignsTo (declaration : Declaration) :
    Statement.AssignsTo declaration.name declaration.statement.toList := by
  refine ⟨' ' :: declaration.source.toList, ?_, by simp⟩
  rw [declaration.statement_eq]
  simp [Statement.assignHead]

/-- The statement of a declaration is a line of its own. -/
theorem Declaration.IsTrimmed.isLine
    {declaration : Declaration}
    (trimmed : declaration.IsTrimmed)
    (isRun : IsWordRun declaration.name.toList) :
    '\n' ∉ declaration.statement.toList ∧ declaration.statement.toList ≠ [] ∧
      declaration.statement.toList.getLast? ≠ some '\r' := by
  obtain ⟨oneLine, last⟩ := trimmed.source
  have noFeed : '\n' ∉ declaration.name.toList := fun among =>
    absurd (isRun.wordParts '\n' among) (by decide)
  rw [declaration.statement_eq]
  refine ⟨by simp [Statement.assignHead, noFeed, oneLine], by simp [Statement.assignHead], ?_⟩
  intro isReturn
  rw [List.getLast?_append] at isReturn
  cases isLast : declaration.source.toList.getLast? with
  | none => simp [isLast, Statement.assignHead] at isReturn
  | some character =>
      rw [isLast, Option.some_or] at isReturn
      exact absurd (last character isLast) (by rw [Option.some.inj isReturn]; decide)

/-- The lines of the program of declarations are their statements. -/
theorem lineLists_programOf
    {declarations : List Declaration}
    (areLines : ∀ declaration ∈ declarations,
      declaration.IsTrimmed ∧ IsWordRun declaration.name.toList) :
    lineLists (programOf declarations).toList =
      declarations.map fun declaration => declaration.statement.toList := by
  have lines : ∀ line ∈ declarations.map fun declaration => declaration.statement.toList,
      '\n' ∉ line ∧ line ≠ [] ∧ line.getLast? ≠ some '\r' := by
    rw [List.forall_mem_map]
    exact fun declaration among =>
      (areLines declaration among).1.isLine (areLines declaration among).2
  have joined := lineLists_intercalate (fun line among => (lines line among).1)
    (fun line among => (lines line among).2.1) (fun line among => (lines line among).2.2)
  simpa [programOf, join, Function.comp_def] using joined

/-- A program of declarations binds no name that is not declared. -/
theorem target_mem_of_programOf
    {declarations : List Declaration}
    (areLines : ∀ declaration ∈ declarations,
      declaration.IsTrimmed ∧ IsWordRun declaration.name.toList)
    {statements : List Statement}
    (parsed : parseProgram (programOf declarations) = .ok statements) :
    ∀ statement ∈ statements, statement.target ∈ declarations.map Declaration.name := by
  refine Statement.target_mem_of_parseProgram ?_ ?_ parsed
  · rw [List.forall_mem_map]
    exact fun declaration among => (areLines declaration among).2
  · rw [lineLists_programOf areLines, List.forall_mem_map]
    exact fun declaration among =>
      ⟨declaration.name, List.mem_map_of_mem among, declaration.assignsTo⟩

/--
A context block changes nothing but the names that its lines declare, wherever the statements of
its program begin and end.
-/
theorem infer_changesOnly
    {block : String}
    {context after : Context}
    {strict : Bool}
    (inferred : infer block context strict = .ok after) :
    context.ChangesOnly (fun name => ∃ line ∈ lineLists block.toList, Declares line name)
      after := by
  obtain ⟨found, read, inferred⟩ := exists_of_bind_eq_ok inferred
  split at inferred
  · obtain rfl := Except.ok.inj inferred
    exact .refl _ context
  · obtain ⟨result, harvested, checked⟩ := exists_of_bind_eq_ok inferred
    obtain rfl := Except.ok.inj (checkKinds_refines result found strict after checked)
    obtain ⟨statements, parsed, changes⟩ :=
      Program.changesOnly_of_harvest (eq_ok_of_mapError_eq_ok harvested)
    have onLines := of_mem_declarations read
    have targets := target_mem_of_programOf (fun declaration among => by
      obtain ⟨trimmed, line, -, declares⟩ := onLines declaration among
      exact ⟨trimmed, declares.isWordRun⟩) parsed
    refine changes.mono fun name isTarget => ?_
    obtain ⟨statement, isStatement, rfl⟩ := List.mem_map.mp isTarget
    obtain ⟨declaration, isDeclaration, isName⟩ :=
      List.mem_map.mp (targets statement isStatement)
    exact isName ▸ (onLines declaration isDeclaration).2

end Document
end TemplatedMarkup
