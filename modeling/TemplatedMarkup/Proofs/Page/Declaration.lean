import TemplatedMarkup.Page.Compile
import TemplatedMarkup.Proofs.Document.Comment
import TemplatedMarkup.Proofs.Document.Declaration

/-!
# Documents that declare a value

A document whose context block has a single line declares the value of the expression on it.  The
line goes through all that comes before an evaluation: comments are cut off, lines are told from
markers, the block is trimmed, and the declaration is read and runs as a program.
-/

namespace TemplatedMarkup
namespace Document

open Text

/-- What stands in front of the expression of a declaration of `v`. -/
def declaringHead : List Char := "v: list => ".toList

/-- A document that declares `v` by an expression. -/
def declaringSource (expression : String) : String :=
  join "\n" ["-[context]", "v: list => " ++ expression, "-[body]", "t"]

/-- The blocks of a document that declares `v` by a text. -/
def declaringBlocks (text : List Char) : Blocks :=
  ⟨[(contextName, .ofList (declaringHead ++ text)), (bodyName, "t")]⟩

section Reading

variable {text : List Char}

theorem readDeclaration?_declaringHead (text : List Char) :
    readDeclaration? (declaringHead ++ text) =
      some (['v'], "list".toList, trimEndWhere isBlank (skipBlanks text)) := by
  rfl

/-- A line with a trimmed expression declares it. -/
theorem declarations_declaringHead
    (oneLine : '\n' ∉ text)
    (nonempty : text ≠ [])
    (first : ∀ character ∈ text.head?, isBlank character = false)
    (last : ∀ character ∈ text.getLast?, isBlank character = false)
    (strict : Bool) :
    declarations (.ofList (declaringHead ++ text)) strict =
      .ok [⟨"v", .list, .ofList text⟩] := by
  have oneLineInAll : '\n' ∉ declaringHead ++ text := by
    rw [List.mem_append, not_or]
    exact ⟨by decide, oneLine⟩
  have noReturn : (declaringHead ++ text).getLast? ≠ some '\r' := by
    intro isLast
    rw [List.getLast?_append, List.getLast?_eq_some_getLast nonempty, Option.some_or] at isLast
    have blank := last '\r' ((List.getLast?_eq_some_getLast nonempty).trans isLast)
    exact absurd blank (by decide)
  have lines : lineLists (declaringHead ++ text) = [declaringHead ++ text] := by
    have joined := @lineLists_intercalate [declaringHead ++ text] (by simpa using oneLineInAll)
      (by simp [nonempty]) (by simpa using noReturn)
    rwa [List.intercalate_singleton] at joined
  have kept : trimEndWhere isBlank (skipBlanks text) = text := by
    exact trimWhere_eq_self first last
  have onLine : declarationOnLine 1 (declaringHead ++ text) =
      .ok ⟨"v", .list, .ofList text⟩ := by
    rw [declarationOnLine, readDeclaration?_declaringHead, kept]
    rfl
  have notBlank : (declaringHead ++ text).all isBlank = false := rfl
  rw [declarations, String.toList_ofList, lines, readDeclarations, notBlank, onLine]
  rfl

/-- A block with one line has that line as its content. -/
theorem close_singleton
    (name : String)
    (line : List Char)
    (blocks : Blocks) :
    OpenBlock.close (some ⟨name.toList, [line]⟩) blocks =
      blocks.set name (.ofList (trimWhere isBlank line)) := by
  rw [OpenBlock.close, OpenBlock.content, List.reverse_singleton, List.intercalate_singleton,
    String.ofList_toList]

/-- The blocks of a document with a declaration, whose expression ends at a comment. -/
theorem extract_declaringSource
    {expression : String}
    (oneLine : '\n' ∉ expression.toList)
    (nonempty : (declaredText expression).toList ≠ [])
    (strict : Bool) :
    extract (declaringSource expression) strict =
      .ok (declaringBlocks (declaredText expression).toList) := by
  rw [declaredText, String.toList_ofList] at nonempty ⊢
  have source : (declaringSource expression).toList = ['\n'].intercalate
      ["-[context]".toList, declaringHead ++ expression.toList, "-[body]".toList, ['t']] := by
    rw [declaringSource, join, String.toList_ofList]
    simp only [List.map_cons, List.map_nil, String.toList_append]
    rfl
  have oneLines : ∀ text, '\n' ∉ text → ∀ line ∈ ["-[context]".toList, declaringHead ++ text,
      "-[body]".toList, ['t']], '\n' ∉ line := fun text absent =>
    List.forall_mem_cons.mpr ⟨by decide, List.forall_mem_cons.mpr
      ⟨List.not_mem_append (by decide) absent, by decide⟩⟩
  generalize isKept : cutComment none expression.toList = kept at nonempty ⊢
  have keptNonempty : kept ≠ [] := by
    rintro rfl
    exact nonempty rfl
  have oneLineKept : '\n' ∉ kept := fun among =>
    oneLine ((prefix_of_cutComment none expression.toList).subset (isKept ▸ among))
  have withoutComments : stripCommentList (declaringSource expression).toList =
      ['\n'].intercalate
        (["-[context]".toList, declaringHead ++ kept, "-[body]".toList] ++ [['t']]) := by
    rw [source, stripCommentList_intercalate (oneLines _ oneLine) (by simp)]
    have cut : cutComment none (declaringHead ++ expression.toList) = declaringHead ++ kept := by
      rw [cutComment_append (by decide), cutComment_eq_none (by decide), isKept]
    rw [List.map_cons, List.map_cons, cut]
    rfl
  have lines : lineLists (stripCommentList (declaringSource expression).toList) =
      ["-[context]".toList, declaringHead ++ dropCarriageReturn kept, "-[body]".toList, ['t']] := by
    rw [withoutComments, lineLists_intercalate_append (oneLines _ oneLineKept) (by simp),
      List.map_cons, List.map_cons, dropCarriageReturn_append _ keptNonempty]
    rfl
  have content : trimWhere isBlank (declaringHead ++ dropCarriageReturn kept) =
      declaringHead ++ trimEndWhere isBlank kept := by
    change trimEndWhere isBlank (declaringHead ++ dropCarriageReturn kept) = _
    rw [trimEndWhere_append _ (by rwa [trimEndWhere_dropCarriageReturn]),
      trimEndWhere_dropCarriageReturn]
  have opensContext : Marker.ofLine "-[context]".toList = .opening contextName.toList [] := rfl
  have opensBody : Marker.ofLine "-[body]".toList = .opening bodyName.toList [] := rfl
  have isContent : Marker.ofLine (declaringHead ++ dropCarriageReturn kept) = .content := rfl
  have isText : Marker.ofLine ['t'] = .content := rfl
  have read : extract (declaringSource expression) strict = .ok
      (OpenBlock.close (some ⟨bodyName.toList, [['t']]⟩)
        (OpenBlock.close
          (some ⟨contextName.toList, [declaringHead ++ dropCarriageReturn kept]⟩) .empty)) := by
    rw [extract, lines]
    simp only [readBlocks, opensContext, opensBody, isContent, isText]
    rfl
  rw [read, close_singleton, close_singleton, content]
  rfl

end Reading

open Expression

/-- A name is one token. -/
theorem tokenize_of_isName
    {name : String}
    (isName : IsName name) :
    tokenize name = .ok [.name name] := by
  have lexed := lex_name isName startsApart_nil
  rwa [List.append_nil, lex_nil] at lexed

/-- A block that declares `v` by an expression binds it to the value of the expression. -/
theorem infer_declaringHead
    {text : List Char}
    {context : Context}
    {tree : Expr}
    {value : Value}
    (oneLine : '\n' ∉ text)
    (first : ∀ character ∈ text.head?, isBlank character = false)
    (last : ∀ character ∈ text.getLast?, isBlank character = false)
    (noBackslash : text.getLast? ≠ some '\\')
    (parsed : parse (.ofList text) = .ok tree)
    (evaluated : tree.eval context.scope = .ok value) :
    infer (.ofList (declaringHead ++ text)) context false = .ok (context.set "v" value) := by
  have nonempty : text ≠ [] := by
    simpa using ne_nil_of_parse parsed
  have isName : IsName "v" := ⟨⟨rfl, by simp⟩, rfl⟩
  have notReserved : isReserved "v" = false := by decide
  have binds : Declaration.Binds ⟨"v", .list, .ofList text⟩ tree :=
    ⟨tokenize_of_isName isName, notReserved, parsed, fun _ => by
      rwa [String.toList_ofList]⟩
  have read := declarations_declaringHead oneLine nonempty first last true
  rw [@infer_eq_foldlM _ context [(⟨"v", .list, .ofList text⟩, tree)] read
    (List.forall_mem_singleton.mpr binds)]
  rw [List.foldlM_cons, bindDeclared, evaluated]
  rfl

end Document

namespace Session

open Document Expression

variable {settings : Settings} {session : Session} {tree : Expr} {value : Value}

/-- What the blocks of a document declare is bound in the session, which stays as it is otherwise. -/
theorem build_of_infer
    {source : String}
    {text : List Char}
    (extracted : extract source settings.strict = .ok (declaringBlocks text))
    (inferred : infer (.ofList (declaringHead ++ text)) session.context settings.strict =
      .ok (session.context.set "v" value)) :
    session.build settings source =
      (⟨session.context.set "v" value, session.registry⟩,
        .ok (assemble settings source (declaringBlocks text))) := by
  have noFilters : (declaringBlocks text).get? filtersName = none := rfl
  have block : (declaringBlocks text).get? contextName =
      some (.ofList (declaringHead ++ text)) := rfl
  rw [build, extracted]
  simp only [noFilters, block, register, declare, inferred]
  rfl

/--
A document that declares `v` by an expression binds it to the value of the expression without its
comment, and changes nothing else of the session.  An expression that has no comment is declared as
it is.
-/
theorem build_declaringSource
    {expression : String}
    (lenient : settings.strict = false)
    (oneLine : '\n' ∉ expression.toList)
    (trimmed : Text.trim expression = expression)
    (noBackslash : (declaredText expression).toList.getLast? ≠ some '\\')
    (parsed : parse (declaredText expression) = .ok tree)
    (evaluated : tree.eval session.context.scope = .ok value) :
    (∃ page, session.build settings (declaringSource expression) =
        (⟨session.context.set "v" value, session.registry⟩, .ok page) ∧
      (session.context.set "v" value).get? "v" = some value) ∧
      (cutComment none expression.toList = expression.toList →
        declaredText expression = expression) := by
  have nonempty := ne_nil_of_parse parsed
  have part : (declaredText expression).toList <+: expression.toList := by
    rw [declaredText, String.toList_ofList]
    exact (Text.prefix_of_trimEndWhere _ _).trans (prefix_of_cutComment _ _)
  have first : ∀ character ∈ (declaredText expression).toList.head?,
      Text.isBlank character = false := by
    have ends := (Text.ends_of_trim_eq_self trimmed).1
    obtain ⟨rest, split⟩ := part
    rwa [← split, List.head?_append_of_ne_nil _ nonempty] at ends
  have last : ∀ character ∈ (declaredText expression).toList.getLast?,
      Text.isBlank character = false := by
    rw [declaredText, String.toList_ofList]
    exact Text.getLast?_trimEndWhere _ _
  have inferred := infer_declaringHead (fun among => oneLine (part.subset among)) first last
    noBackslash (by rwa [String.ofList_toList]) evaluated
  rw [← lenient] at inferred
  have built := build_of_infer (extract_declaringSource oneLine nonempty settings.strict) inferred
  exact ⟨⟨_, built, by rw [Table.get?_set, if_pos rfl]⟩, declaredText_eq_self trimmed⟩

/-- Two slashes that belong to an address are kept, and the comment behind them is not. -/
theorem build_declaringSource_address :
    let settings : Settings := ⟨false, Template.basePageName, .empty, fun _ => false⟩
    let session : Session := ⟨.empty, .empty⟩
    let expression := "'a://b' // c"
    declaredText expression = "'a://b'" ∧
      ∃ page, session.build settings (declaringSource expression) =
          (⟨session.context.set "v" (.str "a://b"), session.registry⟩, .ok page) ∧
        (session.context.set "v" (.str "a://b")).get? "v" = some (.str "a://b") := by
  intro settings session expression
  have declared : declaredText expression = "'a://b'" := by cbv
  have parsed : parse (declaredText expression) = .ok (.literal (.str "a://b")) := by
    rw [declared]
    exact Expr.parse_of_tokens (.literal trivial) (by simp [Expr.constants, Literal.isExact])
      (by decide) (by cbv)
  exact ⟨declared, (build_declaringSource rfl (by decide) (by cbv) (by rw [declared]; decide)
    parsed rfl).1⟩

/-- A division without remainder is a comment from its operator on. -/
theorem build_declaringSource_division :
    let settings : Settings := ⟨false, Template.basePageName, .empty, fun _ => false⟩
    let session : Session := ⟨.empty, .empty⟩
    let expression := "6 // 4"
    '\n' ∉ expression.toList ∧ Text.trim expression = expression ∧
      expression.toList.getLast? ≠ some '\\' ∧
      (∃ tree, parse expression = .ok tree ∧ tree.eval session.context.scope = .ok (.int 1)) ∧
      ∃ page, session.build settings (declaringSource expression) =
          (⟨session.context.set "v" (.int 6), session.registry⟩, .ok page) ∧
        (session.context.set "v" (.int 6)).get? "v" ≠ some (.int 1) := by
  intro settings session expression
  have writable : ∀ value : Int64, 0 ≤ value.toInt → (Expr.literal (.int value)).Writable :=
    fun value unsigned => .literal unsigned
  have parsed : parse expression =
      .ok (.binary .floorDivide (.literal (.int 6)) (.literal (.int 4))) :=
    Expr.parse_of_operand_tokens (writable 6 (by decide)) (writable 4 (by decide)) (by decide)
      (by decide) (by cbv)
  have declared : declaredText expression = "6" := by cbv
  have parsedHead : parse "6" = .ok (.literal (.int 6)) :=
    Expr.parse_of_tokens (writable 6 (by decide)) (by simp [Expr.constants, Literal.isExact])
      (by decide) (by cbv)
  have extracted : extract (declaringSource expression) false = .ok (declaringBlocks ['6']) := by
    rw [extract_declaringSource (by decide) (by rw [declared]; decide), declared]
    rfl
  have notBlank : Text.isBlank '6' = false := by decide
  have inferred : infer (.ofList (declaringHead ++ ['6'])) session.context false =
      .ok (session.context.set "v" (.int 6)) :=
    infer_declaringHead (by decide) (by simpa using notBlank) (by simpa using notBlank) (by decide)
      parsedHead rfl
  refine ⟨by decide, by cbv, by decide, ⟨_, parsed, by cbv⟩, _,
    build_of_infer extracted inferred, ?_⟩
  rw [Table.get?_set, if_pos rfl]
  simp

end Session
end TemplatedMarkup
