import TemplatedMarkup.Proofs.Expression.Deriving
import TemplatedMarkup.Proofs.Expression.Lexed

/-!
# What the parser gives

An expression that the tokens of a source are parsed as is one that a source can write, and the
brackets of its tokens are balanced.  Both hold of every phrase of the grammar.
-/

namespace TemplatedMarkup
namespace Expression

/-- How a token changes the number of open brackets. -/
def Token.depth : Token → Int
  | .symbol .leftParen | .symbol .leftBracket | .symbol .leftBrace => 1
  | .symbol .rightParen | .symbol .rightBracket | .symbol .rightBrace => -1
  | _ => 0

/-- How a list of tokens changes the number of open brackets. -/
def depth (tokens : List Token) : Int :=
  (tokens.map Token.depth).sum

/-! ## Balanced brackets -/

@[simp] theorem depth_nil : depth [] = 0 := rfl

@[simp] theorem depth_cons
    (token : Token)
    (tokens : List Token) :
    depth (token :: tokens) = token.depth + depth tokens := by
  simp [depth]

@[simp] theorem depth_append (tokens others : List Token) :
    depth (tokens ++ others) = depth tokens + depth others := by
  simp [depth]

/-- Balanced lists of tokens with commas between them are balanced. -/
theorem depth_listed
    {lists : List (List Token)}
    (balanced : ∀ tokens ∈ lists, depth tokens = 0)
    (trailing : Bool) :
    depth (listed trailing lists) = 0 := by
  induction lists with
  | nil => rfl
  | cons tokens lists inductionHypothesis =>
      rw [List.forall_mem_cons] at balanced
      cases lists with
      | nil => cases trailing <;> simp [listed, balanced.1, Token.depth]
      | cons second lists =>
          simp [listed, balanced.1, inductionHypothesis balanced.2, Token.depth]

theorem depth_argumentTokens
    {arguments : List Phrase}
    (balanced : ∀ argument ∈ arguments, depth argument.tokens = 0)
    (trailing : Bool) :
    depth (Phrase.argumentTokens trailing arguments) = 0 := by
  simp [Phrase.argumentTokens, depth_listed (List.forall_mem_map.mpr balanced), Token.depth]

theorem depth_links
    {links : List (Comparison × Phrase)}
    (balanced : ∀ link ∈ links, depth link.2.tokens = 0) :
    depth (links.flatMap fun link => link.1.tokens ++ link.2.tokens) = 0 := by
  induction links with
  | nil => rfl
  | cons link links inductionHypothesis =>
      rw [List.forall_mem_cons] at balanced
      have plain : depth link.1.tokens = 0 := by
        cases link.1 <;> rfl
      simp [balanced.1, inductionHypothesis balanced.2, plain]

theorem Token.depth_of_constant?
    {token : Token}
    {value : Literal}
    (isConstant : token.constant? = some value) :
    token.depth = 0 := by
  cases token with
  | symbol kind => cases kind <;> first | rfl | contradiction
  | _ => rfl

/-- The brackets of a phrase are balanced. -/
theorem Derives.depth_eq_zero
    {form : Form}
    {phrase : Phrase}
    (derives : Derives form phrase) :
    depth phrase.tokens = 0 := by
  induction derives with
  | whole _ body => exact body
  | conditional _ _ _ consequence condition alternative =>
      simp [consequence, condition, alternative, Token.depth]
  | alone _ _ body => exact body
  | @joined _ _ operator _ _ _ _ _ _ left right =>
      have plain : (Token.symbol operator.symbol).depth = 0 := by
        cases operator <;> rfl
      simp [Phrase.joined, left, right, plain]
  | not _ operand => simpa [Phrase.under, UnaryOperator.symbol, Token.depth] using operand
  | chained _ _ _ first links => simp [Phrase.chained, first, depth_links links]
  | @sign operator _ _ _ operand =>
      have plain : (Token.symbol operator.symbol).depth = 0 := by
        cases operator <;> rfl
      simp [Phrase.under, operand, plain]
  | power _ _ base exponent => simp [base, exponent, Token.depth]
  | index _ _ subject position => simp [subject, position, Token.depth]
  | @slice _ _ _ _ secondColon _ _ _ _ _ subject startBalanced stopBalanced stepBalanced =>
      have balanced
          {bound : Option Phrase}
          (present : ∀ phrase ∈ bound, depth phrase.tokens = 0) :
          depth (bound.elim [] Phrase.tokens) = 0 := by
        cases bound with
        | none => rfl
        | some phrase => exact present phrase rfl
      have plain : depth (if secondColon = true then [.symbol .colon] else []) = 0 := by
        cases secondColon <;> rfl
      simp [Phrase.sliced, subject, balanced startBalanced, balanced stopBalanced,
        balanced stepBalanced, plain, Token.depth]
  | method _ _ receiver arguments =>
      simp [receiver, depth_argumentTokens arguments, Token.depth]
  | constant isConstant => simp [Token.depth_of_constant? isConstant]
  | @strings texts _ =>
      have plain : ∀ texts : List String, depth (texts.map .str) = 0 := fun texts => by
        induction texts with
        | nil => rfl
        | cons text texts inductionHypothesis => simpa [Token.depth] using inductionHypothesis
      exact plain texts
  | reference _ => rfl
  | call _ _ arguments => simp [depth_argumentTokens arguments, Token.depth]
  | parenthesized _ body => simp [body, Token.depth]
  | list _ items => simp [depth_listed (List.forall_mem_map.mpr items), Token.depth]
  | @dict entries _ _ _ keys values =>
      have balanced : ∀ entry ∈ entries, depth (Phrase.entryTokens entry) = 0 :=
        fun entry among => by
          simp [Phrase.entryTokens, keys entry among, values entry among, Token.depth]
      simp [depth_listed (List.forall_mem_map.mpr balanced), Token.depth]

/-! ## Writable trees -/

/-- Every token of a list is one of the lists with commas between them. -/
theorem mem_listed
    {trailing : Bool}
    {lists : List (List Token)}
    {tokens : List Token}
    {token : Token}
    (among : tokens ∈ lists)
    (isToken : token ∈ tokens) :
    token ∈ listed trailing lists := by
  induction lists with
  | nil => contradiction
  | cons first lists inductionHypothesis =>
      cases lists with
      | nil =>
          obtain rfl := List.mem_singleton.mp among
          cases trailing <;> simp [listed, isToken]
      | cons second lists =>
          rcases List.mem_cons.mp among with rfl | later
          · simp [listed, isToken]
          · simp [listed, inductionHypothesis later]

/-- The tokens of an argument stand among the tokens of the arguments. -/
theorem mem_argumentTokens
    {trailing : Bool}
    {arguments : List Phrase}
    {argument : Phrase}
    {token : Token}
    (among : argument ∈ arguments)
    (isToken : token ∈ argument.tokens) :
    token ∈ Phrase.argumentTokens trailing arguments := by
  simp [Phrase.argumentTokens, mem_listed (List.mem_map_of_mem among) isToken]

/-- A phrase of tokens that the lexer gives has a tree that a source can write. -/
theorem Derives.writable
    {form : Form}
    {phrase : Phrase}
    (derives : Derives form phrase)
    (lexed : ∀ token ∈ phrase.tokens, token.Lexed) :
    phrase.tree.Writable := by
  induction derives with
  | whole _ body => exact body lexed
  | conditional _ _ _ consequence condition alternative =>
      refine .conditional (condition ?_) (consequence ?_) (alternative ?_) <;>
        exact fun token among => lexed token (by simp [among])
  | alone _ _ body => exact body lexed
  | joined _ _ _ _ left right =>
      refine .binary (left ?_) (right ?_) <;>
        exact fun token among => lexed token (by simp [Phrase.joined, among])
  | not _ operand =>
      exact .unary (operand fun token among => lexed token (by simp [Phrase.under, among]))
  | chained nonempty _ _ first links =>
      refine .comparison (first fun token among => lexed token (by simp [Phrase.chained, among]))
        (by simpa using nonempty) (List.forall_mem_map.mpr fun link isLink => ?_)
      refine links link isLink fun token among => lexed token ?_
      exact List.mem_append_right _ (List.mem_flatMap.mpr ⟨link, isLink, by simp [among]⟩)
  | sign _ _ operand =>
      exact .unary (operand fun token among => lexed token (by simp [Phrase.under, among]))
  | power _ _ base exponent =>
      refine .binary (base ?_) (exponent ?_) <;>
        exact fun token among => lexed token (by simp [among])
  | index _ _ subject position =>
      refine .index (subject ?_) (position ?_) <;>
        exact fun token among => lexed token (by simp [among])
  | @slice _ start stop step secondColon _ _ _ _ _ subject startHolds stopHolds stepHolds =>
      have bound
          {bound : Option Phrase}
          (holds : ∀ present ∈ bound, (∀ token ∈ present.tokens, token.Lexed) →
            present.tree.Writable)
          (within : ∀ token ∈ bound.elim [] Phrase.tokens, token.Lexed) :
          ∀ present ∈ bound.map Phrase.tree, present.Writable := by
        cases bound with
        | none => simp
        | some present => simpa using holds present rfl within
      refine .slice (subject ?_) (bound startHolds ?_) (bound stopHolds ?_)
        (bound stepHolds ?_) <;>
        exact fun token among => lexed token (by simp [Phrase.sliced, among])
  | method _ _ receiver arguments =>
      refine .method (receiver ?_) (lexed (.name _) (by simp)) (List.forall_mem_map.mpr
        fun argument isArgument => arguments argument isArgument ?_)
      · exact fun token among => lexed token (by simp [among])
      · exact fun token among => lexed token (by simp [mem_argumentTokens isArgument among])
  | @constant token value isConstant =>
      have isLexed := lexed token (by simp)
      refine .literal ?_
      cases token with
      | int number | float number =>
          obtain rfl := Option.some.inj isConstant
          exact isLexed
      | str text | name text => contradiction
      | symbol kind =>
          cases kind with
          | trueKeyword | falseKeyword | noneKeyword =>
              obtain rfl := Option.some.inj isConstant
              trivial
          | _ => contradiction
  | strings _ => exact .literal trivial
  | reference own => exact .reference ⟨lexed (.name _) (by simp), own⟩
  | call own _ arguments =>
      refine .call ⟨lexed (.name _) (by simp), own⟩ (List.forall_mem_map.mpr
        fun argument isArgument => arguments argument isArgument fun token among => ?_)
      exact lexed token (by simp [mem_argumentTokens isArgument among])
  | parenthesized _ body => exact body fun token among => lexed token (by simp [among])
  | list _ items =>
      refine .list (List.forall_mem_map.mpr fun item isItem => items item isItem
        fun token among => lexed token ?_)
      simp [mem_listed (List.mem_map_of_mem isItem) among]
  | @dict entries trailing _ _ keys values =>
      have entryToken
          {entry : Phrase × Phrase}
          {token : Token}
          (isEntry : entry ∈ entries)
          (among : token ∈ Phrase.entryTokens entry) :
          token.Lexed :=
        lexed token (by simp [mem_listed (List.mem_map_of_mem isEntry) among])
      refine .dict (List.forall_mem_map.mpr fun entry isEntry => keys entry isEntry ?_)
        (List.forall_mem_map.mpr fun entry isEntry => values entry isEntry ?_) <;>
        exact fun token among => entryToken isEntry (by simp [Phrase.entryTokens, among])

/-! ## Parsed sources -/

/-- What the tokens of a source are parsed as can be written, and their brackets are balanced. -/
theorem Lexes.writable_and_balanced
    {source : List Char}
    {tokens : List Token}
    {expression : Expr}
    (lexes : Lexes source tokens)
    (parsed : parseTokens tokens = .ok expression) :
    expression.Writable ∧ depth tokens = 0 := by
  obtain ⟨phrase, fits, rfl, rfl⟩ := derived_of_parseTokens parsed
  exact ⟨fits.derives.writable lexes.lexed, fits.derives.depth_eq_zero⟩

/-- What a source is parsed as can be written. -/
theorem writable_of_parse
    {source : String}
    {expression : Expr}
    (parsed : parse source = .ok expression) :
    expression.Writable := by
  unfold parse at parsed
  cases tokenized : tokenize source with
  | error cause =>
      rw [tokenized] at parsed
      contradiction
  | ok tokens =>
      rw [tokenized] at parsed
      exact ((lexes_of_lex tokenized).writable_and_balanced parsed).1

end Expression
end TemplatedMarkup
