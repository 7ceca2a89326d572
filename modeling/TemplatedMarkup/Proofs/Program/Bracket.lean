import TemplatedMarkup.Program.LogicalLine
import TemplatedMarkup.Proofs.Expression.Parsed

/-!
# The scan of brackets and the lexer

Two scanners read the text of a program: one counts the open brackets of a physical line, the
other cuts a source into tokens.  On a source of one line that has tokens they agree on what is a
string, a comment and a bracket, so that the scan counts what the tokens open.
-/

namespace TemplatedMarkup
namespace LogicalLine

open Expression Text

/-- The characters of code that the scan of brackets gives a meaning. -/
def marks : List Char :=
  ['\'', '"', '(', '[', '{', ')', ']', '}', '#']

/-- A part of a source is crossed when the scan counts a change and goes on with what follows. -/
structure Crosses
    (source remaining : List Char)
    (change : Int) : Prop where
  /-- What follows ends the source. -/
  suffix : remaining <:+ source
  /-- The change is what the part adds to the count. -/
  counts : ∀ opened,
    openBrackets .code opened source = openBrackets .code (opened + change) remaining

theorem Crosses.refl (source : List Char) : Crosses source source 0 :=
  ⟨List.suffix_refl source, fun _ => by rw [Int.add_zero]⟩

theorem Crosses.trans
    {source middle remaining : List Char}
    {first second : Int}
    (left : Crosses source middle first)
    (right : Crosses middle remaining second) :
    Crosses source remaining (first + second) := by
  refine ⟨right.suffix.trans left.suffix, fun opened => ?_⟩
  rw [left.counts, right.counts, Int.add_assoc]

/-- What a line crosses to is on the line. -/
theorem Crosses.oneLine
    {source remaining : List Char}
    {change : Int}
    (crosses : Crosses source remaining change)
    (oneLine : '\n' ∉ source) :
    '\n' ∉ remaining :=
  fun among => oneLine (crosses.suffix.mem among)

/-! ## Characters and runs -/

/-- A character without a meaning changes nothing. -/
theorem crosses_plain
    {character : Char}
    (plain : character ∉ marks)
    (rest : List Char) :
    Crosses (character :: rest) rest 0 := by
  refine ⟨List.suffix_cons character rest, fun opened => ?_⟩
  simp only [marks, List.mem_cons, List.not_mem_nil, or_false, not_or] at plain
  simp [openBrackets, plain]

/-- The longest run of characters without a meaning changes nothing. -/
theorem crosses_dropWhile
    {inClass : Char → Bool}
    (plain : ∀ character, inClass character = true → character ∉ marks)
    (source : List Char) :
    Crosses source (source.dropWhile inClass) 0 := by
  induction source with
  | nil => exact .refl []
  | cons character rest inductionHypothesis =>
      cases inside : inClass character with
      | true =>
          rw [List.dropWhile_cons_of_pos inside]
          exact (crosses_plain (plain character inside) rest).trans inductionHypothesis
      | false =>
          rw [List.dropWhile_cons_of_neg (by simp [inside])]
          exact .refl _

/-- A character of a name has no meaning to the scan. -/
theorem not_mem_marks_of_isNamePart
    {character : Char}
    (part : isNamePart character = true) :
    character ∉ marks := by
  intro among
  have excluded : marks.all
      (fun mark => decide (mark.toNat < 128) && !(mark.isAlphanum || mark == '_')) = true := rfl
  have outside := List.all_eq_true.mp excluded character among
  rw [Bool.and_eq_true, decide_eq_true_iff, Bool.not_eq_true'] at outside
  exact ne_of_isNamePart part character outside.1 outside.2 rfl

/-- A digit has no meaning to the scan. -/
theorem not_mem_marks_of_isDigit
    {character : Char}
    (digit : character.isDigit = true) :
    character ∉ marks :=
  not_mem_marks_of_isNamePart (isNamePart_of_isDigit digit)

/-- Blanks in front of a line, or a comment that takes the rest of it, change nothing. -/
theorem crosses_skipBlanks
    {source : List Char}
    (oneLine : '\n' ∉ source) :
    Crosses source (skipBlanks false source) 0 := by
  induction source with
  | nil => exact .refl []
  | cons character rest inductionHypothesis =>
      simp only [List.mem_cons, not_or] at oneLine
      rw [skipBlanks, if_neg (by decide)]
      split
      · rename_i separator
        have plain : character ∉ marks := by
          rcases eq_of_isSeparator separator with rfl | rfl | rfl | rfl <;> decide
        exact (crosses_plain plain rest).trans (inductionHypothesis oneLine.2)
      · split
        · rename_i isMark
          rw [skipBlanks_true oneLine.2, isMark]
          exact ⟨List.nil_suffix, fun opened => (Int.add_zero opened).symm⟩
        · exact .refl _

/-! ## Tokens -/

theorem crosses_scanFraction
    {source digits rest : List Char}
    (scanned : scanFraction? source = some (digits, rest)) :
    Crosses source rest 0 := by
  unfold scanFraction? at scanned
  split at scanned
  · split at scanned
    · contradiction
    · rename_i following _
      obtain ⟨-, rfl⟩ := Prod.mk.inj (Option.some.inj scanned)
      exact (crosses_plain (by decide) _).trans
        (crosses_dropWhile (fun _ => not_mem_marks_of_isDigit) following)
  · contradiction

theorem crosses_readSign (source : List Char) :
    Crosses source (Decimal.readSign source).2 0 := by
  unfold Decimal.readSign
  split
  · exact crosses_plain (by decide) _
  · exact crosses_plain (by decide) _
  · exact .refl _

theorem crosses_scanExponent
    {source rest : List Char}
    {exponent : Int}
    (scanned : scanExponent? source = some (exponent, rest)) :
    Crosses source rest 0 := by
  unfold scanExponent? at scanned
  split at scanned
  · rename_i mark following
    split at scanned
    · rename_i isMark
      have plain : mark ∉ marks := by
        simp only [Bool.or_eq_true, beq_iff_eq] at isMark
        rcases isMark with rfl | rfl <;> decide
      have sign := crosses_readSign following
      generalize Decimal.readSign following = signed at scanned sign
      obtain ⟨negative, digits⟩ := signed
      simp only at scanned
      split at scanned
      · contradiction
      · obtain ⟨-, rfl⟩ := Prod.mk.inj (Option.some.inj scanned)
        exact (crosses_plain plain following).trans (sign.trans
          (crosses_dropWhile (fun _ => not_mem_marks_of_isDigit) digits))
    · contradiction
  · contradiction

/-- What follows the whole digits of a number in it changes nothing, and it is no bracket. -/
theorem crosses_scanNumber
    {whole source rest : List Char}
    {token : Token}
    (scanned : scanNumber whole source = .ok (token, rest)) :
    Crosses source rest token.depth := by
  have fraction : ∀ digits following, scanFraction? source = some (digits, following) →
      Crosses source following 0 := fun _ _ => crosses_scanFraction
  have exponent : ∀ source power following, scanExponent? source = some (power, following) →
      Crosses source following 0 := fun _ _ _ => crosses_scanExponent
  unfold scanNumber at scanned
  cases found : scanFraction? source with
  | none =>
      simp only [found] at scanned
      cases power : scanExponent? source with
      | none =>
          simp only [power] at scanned
          split at scanned
          · contradiction
          · obtain ⟨rfl, rfl⟩ := Prod.mk.inj (Except.ok.inj scanned)
            exact .refl _
      | some result =>
          simp only [power] at scanned
          obtain ⟨rfl, rfl⟩ := Prod.mk.inj (Except.ok.inj scanned)
          exact exponent _ _ _ power
  | some result =>
      obtain ⟨digits, following⟩ := result
      simp only [found] at scanned
      cases power : scanExponent? following with
      | none =>
          simp only [power] at scanned
          obtain ⟨rfl, rfl⟩ := Prod.mk.inj (Except.ok.inj scanned)
          exact fraction _ _ found
      | some result =>
          simp only [power] at scanned
          obtain ⟨rfl, rfl⟩ := Prod.mk.inj (Except.ok.inj scanned)
          exact (fraction _ _ found).trans (exponent _ _ _ power)

/-- Both scanners find the same end of a string. -/
theorem openBrackets_scanString
    {mark : Char}
    (noEscape : mark ≠ '\\')
    {source characters rest : List Char}
    (scanned : scanString mark source = .ok (characters, rest))
    (opened : Int) :
    openBrackets (.string mark) opened source = openBrackets .code opened rest ∧
      rest <:+ source := by
  fun_induction scanString mark source generalizing characters rest with
  | case1 => contradiction
  | case2 => contradiction
  | case3 character tail inductionHypothesis =>
      cases found : scanString mark tail with
      | error => simp [found, bind, Except.bind] at scanned
      | ok result =>
          simp only [found, bind, Except.bind, pure, Except.pure] at scanned
          obtain ⟨-, rfl⟩ := Prod.mk.inj (Except.ok.inj scanned)
          obtain ⟨same, suffix⟩ := inductionHypothesis found
          refine ⟨?_, suffix.trans ((List.suffix_cons _ _).trans (List.suffix_cons _ _))⟩
          simpa [openBrackets] using same
  | case4 => contradiction
  | case5 rest =>
      obtain ⟨-, rfl⟩ := Prod.mk.inj (Except.ok.inj scanned)
      exact ⟨by simp [openBrackets, noEscape], List.suffix_cons _ _⟩
  | case6 character tail notLast notEscape _ notMark inductionHypothesis =>
      cases found : scanString mark tail with
      | error => simp [found, bind, Except.bind] at scanned
      | ok result =>
          simp only [found, bind, Except.bind, pure, Except.pure] at scanned
          obtain ⟨-, rfl⟩ := Prod.mk.inj (Except.ok.inj scanned)
          obtain ⟨same, suffix⟩ := inductionHypothesis found
          have plain := ne_backslash notLast notEscape
          refine ⟨?_, suffix.trans (List.suffix_cons _ _)⟩
          simpa [openBrackets, plain, notMark] using same

/-- The token of a word is no bracket. -/
theorem depth_ofWord (word : List Char) : (Token.ofWord word).depth = 0 := by
  unfold Token.ofWord Symbol.ofWord?
  simp only
  split
  · rename_i found
    split at found <;> simp_all [Token.depth] <;> subst found <;> rfl
  · rfl

/-- A symbol of one character or two changes nothing when neither is a bracket. -/
theorem crosses_scanPair
    {first second : Char}
    {pair single : Symbol}
    (firstPlain : first ∉ marks)
    (secondPlain : second ∉ marks)
    (pairPlain : (Token.symbol pair).depth = 0)
    (singlePlain : (Token.symbol single).depth = 0)
    (rest : List Char) :
    Crosses (first :: rest) (scanPair second pair single rest).2
      (scanPair second pair single rest).1.depth := by
  unfold scanPair
  split
  · rename_i character following
    split
    · rename_i isSecond
      subst isSecond
      rw [pairPlain]
      exact (crosses_plain firstPlain _).trans (crosses_plain secondPlain following)
    · rw [singlePlain]
      exact crosses_plain firstPlain _
  · rw [singlePlain]
    exact crosses_plain firstPlain _

/-- Both scanners find the same end of a token, and the scan counts it as what it opens. -/
theorem crosses_scanToken
    {first : Char}
    {rest remaining : List Char}
    {token : Token}
    (scanned : scanToken first rest = .ok (token, remaining)) :
    Crosses (first :: rest) remaining token.depth := by
  unfold scanToken at scanned
  split at scanned
  · rename_i digit
    have number := (crosses_dropWhile (fun _ => not_mem_marks_of_isDigit) rest).trans
      (crosses_scanNumber scanned)
    simpa using (crosses_plain (not_mem_marks_of_isDigit digit) rest).trans number
  · split at scanned
    · rename_i isDot
      subst isDot
      split at scanned
      · exact crosses_scanNumber scanned
      · obtain ⟨rfl, rfl⟩ := Prod.mk.inj (Except.ok.inj scanned)
        exact crosses_plain (by decide) rest
    · split at scanned
      · rename_i isQuote
        cases read : scanString first rest with
        | error => simp [read, bind, Except.bind] at scanned
        | ok result =>
            simp only [read, bind, Except.bind, pure, Except.pure] at scanned
            obtain ⟨rfl, rfl⟩ := Prod.mk.inj (Except.ok.inj scanned)
            have noEscape : first ≠ '\\' := by rcases isQuote with rfl | rfl <;> decide
            have string := openBrackets_scanString noEscape read
            refine ⟨(string 0).2.trans (List.suffix_cons _ _), fun opened => ?_⟩
            rw [← (string (opened + _)).1]
            rcases isQuote with rfl | rfl <;> simp [openBrackets, Token.depth]
      · split at scanned
        · rename_i start
          obtain ⟨rfl, rfl⟩ := Prod.mk.inj (Except.ok.inj scanned)
          rw [depth_ofWord]
          exact (crosses_plain
            (not_mem_marks_of_isNamePart (isNamePart_of_isNameStart start)) rest).trans
            (crosses_dropWhile (fun _ => not_mem_marks_of_isNamePart) rest)
        · have pair {second : Char} {double single : Symbol} (plain : first ∉ marks)
              (secondPlain : second ∉ marks) (doublePlain : (Token.symbol double).depth = 0)
              (singlePlain : (Token.symbol single).depth = 0)
              (same : Except.ok (scanPair second double single rest) =
                (Except.ok (token, remaining) : Except SourceError (Token × List Char))) :
              Crosses (first :: rest) remaining token.depth := by
            have crosses := crosses_scanPair plain secondPlain doublePlain singlePlain rest
            rwa [Except.ok.inj same] at crosses
          split at scanned
          case h_3 | h_4 | h_6 | h_7 | h_8 => exact pair (by decide) (by decide) rfl rfl scanned
          case h_17 =>
            split at scanned
            · obtain ⟨rfl, rfl⟩ := Prod.mk.inj (Except.ok.inj scanned)
              exact (crosses_plain (by decide) _).trans (crosses_plain (by decide) _)
            · contradiction
          case h_18 => contradiction
          -- The other symbols are one character each: six of them brackets.
          all_goals
            obtain ⟨rfl, rfl⟩ := Prod.mk.inj (Except.ok.inj scanned)
            first
              | exact crosses_plain (by decide) rest
              | exact ⟨List.suffix_cons _ rest, fun opened => rfl⟩

/-- On a source of one line the scan counts the brackets that its tokens open. -/
theorem openBrackets_of_lexes
    {source : List Char}
    {tokens : List Token}
    (lexes : Lexes source tokens)
    (oneLine : '\n' ∉ source)
    (opened : Int) :
    openBrackets .code opened source = opened + depth tokens := by
  induction lexes generalizing opened with
  | blank skipped =>
      have blanks := crosses_skipBlanks oneLine
      rw [blanks.counts, skipped]
      simp [openBrackets, depth]
  | @token source rest remaining first found tokens skipped scanned others inductionHypothesis =>
      have blanks := crosses_skipBlanks oneLine
      rw [skipped] at blanks
      have crosses := blanks.trans (crosses_scanToken scanned)
      rw [crosses.counts, inductionHypothesis (crosses.oneLine oneLine)]
      simp only [depth, List.map_cons, List.sum_cons]
      omega

end LogicalLine
end TemplatedMarkup
