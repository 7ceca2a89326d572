import TemplatedMarkup.Expression.Error
import TemplatedMarkup.Text.Character

/-!
# Cutting a source into tokens

Blanks and comments separate tokens.  Every token is the longest one that starts where the one
before it ended.
-/

namespace TemplatedMarkup
namespace Expression

/-- The blanks that may stand between tokens. -/
def isSeparator (character : Char) : Bool :=
  character == ' ' || character == '\t' || character == '\r' || character == '\n'

/-- Drop blanks and comments; a comment runs from `#` to the end of its line. -/
def skipBlanks (inComment : Bool) : List Char → List Char
  | [] => []
  | character :: rest =>
      if inComment then
        skipBlanks (character != '\n') rest
      else if isSeparator character then skipBlanks false rest
      else if character = '#' then skipBlanks true rest
      else character :: rest

/-- Take the exponent off a number: its sign and digits, and what follows. -/
def scanExponent? : List Char → Option (Int × List Char)
  | mark :: rest =>
      if mark == 'e' || mark == 'E' then
        let (negative, digits) := Decimal.readSign rest
        if (digits.takeWhile Char.isDigit).isEmpty then none
        else
          let power : Int := Decimal.digitsValue (digits.takeWhile Char.isDigit)
          some (if negative then -power else power, digits.dropWhile Char.isDigit)
      else none
  | [] => none

/-- Take the fraction off a number: a point with a digit behind it, and the digits. -/
def scanFraction? : List Char → Option (List Char × List Char)
  | '.' :: rest =>
      if (rest.takeWhile Char.isDigit).isEmpty then none
      else some (rest.takeWhile Char.isDigit, rest.dropWhile Char.isDigit)
  | _ => none

/-- The token of a number, given its whole digits and what follows them. -/
def scanNumber
    (whole rest : List Char) : Except SourceError (Token × List Char) :=
  let (fraction, rest) :=
    match scanFraction? rest with
    | some (digits, rest) => (some digits, rest)
    | none => (none, rest)
  match fraction, scanExponent? rest with
  | none, none =>
      if Int64.maxValue.toInt < Decimal.digitsValue whole then
        .error (.integerTooLarge (.ofList whole))
      else .ok (.int (.ofNat (Decimal.digitsValue whole)), rest)
  | some digits, none => .ok (.float (Decimal.ofDigits false whole digits 0), rest)
  | _, some (exponent, rest) =>
      .ok (.float (Decimal.ofDigits false whole (fraction.getD []) exponent), rest)

/-- The characters that an escape stands for. -/
def escaped : Char → List Char
  | 'n' => ['\n']
  | 't' => ['\t']
  | 'r' => ['\r']
  | '0' => [Char.ofNat 0]
  | '\\' => ['\\']
  | '\'' => ['\'']
  | '"' => ['"']
  | other => ['\\', other]

/-- The characters of a string up to its closing quote, and what follows it. -/
def scanString (mark : Char) : List Char → Except SourceError (List Char × List Char)
  | [] => .error .unterminatedString
  | ['\\'] => .error .unterminatedString
  | '\\' :: character :: rest => do
      let (characters, rest) ← scanString mark rest
      return (escaped character ++ characters, rest)
  | character :: rest =>
      if character = '\n' then .error .unterminatedString
      else if character = mark then .ok ([], rest)
      else do
        let (characters, rest) ← scanString mark rest
        return (character :: characters, rest)

/-- A symbol of one character, or of two when `second` follows. -/
def scanPair
    (second : Char)
    (pair single : Symbol) : List Char → Token × List Char
  | character :: rest =>
      if character = second then (.symbol pair, rest) else (.symbol single, character :: rest)
  | [] => (.symbol single, [])

/-- The token that starts with a given character, and what follows it. -/
def scanToken
    (first : Char)
    (rest : List Char) : Except SourceError (Token × List Char) :=
  if first.isDigit then
    scanNumber (first :: rest.takeWhile Char.isDigit) (rest.dropWhile Char.isDigit)
  else if first = '.' then
    match scanFraction? (first :: rest) with
    | some _ => scanNumber [] (first :: rest)
    | none => .ok (.symbol .dot, rest)
  else if first = '"' ∨ first = '\'' then do
    let (characters, rest) ← scanString first rest
    return (.str (.ofList characters), rest)
  else if Text.isNameStart first then
    .ok (.ofWord (first :: rest.takeWhile Text.isNamePart), rest.dropWhile Text.isNamePart)
  else
    match first with
    | '+' => .ok (.symbol .plus, rest)
    | '-' => .ok (.symbol .minus, rest)
    | '*' => .ok (scanPair '*' .doubleStar .star rest)
    | '/' => .ok (scanPair '/' .doubleSlash .slash rest)
    | '%' => .ok (.symbol .percent, rest)
    | '=' => .ok (scanPair '=' .equal .assign rest)
    | '<' => .ok (scanPair '=' .lessEqual .less rest)
    | '>' => .ok (scanPair '=' .greaterEqual .greater rest)
    | '(' => .ok (.symbol .leftParen, rest)
    | ')' => .ok (.symbol .rightParen, rest)
    | '[' => .ok (.symbol .leftBracket, rest)
    | ']' => .ok (.symbol .rightBracket, rest)
    | '{' => .ok (.symbol .leftBrace, rest)
    | '}' => .ok (.symbol .rightBrace, rest)
    | ',' => .ok (.symbol .comma, rest)
    | ':' => .ok (.symbol .colon, rest)
    | '!' =>
        match rest with
        | '=' :: rest => .ok (.symbol .notEqual, rest)
        | _ => .error (.unexpectedCharacter '!')
    | other => .error (.unexpectedCharacter other)

/-- Skipping blanks never lengthens a source. -/
theorem length_skipBlanks_le
    (inComment : Bool)
    (source : List Char) :
    (skipBlanks inComment source).length ≤ source.length := by
  fun_induction skipBlanks inComment source <;> simp <;> omega

/-- Dropping characters of a class never lengthens a source. -/
theorem length_dropWhile_le
    (drops : Char → Bool)
    (source : List Char) :
    (source.dropWhile drops).length ≤ source.length :=
  (List.dropWhile_sublist drops).length_le

/-- What follows a fraction is shorter than what started with it. -/
theorem length_scanFraction_lt
    {source digits rest : List Char}
    (scanned : scanFraction? source = some (digits, rest)) :
    rest.length < source.length := by
  unfold scanFraction? at scanned
  split at scanned
  · split at scanned
    · contradiction
    · simp only [Option.some.injEq, Prod.mk.injEq] at scanned
      rw [← scanned.2]
      have := length_dropWhile_le Char.isDigit
      grind
  · contradiction

/-- What follows an exponent is shorter than what started with it. -/
theorem length_scanExponent_lt
    {source rest : List Char}
    {exponent : Int}
    (scanned : scanExponent? source = some (exponent, rest)) :
    rest.length < source.length := by
  have := length_dropWhile_le Char.isDigit
  unfold scanExponent? Decimal.readSign at scanned
  grind

/-- What follows a number is no longer than what followed its whole digits. -/
theorem length_scanNumber_le
    {whole source rest : List Char}
    {token : Token}
    (scanned : scanNumber whole source = .ok (token, rest)) :
    rest.length ≤ source.length := by
  unfold scanNumber at scanned
  have fraction := @length_scanFraction_lt
  have exponent := @length_scanExponent_lt
  grind

/-- What follows a string is shorter than what followed its opening quote. -/
theorem length_scanString_lt
    {mark : Char}
    {source characters rest : List Char}
    (scanned : scanString mark source = .ok (characters, rest)) :
    rest.length < source.length := by
  fun_induction scanString mark source generalizing characters rest with
  | case1 => contradiction
  | case2 => contradiction
  | case3 character tail inductionHypothesis =>
      cases found : scanString mark tail with
      | error => simp [found, bind, Except.bind] at scanned
      | ok result =>
          have shorter := inductionHypothesis found
          simp [found, bind, Except.bind, pure, Except.pure] at scanned
          grind
  | case4 => contradiction
  | case5 => simp at scanned; grind
  | case6 character tail _ _ _ _ inductionHypothesis =>
      cases found : scanString mark tail with
      | error => simp [found, bind, Except.bind] at scanned
      | ok result =>
          have shorter := inductionHypothesis found
          simp [found, bind, Except.bind, pure, Except.pure] at scanned
          grind

/-- What follows a token is no longer than what followed its first character. -/
theorem length_scanToken_le
    {first : Char}
    {source rest : List Char}
    {token : Token}
    (scanned : scanToken first source = .ok (token, rest)) :
    rest.length ≤ source.length := by
  have drop := length_dropWhile_le
  unfold scanToken at scanned
  split at scanned
  · have shorter := length_scanNumber_le scanned
    grind
  · split at scanned
    · split at scanned
      · rename_i fraction
        unfold scanNumber at scanned
        have shorter := length_scanFraction_lt fraction
        have exponent := @length_scanExponent_lt
        grind
      · grind
    · split at scanned
      · cases found : scanString first source with
        | error => simp [found, bind, Except.bind] at scanned
        | ok result =>
            have shorter := length_scanString_lt found
            simp [found, bind, Except.bind, pure, Except.pure] at scanned
            grind
      · split at scanned
        · grind
        · unfold scanPair at scanned
          split at scanned <;> grind

/-- Cut a source into tokens; `inComment` tells whether it starts inside a comment. -/
def lex (source : List Char) : Except SourceError (List Token) :=
  match _skipped : skipBlanks false source with
  | [] => .ok []
  | first :: rest =>
      match _scanned : scanToken first rest with
      | .error cause => .error cause
      | .ok (token, rest) => do
          let tokens ← lex rest
          return token :: tokens
termination_by source.length
decreasing_by
  have skips := length_skipBlanks_le false source
  have scans := length_scanToken_le _scanned
  rw [_skipped, List.length_cons] at skips
  omega

/-- The tokens of a source text. -/
def tokenize (source : String) : Except SourceError (List Token) :=
  lex source.toList

end Expression
end TemplatedMarkup
