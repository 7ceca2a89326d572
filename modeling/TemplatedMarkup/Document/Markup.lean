import TemplatedMarkup.Text.Html
import TemplatedMarkup.Text.Search

/-!
# Inline markup

Markup is converted to HTML in a fixed order, each conversion going over the whole text once:
headings from the sixth level to the first, bold, italic, underline, rules, and links.
-/

namespace TemplatedMarkup
namespace Document

/-- Tells of a link target whether it is an image. -/
abbrev Classifier := String → Bool

/-- The blanks that count inside a line of markup. -/
def isLineBlank (character : Char) : Bool :=
  character == ' ' || character == '\t'

/-- Convert every line for which there is a form; the form takes the place of the line's end too. -/
def convertLines (form? : List Char → Option (List Char)) : List (List Char) → List Char
  | [] => []
  | [line] => (form? line).getD line
  | line :: lines =>
      match form? line with
      | some form => form ++ convertLines form? lines
      | none => line ++ '\n' :: convertLines form? lines

/-- The text without blanks at its end. -/
def trimLineEnd (line : List Char) : List Char :=
  (line.reverse.dropWhile isLineBlank).reverse

/-- The element of a tag around a content. -/
def element (tag content : List Char) : List Char :=
  '<' :: tag ++ '>' :: content ++ '<' :: '/' :: tag ++ ['>']

/-- The form of a heading line: as many marks as its level, a blank and the heading. -/
def headingForm? (level : Nat) (line : List Char) : Option (List Char) :=
  if (List.replicate level '#').isPrefixOf line then
    match line.drop level with
    | first :: rest =>
        if isLineBlank first then
          some (element ('h' :: Nat.toDigits 10 level)
            (trimLineEnd (rest.dropWhile isLineBlank)))
        else none
    | [] => none
  else none

/-- Convert the headings of a level. -/
def convertHeadings (text : List Char) (level : Nat) : List Char :=
  convertLines (headingForm? level) (text.splitOn '\n')

/-- The form of a rule: a line of three dashes or more. -/
def ruleForm? (line : List Char) : Option (List Char) :=
  let dashes := trimLineEnd line
  if 3 ≤ dashes.length && dashes.all (· == '-') then some "<hr>".toList else none

/-- Convert the rules. -/
def convertRules (text : List Char) : List Char :=
  convertLines ruleForm? (text.splitOn '\n')

/-- The part of a line before a mark, and what follows the mark. -/
def upTo? (mark text : List Char) : Option (List Char × List Char) :=
  Text.cutAround? (· == '\n') mark text

/-- The part of a line before a mark, at least one character of it, and what follows the mark. -/
def upToLater? (mark : List Char) : List Char → Option (List Char × List Char)
  | [] => none
  | character :: rest =>
      if character = '\n' then none
      else (upTo? mark rest).map fun (content, after) => (character :: content, after)

/-- What follows a later mark is no longer than what was searched. -/
theorem length_upToLater_le
    {mark text content after : List Char}
    (found : upToLater? mark text = some (content, after)) :
    after.length ≤ text.length := by
  cases text with
  | nil => simp [upToLater?] at found
  | cons character rest =>
      simp only [upToLater?] at found
      split at found
      · contradiction
      · obtain ⟨⟨inner, tail⟩, searched, same⟩ := Option.map_eq_some_iff.1 found
        simp only [Prod.mk.injEq] at same
        rw [same.2] at searched
        have shorter := Text.length_cutAround_le searched
        simp only [List.length_cons]
        omega

/-- How a kind of span is written and converted. -/
structure SpanStyle where
  /-- The mark on both sides of the span. -/
  mark : List Char
  /-- The tag of its element. -/
  tag : List Char
  /-- Whether the span may be empty. -/
  mayBeEmpty : Bool

/-- The content of a span behind its opening mark, and what follows its closing mark. -/
def SpanStyle.content? (style : SpanStyle) (text : List Char) :
    Option (List Char × List Char) :=
  if style.mayBeEmpty then upTo? style.mark text else upToLater? style.mark text

/-- What follows a span is no longer than what followed its opening mark. -/
theorem SpanStyle.length_content_le
    {style : SpanStyle}
    {text content after : List Char}
    (found : style.content? text = some (content, after)) :
    after.length ≤ text.length := by
  unfold SpanStyle.content? at found
  split at found
  · exact Text.length_cutAround_le found
  · exact length_upToLater_le found

/-- Convert the spans of a style; a span does not go over the end of a line. -/
def convertSpans (style : SpanStyle) : List Char → List Char
  | [] => []
  | character :: rest =>
      if style.mark.isPrefixOf (character :: rest) then
        match _found : style.content? (rest.drop (style.mark.length - 1)) with
        | some (content, after) => element style.tag content ++ convertSpans style after
        | none => character :: convertSpans style rest
      else character :: convertSpans style rest
termination_by text => text.length
decreasing_by
  · have shorter := SpanStyle.length_content_le _found
    simp only [List.length_drop, List.length_cons] at shorter ⊢
    omega
  all_goals simp

/-- Two stars make bold. -/
def bold : SpanStyle :=
  ⟨['*', '*'], ['b'], true⟩

/-- One star makes italic. -/
def italic : SpanStyle :=
  ⟨['*'], ['i'], true⟩

/-- Two underscores make underlined, around at least one character. -/
def underline : SpanStyle :=
  ⟨['_', '_'], ['u'], false⟩

/-- A part of a text: a character, or a link with its label and its target. -/
inductive Inline where
  | character (value : Char)
  | link (label target : List Char)

/-- A target in parentheses, and what follows it; without one the target is empty. -/
def linkTarget (text : List Char) : List Char × List Char :=
  match text with
  | '(' :: rest => (upTo? [')'] rest).getD ([], text)
  | _ => ([], text)

/-- What follows a target is no longer than what followed the label. -/
theorem length_linkTarget_le (text : List Char) :
    (linkTarget text).2.length ≤ text.length := by
  unfold linkTarget
  split
  · rename_i rest
    cases found : upTo? [')'] rest with
    | none => simp
    | some result =>
        have shorter := Text.length_cutAround_le found
        simp only [Option.getD_some, List.length_cons]
        omega
  · simp

/-- The characters and links of a text: a link is a label in brackets and maybe a target. -/
def inlines : List Char → List Inline
  | [] => []
  | character :: rest =>
      if character = '[' then
        match _found : upTo? [']'] rest with
        | some (label, after) =>
            .link label (linkTarget after).1 :: inlines (linkTarget after).2
        | none => .character character :: inlines rest
      else .character character :: inlines rest
termination_by text => text.length
decreasing_by
  · have labelled := Text.length_cutAround_le _found
    have targeted := length_linkTarget_le after
    simp only [List.length_cons]
    omega
  all_goals simp

/-- The figure of an image, with the label as its caption. -/
def figure (label target : List Char) : List Char :=
  "<figure><img src='".toList ++ Text.escapeAttribute target ++ "' alt='".toList ++
    Text.escapeAttribute label ++ "'/><figcaption>".toList ++ label ++
    "</figcaption></figure>".toList

/-- The anchor of a link; without a label it shows the target. -/
def anchor (label target : List Char) : List Char :=
  "<a href='".toList ++ Text.escapeAttribute target ++ "'>".toList ++
    (if label.isEmpty then target else label) ++ "</a>".toList

/-- The text of a part, with a classifier that is asked about the target of a link if it has one. -/
def Inline.renderWith
    {Effect : Type → Type}
    [Monad Effect]
    (ask : String → Effect Bool) : Inline → Effect (List Char)
  | .character value => pure [value]
  | .link label target =>
      if target.isEmpty then pure (anchor label target)
      else do return if ← ask (.ofList target) then figure label target else anchor label target

/-- The levels of headings, in the order in which they are converted. -/
def headingLevels : List Nat := [6, 5, 4, 3, 2, 1]

/-- The text with all markup but the links converted. -/
def convertSpansAndLines (text : List Char) : List Char :=
  let text := headingLevels.foldl convertHeadings text
  convertRules (convertSpans underline (convertSpans italic (convertSpans bold text)))

/-- The body with its markup converted, with a classifier that is asked about link targets. -/
def transformWith
    {Effect : Type → Type}
    [Monad Effect]
    (ask : String → Effect Bool)
    (body : String) : Effect String := do
  let parts ← (inlines (convertSpansAndLines body.toList)).mapM (·.renderWith ask)
  return .ofList parts.flatten

/-- The body with its markup converted; links to images become figures. -/
def transform (body : String) (isImage : Classifier) : String :=
  Id.run (transformWith (fun target => pure (isImage target)) body)

/-- A classifier that takes down what it is asked about. -/
def noting (isImage : Classifier) (target : String) : StateM (List String) Bool := do
  modify (· ++ [target])
  return isImage target

/-- The link targets that the classifier is asked about, in order. -/
def linkTargets (body : String) : List String :=
  ((transformWith (noting fun _ => false) body).run []).2

end Document
end TemplatedMarkup
