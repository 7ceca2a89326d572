import TemplatedMarkup.Text.Search

/-!
# Pieces of a template

A template source is cut into text and into variables, tags and comments between delimiters.  An
opening delimiter without its closing one is text, and so is everything behind it.
-/

namespace TemplatedMarkup
namespace Template

/-- What stands between delimiters. -/
inductive DelimitedKind where
  | variable
  | tag
  | comment
deriving DecidableEq, Repr

/-- The inner character of the delimiters of a kind. -/
def DelimitedKind.openMark : DelimitedKind → Char
  | .variable => '{'
  | .tag => '%'
  | .comment => '#'

/-- The inner character of the closing delimiter of a kind. -/
def DelimitedKind.closeMark : DelimitedKind → Char
  | .variable => '}'
  | .tag => '%'
  | .comment => '#'

/-- The kind that the character behind an opening brace begins. -/
def DelimitedKind.ofMark? (mark : Char) : Option DelimitedKind :=
  [DelimitedKind.variable, .tag, .comment].find? fun kind => kind.openMark == mark

/-- A piece of a template source. -/
inductive PieceKind where
  /-- Text outside delimiters. -/
  | text
  /-- What stands between delimiters. -/
  | delimited (kind : DelimitedKind)
deriving DecidableEq, Repr

/-- A piece of a template source with its content and the line it starts on. -/
structure Piece where
  /-- What kind of piece it is. -/
  kind : PieceKind
  /-- The content, without delimiters. -/
  content : List Char
  /-- The number of the line, counted from one. -/
  line : Nat
deriving DecidableEq, Repr

/-- The source of a piece. -/
def Piece.source (piece : Piece) : List Char :=
  match piece.kind with
  | .text => piece.content
  | .delimited kind => ['{', kind.openMark] ++ piece.content ++ [kind.closeMark, '}']

/-- The line that a text starting on a line ends on. -/
def lineAfter (line : Nat) (text : List Char) : Nat :=
  line + text.count '\n'

/-- A piece of text, unless it is empty. -/
def textPiece (line : Nat) (text : List Char) : List Piece :=
  if text.isEmpty then [] else [⟨.text, text, line⟩]

/-- The kind that starts at the start of a source, and what follows its opening delimiter. -/
def opened? : List Char → Option (DelimitedKind × List Char)
  | '{' :: mark :: rest => (DelimitedKind.ofMark? mark).map fun kind => (kind, rest)
  | _ => none

/-- The content behind an opening delimiter and what follows the closing one. -/
def DelimitedKind.close? (kind : DelimitedKind) (text : List Char) :
    Option (List Char × List Char) :=
  Text.cutAround? (fun _ => false) [kind.closeMark, '}'] text

/-- What follows an opening delimiter is shorter than what starts with it. -/
theorem length_opened_lt
    {source rest : List Char}
    {kind : DelimitedKind}
    (found : opened? source = some (kind, rest)) :
    rest.length < source.length := by
  simp only [opened?] at found
  split at found
  · obtain ⟨_, _, same⟩ := Option.map_eq_some_iff.1 found
    simp only [Prod.mk.injEq] at same
    simp only [← same.2, List.length_cons]
    omega
  · contradiction

/--
Cut a source into pieces; `text` holds the text since the last delimiters, in reverse, and `line`
is the line that it starts on.
-/
def cutFrom (line : Nat) (text : List Char) : List Char → List Piece
  | [] => textPiece line text.reverse
  | character :: rest =>
      match _opening : opened? (character :: rest) with
      | none => cutFrom line (character :: text) rest
      | some (kind, inside) =>
          match _closing : kind.close? inside with
          | none => textPiece line (text.reverse ++ character :: rest)
          | some (content, after) =>
              let start := lineAfter line text
              textPiece line text.reverse ++
                ⟨.delimited kind, content, start⟩ :: cutFrom (lineAfter start content) [] after
termination_by source => source.length
decreasing_by
  · simp
  · have inside := length_opened_lt _opening
    have shorter := Text.length_cutAround_le _closing
    omega

/-- The pieces of a template source. -/
def pieces (source : String) : List Piece :=
  cutFrom 1 [] source.toList

end Template
end TemplatedMarkup
