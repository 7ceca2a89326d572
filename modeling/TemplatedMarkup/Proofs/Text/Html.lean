import Mathlib
import TemplatedMarkup.Text.Html

/-!
# Escaped texts and tags

An escaped text marks nothing up, and reading its five entities as their characters gives the text
back.  Removing tags, joining texts and cutting them bring no character in.
-/

namespace TemplatedMarkup
namespace Text

@[simp]
theorem escape_append (front rest : List Char) :
    escape (front ++ rest) = escape front ++ escape rest :=
  List.flatMap_append ..

/-- The characters that begin and end tags and their attributes. -/
def markupCharacters : List Char := ['<', '>', '"', '\'']

/-- The text of a character in HTML marks nothing up. -/
theorem not_mem_markupCharacters_of_escapeCharacter (character : Char) :
    ∀ written ∈ escapeCharacter character, written ∉ markupCharacters := by
  unfold escapeCharacter
  split
  case h_6 noOpening noClosing noQuote noApostrophe =>
    simpa [markupCharacters] using ⟨noOpening, noClosing, noQuote, noApostrophe⟩
  all_goals simp [markupCharacters]

/-- An escaped text marks nothing up. -/
theorem not_mem_markupCharacters_of_escape
    {text : List Char}
    {written : Char}
    (among : written ∈ escape text) :
    written ∉ markupCharacters := by
  obtain ⟨character, -, inside⟩ := List.mem_flatMap.mp among
  exact not_mem_markupCharacters_of_escapeCharacter character written inside

/-- An escaped text opens no tag. -/
theorem not_mem_escape (text : List Char) : '<' ∉ escape text := by
  intro among
  exact not_mem_markupCharacters_of_escape among (by decide)

theorem not_mem_escapeHtml (text : String) : '<' ∉ (escapeHtml text).toList := by
  rw [escapeHtml, String.toList_ofList]
  exact not_mem_escape text.toList

/-! ## Entities -/

/-- The text with every entity of the five reserved characters read as its character. -/
def decodeEntities : List Char → List Char
  | '&' :: 'a' :: 'm' :: 'p' :: ';' :: rest => '&' :: decodeEntities rest
  | '&' :: 'l' :: 't' :: ';' :: rest => '<' :: decodeEntities rest
  | '&' :: 'g' :: 't' :: ';' :: rest => '>' :: decodeEntities rest
  | '&' :: 'q' :: 'u' :: 'o' :: 't' :: ';' :: rest => '"' :: decodeEntities rest
  | '&' :: '#' :: 'x' :: '2' :: '7' :: ';' :: rest => '\'' :: decodeEntities rest
  | character :: rest => character :: decodeEntities rest
  | [] => []

theorem decodeEntities_cons
    {character : Char}
    (noAmpersand : character ≠ '&')
    (rest : List Char) :
    decodeEntities (character :: rest) = character :: decodeEntities rest := by
  rw [decodeEntities]
  all_goals
    intro _ isAmpersand
    exact absurd isAmpersand noAmpersand

/-- The text of a character in HTML is read as the character. -/
theorem decodeEntities_escapeCharacter (character : Char) (rest : List Char) :
    decodeEntities (escapeCharacter character ++ rest) = character :: decodeEntities rest := by
  unfold escapeCharacter
  split
  · rfl
  · rfl
  · rfl
  · rfl
  · rfl
  · rename_i noAmpersand _ _ _ _
    exact decodeEntities_cons noAmpersand rest

/-- What is read from an escaped text is the text. -/
theorem decodeEntities_escape (text : List Char) : decodeEntities (escape text) = text := by
  induction text with
  | nil => rfl
  | cons character text inductionHypothesis =>
      rw [escape, List.flatMap_cons, decodeEntities_escapeCharacter]
      exact congrArg (character :: ·) inductionHypothesis

/-- The entities of the five reserved characters. -/
def entities : List (List Char) :=
  ["&amp;".toList, "&lt;".toList, "&gt;".toList, "&quot;".toList, "&#x27;".toList]

/-- Every ampersand of a text starts an entity. -/
def HasOnlyEntities (text : List Char) : Prop :=
  ∀ front rest, text = front ++ '&' :: rest → ∃ entity ∈ entities, entity <+: '&' :: rest

/-- From an ampersand on, the text of a character in HTML is an entity. -/
theorem mem_entities_of_suffix_escapeCharacter
    {character : Char}
    {rest : List Char}
    (isSuffix : '&' :: rest <:+ escapeCharacter character) :
    '&' :: rest ∈ entities := by
  unfold escapeCharacter at isSuffix
  split at isSuffix
  case h_6 noAmpersand _ _ _ _ =>
    have among := isSuffix.mem List.mem_cons_self
    exact absurd (List.mem_singleton.mp among).symm noAmpersand
  all_goals
    obtain rfl : rest = _ := by simpa [List.suffix_cons_iff] using isSuffix
    decide

/-- Every ampersand of an escaped text starts an entity. -/
theorem hasOnlyEntities_escape (text : List Char) : HasOnlyEntities (escape text) := by
  intro front rest isSplit
  induction text generalizing front with
  | nil => simp [escape] at isSplit
  | cons character text inductionHypothesis =>
      rw [escape, List.flatMap_cons] at isSplit
      -- The ampersand stands behind the text of the first character, or in it.
      rcases List.append_eq_append_iff.mp isSplit with
        ⟨between, -, behind⟩ | ⟨within, isWithin, same⟩
      · exact inductionHypothesis between behind
      · cases within with
        | nil => exact inductionHypothesis [] same.symm
        | cons first inside =>
            obtain ⟨rfl, sameRest⟩ := List.cons_eq_cons.mp same
            refine ⟨'&' :: inside, ?_, ?_⟩
            · exact mem_entities_of_suffix_escapeCharacter ⟨front, isWithin.symm⟩
            · rw [sameRest]
              exact List.prefix_append ('&' :: inside) _

/-- The two ways to write a character in HTML are one. -/
theorem escapeAttributeCharacter_eq (character : Char) :
    escapeAttributeCharacter character = escapeCharacter character := by
  unfold escapeAttributeCharacter escapeCharacter
  split
  case h_6 => split <;> simp_all
  all_goals rfl

/-- A text is written so that nothing of it marks anything up and the text can be read again. -/
structure WritesInertly (text written : List Char) : Prop where
  /-- No character begins or ends a tag or the value of an attribute. -/
  marksNothingUp : ∀ character ∈ written, character ∉ markupCharacters
  /-- Every ampersand starts an entity. -/
  hasOnlyEntities : HasOnlyEntities written
  /-- The text is what is read when the entities are read as their characters. -/
  decodes : decodeEntities written = text

/-- Escaping is inert and can be undone, so that different texts stay different, and what stands in
an attribute is escaped alike. -/
theorem writesInertly_escapeHtml (text : String) :
    WritesInertly text.toList (escapeHtml text).toList ∧
      (∀ other, escapeHtml other = escapeHtml text → other = text) ∧
      escapeAttribute text.toList = (escapeHtml text).toList := by
  have isEscaped (text : String) : (escapeHtml text).toList = escape text.toList := by
    rw [escapeHtml, String.toList_ofList]
  refine ⟨?_, fun other same => ?_, ?_⟩
  · rw [isEscaped]
    exact ⟨fun _ => not_mem_markupCharacters_of_escape, hasOnlyEntities_escape _,
      decodeEntities_escape _⟩
  · have sameEscaped : escape other.toList = escape text.toList := by
      rw [← isEscaped, same, isEscaped]
    rw [← String.toList_inj, ← decodeEntities_escape other.toList, sameEscaped,
      decodeEntities_escape]
  · rw [isEscaped, escapeAttribute, funext escapeAttributeCharacter_eq]
    rfl

/-! ## Characters of parts -/

theorem mem_of_mem_stripTagsFrom
    {done text : List Char}
    {character : Char}
    (among : character ∈ stripTagsFrom done text) :
    character ∈ done ∨ character ∈ text := by
  fun_induction stripTagsFrom done text with
  | case1 done => exact .inl (List.mem_reverse.mp among)
  | case2 done rest unclosed => simpa using among
  | case3 done rest closing after closed inductionHypothesis =>
      have inside : after.Sublist rest := by
        refine List.Sublist.trans ?_ (List.dropWhile_sublist (· != '>'))
        rw [closed]
        exact List.sublist_cons_self closing after
      rcases inductionHypothesis among with inDone | inAfter
      · exact .inl inDone
      · exact .inr (List.mem_cons_of_mem '<' (inside.mem inAfter))
  | case4 done first rest noOpening inductionHypothesis =>
      rcases inductionHypothesis among with inFront | inRest
      · rcases List.mem_cons.mp inFront with rfl | inDone
        · exact .inr (by simp)
        · exact .inl inDone
      · exact .inr (List.mem_cons_of_mem first inRest)

/-- Removing tags only takes characters away. -/
theorem mem_of_mem_stripTags
    {text : List Char}
    {character : Char}
    (among : character ∈ stripTags text) :
    character ∈ text := by
  simpa using mem_of_mem_stripTagsFrom among

/-- The characters of joined texts are those of the texts and of the separators between them. -/
theorem mem_of_mem_intercalate
    {separator : List Char}
    {parts : List (List Char)}
    {character : Char}
    (among : character ∈ separator.intercalate parts) :
    character ∈ separator ∨ ∃ part ∈ parts, character ∈ part := by
  induction parts with
  | nil => simp at among
  | cons part parts inductionHypothesis =>
      by_cases alone : parts = []
      · rw [alone, List.intercalate_singleton] at among
        exact .inr ⟨part, by simp, among⟩
      · rw [List.intercalate_cons_of_ne_nil alone, List.append_assoc, List.mem_append,
          List.mem_append] at among
        rcases among with inPart | inSeparator | behind
        · exact .inr ⟨part, by simp, inPart⟩
        · exact .inl inSeparator
        · rcases inductionHypothesis behind with inSeparator | ⟨other, isPart, inOther⟩
          · exact .inl inSeparator
          · exact .inr ⟨other, List.mem_cons_of_mem part isPart, inOther⟩

/-- Every text is a part of the texts joined. -/
theorem infix_intercalate_of_mem
    {separator part : List Char}
    {parts : List (List Char)}
    (isPart : part ∈ parts) :
    part <:+: separator.intercalate parts := by
  induction parts with
  | nil => simp at isPart
  | cons first parts inductionHypothesis =>
      by_cases alone : parts = []
      · rw [alone, List.mem_singleton] at isPart
        rw [alone, List.intercalate_singleton, isPart]
      · rw [List.intercalate_cons_of_ne_nil alone]
        rcases List.mem_cons.mp isPart with rfl | behind
        · exact (List.prefix_append part separator).isInfix.trans (List.prefix_append _ _).isInfix
        · exact (inductionHypothesis behind).trans (List.suffix_append _ _).isInfix

/-- A piece between separators is a part of the text. -/
theorem infix_of_mem_splitOn
    {separator : Char}
    {text piece : List Char}
    (isPiece : piece ∈ text.splitOn separator) :
    piece <:+: text := by
  have joined : [separator].intercalate (text.splitOn separator) = text :=
    List.intercalate_splitOn separator
  rw [← joined]
  exact infix_intercalate_of_mem isPiece

/-- A piece between separators has only characters of the text. -/
theorem mem_of_mem_splitOn
    {separator character : Char}
    {text piece : List Char}
    (isPiece : piece ∈ text.splitOn separator)
    (among : character ∈ piece) :
    character ∈ text :=
  (infix_of_mem_splitOn isPiece).subset among

end Text
end TemplatedMarkup
