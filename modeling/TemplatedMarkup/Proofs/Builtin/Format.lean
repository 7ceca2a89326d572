import TemplatedMarkup.Builtin.Method
import TemplatedMarkup.Proofs.Builtin.StringSize
import TemplatedMarkup.Proofs.Decimal.Notation

/-!
# Formats are filled in

A format is written from texts, with their braces doubled, and fields between them.  The texts come
out as they are, and every field gives way to the text of its argument.
-/

namespace TemplatedMarkup
namespace Format

/-! ## Written formats -/

/-- A field of a format. -/
inductive Field where
  /-- A field without a number; it takes the next argument. -/
  | automatic
  /-- A field with the number of an argument. -/
  | numbered (position : Nat)
deriving DecidableEq

/-- What stands between the braces of a field. -/
def Field.number : Field → List Char
  | .automatic => []
  | .numbered position => Nat.toDigits 10 position

/-- A text as it is written between fields: with every brace twice. -/
def doubleBraces (text : List Char) : List Char :=
  text.flatMap fun character =>
    if character = '{' ∨ character = '}' then [character, character] else [character]

/-- A field with the text behind it. -/
structure Part where
  /-- The field. -/
  field : Field
  /-- The text up to the next field or the end. -/
  behind : String

/-- Fields with their texts, as they are written. -/
def writtenParts (parts : List Part) : List Char :=
  parts.flatMap fun part =>
    '{' :: (part.field.number ++ '}' :: doubleBraces part.behind.toList)

/-- The format with a text in front of some fields. -/
def source (first : String) (parts : List Part) : String :=
  .ofList (doubleBraces first.toList ++ writtenParts parts)

/-! ## Filled formats -/

/-- How many fields have no number. -/
def automaticCount (parts : List Part) : Nat :=
  parts.countP (·.field = .automatic)

/--
The position of the argument that a field takes behind other fields.  Only fields without a number
move on to the next argument.
-/
def Field.position (before : List Part) : Field → Nat
  | .automatic => automaticCount before
  | .numbered position => position

/-- The text of the argument at a position. -/
def argumentText (arguments : List Value) (position : Nat) : String :=
  (arguments[position]?.map Value.display).getD ""

/-- The texts of the arguments that fields take behind other fields, each with what follows it. -/
def filledParts (arguments : List Value) (before : List Part) : List Part → String
  | [] => ""
  | part :: parts =>
      argumentText arguments (part.field.position before) ++ part.behind ++
        filledParts arguments (before ++ [part]) parts

/-- A format with every field replaced by the text of its argument. -/
def filled (arguments : List Value) (first : String) (parts : List Part) : String :=
  first ++ filledParts arguments [] parts

/-- Something holds of every field, given the fields before it. -/
def AtFields (Holds : List Part → Field → Prop) (before : List Part) : List Part → Prop
  | [] => True
  | part :: parts => Holds before part.field ∧ AtFields Holds (before ++ [part]) parts

/-- There is an argument for a field. -/
def HasArgument (arguments : List Value) (before : List Part) (field : Field) : Prop :=
  field.position before < arguments.length

/-- The output in front of a field keeps the limit together with the text of its argument. -/
def FitsAt
    (arguments : List Value)
    (first : String)
    (before : List Part)
    (field : Field) : Prop :=
  (filled arguments first before).utf8ByteSize +
    (argumentText arguments (field.position before)).utf8ByteSize ≤ maxStringSize

section Filled

variable
  {arguments : List Value}
  {before : List Part}

theorem automaticCount_concat (before : List Part) (part : Part) :
    automaticCount (before ++ [part]) =
      if part.field.number.isEmpty then automaticCount before + 1 else automaticCount before := by
  rw [automaticCount, List.countP_append, automaticCount]
  cases isField : part.field with
  | automatic => simp [Field.number, isField]
  | numbered position => simp [Field.number, isField, Nat.toDigits_ne_nil]

theorem filledParts_append (front back : List Part) :
    filledParts arguments before (front ++ back) =
      filledParts arguments before front ++ filledParts arguments (before ++ front) back := by
  induction front generalizing before with
  | nil => simp [filledParts]
  | cons part front inductionHypothesis =>
      simp [filledParts, inductionHypothesis, String.append_assoc]

/-- One more field adds the text of its argument and the text behind it. -/
theorem filled_concat (first : String) (part : Part) :
    filled arguments first (before ++ [part]) =
      filled arguments first before ++ argumentText arguments (part.field.position before) ++
        part.behind := by
  simp [filled, filledParts_append, filledParts, String.append_assoc]

/-- There are arguments for all fields if there are enough for the fields without a number. -/
theorem atFields_hasArgument
    {parts : List Part}
    (enough : automaticCount (before ++ parts) ≤ arguments.length)
    (numbered : ∀ part ∈ parts, ∀ position, part.field = .numbered position →
      position < arguments.length) :
    AtFields (HasArgument arguments) before parts := by
  induction parts generalizing before with
  | nil => trivial
  | cons part parts inductionHypothesis =>
      rw [List.forall_mem_cons] at numbered
      constructor
      · cases isField : part.field with
        | automatic =>
            rw [automaticCount, List.countP_append, List.countP_cons, isField] at enough
            simp only [decide_true, if_true] at enough
            change automaticCount before < arguments.length
            rw [automaticCount]
            omega
        | numbered position => exact numbered.1 position isField
      · exact inductionHypothesis (by simpa using enough) numbered.2

end Filled

/-! ## Writing step by step -/

section Steps

variable
  {arguments : List Value}
  {automatic position : Nat}
  {output : String}

/-- A character other than a brace is written as it is. -/
theorem write_character
    {character : Char}
    (noOpening : character ≠ '{')
    (noClosing : character ≠ '}')
    (rest : List Char) :
    write arguments automatic output (character :: rest) =
      write arguments automatic (output.push character) rest := by
  rw [write]
  all_goals simp [noOpening, noClosing]

/-- Doubled braces stand for the braces of the text. -/
theorem write_doubleBraces (text rest : List Char) :
    write arguments automatic output (doubleBraces text ++ rest) =
      write arguments automatic (output ++ .ofList text) rest := by
  induction text generalizing output with
  | nil => simp [doubleBraces]
  | cons character text inductionHypothesis =>
      have isLonger : output ++ String.ofList (character :: text) =
          output.push character ++ String.ofList text := by
        rw [← String.toList_inj]
        simp
      rw [isLonger, ← inductionHypothesis, doubleBraces, List.flatMap_cons, List.append_assoc]
      by_cases isOpening : character = '{'
      · subst isOpening
        exact write.eq_2 ..
      · by_cases isClosing : character = '}'
        · subst isClosing
          exact write.eq_3 ..
        · rw [if_neg (by simp [isOpening, isClosing])]
          exact write_character isOpening isClosing _

/-- What stands between the braces of a field is read up to the closing brace. -/
theorem write_field
    {field : List Char}
    (noOpening : '{' ∉ field)
    (noClosing : '}' ∉ field)
    (rest : List Char) :
    write arguments automatic output ('{' :: (field ++ '}' :: rest)) =
      (fieldPosition automatic field >>= writeField arguments output) >>= fun output =>
        write arguments (if field.isEmpty then automatic + 1 else automatic) output rest := by
  have inside (character : Char) (among : character ∈ field) : (character != '}') = true := by
    simpa using ne_of_mem_of_not_mem among noClosing
  have isBefore : (field ++ '}' :: rest).takeWhile (· != '}') = field := by
    rw [List.takeWhile_append_of_pos inside]
    simp
  have isBehind : (field ++ '}' :: rest).dropWhile (· != '}') = '}' :: rest := by
    rw [List.dropWhile_append_of_pos inside]
    simp
  rw [write]
  · split
    · rename_i unclosed
      rw [isBehind] at unclosed
      contradiction
    · rename_i after closed
      rw [isBehind] at closed
      obtain ⟨rfl, rfl⟩ := List.cons.inj closed
      rw [isBefore]
      dsimp only
      cases fieldPosition automatic field with
      | error cause => rfl
      | ok position =>
          dsimp only
          change _ = writeField arguments output position >>= _
          cases writeField arguments output position <;> rfl
  · -- A second opening brace would stand in the field.
    intro other isDoubled
    cases field with
    | nil => simp at isDoubled
    | cons character field =>
        obtain ⟨rfl, -⟩ := List.cons.inj isDoubled
        exact noOpening List.mem_cons_self

/-- The digits of a number are read back. -/
theorem readUnsigned?_toDigits (value : Nat) :
    Decimal.readUnsigned? (Nat.toDigits 10 value) = some value := by
  have digits := Decimal.isDigits_toDigits value
  have isNatural : Decimal.readNatural? (Nat.toDigits 10 value) = some value := by
    rw [Decimal.readNatural?, if_neg]
    · exact congrArg some Nat.ofDigitChars_ten_toDigits
    · simpa [digits.nonempty] using digits.digits
  rw [Decimal.readUnsigned?]
  · exact isNatural
  · intro rest isSigned
    have isDigit := digits.digits '+' (by simp [isSigned])
    exact absurd isDigit (by decide)

/-- A field takes its argument, if the number of the argument is no greater than any count. -/
theorem fieldPosition_number
    {before : List Part}
    {field : Field}
    (hasArgument : HasArgument arguments before field)
    (addressable : arguments.length ≤ maxCount) :
    fieldPosition (automaticCount before) field.number = .ok (field.position before) := by
  cases field with
  | automatic => rfl
  | numbered position =>
      have fits : position ≤ maxCount := hasArgument.le.trans addressable
      rw [fieldPosition, Field.number, if_neg (by simp [Nat.toDigits_ne_nil]),
        readUnsigned?_toDigits, Option.filter_some, if_pos (by simpa using fits)]
      rfl

/-- A field is replaced exactly if the output keeps the limit. -/
theorem writeField_eq_ok_iff
    (isThere : position < arguments.length)
    {result : String} :
    writeField arguments output position = .ok result ↔
      output.utf8ByteSize + (argumentText arguments position).utf8ByteSize ≤ maxStringSize ∧
        result = output ++ argumentText arguments position := by
  rw [writeField, argumentText, List.getElem?_eq_getElem isThere]
  refine bind_check_eq_ok_iff.trans (and_congr_left fun _ => ?_)
  exact checkStringSize_saturate_eq_ok_iff

theorem braces_not_mem_number (field : Field) : '{' ∉ field.number ∧ '}' ∉ field.number := by
  cases field with
  | automatic => exact ⟨nofun, nofun⟩
  | numbered position =>
      have digits := (Decimal.isDigits_toDigits position).digits
      exact ⟨fun among => absurd (digits _ among) (by decide),
        fun among => absurd (digits _ among) (by decide)⟩

/-- Fields are replaced exactly if the output keeps the limit at each of them. -/
theorem write_writtenParts_eq_ok_iff
    {first result : String}
    {before parts : List Part}
    (addressable : arguments.length ≤ maxCount)
    (haveArguments : AtFields (HasArgument arguments) before parts) :
    write arguments (automaticCount before) (filled arguments first before)
        (writtenParts parts) = .ok result ↔
      AtFields (FitsAt arguments first) before parts ∧
        result = filled arguments first (before ++ parts) := by
  induction parts generalizing before with
  | nil =>
      rw [writtenParts, List.flatMap_nil, write, List.append_nil, Except.ok.injEq, eq_comm]
      exact (and_iff_right trivial).symm
  | cons part parts inductionHypothesis =>
      obtain ⟨hasArgument, haveOthers⟩ := haveArguments
      obtain ⟨noOpening, noClosing⟩ := braces_not_mem_number part.field
      have isWritten : writtenParts (part :: parts) =
          '{' :: (part.field.number ++ '}' ::
            (doubleBraces part.behind.toList ++ writtenParts parts)) := by
        simp [writtenParts]
      have behind (output : String) :
          write arguments
              (if part.field.number.isEmpty then automaticCount before + 1
                else automaticCount before)
              output (doubleBraces part.behind.toList ++ writtenParts parts) =
            write arguments (automaticCount (before ++ [part])) (output ++ part.behind)
              (writtenParts parts) := by
        rw [write_doubleBraces, automaticCount_concat, String.ofList_toList]
      have rest := inductionHypothesis haveOthers
      rw [filled_concat, List.append_assoc] at rest
      rw [isWritten, write_field noOpening noClosing, fieldPosition_number hasArgument addressable]
      change (writeField _ _ _ >>= _) = _ ↔ _
      constructor
      · intro succeeds
        obtain ⟨output, isOutput, isResult⟩ := exists_of_bind_eq_ok succeeds
        obtain ⟨fits, rfl⟩ := (writeField_eq_ok_iff hasArgument).mp isOutput
        rw [behind] at isResult
        obtain ⟨fitBehind, isFilled⟩ := rest.mp isResult
        exact ⟨⟨fits, fitBehind⟩, isFilled⟩
      · rintro ⟨⟨fits, fitBehind⟩, isFilled⟩
        rw [(writeField_eq_ok_iff hasArgument).mpr ⟨fits, rfl⟩]
        change write _ _ _ _ = _
        rw [behind]
        exact rest.mpr ⟨fitBehind, isFilled⟩

end Steps

/--
A format of texts and fields is filled in exactly if the output keeps the limit at every field; it
then has the texts with their braces once, and between them the texts of the arguments.
-/
theorem callMethod_source_eq_ok_iff
    {arguments : List Value}
    (addressable : arguments.length ≤ maxCount)
    {parts : List Part}
    (enough : automaticCount parts ≤ arguments.length)
    (numbered : ∀ part ∈ parts, ∀ position, part.field = .numbered position →
      position < arguments.length)
    (first : String)
    (result : Value) :
    callMethod (.str (source first parts)) "format" arguments = .ok result ↔
      AtFields (FitsAt arguments first) [] parts ∧
        result = .str (filled arguments first parts) := by
  have haveArguments : AtFields (HasArgument arguments) [] parts :=
    atFields_hasArgument enough numbered
  have isFirst : filled arguments first [] = first := String.append_empty
  have written : formatText (source first parts) arguments =
      write arguments (automaticCount []) (filled arguments first []) (writtenParts parts) := by
    rw [formatText, source, String.toList_ofList, write_doubleBraces, String.empty_append,
      String.ofList_toList, isFirst]
    rfl
  have isMethod : callMethod (.str (source first parts)) "format" arguments =
      formatText (source first parts) arguments >>= fun text => .ok (.str text) := rfl
  rw [isMethod, written]
  constructor
  · intro succeeds
    obtain ⟨text, isText, same⟩ := exists_of_bind_eq_ok succeeds
    obtain ⟨fits, rfl⟩ := (write_writtenParts_eq_ok_iff addressable haveArguments).mp isText
    exact ⟨fits, (Except.ok.inj same).symm⟩
  · rintro ⟨fits, rfl⟩
    rw [(write_writtenParts_eq_ok_iff addressable haveArguments).mpr ⟨fits, rfl⟩]
    rfl

/-- Braces next to fields, and a number that takes the first argument once more. -/
theorem callMethod_source_eq_ok_iff_mixed :
    let parts : List Part := [
      ⟨.automatic, "\x7d\x7b"⟩, ⟨.numbered 0, ""⟩, ⟨.automatic, "é"⟩]
    let arguments : List Value := [.int (-7), .list [.str "a"]]
    arguments.length ≤ maxCount ∧ automaticCount parts ≤ arguments.length ∧
      (∀ part ∈ parts, ∀ position, part.field = .numbered position →
        position < arguments.length) ∧
      source "\x7b" parts = "\x7b\x7b\x7b\x7d\x7d\x7d\x7b\x7b\x7b0\x7d\x7b\x7dé" ∧
      callMethod (.str (source "\x7b" parts)) "format" arguments =
        .ok (.str "\x7b-7\x7d\x7b-7['a']é") := by
  intro parts arguments
  have numbered : ∀ part ∈ parts, ∀ position, part.field = .numbered position →
      position < arguments.length := by
    simp [parts, arguments]
  have isFilled : filled arguments "\x7b" parts = "\x7b-7\x7d\x7b-7['a']é" := by cbv
  have fits : AtFields (FitsAt arguments "\x7b") [] parts := by
    refine ⟨?_, ?_, ?_, trivial⟩
    all_goals
      rw [FitsAt]
      cbv
  refine ⟨by decide, by decide, numbered, by cbv, ?_⟩
  rw [← isFilled]
  exact (callMethod_source_eq_ok_iff (by decide) (by decide) numbered _ _).mpr ⟨fits, rfl⟩

end Format
end TemplatedMarkup
