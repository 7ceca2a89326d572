import TemplatedMarkup.Document.Error
import TemplatedMarkup.Proofs.Document.ParagraphTag

/-!
# What pages of errors show

Nothing of an error marks its page up: without the tags of paragraphs, the page is escaped text, and
the text is the message and the hint of the error.
-/

namespace TemplatedMarkup
namespace DocumentError

open Document Text

/-- The text of an error is shown in paragraphs of what stands between their tags. -/
theorem marksUp_paragraphs (text : String) :
    MarksUp paragraphTags (DocumentError.paragraphs text).toList
      (escape (unmarked text.toList)) := by
  rw [DocumentError.paragraphs, ← unmarked_escape]
  have marksUp := marksUp_linebreaks (not_mem_escapeHtml text)
  rwa [escapeHtml, String.toList_ofList] at marksUp

/-- What the page of an error shows in front of its tags. -/
def greeting : String :=
  "Something went wrong :( "

theorem escape_greeting : escape greeting.toList = greeting.toList := by
  decide

theorem not_mem_greeting : '<' ∉ greeting.toList := by
  decide

/-- What the page of an error shows between its tags. -/
def shownText (cause : DocumentError) : List Char :=
  greeting.toList ++ unmarked cause.message.toList ++ unmarked cause.hint.toList

theorem page_eq (cause : DocumentError) :
    cause.page =
      greeting ++ "<br>" ++ paragraphs cause.message ++ "<br>" ++ paragraphs cause.hint := by
  have opened : greeting ++ "<br>" = "Something went wrong :( <br>" := by decide
  rw [opened]
  rfl

theorem marksUp_page (cause : DocumentError) :
    MarksUp paragraphTags cause.page.toList (escape cause.shownText) := by
  have isTag : "<br>".toList ∈ paragraphTags := by decide
  have message := MarksUp.tag isTag (marksUp_paragraphs cause.message)
  have hint := MarksUp.tag isTag (marksUp_paragraphs cause.hint)
  rw [page_eq, shownText, escape_append, escape_append, escape_greeting]
  simp only [String.toList_append, List.append_assoc]
  exact (marksUp_of_not_mem not_mem_greeting).append (message.append hint)

/-- Without the tags of paragraphs, taken out in any order, the page of an error marks nothing up
and shows the message and the hint, up to line ends. -/
theorem page_withoutTags
    (cause : DocumentError)
    {order : List (List Char)}
    (isOrder : order.Perm paragraphTags) :
    (∀ character ∈ withoutTags order cause.page.toList, character ∉ markupCharacters) ∧
      withoutLineEnds (decodeEntities (withoutTags order cause.page.toList)) =
        withoutLineEnds ("Something went wrong :( " ++ cause.message ++ cause.hint).toList := by
  have marksUp := cause.marksUp_page.mono isOrder.symm.subset
  rw [marksUp.withoutTags_eq isOrder.subset]
  refine ⟨fun _ => not_mem_markupCharacters_of_escape, ?_⟩
  rw [decodeEntities_escape, shownText, withoutLineEnds_append, withoutLineEnds_append,
    withoutLineEnds_unmarked, withoutLineEnds_unmarked, ← withoutLineEnds_append,
    ← withoutLineEnds_append, String.toList_append, String.toList_append]
  rfl

/-- A template whose name is markup with line ends is named on the page without them. -/
theorem page_withoutTags_templateMissing :
    let cause := DocumentError.templateMissing "<b>&amp;\r\n\r\n'x'"
    let order := ["<br>".toList, "<p>".toList, "</p>".toList]
    order.Perm paragraphTags ∧
      (∀ character ∈ withoutTags order cause.page.toList, character ∉ markupCharacters) ∧
      withoutLineEnds (decodeEntities (withoutTags order cause.page.toList)) =
        withoutLineEnds ("Something went wrong :( " ++ cause.message ++ cause.hint).toList := by
  have isOrder : ["<br>".toList, "<p>".toList, "</p>".toList].Perm paragraphTags := by decide
  exact ⟨isOrder, page_withoutTags _ isOrder⟩

end DocumentError
end TemplatedMarkup
