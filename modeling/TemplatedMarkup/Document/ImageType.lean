import TemplatedMarkup.Text.Trim

/-!
# Content types of images
-/

namespace TemplatedMarkup
namespace Document

/-- The content types of images. -/
def imageTypes : List String := ["image/png", "image/jpeg", "image/jpg"]

/-- Whether a content type, up to its parameters, is that of an image. -/
def isImageType (contentType : String) : Bool :=
  let name := contentType.toList.takeWhile (· != ';')
  imageTypes.contains (.ofList ((Text.trimWhere Text.isBlank name).map Char.toLower))

end Document
end TemplatedMarkup
