import CrossRef.Manifest.Basic
import CrossRef.Json.Writer

/-!
Writing manifests. A chapter without a number or another name has no member for it.
-/
namespace CrossRef

def ChapterNumber.toJson : ChapterNumber → Json
  | .ordinal n => .natural n
  | .label text => .text text

/-- A member that is left out when there is no value for it. -/
def optionalMember (name : String) (value : Option Json) : List (String × Json) :=
  match value with
  | some value => [(name, value)]
  | none => []

def Chapter.toJson (chapter : Chapter) : Json :=
  .ofMembers <| ("id", .text chapter.id) ::
    optionalMember "number" (chapter.number.map (·.toJson)) ++
    ("title", .text chapter.title) ::
    optionalMember "refId" (chapter.refId.map .text) ++
    [("section", .text chapter.group.label)]

def Manifest.toJson (manifest : Manifest) : Json :=
  .ofMembers [("chapters", .array (manifest.chapters.map (·.toJson)))]

/-- The text of a manifest in one line. -/
def Manifest.write (manifest : Manifest) : String := manifest.toJson.compact

end CrossRef
