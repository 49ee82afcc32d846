/-!
The manifest: the chapters of a document in reading order.
-/
namespace CrossRef

/-- What a chapter is counted by: an ordinal, or a label such as `A` for an appendix. -/
inductive ChapterNumber
  | ordinal (n : Nat)
  | label (text : String)
  deriving DecidableEq, Repr, Inhabited

namespace ChapterNumber

/-- The number as it is shown. -/
def shown : ChapterNumber → String
  | .ordinal n => toString n
  | .label text => text

/-- The number in front of a title: an ordinal has a point after it, a label stands as it is. -/
def shownBeforeTitle : ChapterNumber → String
  | .ordinal n => toString n ++ "."
  | .label text => text

end ChapterNumber

/-- The groups in which the index page shows the chapters. -/
inductive ChapterGroup
  | frontmatter
  | chapters
  | appendix
  | backmatter
  | other
  deriving DecidableEq, Repr, Inhabited

namespace ChapterGroup

/-- The heading above a group on the index page. -/
def heading? : ChapterGroup → Option String
  | .chapters => some "Chapters"
  | .appendix => some "Appendix"
  | .backmatter => some "Back Matter"
  | .frontmatter | .other => none

/-- The name of a group in the manifest. -/
def label : ChapterGroup → String
  | .frontmatter => "frontmatter"
  | .chapters => "chapters"
  | .appendix => "appendix"
  | .backmatter => "backmatter"
  | .other => "other"

/-- The group of a name. Names that are not known fall into one group. -/
def ofLabel : String → ChapterGroup
  | "frontmatter" => .frontmatter
  | "chapters" => .chapters
  | "appendix" => .appendix
  | "backmatter" => .backmatter
  | _ => .other

end ChapterGroup

structure Chapter where
  id : String
  number : Option ChapterNumber
  title : String
  /-- Another name that references may use for the chapter. -/
  refId : Option String
  group : ChapterGroup
  deriving DecidableEq, Repr, Inhabited

namespace Chapter

/-- Does the reference name this chapter? -/
def answersTo (chapter : Chapter) (reference : String) : Bool :=
  chapter.id = reference || chapter.refId = some reference

def fileName (chapter : Chapter) : String := chapter.id ++ ".html"

/-- The number of the chapter as it is shown. -/
def shownNumber? (chapter : Chapter) : Option String := chapter.number.map (·.shown)

end Chapter

structure Manifest where
  chapters : List Chapter
  deriving DecidableEq, Repr, Inhabited

namespace Manifest

def findChapter? (manifest : Manifest) (id : String) : Option Chapter :=
  manifest.chapters.find? fun chapter => chapter.id = id

/-- The first chapter that the reference names. -/
def findByReference? (manifest : Manifest) (reference : String) : Option Chapter :=
  manifest.chapters.find? fun chapter => chapter.answersTo reference

/-- The chapters before and after the first chapter with this id. `previous` is the one just
passed. -/
def neighboursFrom (id : String) (previous : Option Chapter) :
    List Chapter → Option Chapter × Option Chapter
  | [] => (none, none)
  | chapter :: rest =>
    if chapter.id = id then (previous, rest.head?) else neighboursFrom id (some chapter) rest

def neighbours (manifest : Manifest) (id : String) : Option Chapter × Option Chapter :=
  neighboursFrom id none manifest.chapters

/-- The first id that a chapter before has already. -/
def repeatedId? (seen : List String) : List Chapter → Option String
  | [] => none
  | chapter :: rest =>
    if seen.contains chapter.id then some chapter.id else repeatedId? (chapter.id :: seen) rest

end Manifest
end CrossRef
