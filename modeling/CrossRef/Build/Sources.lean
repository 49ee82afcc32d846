import CrossRef.Build.Basic
import CrossRef.Config.Located
import CrossRef.Index.Document
import CrossRef.Page

/-!
What a build reads: the manifest, the sources of the chapters and the templates.
-/
namespace CrossRef
namespace Build

/-- A chapter of the manifest with its content, or why there is none. -/
structure LoadedChapter where
  chapter : Chapter
  content : Except ChapterFault String
  deriving Inhabited

/-- The contents of the chapters that have one. -/
def sourcesOf (loaded : List LoadedChapter) : Sources := fun id =>
  loaded.findSome? fun c => if c.chapter.id = id then c.content.toOption else none

variable {m : Type → Type} [Monad m] [FileAccess m]

def loadManifest (path : Path) : m (Except BuildFault Manifest) := do
  match ← Files.readText path with
  | .error fault => return .error (.manifestUnreadable path fault)
  | .ok text =>
    match Manifest.read text with
    | .ok manifest => return .ok manifest
    | .error .malformed => return .error (.manifestMalformed path)
    | .error (.duplicateId id) => return .error (.duplicateChapter id)

/-- The content of a source. -/
def loadContent (path : Path) : m (Except ChapterFault String) := do
  if ← Files.isFile path then
    match ← Files.readText path with
    | .ok html => return .ok (Page.extractContent html)
    | .error fault => return .error (.unreadable path fault)
  else return .error (.missing path)

/-- The chapters of a manifest with their contents from a directory. -/
def loadChapters (manifest : Manifest) (directory : Path) : m (List LoadedChapter) :=
  manifest.chapters.mapM fun chapter => do
    return ⟨chapter, ← loadContent (directory.join chapter.fileName)⟩

/-- A template, if there is a file for it. -/
def loadTemplate (path : Path) : m (Except FileFault (Option String)) := do
  if ← Files.isFile path then return (← Files.readText path).map some else return .ok none

def headerTemplate : String := "_header.html"

def footerTemplate : String := "_footer.html"

def indexTemplate : String := "_index.html"

/-- The templates in a directory. -/
def loadTemplates (directory : Path) : m (Except BuildFault Page.Templates) := do
  let header ← loadTemplate (directory.join headerTemplate)
  let footer ← loadTemplate (directory.join footerTemplate)
  let index ← loadTemplate (directory.join indexTemplate)
  let templates : Except FileFault Page.Templates := do return ⟨← header, ← footer, ← index⟩
  return templates.mapError (.templatesUnreadable directory)

end Build
end CrossRef
