import CrossRef.Build.Assets
import CrossRef.Build.Reports
import CrossRef.Build.Sources
import CrossRef.Resolution

/-!
The build of a site: the sources of all chapters are read and indexed, and then each chapter goes
through the passes, is put into the templates and written.
-/
namespace CrossRef
namespace Build

open Index

/-- Where the pages of the chapters are, in the output directory. -/
def pagesName : String := "chapters"

def indexPageName : String := "index.html"

/-- The page of a chapter, and what the passes did to it. -/
def renderLoaded (config : Config) (templates : Page.Templates) (manifest : Manifest)
    (index : DocumentIndex) (chapter : Chapter) (content : String) : String × Pass.Report :=
  let done := processChapter config ⟨manifest, index, chapter.id⟩ (Pass.enabled config) content
  (Page.renderChapter templates manifest chapter done.html, done.report)

variable {m : Type → Type} [Monad m] [FileAccess m]

/-- Read the manifest and all chapters, and index them. -/
def loadDocument (loaded : LocatedConfig) :
    m (Except BuildFault (Manifest × List LoadedChapter × DocumentIndex)) := do
  match ← loadManifest loaded.manifestPath with
  | .error fault => return .error fault
  | .ok manifest =>
    let chapters ← loadChapters manifest loaded.chaptersDir
    return .ok
      (manifest, chapters, buildIndex manifest (sourcesOf chapters) loaded.config.numbering)

/-- Write the page of a chapter. -/
def writeChapter (directory : Path) (render : Chapter → String → String × Pass.Report)
    (loaded : LoadedChapter) : m ChapterOutcome := do
  match loaded.content with
  | .error fault => return ⟨loaded.chapter.id, .error fault, 0, []⟩
  | .ok content =>
    let (page, report) := render loaded.chapter content
    let path := directory.join loaded.chapter.fileName
    let output := match ← Files.writeText path page with
      | .ok () => .ok path
      | .error fault => .error (.unwritable path fault)
    return ⟨loaded.chapter.id, output, report.changed, report.unresolved⟩

/-- Write the index page, if there is one. -/
def writeIndexPage (directory : Path) : Option String → m (Except BuildFault (Option Path))
  | none => return .ok none
  | some page => do
    let path := directory.join indexPageName
    match ← Files.writeText path page with
    | .ok () => return .ok (some path)
    | .error fault => return .error (.outputUnwritable path fault)

/-- Write the pages and copy the assets. -/
def writeSite (loaded : LocatedConfig) (templates : Page.Templates) (manifest : Manifest)
    (chapters : List LoadedChapter) (index : DocumentIndex) (reports : List Path) :
    m (Except BuildFault Summary) := do
  let pages := loaded.outputDir.join pagesName
  match ← makeOutputDirectory pages with
  | .error fault => return .error fault
  | .ok () =>
    let outcomes ← chapters.mapM
      (writeChapter pages (renderLoaded loaded.config templates manifest index))
    match ← writeIndexPage loaded.outputDir (Page.renderIndex? templates manifest) with
    | .error fault => return .error fault
    | .ok indexPage =>
      match ← copyAssets loaded.outputDir loaded.assets with
      | .error fault => return .error fault
      | .ok copied => return .ok ⟨outcomes, indexPage, reports, copied⟩

/-- Build a site. The time goes into the reports. -/
def build (time : String) (loaded : LocatedConfig) : m (Except BuildFault Summary) := do
  match ← loadDocument loaded with
  | .error fault => return .error fault
  | .ok (manifest, chapters, index) =>
    let written ← match loaded.reportDir? with
      | none => pure (.ok [])
      | some directory => writeReports directory (reportFiles time manifest index)
    match written with
    | .error fault => return .error fault
    | .ok reports =>
      let read ← match loaded.templatesDir? with
        | none => pure (.ok ⟨none, none, none⟩)
        | some directory => loadTemplates directory
      match read with
      | .error fault => return .error fault
      | .ok templates => writeSite loaded templates manifest chapters index reports

end Build
end CrossRef
