import CrossRef.Build.Site
import CrossRef.Proofs.Files.Recorded
import CrossRef.Proofs.Manifest

/-!
Builds with a record. Each part of a build does the same with the record and without it; the reading
parts leave the tree as it is, and the copying parts write to their targets only.
-/
namespace CrossRef
namespace Build

open Recorded Files

/-! ### Reading -/

theorem follows_loadManifest (path : Path) : Follows (loadManifest path) (loadManifest path) := by
  refine .bind (follows_readText path) fun text => ?_
  cases text with
  | error => exact .pure _
  | ok text =>
    dsimp only
    cases Manifest.read text with
    | ok => exact .pure _
    | error fault => cases fault <;> exact .pure _

theorem follows_loadContent (path : Path) : Follows (loadContent path) (loadContent path) := by
  refine .bind (follows_isFile path) fun isFile => ?_
  cases isFile with
  | false => exact .pure _
  | true => exact .bind (follows_readText path) fun html => by cases html <;> exact .pure _

theorem follows_loadChapters (manifest : Manifest) (directory : Path) :
    Follows (loadChapters manifest directory) (loadChapters manifest directory) :=
  .mapM (fun _ => .bind (follows_loadContent _) fun _ => .pure _) _

theorem follows_loadDocument (loaded : LocatedConfig) :
    Follows (loadDocument loaded) (loadDocument loaded) := by
  refine .bind (follows_loadManifest _) fun manifest => ?_
  cases manifest with
  | error => exact .pure _
  | ok manifest => exact .bind (follows_loadChapters manifest _) fun _ => .pure _

theorem follows_loadTemplate (path : Path) : Follows (loadTemplate path) (loadTemplate path) := by
  refine .bind (follows_isFile path) fun isFile => ?_
  cases isFile with
  | false => exact .pure _
  | true => exact .bind (follows_readText path) fun _ => .pure _

theorem follows_loadTemplates (directory : Path) :
    Follows (loadTemplates directory) (loadTemplates directory) :=
  .bind (follows_loadTemplate _) fun _ => .bind (follows_loadTemplate _) fun _ =>
    .bind (follows_loadTemplate _) fun _ => .pure _

theorem readsOnly_loadManifest (path : Path) : ReadsOnly (loadManifest path) := by
  refine .bind (readsOnly_readText path) fun text => ?_
  cases text with
  | error => exact .pure _
  | ok text =>
    dsimp only
    cases Manifest.read text with
    | ok => exact .pure _
    | error fault => cases fault <;> exact .pure _

theorem readsOnly_loadContent (path : Path) : ReadsOnly (loadContent path) := by
  refine .bind (readsOnly_isFile path) fun isFile => ?_
  cases isFile with
  | false => exact .pure _
  | true => exact .bind (readsOnly_readText path) fun html => by cases html <;> exact .pure _

theorem readsOnly_loadChapters (manifest : Manifest) (directory : Path) :
    ReadsOnly (loadChapters manifest directory) :=
  .mapM (fun _ => .bind (readsOnly_loadContent _) fun _ => .pure _) _

theorem readsOnly_loadDocument (loaded : LocatedConfig) : ReadsOnly (loadDocument loaded) := by
  refine .bind (readsOnly_loadManifest _) fun manifest => ?_
  cases manifest with
  | error => exact .pure _
  | ok manifest => exact .bind (readsOnly_loadChapters manifest _) fun _ => .pure _

theorem readsOnly_loadTemplate (path : Path) : ReadsOnly (loadTemplate path) := by
  refine .bind (readsOnly_isFile path) fun isFile => ?_
  cases isFile with
  | false => exact .pure _
  | true => exact .bind (readsOnly_readText path) fun _ => .pure _

theorem readsOnly_loadTemplates (directory : Path) : ReadsOnly (loadTemplates directory) :=
  .bind (readsOnly_loadTemplate _) fun _ => .bind (readsOnly_loadTemplate _) fun _ =>
    .bind (readsOnly_loadTemplate _) fun _ => .pure _

/-- A manifest that is loaded has no id twice. -/
theorem repeatedId?_of_loadManifest {path : Path} {tree : FileTree} {manifest : Manifest}
    (h : (loadManifest path : Recorded _).value tree = .ok manifest) :
    Manifest.repeatedId? [] manifest.chapters = none := by
  obtain ⟨text, -, h, -⟩ := exists_of_value_bind h fun fault => ⟨_, rfl⟩
  dsimp only at h
  cases hread : Manifest.read text with
  | error fault => rw [hread] at h; cases fault <;> cases h
  | ok read =>
    rw [hread] at h
    cases h
    exact Manifest.repeatedId?_of_read hread

/-- The source of a chapter: the content of a file that exists and is text. -/
def sourceAt? (tree : FileTree) (path : Path) : Option String := do
  let content ← (tree.read path).toOption
  let html ← String.fromUTF8? content
  return Page.extractContent html

/-- What is loaded of a chapter is its source. -/
theorem toOption_loadContent (path : Path) (tree : FileTree) :
    ((loadContent path : Recorded _).value tree).toOption = sourceAt? tree path := by
  have htext := value_readText path tree
  rw [loadContent, value_bind, (readsOnly_isFile path).after_eq, sourceAt?]
  cases hread : tree.read path with
  | error fault =>
    rw [hread] at htext
    cases (isFile path : Recorded _).value tree with
    | false => rfl
    | true =>
      rw [if_pos rfl, value_bind, htext]
      rfl
  | ok content =>
    have hfile : (isFile path : Recorded _).value tree = true :=
      decide_eq_true (FileTree.kind?_of_read hread)
    rw [hread] at htext
    rw [hfile, if_pos rfl, value_bind, htext]
    simp only [Except.bind, textOf, Except.toOption, Option.bind_eq_bind, Option.bind_some]
    cases String.fromUTF8? content <;> rfl

/-! ### Writing -/

theorem follows_writeReportFiles (directory : Path) (reports : List (String × Json)) :
    Follows (writeReportFiles directory reports) (writeReportFiles directory reports) := by
  induction reports with
  | nil => exact .pure _
  | cons report rest ih =>
    refine .bind (follows_writeText _ _) fun written => ?_
    cases written with
    | error => exact .pure _
    | ok => exact .bind ih fun _ => .pure _

theorem follows_writeReports (directory : Path) (reports : List (String × Json)) :
    Follows (writeReports directory reports) (writeReports directory reports) := by
  refine .bind (follows_makeDirectories directory) fun made => ?_
  cases made with
  | error => exact .pure _
  | ok => exact follows_writeReportFiles directory reports

theorem follows_writeChapter (directory : Path) (render : Chapter → String → String × Pass.Report)
    (chapter : LoadedChapter) :
    Follows (writeChapter directory render chapter) (writeChapter directory render chapter) := by
  obtain ⟨chapter, content⟩ := chapter
  cases content with
  | error => exact .pure _
  | ok content => exact .bind (follows_writeText _ _) fun _ => .pure _

theorem follows_writeIndexPage (directory : Path) (page : Option String) :
    Follows (writeIndexPage directory page) (writeIndexPage directory page) := by
  cases page with
  | none => exact .pure _
  | some page => exact .bind (follows_writeText _ _) fun written => by cases written <;> exact .pure _

/-! ### Copying -/

theorem follows_makeOutputDirectory (directory : Path) :
    Follows (makeOutputDirectory directory) (makeOutputDirectory directory) :=
  .bind (follows_makeDirectories directory) fun _ => .pure _

theorem follows_copyFile (source target : Path) :
    Follows (copyFile source target) (copyFile source target) := by
  unfold copyFile
  cases target.parent? with
  | none =>
    refine .bind (.pure _) fun made => ?_
    cases made with
    | error => exact .pure _
    | ok => exact .bind (follows_copy source target) fun _ => .pure _
  | some parent =>
    refine .bind (follows_makeOutputDirectory parent) fun made => ?_
    cases made with
    | error => exact .pure _
    | ok => exact .bind (follows_copy source target) fun _ => .pure _

theorem follows_copyBelow (source target : Path) (entries : List (List (List Char) × EntryKind)) :
    Follows (copyBelow source target entries) (copyBelow source target entries) := by
  induction entries with
  | nil => exact .pure _
  | cons entry rest ih =>
    obtain ⟨names, kind⟩ := entry
    unfold copyBelow
    cases kind with
    | directory =>
      refine .bind (follows_makeOutputDirectory _) fun _ => .bind (.pure _) fun ⟨copied, count⟩ => ?_
      cases copied with
      | error => exact .pure _
      | ok => exact .bind ih fun _ => .pure _
    | file =>
      refine .bind (follows_copyFile _ _) fun _ => .bind (.pure _) fun ⟨copied, count⟩ => ?_
      cases copied with
      | error => exact .pure _
      | ok => exact .bind ih fun _ => .pure _

theorem follows_copyAsset (source directory : Path) :
    Follows (copyAsset source directory) (copyAsset source directory) := by
  refine .bind (fun _ => rfl) fun kind => ?_
  cases source.fileName? with
  | none => cases kind with
    | none => exact .pure _
    | some kind => cases kind <;> exact .pure _
  | some name => cases kind with
    | none => exact .pure _
    | some kind => cases kind with
      | file => exact .bind (follows_copyFile _ _) fun _ => .pure _
      | directory =>
        refine .bind (follows_makeOutputDirectory _) fun made => ?_
        cases made with
        | error => exact .pure _
        | ok => exact .bind (fun _ => rfl) fun entries => follows_copyBelow _ _ entries

theorem follows_copyAssets (directory : Path) (assets : List Path) :
    Follows (copyAssets directory assets) (copyAssets directory assets) := by
  induction assets with
  | nil => exact .pure _
  | cons source rest ih =>
    refine .bind (follows_copyAsset source directory) fun copied => ?_
    cases copied with
    | error => exact .pure _
    | ok => exact .bind ih fun _ => .pure _

/-! ### The whole build -/

theorem follows_writeSite (loaded : LocatedConfig) (templates : Page.Templates) (manifest : Manifest)
    (chapters : List LoadedChapter) (index : Index.DocumentIndex) (reports : List Path) :
    Follows (writeSite loaded templates manifest chapters index reports)
      (writeSite loaded templates manifest chapters index reports) := by
  refine .bind (follows_makeOutputDirectory _) fun made => ?_
  cases made with
  | error => exact .pure _
  | ok =>
    refine .bind (.mapM (follows_writeChapter _ _) chapters) fun outcomes => ?_
    refine .bind (follows_writeIndexPage _ _) fun indexPage => ?_
    cases indexPage with
    | error => exact .pure _
    | ok =>
      refine .bind (follows_copyAssets _ _) fun copied => ?_
      cases copied <;> exact .pure _

section

variable {m : Type → Type} [Monad m] [FileAccess m]

/-- Write the reports, if a directory is set for them. -/
def reportsOf (time : String) (loaded : LocatedConfig) (manifest : Manifest)
    (index : Index.DocumentIndex) : m (Except BuildFault (List Path)) :=
  match loaded.reportDir? with
  | none => pure (.ok [])
  | some directory => writeReports directory (reportFiles time manifest index)

/-- Read the templates, if a directory is set for them. -/
def templatesOf (loaded : LocatedConfig) : m (Except BuildFault Page.Templates) :=
  match loaded.templatesDir? with
  | none => pure (.ok ⟨none, none, none⟩)
  | some directory => loadTemplates directory

/-- What is left to do after the pages. -/
def finishSite (loaded : LocatedConfig) (templates : Page.Templates) (manifest : Manifest)
    (reports : List Path) (outcomes : List ChapterOutcome) :
    m (Except BuildFault Summary) := do
  match ← writeIndexPage loaded.outputDir (Page.renderIndex? templates manifest) with
  | .error fault => return .error fault
  | .ok indexPage =>
    match ← copyAssets loaded.outputDir loaded.assets with
    | .error fault => return .error fault
    | .ok copied => return .ok ⟨outcomes, indexPage, reports, copied⟩

/-- A site is written directory first, and then pages, index page and assets. -/
theorem writeSite_eq (loaded : LocatedConfig) (templates : Page.Templates) (manifest : Manifest)
    (chapters : List LoadedChapter)
    (index : Index.DocumentIndex) (reports : List Path) :
    (writeSite loaded templates manifest chapters index reports : m _) = (do
      match ← makeOutputDirectory (loaded.outputDir.join pagesName) with
      | .error fault => return .error fault
      | .ok () =>
        finishSite loaded templates manifest reports (← chapters.mapM
          (writeChapter (loaded.outputDir.join pagesName)
            (renderLoaded loaded.config templates manifest index)))) := rfl

/-- A build goes through its parts one after the other. -/
theorem build_eq (time : String) (loaded : LocatedConfig) :
    (build time loaded : m _) = (do
      match ← loadDocument loaded with
      | .error fault => return .error fault
      | .ok (manifest, chapters, index) =>
        match ← reportsOf time loaded manifest index with
        | .error fault => return .error fault
        | .ok reports =>
          match ← templatesOf loaded with
          | .error fault => return .error fault
          | .ok templates => writeSite loaded templates manifest chapters index reports) := by
  unfold build reportsOf templatesOf
  cases loaded.reportDir? <;> cases loaded.templatesDir? <;> rfl

end

theorem readsOnly_templatesOf (loaded : LocatedConfig) : ReadsOnly (templatesOf loaded) := by
  unfold templatesOf
  cases loaded.templatesDir? with
  | none => exact .pure _
  | some directory => exact readsOnly_loadTemplates directory

theorem follows_templatesOf (loaded : LocatedConfig) :
    Follows (templatesOf loaded) (templatesOf loaded) := by
  unfold templatesOf
  cases loaded.templatesDir? with
  | none => exact .pure _
  | some directory => exact follows_loadTemplates directory

theorem follows_reportsOf (time : String) (loaded : LocatedConfig) (manifest : Manifest)
    (index : Index.DocumentIndex) :
    Follows (reportsOf time loaded manifest index) (reportsOf time loaded manifest index) := by
  unfold reportsOf
  cases loaded.reportDir? with
  | none => exact .pure _
  | some directory => exact follows_writeReports directory _

/-- A build with a record does what a build without it does. -/
theorem follows_build (time : String) (loaded : LocatedConfig) :
    Follows (build time loaded) (build time loaded) := by
  rw [build_eq, build_eq]
  refine .bind (follows_loadDocument loaded) fun document => ?_
  cases document with
  | error => exact .pure _
  | ok document =>
    obtain ⟨manifest, chapters, index⟩ := document
    refine .bind (follows_reportsOf time loaded manifest index) fun reports => ?_
    cases reports with
    | error => exact .pure _
    | ok reports =>
      refine .bind (follows_templatesOf loaded) fun templates => ?_
      cases templates with
      | error => exact .pure _
      | ok templates => exact follows_writeSite loaded templates manifest chapters index reports

/-! ### What is written -/

section

variable {directory : Path} {tree : FileTree}

/-- A report that is written is there under its name. -/
theorem writes_writeReportFiles {reports : List (String × Json)} {paths : List Path}
    (h : (writeReportFiles directory reports : Recorded _).value tree = .ok paths)
    {name : String} {report : Json} (hmem : (name, report) ∈ reports) :
    Writes (writeReportFiles directory reports) tree (directory.join name)
      report.pretty.toUTF8 := by
  induction reports generalizing tree paths with
  | nil => nomatch hmem
  | cons first rest ih =>
    obtain ⟨firstName, firstReport⟩ := first
    rw [writeReportFiles] at h ⊢
    obtain ⟨_, hwrite, h, -⟩ := exists_of_value_bind h fun fault => ⟨_, rfl⟩
    rcases List.mem_cons.mp hmem with heq | hmem
    · cases heq
      exact .bind (writes_write hwrite)
    · refine .bind_right ?_
      rw [hwrite]
      refine .bind ?_
      rw [value_bind] at h
      cases hrest : (writeReportFiles directory rest : Recorded _).value
          ((writeText (directory.join firstName) firstReport.pretty : Recorded _).after tree) with
      | error fault => rw [hrest] at h; cases h
      | ok paths => exact ih hrest hmem

theorem writes_writeReports {reports : List (String × Json)} {paths : List Path}
    (h : (writeReports directory reports : Recorded _).value tree = .ok paths)
    {name : String} {report : Json} (hmem : (name, report) ∈ reports) :
    Writes (writeReports directory reports) tree (directory.join name) report.pretty.toUTF8 := by
  obtain ⟨_, hmake, h, -⟩ := exists_of_value_bind h fun fault => ⟨_, rfl⟩
  refine .bind_right ?_
  rw [hmake]
  exact writes_writeReportFiles h hmem

theorem writesOnly_makeOutputDirectory (directory : Path) :
    WritesOnly (makeOutputDirectory directory) fun _ _ => False :=
  .bind (fun _ => id) (writesOnly_makeDirectories directory) fun _ => .pure _

theorem writesOnly_writeIndexPage (page : Option String) :
    WritesOnly (writeIndexPage directory page) fun _ path =>
      page.isSome ∧ path = directory.join indexPageName := by
  cases page with
  | none => exact .pure _
  | some page =>
    refine .bind (fun _ => id) (fun tree path content hmem => ?_) fun written => ?_
    · cases List.mem_singleton.mp hmem
      exact ⟨rfl, rfl⟩
    · cases written <;> exact .pure _

theorem writesOnly_copyFile (source target : Path) :
    WritesOnly (copyFile source target) fun tree path =>
      path = target ∧ tree.kind? source = some .file := by
  have hkeeps {tree after : FileTree} {path : Path} (hgrows : tree.Grows after)
      (h : path = target ∧ tree.kind? source = some .file) :
      path = target ∧ after.kind? source = some .file := ⟨h.1, hgrows.kind? h.2⟩
  unfold copyFile
  cases target.parent? with
  | none =>
    refine .bind hkeeps (.pure _) fun made => ?_
    cases made with
    | error => exact .pure _
    | ok => exact .bind hkeeps (writesOnly_copy source target) fun _ => .pure _
  | some parent =>
    refine .bind hkeeps ((writesOnly_makeOutputDirectory parent).mono fun _ _ h => h.elim)
      fun made => ?_
    cases made with
    | error => exact .pure _
    | ok => exact .bind hkeeps (writesOnly_copy source target) fun _ => .pure _

/-- The file that names lead to from a source goes to the same names below its target. -/
def CopiedAt (source target : Path) (names : List (List Char)) (tree : FileTree) (path : Path) : Prop :=
  tree.kind? (source.joinAll names) = some .file ∧ path = target.joinAll names

/-- The files of a source are the source itself, where it is a file, and those that a walk below it meets. -/
def CopiedBelow (source target : Path) (tree : FileTree) (path : Path) : Prop :=
  ∃ names, (names = [] ∨ names ∈ (tree.below source).map Prod.fst) ∧
    CopiedAt source target names tree path

theorem CopiedAt.grow {source target path : Path} {names : List (List Char)} {after : FileTree}
    (hgrows : tree.Grows after) (h : CopiedAt source target names tree path) :
    CopiedAt source target names after path := h.imp_left hgrows.kind?

theorem CopiedBelow.grow {source target path : Path} {after : FileTree} (hgrows : tree.Grows after)
    (h : CopiedBelow source target tree path) : CopiedBelow source target after path := by
  obtain ⟨names, hnames, hcopied⟩ := h
  exact ⟨names, hnames.imp_right fun hmem => hgrows.names_below hmem, hcopied.grow hgrows⟩

/-- To copy the entries of a walk writes to the targets of those that are files. -/
theorem writesOnly_copyBelow (source target : Path)
    (entries : List (List (List Char) × EntryKind)) :
    WritesOnly (copyBelow source target entries) fun tree path =>
      ∃ names ∈ entries.map Prod.fst, CopiedAt source target names tree path := by
  have hkeeps {entries : List (List (List Char) × EntryKind)} {tree after : FileTree} {path : Path}
      (hgrows : tree.Grows after) :
      (∃ names ∈ entries.map Prod.fst, CopiedAt source target names tree path) →
        ∃ names ∈ entries.map Prod.fst, CopiedAt source target names after path :=
    fun ⟨names, hmem, hcopied⟩ => ⟨names, hmem, hcopied.grow hgrows⟩
  induction entries with
  | nil => exact .pure _
  | cons entry rest ih =>
    obtain ⟨names, kind⟩ := entry
    have hrest : WritesOnly (copyBelow source target rest) fun tree path =>
        ∃ other ∈ ((names, kind) :: rest).map Prod.fst, CopiedAt source target other tree path :=
      ih.mono fun _ _ ⟨other, hmem, hcopied⟩ => ⟨other, List.mem_cons_of_mem names hmem, hcopied⟩
    unfold copyBelow
    cases kind with
    | directory =>
      refine .bind hkeeps ((writesOnly_makeOutputDirectory _).mono fun _ _ h => h.elim) fun _ =>
        .bind hkeeps (.pure _) fun ⟨copied, count⟩ => ?_
      cases copied with
      | error => exact .pure _
      | ok => exact .bind hkeeps hrest fun _ => .pure _
    | file =>
      refine .bind hkeeps ((writesOnly_copyFile _ _).mono
        fun _ _ ⟨hpath, hkind⟩ => ⟨names, List.mem_cons_self, hkind, hpath⟩) fun _ =>
          .bind hkeeps (.pure _) fun ⟨copied, count⟩ => ?_
      cases copied with
      | error => exact .pure _
      | ok => exact .bind hkeeps hrest fun _ => .pure _

/-- What is copied of assets goes below their names in a directory. -/
def CopiedFrom (assets : List Path) (directory : Path) (tree : FileTree) (path : Path) : Prop :=
  ∃ asset ∈ assets, ∃ name, asset.fileName? = some name ∧
    CopiedBelow asset (directory.join name) tree path

theorem CopiedFrom.grow {assets : List Path} {path : Path} {after : FileTree}
    (hgrows : tree.Grows after) (h : CopiedFrom assets directory tree path) :
    CopiedFrom assets directory after path := by
  obtain ⟨asset, hmem, name, hname, hcopied⟩ := h
  exact ⟨asset, hmem, name, hname, hcopied.grow hgrows⟩

/-- A walk below a directory changes nothing, and what is copied of it is below that directory. -/
theorem writesOnly_copyWalk (source target : Path) :
    WritesOnly (do copyBelow source target (← FileAccess.below source))
      (CopiedBelow source target) := by
  intro tree path content hwrite
  obtain ⟨names, hnames, hcopied⟩ := writesOnly_copyBelow source target (tree.below source) tree path
    content hwrite
  have hgrows := grows_after (copyBelow source target (tree.below source)) tree
  exact ⟨names, .inr (hgrows.names_below hnames), hcopied⟩

theorem writesOnly_copyAsset (source directory : Path) :
    WritesOnly (copyAsset source directory) (CopiedFrom [source] directory) := by
  refine .bind CopiedFrom.grow (fun _ _ _ h => nomatch h) fun kind => ?_
  cases hname : source.fileName? with
  | none => cases kind with
    | none => exact .pure _
    | some kind => cases kind <;> exact .pure _
  | some name =>
    have hcopied {tree : FileTree} {path : Path} (h : CopiedBelow source (directory.join name) tree path) :
        CopiedFrom [source] directory tree path :=
      ⟨source, List.mem_singleton_self source, name, hname, h⟩
    cases kind with
    | none => exact .pure _
    | some kind => cases kind with
      | file =>
        refine .bind CopiedFrom.grow ((writesOnly_copyFile _ _).mono
          fun _ _ ⟨hpath, hkind⟩ => hcopied ⟨[], .inl rfl, hkind, hpath⟩) fun _ => .pure _
      | directory =>
        refine .bind CopiedFrom.grow
          ((writesOnly_makeOutputDirectory _).mono fun _ _ h => h.elim) fun made => ?_
        cases made with
        | error => exact .pure _
        | ok => exact (writesOnly_copyWalk source _).mono fun _ _ => hcopied

theorem writesOnly_copyAssets (directory : Path) (assets : List Path) :
    WritesOnly (copyAssets directory assets) (CopiedFrom assets directory) := by
  induction assets with
  | nil => exact .pure _
  | cons source rest ih =>
    refine .bind CopiedFrom.grow ((writesOnly_copyAsset source directory).mono
      fun _ _ ⟨asset, hmem, h⟩ => ⟨asset, List.mem_cons.mpr (.inl (List.mem_singleton.mp hmem)), h⟩)
        fun copied => ?_
    cases copied with
    | error => exact .pure _
    | ok =>
      exact .bind CopiedFrom.grow
        (ih.mono fun _ _ ⟨asset, hmem, h⟩ => ⟨asset, List.mem_cons_of_mem _ hmem, h⟩) fun _ => .pure _

end
end Build
end CrossRef
