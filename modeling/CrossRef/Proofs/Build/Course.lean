import CrossRef.Proofs.Build.Recorded

/-!
The course of a build: what it reads, and what it attempts before, for and after the pages.
-/
namespace CrossRef
namespace Build

open Recorded Files Index

/-- The texts of the chapters of a manifest whose sources exist and are text. -/
def sourcesIn (tree : FileTree) (loaded : LocatedConfig) (manifest : Manifest) : Sources := fun id =>
  (manifest.findChapter? id).bind fun chapter =>
    sourceAt? tree (loaded.chaptersDir.join chapter.fileName)

/-- The index of the chapters of a manifest that have a source. -/
def indexIn (tree : FileTree) (loaded : LocatedConfig) (manifest : Manifest) : DocumentIndex :=
  buildIndex manifest (sourcesIn tree loaded manifest) loaded.config.numbering

/-- Where the page of a chapter goes. -/
def pagePath (loaded : LocatedConfig) (chapter : Chapter) : Path :=
  (loaded.outputDir.join pagesName).join chapter.fileName

section

variable {tree : FileTree} {loaded : LocatedConfig} {manifest : Manifest}

/-- A chapter with what is loaded of it. -/
def loadedIn (tree : FileTree) (loaded : LocatedConfig) (chapter : Chapter) : LoadedChapter :=
  ⟨chapter, (loadContent (loaded.chaptersDir.join chapter.fileName) : Recorded _).value tree⟩

theorem toOption_loadedIn (tree : FileTree) (loaded : LocatedConfig) (chapter : Chapter) :
    (loadedIn tree loaded chapter).content.toOption =
      sourceAt? tree (loaded.chaptersDir.join chapter.fileName) :=
  toOption_loadContent _ tree

theorem value_loadChapters (tree : FileTree) (loaded : LocatedConfig) (manifest : Manifest) :
    (loadChapters manifest loaded.chaptersDir : Recorded _).value tree =
      manifest.chapters.map (loadedIn tree loaded) :=
  ReadsOnly.value_mapM (fun _ => .bind (readsOnly_loadContent _) fun _ => .pure _) _ tree

/-- Chapters with the same id have the same file. -/
theorem sourcesIn_of_mem {chapter : Chapter} (hmem : chapter ∈ manifest.chapters) :
    sourcesIn tree loaded manifest chapter.id =
      sourceAt? tree (loaded.chaptersDir.join chapter.fileName) := by
  have hsome : (manifest.findChapter? chapter.id).isSome := by
    rw [Manifest.findChapter?, List.find?_isSome]
    exact ⟨chapter, hmem, decide_eq_true rfl⟩
  obtain ⟨found, hfound⟩ := Option.isSome_iff_exists.mp hsome
  have hid : found.id = chapter.id := by simpa using List.find?_some hfound
  rw [sourcesIn, hfound, Option.bind_some, Chapter.fileName, hid, Chapter.fileName]

/-- A search with one answer for all it looks for. -/
theorem findSome?_ite {α β : Type} (p : α → Prop) [DecidablePred p] (answer : Option β)
    (l : List α) :
    (l.findSome? fun a => if p a then answer else none) = (l.find? p).bind fun _ => answer := by
  induction l with
  | nil => rfl
  | cons a rest ih =>
    by_cases ha : p a
    · cases answer with
      | none => simp
      | some b => simp [ha]
    · simpa [ha] using ih

/-- What is loaded is the sources. -/
theorem sourcesOf_loadedIn (tree : FileTree) (loaded : LocatedConfig) (manifest : Manifest) :
    sourcesOf (manifest.chapters.map (loadedIn tree loaded)) = sourcesIn tree loaded manifest := by
  funext id
  let source := sourceAt? tree (loaded.chaptersDir.join (id ++ ".html"))
  have hsource (chapter : Chapter) (hid : chapter.id = id) :
      sourceAt? tree (loaded.chaptersDir.join chapter.fileName) = source := by
    rw [Chapter.fileName, hid]
  have hloaded : sourcesOf (manifest.chapters.map (loadedIn tree loaded)) id =
      manifest.chapters.findSome? fun chapter => if chapter.id = id then source else none := by
    rw [sourcesOf, List.findSome?_map]
    refine congrArg (manifest.chapters.findSome? ·) (funext fun chapter => ?_)
    show (if chapter.id = id then _ else none) = _
    split_ifs with hid
    · rw [toOption_loadedIn, hsource chapter hid]
    · rfl
  rw [hloaded, findSome?_ite, sourcesIn, Manifest.findChapter?]
  cases hfound : manifest.chapters.find? fun chapter => chapter.id = id with
  | none => rfl
  | some chapter => exact (hsource chapter (by simpa using List.find?_some hfound)).symm

/-! ### The pages -/

/-- What is attempted for a chapter: to write its page, if there is a content. -/
def pageAttempts (loaded : LocatedConfig) (render : Chapter → String → String × Pass.Report)
    (chapter : LoadedChapter) : List Attempt :=
  match chapter.content with
  | .error _ => []
  | .ok content =>
    [.write (pagePath loaded chapter.chapter) (render chapter.chapter content).1.toUTF8]

variable {render : Chapter → String → String × Pass.Report}

theorem attempts_writeChapter (chapter : LoadedChapter) (tree : FileTree) :
    (writeChapter (loaded.outputDir.join pagesName) render chapter : Recorded _).attempts tree =
      pageAttempts loaded render chapter := by
  obtain ⟨chapter, content⟩ := chapter
  cases content <;> rfl

theorem chapterId_writeChapter (directory : Path) (chapter : LoadedChapter) (tree : FileTree) :
    ((writeChapter directory render chapter : Recorded _).value tree).chapterId =
      chapter.chapter.id := by
  obtain ⟨chapter, content⟩ := chapter
  cases content <;> rfl

/-- A chapter with a content is processed, and its page is written or reported. -/
theorem value_writeChapter_of_ok (directory : Path)
    (render : Chapter → String → String × Pass.Report) (chapter : Chapter) (content : String)
    (tree : FileTree) :
    let outcome := (writeChapter directory render ⟨chapter, .ok content⟩ : Recorded _).value tree
    let path := directory.join chapter.fileName
    let page := (render chapter content).1.toUTF8
    outcome.changed = (render chapter content).2.changed ∧
      outcome.unresolved = (render chapter content).2.unresolved ∧
      (outcome.output = .ok path ∧ (Attempt.replay tree [.write path page]).read path = .ok page ∨
        ∃ fault, outcome.output = .error (.unwritable path fault)) := by
  intro outcome path page
  refine ⟨rfl, rfl, ?_⟩
  cases hwrite : (writeText path (render chapter content).1 : Recorded _).value tree with
  | ok =>
    refine .inl ⟨?_, read_replay_write hwrite⟩
    simp only [outcome, writeChapter, value_bind, value_pure, path, hwrite]
  | error fault =>
    refine .inr ⟨fault, ?_⟩
    simp only [outcome, writeChapter, value_bind, value_pure, path, hwrite]

/-! ### The site -/

/-- What is written after the pages: the index page, if there is a template for it, and assets. -/
def WrittenLast (loaded : LocatedConfig) (templates : Page.Templates) (tree : FileTree)
    (path : Path) : Prop :=
  (templates.index.isSome ∧ path = loaded.outputDir.join indexPageName) ∨
    CopiedFrom loaded.assets loaded.outputDir tree path

theorem WrittenLast.grow {templates : Page.Templates} {after : FileTree} {path : Path}
    (hgrows : tree.Grows after) (h : WrittenLast loaded templates tree path) :
    WrittenLast loaded templates after path :=
  h.imp_right fun hcopied => hcopied.grow hgrows

variable {templates : Page.Templates} {reports : List Path} {outcomes : List ChapterOutcome}
variable {summary : Summary}

theorem writesOnly_finishSite :
    WritesOnly (finishSite loaded templates manifest reports outcomes)
      (WrittenLast loaded templates) := by
  refine .bind WrittenLast.grow ((writesOnly_writeIndexPage _).mono fun _ _ ⟨hpage, hpath⟩ =>
    .inl ⟨by simpa [Page.renderIndex?] using hpage, hpath⟩) fun indexPage => ?_
  cases indexPage with
  | error => exact .pure _
  | ok =>
    refine .bind WrittenLast.grow ((writesOnly_copyAssets _ _).mono fun _ _ => .inr) fun copied => ?_
    cases copied <;> exact .pure _

theorem value_finishSite
    (h : (finishSite loaded templates manifest reports outcomes : Recorded _).value tree =
      .ok summary) :
    summary.chapters = outcomes ∧ summary.reports = reports := by
  obtain ⟨indexPage, -, h, -⟩ := exists_of_value_bind h fun fault => ⟨_, rfl⟩
  obtain ⟨copied, -, h, -⟩ := exists_of_value_bind h fun fault => ⟨_, rfl⟩
  cases h
  exact ⟨rfl, rfl⟩

/-- The parts of a site that is written. -/
theorem exists_of_writeSite {chapters : List LoadedChapter} {index : DocumentIndex}
    (h : (writeSite loaded templates manifest chapters index reports : Recorded _).value tree =
      .ok summary) :
    ∃ preparing closing,
      (writeSite loaded templates manifest chapters index reports : Recorded _).attempts tree =
        preparing ++ chapters.flatMap
          (pageAttempts loaded (renderLoaded loaded.config templates manifest index)) ++ closing ∧
      summary.chapters = (chapters.mapM (writeChapter (loaded.outputDir.join pagesName)
        (renderLoaded loaded.config templates manifest index)) : Recorded _).value
          (Attempt.replay tree preparing) ∧
      summary.reports = reports ∧
      ∀ path content, .write path content ∈ closing → WrittenLast loaded templates
        ((writeSite loaded templates manifest chapters index reports : Recorded _).after tree)
        path := by
  rw [writeSite_eq] at h ⊢
  obtain ⟨⟨⟩, -, hpages, hattempts, hafter⟩ := exists_of_value_bind h fun fault => ⟨_, rfl⟩
  obtain ⟨hchapters, hreports⟩ := value_finishSite hpages
  rw [hattempts, hafter, attempts_bind, after_bind, ← List.append_assoc,
    attempts_mapM attempts_writeChapter]
  exact ⟨_, _, rfl, hchapters, hreports, fun path content => writesOnly_finishSite _ path content⟩

end

/-! ### The whole course -/

/-- Render a chapter as the build does. -/
def renderIn (tree : FileTree) (loaded : LocatedConfig) (manifest : Manifest)
    (templates : Page.Templates) : Chapter → String → String × Pass.Report :=
  renderLoaded loaded.config templates manifest (indexIn tree loaded manifest)

/-- What a build that comes to its end reads, and what it attempts. -/
structure Course (time : String) (loaded : LocatedConfig) (tree : FileTree) (summary : Summary) where
  manifest : Manifest
  templates : Page.Templates
  /-- The attempts before the pages: reports and directories. -/
  opening : List Attempt
  /-- The attempts after the pages. -/
  closing : List Attempt
  manifest_eq : (loadManifest loaded.manifestPath : Recorded _).value tree = .ok manifest
  index_eq : (loadDocument loaded : Recorded _).value tree =
    .ok (manifest, manifest.chapters.map (loadedIn tree loaded), indexIn tree loaded manifest)
  reports_eq : (reportsOf time loaded manifest (indexIn tree loaded manifest) : Recorded _).value tree =
    .ok summary.reports
  /-- Templates are read when the reports are written. -/
  templates_eq : (templatesOf loaded : Recorded _).value
    ((reportsOf time loaded manifest (indexIn tree loaded manifest) : Recorded _).after tree) =
      .ok templates
  reports : ∀ directory, loaded.reportDir? = some directory → ∀ name report,
    (name, report) ∈ reportFiles time manifest (indexIn tree loaded manifest) →
      Writes (build time loaded) tree (directory.join name) report.pretty.toUTF8
  attempts_eq : (build time loaded : Recorded _).attempts tree = opening ++
    (manifest.chapters.map (loadedIn tree loaded)).flatMap
      (pageAttempts loaded (renderIn tree loaded manifest templates)) ++ closing
  chapters_eq : summary.chapters = ((manifest.chapters.map (loadedIn tree loaded)).mapM
    (writeChapter (loaded.outputDir.join pagesName) (renderIn tree loaded manifest templates)) :
      Recorded _).value (Attempt.replay tree opening)
  closing_last : ∀ path content, .write path content ∈ closing →
    WrittenLast loaded templates ((build time loaded : Recorded _).after tree) path

variable {time : String} {loaded : LocatedConfig} {tree : FileTree} {summary : Summary}

theorem exists_of_loadDocument {manifest : Manifest} {chapters : List LoadedChapter}
    {index : DocumentIndex}
    (h : (loadDocument loaded : Recorded _).value tree = .ok (manifest, chapters, index)) :
    (loadManifest loaded.manifestPath : Recorded _).value tree = .ok manifest ∧
      chapters = manifest.chapters.map (loadedIn tree loaded) ∧ index = indexIn tree loaded manifest := by
  obtain ⟨read, hread, h, -⟩ := exists_of_value_bind h fun fault => ⟨_, rfl⟩
  rw [(readsOnly_loadManifest _).after_eq] at h
  dsimp only at h
  rw [value_bind, value_loadChapters, value_pure] at h
  cases h
  exact ⟨hread, rfl, by rw [indexIn, sourcesOf_loadedIn]⟩

theorem exists_course (h : (build time loaded : Recorded _).value tree = .ok summary) :
    Nonempty (Course time loaded tree summary) := by
  have hbuild := build_eq (m := Recorded) time loaded
  rw [hbuild] at h
  obtain ⟨⟨manifest, chapters, index⟩, hdocument, h, hattempts, hafter⟩ :=
    exists_of_value_bind h fun fault => ⟨_, rfl⟩
  obtain ⟨hmanifest, rfl, rfl⟩ := exists_of_loadDocument hdocument
  rw [(readsOnly_loadDocument loaded).after_eq] at h hattempts hafter
  rw [readsOnly_loadDocument loaded tree, List.nil_append] at hattempts
  obtain ⟨reports, hreports, h, hattempts', hafter'⟩ :=
    exists_of_value_bind h fun fault => ⟨_, rfl⟩
  obtain ⟨templates, htemplates, h, hattempts'', hafter''⟩ :=
    exists_of_value_bind h fun fault => ⟨_, rfl⟩
  rw [(readsOnly_templatesOf loaded).after_eq] at h hattempts'' hafter''
  rw [readsOnly_templatesOf loaded _, List.nil_append] at hattempts''
  obtain ⟨preparing, closing, hsite, hchapters, rfl, hclosing⟩ := exists_of_writeSite h
  rw [← hbuild] at hattempts hafter
  refine ⟨{
    manifest := manifest
    templates := templates
    opening := (reportsOf time loaded manifest (indexIn tree loaded manifest) :
      Recorded _).attempts tree ++ preparing
    closing := closing
    manifest_eq := hmanifest
    index_eq := hdocument
    reports_eq := hreports
    templates_eq := htemplates
    reports := ?_
    attempts_eq := ?_
    chapters_eq := ?_
    closing_last := ?_ }⟩
  · intro directory hdirectory name report hmem
    rw [hbuild]
    refine .bind_right ?_
    rw [hdocument, (readsOnly_loadDocument loaded).after_eq]
    refine .bind ?_
    simp only [reportsOf, hdirectory] at hreports ⊢
    exact writes_writeReports hreports hmem
  · rw [hattempts, hattempts', hattempts'', hsite]
    simp only [List.append_assoc, renderIn]
  · rw [hchapters, Attempt.replay_append]
    rfl
  · rw [hafter, hafter', hafter'']
    exact hclosing

/-! ### What becomes of the chapters -/

namespace Course

variable (course : Course time loaded tree summary) {outcome : ChapterOutcome}

theorem distinct : Manifest.repeatedId? [] course.manifest.chapters = none :=
  repeatedId?_of_loadManifest course.manifest_eq

/-- Every chapter has an outcome, in the order of the manifest. -/
theorem chapterIds_eq :
    summary.chapters.map (·.chapterId) = course.manifest.chapters.map (·.id) := by
  rw [course.chapters_eq, map_value_mapM (chapterId_writeChapter _), List.map_map]
  rfl

/-- What is attempted for the pages of chapters. -/
def pages (chapters : List Chapter) : List Attempt :=
  (chapters.map (loadedIn tree loaded)).flatMap
    (pageAttempts loaded (renderIn tree loaded course.manifest course.templates))

/-- The pages come one after the other, and whatever is written after them is written last. -/
theorem attempts_split {before later : List Chapter} {chapter : Chapter}
    (h : course.manifest.chapters = before ++ chapter :: later) :
    (build time loaded : Recorded _).attempts tree =
      course.opening ++ course.pages before ++ course.pages [chapter] ++
        (course.pages later ++ course.closing) := by
  rw [course.attempts_eq, h]
  simp only [pages, List.map_append, List.map_cons, List.map_nil, List.flatMap_append,
    List.flatMap_cons, List.flatMap_nil, List.append_nil, List.append_assoc]

/-- An outcome is that of a chapter, after the pages before it. -/
theorem exists_of_mem (hmem : outcome ∈ summary.chapters) :
    ∃ before chapter later, course.manifest.chapters = before ++ chapter :: later ∧
      outcome = (writeChapter (loaded.outputDir.join pagesName)
        (renderIn tree loaded course.manifest course.templates) (loadedIn tree loaded chapter) :
          Recorded _).value (Attempt.replay tree (course.opening ++ course.pages before)) := by
  rw [course.chapters_eq] at hmem
  obtain ⟨before, loadedChapter, later, hsplit, rfl⟩ := exists_of_mem_value_mapM hmem
  obtain ⟨before, rest, hmanifest, rfl, hrest⟩ := List.map_eq_append_iff.mp hsplit
  obtain ⟨chapter, later, rfl, rfl, rfl⟩ := List.map_eq_cons_iff.mp hrest
  refine ⟨before, chapter, later, hmanifest, ?_⟩
  rw [after, attempts_mapM attempts_writeChapter, ← Attempt.replay_append, pages]

/-- What is loaded of a chapter, by its source. -/
theorem loadedIn_eq {chapter : Chapter} (hmem : chapter ∈ course.manifest.chapters) :
    match sourcesIn tree loaded course.manifest chapter.id with
    | none => ∃ fault, loadedIn tree loaded chapter = ⟨chapter, .error fault⟩
    | some content => loadedIn tree loaded chapter = ⟨chapter, .ok content⟩ := by
  rw [sourcesIn_of_mem hmem, ← toOption_loadedIn, loadedIn]
  cases (loadContent (loaded.chaptersDir.join chapter.fileName) : Recorded _).value tree with
  | error fault => exact ⟨fault, rfl⟩
  | ok content => rfl

/-- A chapter without a source fails, and nothing is counted for it. -/
theorem outcome_of_no_source (hmem : outcome ∈ summary.chapters)
    (hsource : sourcesIn tree loaded course.manifest outcome.chapterId = none) :
    (∃ fault, outcome.output = .error fault) ∧ outcome.changed = 0 ∧ outcome.unresolved = [] := by
  obtain ⟨before, chapter, later, hmanifest, rfl⟩ := course.exists_of_mem hmem
  have hchapter : chapter ∈ course.manifest.chapters := by simp [hmanifest]
  have hloaded := course.loadedIn_eq hchapter
  rw [chapterId_writeChapter] at hsource
  have hid : (loadedIn tree loaded chapter).chapter.id = chapter.id := rfl
  rw [← hid, hsource] at hloaded
  obtain ⟨fault, hloaded⟩ := hloaded
  rw [hloaded]
  exact ⟨⟨fault, rfl⟩, rfl, rfl⟩

/-- A chapter with a source is processed, and its page is written or reported. -/
theorem outcome_of_source {content : String} (hmem : outcome ∈ summary.chapters)
    (hsource : sourcesIn tree loaded course.manifest outcome.chapterId = some content) :
    ∃ before chapter later, course.manifest.chapters = before ++ chapter :: later ∧
      chapter.id = outcome.chapterId ∧
      let rendered := renderIn tree loaded course.manifest course.templates chapter content
      let page := rendered.1.toUTF8
      outcome.changed = rendered.2.changed ∧ outcome.unresolved = rendered.2.unresolved ∧
      course.pages [chapter] = [.write (pagePath loaded chapter) page] ∧
      (outcome.output = .ok (pagePath loaded chapter) ∧
        (Attempt.replay tree (course.opening ++ course.pages before ++ course.pages [chapter])).read
          (pagePath loaded chapter) = .ok page ∨
        ∃ fault, outcome.output = .error (.unwritable (pagePath loaded chapter) fault)) := by
  obtain ⟨before, chapter, later, hmanifest, rfl⟩ := course.exists_of_mem hmem
  have hchapter : chapter ∈ course.manifest.chapters := by simp [hmanifest]
  have hloaded := course.loadedIn_eq hchapter
  rw [chapterId_writeChapter] at hsource ⊢
  have hid : (loadedIn tree loaded chapter).chapter.id = chapter.id := rfl
  rw [← hid, hsource] at hloaded
  dsimp only at hloaded
  have hpage : course.pages [chapter] = [.write (pagePath loaded chapter)
      (renderIn tree loaded course.manifest course.templates chapter content).1.toUTF8] := by
    rw [pages, List.map_singleton, List.flatMap_singleton, hloaded]
    rfl
  obtain ⟨hchanged, hunresolved, houtput⟩ := value_writeChapter_of_ok
    (loaded.outputDir.join pagesName) (renderIn tree loaded course.manifest course.templates)
    chapter content (Attempt.replay tree (course.opening ++ course.pages before))
  rw [hloaded]
  refine ⟨before, chapter, later, hmanifest, rfl, hchanged, hunresolved, hpage, ?_⟩
  rw [Attempt.replay_append tree _ (course.pages [chapter]), hpage]
  exact houtput

/-- Without a record the manifest is read in the same way. -/
theorem manifest_read :
    (loadManifest loaded.manifestPath : StateM FileTree _) tree = (.ok course.manifest, tree) := by
  rw [follows_loadManifest, course.manifest_eq, (readsOnly_loadManifest _).after_eq]

/-- So are the templates, when the reports are written. -/
theorem templates_read : ∃ reported,
    (reportsOf time loaded course.manifest (indexIn tree loaded course.manifest) :
      StateM FileTree _) tree = (.ok summary.reports, reported) ∧
    (templatesOf loaded : StateM FileTree _) reported = (.ok course.templates, reported) :=
  ⟨_, by rw [follows_reportsOf, course.reports_eq],
    by rw [follows_templatesOf, course.templates_eq, (readsOnly_templatesOf _).after_eq]⟩

end Course

end Build
end CrossRef
