import CrossRef.CommandLine.Run
import CrossRef.Proofs.Build.Agreement

/-!
The pages that a build leaves. A page that is reported as written is there in the end, unless
something that the build writes goes to the same file: another page, the index page or an asset.
-/
namespace CrossRef
namespace Build

open Recorded Files

/-- Nothing else that a build writes goes to the file of a chapter's page: no page of another chapter
with a source, not the index page, and no file of an asset. -/
structure PageApart (loaded : LocatedConfig) (tree after : FileTree) (manifest : Manifest)
    (templates : Page.Templates) (chapter : Chapter) : Prop where
  pages : ∀ other ∈ manifest.chapters, other.id ≠ chapter.id →
    (sourcesIn tree loaded manifest other.id).isSome →
      tree.place (pagePath loaded other) ≠ tree.place (pagePath loaded chapter)
  index : templates.index.isSome →
    tree.place (loaded.outputDir.join indexPageName) ≠ tree.place (pagePath loaded chapter)
  assets : ∀ path, CopiedFrom loaded.assets loaded.outputDir after path →
    tree.place path ≠ tree.place (pagePath loaded chapter)

/-- Does the page of a chapter lie in the output directory? -/
def staysInside (chapter : Chapter) : Bool :=
  !Path.isAbsolute ⟨chapter.fileName⟩ &&
    FileTree.staysBelow 1 (Text.cutAt '/' chapter.fileName.toList)

theorem prefix_place_pagePath (tree : FileTree) (loaded : LocatedConfig) {chapter : Chapter}
    (h : staysInside chapter) :
    tree.place loaded.outputDir <+: tree.place (pagePath loaded chapter) := by
  obtain ⟨habsolute, hstays⟩ := (Bool.and_eq_true _ _).mp h
  have hpages : tree.place (loaded.outputDir.join pagesName) =
      tree.place loaded.outputDir ++ [pagesName.toList] := by
    rw [FileTree.place_join tree _ (by decide)]
    rfl
  rw [pagePath, FileTree.place_join tree _ (by simpa using habsolute), hpages]
  exact FileTree.prefix_foldl_step (List.prefix_append _ _) (by simp) hstays

namespace Course

variable {time : String} {loaded : LocatedConfig} {tree : FileTree} {summary : Summary}
variable (course : Course time loaded tree summary) {chapter : Chapter} {outcome : ChapterOutcome}

theorem mem_of_outcome (hmem : outcome ∈ summary.chapters) :
    ∃ chapter ∈ course.manifest.chapters, chapter.id = outcome.chapterId :=
  List.mem_map.mp (course.chapterIds_eq ▸ List.mem_map_of_mem hmem)

theorem outcome_of_mem (hmem : chapter ∈ course.manifest.chapters) :
    ∃ outcome ∈ summary.chapters, outcome.chapterId = chapter.id :=
  List.mem_map.mp (course.chapterIds_eq ▸ List.mem_map_of_mem hmem)

theorem eq_of_id {other : Chapter} (hmem : chapter ∈ course.manifest.chapters)
    (hother : other ∈ course.manifest.chapters) (hid : chapter.id = other.id) : chapter = other := by
  have hfound := Manifest.findChapter?_of_mem course.distinct hmem
  rw [hid, Manifest.findChapter?_of_mem course.distinct hother] at hfound
  exact (Option.some.inj hfound).symm

/-- A chapter that has a source is resolved. -/
theorem exists_processed {content : String} (hmem : chapter ∈ course.manifest.chapters)
    (hsource : sourcesIn tree loaded course.manifest chapter.id = some content) :
    ∃ processed, (resolveDocument course.manifest (sourcesIn tree loaded course.manifest)
      loaded.config).lookup chapter.id = some processed := by
  rw [lookup_resolveDocument, Manifest.findChapter?_of_mem course.distinct hmem, Option.bind_some,
    hsource]
  exact ⟨_, rfl⟩

/-- A page that is reported as written belongs to a chapter with a source. -/
theorem source_of_written {path : Path} (hmem : outcome ∈ summary.chapters)
    (houtput : outcome.output = .ok path) :
    ∃ content, sourcesIn tree loaded course.manifest outcome.chapterId = some content := by
  cases hsource : sourcesIn tree loaded course.manifest outcome.chapterId with
  | some content => exact ⟨content, rfl⟩
  | none =>
    obtain ⟨⟨fault, hfault⟩, -⟩ := course.outcome_of_no_source hmem hsource
    rw [houtput] at hfault
    cases hfault

/-- Pages are those of chapters with a source. -/
theorem of_mem_pages {chapters : List Chapter} {path : Path} {content : ByteArray}
    (hchapters : ∀ chapter ∈ chapters, chapter ∈ course.manifest.chapters)
    (hmem : .write path content ∈ course.pages chapters) :
    ∃ chapter ∈ chapters, path = pagePath loaded chapter ∧
      (sourcesIn tree loaded course.manifest chapter.id).isSome := by
  rw [pages, List.flatMap_map] at hmem
  obtain ⟨chapter, hchapter, hmem⟩ := List.mem_flatMap.mp hmem
  have hloaded := course.loadedIn_eq (hchapters chapter hchapter)
  refine ⟨chapter, hchapter, ?_⟩
  cases hsource : sourcesIn tree loaded course.manifest chapter.id with
  | none =>
    rw [hsource] at hloaded
    obtain ⟨fault, hloaded⟩ := hloaded
    rw [hloaded] at hmem
    cases hmem
  | some source =>
    rw [hsource] at hloaded
    dsimp only at hloaded
    rw [hloaded] at hmem
    cases List.mem_singleton.mp hmem
    exact ⟨rfl, rfl⟩

/-- A page that was written stays if nothing else is written to its file. -/
theorem read_page {before later : List Chapter} {page : ByteArray}
    (hmanifest : course.manifest.chapters = before ++ chapter :: later)
    (hread : (Attempt.replay tree
      (course.opening ++ course.pages before ++ course.pages [chapter])).read
        (pagePath loaded chapter) = .ok page)
    (hapart : PageApart loaded tree ((build time loaded : Recorded _).after tree) course.manifest
      course.templates chapter) :
    ((build time loaded : Recorded _).after tree).read (pagePath loaded chapter) = .ok page := by
  have hgrows := Attempt.grows_replay tree
    (course.opening ++ course.pages before ++ course.pages [chapter])
  have hnodup := ((Manifest.repeatedId?_eq_none_iff [] _).mp course.distinct).1
  rw [after, course.attempts_split hmanifest, Attempt.replay_append]
  refine Attempt.read_replay (fun path content hmem => ?_) hread
  rw [hgrows.place_eq, hgrows.place_eq]
  rcases List.mem_append.mp hmem with hpage | hclosing
  · obtain ⟨other, hother, rfl, hsource⟩ :=
      course.of_mem_pages (fun other hother => by simp [hmanifest, hother]) hpage
    refine hapart.pages other (by simp [hmanifest, hother]) (fun hid => ?_) hsource
    -- the ids before and after the chapter are other ids
    rw [hmanifest, List.map_append, List.map_cons] at hnodup
    exact (List.nodup_cons.mp hnodup.of_append_right).1 (hid ▸ List.mem_map_of_mem hother)
  · rcases course.closing_last path content hclosing with ⟨hindex, rfl⟩ | hcopied
    · exact hapart.index hindex
    · exact hapart.assets path hcopied

/-- What is left of a page that is reported as written. -/
theorem page_of_written {path : Path} (hmem : outcome ∈ summary.chapters)
    (houtput : outcome.output = .ok path) :
    ∃ chapter ∈ course.manifest.chapters, chapter.id = outcome.chapterId ∧
      path = pagePath loaded chapter ∧
      ∃ processed, (resolveDocument course.manifest (sourcesIn tree loaded course.manifest)
          loaded.config).lookup chapter.id = some processed ∧
        (PageApart loaded tree ((build time loaded : Recorded _).after tree) course.manifest
            course.templates chapter →
          ((build time loaded : Recorded _).after tree).read path = .ok (Page.renderChapter
            course.templates course.manifest chapter processed.html).toUTF8) := by
  obtain ⟨content, hsource⟩ := course.source_of_written hmem houtput
  obtain ⟨named, hnamed, hid⟩ := course.mem_of_outcome hmem
  obtain ⟨processed, hprocessed⟩ := course.exists_processed hnamed (hid ▸ hsource)
  obtain ⟨before, chapter, later, hmanifest, hwritten, -, -, -, hpage⟩ :=
    course.outcome_of_processed hmem (hid ▸ hprocessed)
  have hchapter : chapter ∈ course.manifest.chapters := by simp [hmanifest]
  rw [houtput] at hpage
  rcases hpage with ⟨hpath, hread⟩ | ⟨fault, hfault⟩
  · obtain rfl := Except.ok.inj hpath
    exact ⟨chapter, hchapter, hwritten, rfl, processed, hid.trans hwritten.symm ▸ hprocessed,
      course.read_page hmanifest hread⟩
  · cases hfault

end Course

/-- What a build leaves of the pages it reports as written. -/
structure Leaves (time : String) (loaded : LocatedConfig) (tree after : FileTree) (summary : Summary)
    (manifest : Manifest) (templates : Page.Templates) : Prop where
  read : (loadManifest loaded.manifestPath : StateM FileTree _) tree = (.ok manifest, tree)
  /-- The templates are read when the reports are written. -/
  rendered : ∃ reported,
    (reportsOf time loaded manifest (indexIn tree loaded manifest) : StateM FileTree _) tree =
      (.ok summary.reports, reported) ∧
    (templatesOf loaded : StateM FileTree _) reported = (.ok templates, reported)
  /-- A page that is reported as written is there, if nothing else is written to its file. -/
  pages : ∀ outcome ∈ summary.chapters, ∀ path, outcome.output = .ok path →
    ∃ chapter ∈ manifest.chapters, chapter.id = outcome.chapterId ∧ path = pagePath loaded chapter ∧
      ∃ processed, (resolveDocument manifest (sourcesIn tree loaded manifest) loaded.config).lookup
          chapter.id = some processed ∧
        (PageApart loaded tree after manifest templates chapter → after.read path =
          .ok (Page.renderChapter templates manifest chapter processed.html).toUTF8)
  /-- When the command ends without a failure, every chapter has its own page, and the page lies in
  the output directory unless the id of the chapter leads out of it. -/
  complete : ∀ isColored isQuiet,
    ((CommandLine.runBuild time isColored isQuiet loaded : StateM FileTree _) tree).1.exitCode = 0 →
    (∀ chapter ∈ manifest.chapters, PageApart loaded tree after manifest templates chapter) →
    (manifest.chapters.map fun chapter => tree.place (pagePath loaded chapter)).Nodup ∧
      ∀ chapter ∈ manifest.chapters,
        ∃ processed, (resolveDocument manifest (sourcesIn tree loaded manifest) loaded.config).lookup
            chapter.id = some processed ∧
          after.read (pagePath loaded chapter) =
            .ok (Page.renderChapter templates manifest chapter processed.html).toUTF8 ∧
          (staysInside chapter →
            after.place loaded.outputDir <+: after.place (pagePath loaded chapter))

theorem output_of_isSuccess {summary : Summary} (h : summary.isSuccess) {outcome : ChapterOutcome}
    (hmem : outcome ∈ summary.chapters) : ∃ path, outcome.output = .ok path := by
  cases houtput : outcome.output with
  | ok path => exact ⟨path, rfl⟩
  | error fault =>
    have hfailure : (outcome.chapterId, fault) ∈ summary.failures :=
      List.mem_filterMap.mpr ⟨outcome, hmem, by rw [houtput]⟩
    rw [List.isEmpty_iff.mp h] at hfailure
    cases hfailure

/-- The command tells by its exit code whether all chapters were written. -/
theorem isSuccess_of_exitCode {time : String} {loaded : LocatedConfig} {tree after : FileTree}
    {summary : Summary} (h : (build time loaded : StateM FileTree _) tree = (.ok summary, after))
    (isColored isQuiet : Bool)
    (hexit : ((CommandLine.runBuild time isColored isQuiet loaded : StateM FileTree _) tree).1.exitCode =
      0) : summary.isSuccess := by
  have hrun : ((CommandLine.runBuild time isColored isQuiet loaded : StateM FileTree _)
      tree).1.exitCode = if summary.isSuccess then 0 else CommandLine.chapterFailures := by
    simp only [CommandLine.runBuild, bind, StateT.bind, h]
    rfl
  rw [hrun] at hexit
  by_contra hfailed
  rw [if_neg hfailed] at hexit
  cases hexit

/-- Whatever the files and the settings are, a build that comes to its end leaves the pages that it
reports as written, as far as nothing else is written to their files. -/
theorem build_leaves_pages {time : String} {loaded : LocatedConfig} {tree after : FileTree}
    {summary : Summary} (h : (build time loaded : StateM FileTree _) tree = (.ok summary, after)) :
    ∃ manifest templates, Leaves time loaded tree after summary manifest templates := by
  have hrecorded := h
  rw [follows_build time loaded tree] at hrecorded
  obtain ⟨hvalue, rfl⟩ := Prod.mk.inj hrecorded
  obtain ⟨course⟩ := exists_course hvalue
  refine ⟨course.manifest, course.templates, {
    read := course.manifest_read
    rendered := course.templates_read
    pages := fun outcome hmem path houtput => course.page_of_written hmem houtput
    complete := fun isColored isQuiet hexit hapart => ?_ }⟩
  have hsuccess := isSuccess_of_exitCode h isColored isQuiet hexit
  have hpage : ∀ chapter ∈ course.manifest.chapters, ∃ processed,
      (resolveDocument course.manifest (sourcesIn tree loaded course.manifest)
        loaded.config).lookup chapter.id = some processed ∧
      ((build time loaded : Recorded _).after tree).read (pagePath loaded chapter) =
        .ok (Page.renderChapter course.templates course.manifest chapter processed.html).toUTF8 ∧
      (sourcesIn tree loaded course.manifest chapter.id).isSome := by
    intro chapter hchapter
    obtain ⟨outcome, hmem, hid⟩ := course.outcome_of_mem hchapter
    obtain ⟨path, houtput⟩ := output_of_isSuccess hsuccess hmem
    obtain ⟨content, hsource⟩ := course.source_of_written hmem houtput
    obtain ⟨written, hwritten, hid', rfl, processed, hprocessed, hread⟩ :=
      course.page_of_written hmem houtput
    obtain rfl := course.eq_of_id hwritten hchapter (hid'.trans hid)
    exact ⟨processed, hprocessed, hread (hapart written hwritten), by rw [← hid, hsource]; rfl⟩
  constructor
  · have hnodup := ((Manifest.repeatedId?_eq_none_iff [] _).mp course.distinct).1
    refine List.Nodup.map_on (fun chapter hchapter other hother hplace => ?_) hnodup.of_map
    -- two chapters with one page would stand in each other's way
    by_contra hne
    obtain ⟨-, -, -, hsource⟩ := hpage chapter hchapter
    exact (hapart other hother).pages chapter hchapter
      (fun hid => hne (course.eq_of_id hchapter hother hid)) hsource hplace
  · intro chapter hchapter
    obtain ⟨processed, hprocessed, hread, -⟩ := hpage chapter hchapter
    refine ⟨processed, hprocessed, hread, fun hstays => ?_⟩
    rw [(grows_after _ tree).place_eq, (grows_after _ tree).place_eq]
    exact prefix_place_pagePath tree loaded hstays

/-- The only page of a site stays, also when a directory and a file are copied to where it is. -/
theorem build_leaves_single_page :
    let loaded := siteConfig { Config.default with assets := ["templates", "chapters-manifest.json"] }
    let tree := siteTree "[[[\"a\",1,\"A\"]]]"
      [(["site", "chapters", "a.html"], "<math display=block>")]
    let result := (build "now" loaded : StateM FileTree _) tree
    ∃ summary manifest templates, result.1 = .ok summary ∧ summary.isSuccess ∧ summary.assetsCopied = 2 ∧
      Leaves "now" loaded tree result.2 summary manifest templates ∧
      ∀ chapter ∈ manifest.chapters, PageApart loaded tree result.2 manifest templates chapter := by
  intro loaded tree result
  have hsuccess : result.1.toOption.map (fun summary => (summary.isSuccess, summary.assetsCopied)) =
      some (true, 2) := by decide +kernel
  let only : Chapter := ⟨"a", some (.ordinal 1), "A", none, .chapters⟩
  have hmanifest : ((loadManifest loaded.manifestPath : StateM FileTree _) tree).1 = .ok ⟨[only]⟩ := by
    decide +kernel
  have hcopies : ∀ asset ∈ loaded.assets, ∀ name ∈ asset.fileName?,
      ∀ names ∈ [] :: (result.2.below asset).map Prod.fst,
        tree.place ((loaded.outputDir.join name).joinAll names) ≠ tree.place (pagePath loaded only) := by
    decide +kernel
  have hresult : (build "now" loaded : StateM FileTree _) tree = result := rfl
  clear_value result
  obtain ⟨value, after⟩ := result
  cases value with
  | error fault => cases hsuccess
  | ok summary =>
    obtain ⟨hsuccess, hcopied⟩ := Prod.mk.inj (Option.some.inj hsuccess)
    obtain ⟨manifest, templates, hleaves⟩ := build_leaves_pages hresult
    obtain ⟨reported, -, htemplates⟩ := hleaves.rendered
    have hindex : templates.index = none := by
      cases htemplates
      rfl
    refine ⟨summary, manifest, templates, rfl, hsuccess, hcopied, hleaves, fun chapter hchapter => ?_⟩
    rw [hleaves.read] at hmanifest
    obtain rfl := Except.ok.inj hmanifest
    refine ⟨fun other hother hne => ?_, fun hpage => ?_, ?_⟩
    · exact absurd (by rw [List.mem_singleton.mp hother, List.mem_singleton.mp hchapter]) hne
    · rw [hindex] at hpage
      cases hpage
    · rintro path ⟨asset, hasset, name, hname, names, hnames, -, rfl⟩
      obtain rfl := List.mem_singleton.mp hchapter
      exact hcopies asset hasset name hname names (List.mem_cons.mpr hnames)

/-! ### Pages that do not stay -/

/-- The texts in the end where a build reports pages as written, each with the page of its chapter. -/
def pagesLeft (loaded : LocatedConfig) (tree : FileTree) : List (Option String × Option String) :=
  let built := (build "now" loaded : StateM FileTree _) tree
  let document := ((loadDocument loaded : StateM FileTree _) tree).1
  let read := ((templatesOf loaded : StateM FileTree _) tree).1
  match built, document, read with
  | (.ok summary, after), .ok (manifest, _, _), .ok templates =>
    summary.chapters.filterMap fun outcome => outcome.output.toOption.map fun path =>
      ((after.read path).toOption.bind String.fromUTF8?, do
        let chapter ← manifest.findChapter? outcome.chapterId
        let processed ← (resolveDocument manifest (sourcesIn tree loaded manifest)
          loaded.config).lookup outcome.chapterId
        return Page.renderChapter templates manifest chapter processed.html)
  | _, _, _ => []

/-- Does a build succeed in every chapter and leave something else than one of its pages? -/
def losesPage (loaded : LocatedConfig) (tree : FileTree) : Bool :=
  ((build "now" loaded : StateM FileTree _) tree).1.toOption.any (·.isSuccess) &&
    (pagesLeft loaded tree).any fun (left, page?) => page?.isSome && decide (left ≠ page?)

/-- What stands against pages that stay in the output directory: an asset that is called like the
directory of the pages, an id that leads to the index page, ids that lead to one file, and an id that
leads out of the output directory. -/
theorem pages_lost_in_each_way :
    losesPage (siteConfig { Config.default with assets := ["chapters"] })
      (siteTree "[[[\"a\",1,\"A\"]]]" [(["site", "chapters", "a.html"], "<math display=block>")]) ∧
    losesPage (siteConfig { Config.default with templatesDir := some "templates" })
      (siteTree "[[[\"../index\",1,\"A\"]]]" [(["site", "index.html"], "A")]) ∧
    losesPage (siteConfig .default)
      (siteTree "[[[\"a\",1,\"A\"],[\"../chapters/a\",2,\"B\"]]]"
        [(["site", "chapters", "a.html"], "<math display=block>")]) ∧
    (let loaded := siteConfig .default
      let tree := siteTree "[[[\"../../a\",1,\"A\"]]]" [(["a.html"], "A")]
      let result := (CommandLine.runBuild "now" false true loaded : StateM FileTree _) tree
      result.1.exitCode = 0 ∧
        result.2.find? ["site".toList, "dist".toList, "chapters".toList, "a.html".toList] = none ∧
        result.2.find? ["site".toList, "a.html".toList] = some (.file "A".toUTF8)) := by
  refine ⟨?_, ?_, ?_, ?_⟩ <;> decide +kernel

end Build
end CrossRef
