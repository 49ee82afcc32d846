import CrossRef.Proofs.Build.Course
import CrossRef.Proofs.Document

/-!
A build against the document that its files make. The outcomes and the pages of a build are those of
the resolution of its sources, and its analysis is that of their index.
-/
namespace CrossRef

open Index

/-- A document shows the chapters that have a text, in the order of the manifest. -/
theorem map_fst_resolveDocument (manifest : Manifest) (sources : Sources) (config : Config) :
    (resolveDocument manifest sources config).map (·.1) =
      (manifest.chapters.map (·.id)).filter fun id => (sources id).isSome := by
  rw [resolveDocument, List.map_map, presentChapters]
  generalize buildIndex manifest sources config.numbering = index
  induction manifest.chapters with
  | nil => rfl
  | cons chapter rest ih =>
    cases hsource : sources chapter.id with
    | none =>
      rw [List.filterMap_cons_none (by rw [hsource]; rfl), ih, List.map_cons,
        List.filter_cons_of_neg (by simp [hsource])]
    | some content =>
      rw [List.filterMap_cons_some (by rw [hsource]; rfl), List.map_cons, ih, List.map_cons,
        List.filter_cons_of_pos (by simp [hsource])]
      rfl

namespace Build

open Recorded Files

/-- The outcome of a chapter that is resolved has its counts, and the page is that of its markup. -/
theorem Course.outcome_of_processed {time : String} {loaded : LocatedConfig} {tree : FileTree}
    {summary : Summary} (course : Course time loaded tree summary) {outcome : ChapterOutcome}
    {processed : ProcessedChapter} (hmem : outcome ∈ summary.chapters)
    (hprocessed : (resolveDocument course.manifest (sourcesIn tree loaded course.manifest)
      loaded.config).lookup outcome.chapterId = some processed) :
    ∃ before chapter later, course.manifest.chapters = before ++ chapter :: later ∧
      chapter.id = outcome.chapterId ∧
      let page :=
        (Page.renderChapter course.templates course.manifest chapter processed.html).toUTF8
      outcome.changed = processed.report.changed ∧
      outcome.unresolved = processed.report.unresolved ∧
      course.pages [chapter] = [.write (pagePath loaded chapter) page] ∧
      (outcome.output = .ok (pagePath loaded chapter) ∧
        (Attempt.replay tree (course.opening ++ course.pages before ++ course.pages [chapter])).read
          (pagePath loaded chapter) = .ok page ∨
        ∃ fault, outcome.output = .error (.unwritable (pagePath loaded chapter) fault)) := by
  rw [lookup_resolveDocument] at hprocessed
  obtain ⟨chapter, hfound, hresolved⟩ := Option.bind_eq_some_iff.mp hprocessed
  obtain ⟨content, hcontent, rfl⟩ := Option.map_eq_some_iff.mp hresolved
  have hid : chapter.id = outcome.chapterId := by simpa using List.find?_some hfound
  obtain ⟨before, written, later, hmanifest, hwritten, houtcome⟩ :=
    course.outcome_of_source hmem (hid ▸ hcontent)
  -- ids are distinct, so the chapter that is resolved is the one whose page is written
  have hsame : course.manifest.findChapter? written.id = some written :=
    Manifest.findChapter?_of_mem course.distinct (by simp [hmanifest])
  rw [hwritten, hfound] at hsame
  obtain rfl := Option.some.inj hsame
  exact ⟨before, chapter, later, hmanifest, hid, houtcome⟩

/-- A build agrees with the resolution of its sources and with their index. -/
structure Agrees (time : String) (loaded : LocatedConfig) (tree after : FileTree) (summary : Summary)
    (manifest : Manifest) (templates : Page.Templates) : Prop where
  /-- With a record of its attempts the build does the same. -/
  recorded : (build time loaded : Recorded _).value tree = .ok summary ∧
    (build time loaded : Recorded _).after tree = after
  read : (loadManifest loaded.manifestPath : StateM FileTree _) tree = (.ok manifest, tree)
  /-- The templates are read when the reports are written. -/
  rendered : ∃ reported,
    (reportsOf time loaded manifest (indexIn tree loaded manifest) : StateM FileTree _) tree =
      (.ok summary.reports, reported) ∧
    (templatesOf loaded : StateM FileTree _) reported = (.ok templates, reported)
  /-- Every chapter has an outcome, in the order of the manifest. -/
  order : summary.chapters.map (·.chapterId) = manifest.chapters.map (·.id)
  /-- A chapter without a source fails, and nothing is counted for it. -/
  missing : ∀ outcome ∈ summary.chapters,
    sourcesIn tree loaded manifest outcome.chapterId = none →
      (∃ fault, outcome.output = .error fault) ∧ outcome.changed = 0 ∧ outcome.unresolved = []
  /-- The chapters with a source are resolved, in the order of the manifest. -/
  resolved : (resolveDocument manifest (sourcesIn tree loaded manifest) loaded.config).map (·.1) =
    (manifest.chapters.map (·.id)).filter fun id => (sourcesIn tree loaded manifest id).isSome
  /-- Their counts are those of the resolution, and so are their pages if they can be written. -/
  processed : ∀ outcome ∈ summary.chapters, ∀ processed,
    (resolveDocument manifest (sourcesIn tree loaded manifest) loaded.config).lookup
        outcome.chapterId = some processed →
      outcome.changed = processed.report.changed ∧
      outcome.unresolved = processed.report.unresolved ∧
      ∃ chapter ∈ manifest.chapters, chapter.id = outcome.chapterId ∧
        (outcome.output = .ok (pagePath loaded chapter) ∧
          Writes (build time loaded) tree (pagePath loaded chapter)
            (Page.renderChapter templates manifest chapter processed.html).toUTF8 ∨
          ∃ fault, outcome.output = .error (.unwritable (pagePath loaded chapter) fault))
  /-- Without a build the same index is made. -/
  indexed : ∃ chapters, (loadDocument loaded : StateM FileTree _) tree =
    (.ok (manifest, chapters, indexIn tree loaded manifest), tree)
  /-- Its analysis is the one that is written, if reports are. -/
  analysed : ∀ directory, loaded.reportDir? = some directory →
    Writes (build time loaded) tree (directory.join "cross-reference-analysis.json")
      (analysisJson time manifest (indexIn tree loaded manifest)).pretty.toUTF8

/-- Whatever the files and the settings are, a build that comes to its end agrees with the resolution
of its sources and with their index. -/
theorem build_agrees {time : String} {loaded : LocatedConfig} {tree after : FileTree}
    {summary : Summary} (h : (build time loaded : StateM FileTree _) tree = (.ok summary, after)) :
    ∃ manifest templates, Agrees time loaded tree after summary manifest templates := by
  rw [follows_build time loaded tree] at h
  obtain ⟨hvalue, hafter⟩ := Prod.mk.inj h
  obtain ⟨course⟩ := exists_course hvalue
  refine ⟨course.manifest, course.templates, {
    recorded := ⟨hvalue, hafter⟩
    read := course.manifest_read
    rendered := course.templates_read
    order := course.chapterIds_eq
    missing := fun outcome hmem => course.outcome_of_no_source hmem
    resolved := map_fst_resolveDocument _ _ _
    processed := fun outcome hmem processed hprocessed => ?_
    indexed := ⟨_, by
      rw [follows_loadDocument, course.index_eq, (readsOnly_loadDocument _).after_eq]⟩
    analysed := fun directory hdirectory =>
      course.reports directory hdirectory _ _ (by simp [reportFiles]) }⟩
  obtain ⟨before, chapter, later, hmanifest, hid, hchanged, hunresolved, hpage, houtput⟩ :=
    course.outcome_of_processed hmem hprocessed
  have hsplit := course.attempts_split hmanifest
  rw [hpage] at houtput hsplit
  refine ⟨hchanged, hunresolved, chapter, by simp [hmanifest], hid,
    houtput.imp_left fun ⟨hpath, hread⟩ => ⟨hpath, course.opening ++ course.pages before,
      course.pages later ++ course.closing, ?_, hread⟩⟩
  rw [hsplit, List.append_assoc _ [_], List.singleton_append]

/-- The files of a site: a manifest, a template for the index page, and sources of chapters. -/
def siteTree (manifest : String) (sources : List (List String × String)) : FileTree where
  here := []
  entries :=
    [(["site".toList], .directory),
      (["site".toList, "chapters-manifest.json".toList], .file manifest.toUTF8),
      (["site".toList, "templates".toList], .directory),
      (["site".toList, "templates".toList, "_index.html".toList], .file "Contents".toUTF8),
      (["site".toList, "chapters".toList], .directory)] ++
    sources.map fun (names, source) => (names.map String.toList, .file source.toUTF8)

/-- The settings of a site. -/
def siteConfig (config : Config) : LocatedConfig := ⟨config, none, ⟨"/site"⟩⟩

/-- A build with reports agrees as well when a chapter has no source. -/
theorem build_agrees_without_source :
    let loaded := siteConfig { Config.default with reportDir := some "reports" }
    let tree := siteTree "[[[\"a\",1,\"A\"],[\"b\",2,\"B\"]]]"
      [(["site", "chapters", "a.html"], "<math display=block>")]
    let result := (build "now" loaded : StateM FileTree _) tree
    ∃ summary, result.1 = .ok summary ∧
      summary.chapters.map (fun outcome => (outcome.chapterId, outcome.changed)) =
        [("a", 1), ("b", 0)] ∧
      ∃ manifest templates, Agrees "now" loaded tree result.2 summary manifest templates := by
  intro loaded tree result
  have hshown : result.1.toOption.map (fun summary => summary.chapters.map fun outcome =>
      (outcome.chapterId, outcome.changed)) = some [("a", 1), ("b", 0)] := by
    decide +kernel
  have hresult : (build "now" loaded : StateM FileTree _) tree = result := rfl
  clear_value result
  obtain ⟨value, after⟩ := result
  cases value with
  | error fault => cases hshown
  | ok summary => exact ⟨summary, rfl, Option.some.inj hshown, build_agrees hresult⟩

end Build
end CrossRef
