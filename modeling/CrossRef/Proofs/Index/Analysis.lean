import CrossRef.Index.Report
import CrossRef.Proofs.Index.History
import CrossRef.Proofs.Index.Section

/-!
The analysis of an index. Its totals are those of the index and those of the chapters that it lists, and a
chapter is listed with each identifier that leads to one of its headings.
-/
namespace CrossRef
namespace Index

open Markup Markup.Dom

variable {manifest : Manifest} {sources : Sources} {numbering : Numbering} {index : DocumentIndex}
  {chapter : Chapter} {dom : Dom} {f : Fragment} {sections : ChapterSections} {header : HeaderSummary}

/-! ### The headers of a chapter -/

theorem identifiers_headersOf (sections : ChapterSections) :
    (headersOf sections).map (·.identifier) = sections.identifiers := by
  rw [headersOf, List.map_flatMap, sections.identifiers_eq]
  exact List.flatMap_congr fun entry _ => by simp [Function.comp_def]

theorem length_headersOf (sections : ChapterSections) :
    (headersOf sections).length = sections.identifierCount := by
  rw [ChapterSections.identifierCount, ← List.length_map (f := Prod.fst),
    ← List.length_map (f := HeaderSummary.identifier), identifiers_headersOf,
    ChapterSections.identifiers]

/-- An identifier is listed with what the heading says that it leads to. -/
theorem mem_headersOf_iff : header ∈ headersOf sections ↔
    ∃ entry, sections.get? header.identifier = some entry ∧ header.text = entry.text ∧
      header.level = entry.level := by
  constructor
  · intro hmem
    obtain ⟨entry, hentry, hheader⟩ := List.mem_flatMap.mp hmem
    obtain ⟨i, hi, rfl⟩ := List.mem_map.mp hheader
    have honly : entry ∈ (sections.get? i).toList := by
      rw [← sections.filter_headings]
      exact List.mem_filter.mpr ⟨hentry, List.contains_iff_mem.mpr hi⟩
    exact ⟨entry, Option.mem_toList.mp honly, rfl, rfl⟩
  · rintro ⟨entry, hget, htext, hlevel⟩
    obtain ⟨hentry, hi⟩ := ChapterSections.mem_of_get? hget
    refine List.mem_flatMap.mpr ⟨entry, hentry, List.mem_map.mpr ⟨header.identifier, hi, ?_⟩⟩
    rw [← htext, ← hlevel]

/-! ### Document order -/

/-- The identifiers of a heading for which it is the first one among these. -/
def ownIdentifiers (dom : Dom) (headings : List NodeId) (x : NodeId) : List String :=
  (headingIdentifiers dom x).filter fun i =>
    headings.find? (fun y => i ∈ headingIdentifiers dom y) = some x

/-- The headers of a chapter as they are read off its headings in document order. -/
def headersInOrder (f : Fragment) : List HeaderSummary :=
  (headingsOf f).flatMap fun x => (ownIdentifiers f.dom (headingsOf f) x).map fun i =>
    ⟨i, Text.trim (f.dom.textOf (some x)), levelOf f.dom x⟩

theorem nodup_headingsOf (h : f.WellFormed) : (headingsOf f).Nodup :=
  (h.dom.nodup_below f.root).filter _

theorem freshIdentifiers_eq {earlier : List NodeId} {x : NodeId} (hx : x ∉ earlier)
    (later : List NodeId) :
    freshIdentifiers dom earlier x = ownIdentifiers dom (earlier ++ x :: later) x := by
  refine List.filter_congr fun i hi => ?_
  have hfirst : (∀ y ∈ earlier, i ∉ headingIdentifiers dom y) ↔
      (earlier ++ x :: later).find? (fun y => i ∈ headingIdentifiers dom y) = some x := by
    rw [List.find?_append]
    cases hfound : earlier.find? fun y => i ∈ headingIdentifiers dom y with
    | none => simpa [hi] using hfound
    | some y =>
      have hy := List.mem_of_find?_eq_some hfound
      have hne : y ≠ x := fun heq => hx (heq ▸ hy)
      have hyi : i ∈ headingIdentifiers dom y := by simpa using List.find?_some hfound
      simpa [hne] using ⟨y, hy, hyi⟩
  exact decide_eq_decide.mpr hfirst

/-- Headings without identifiers of their own are not listed, and they have no header to add. -/
theorem headers_entriesFrom {earlier later : List NodeId} (hnodup : (earlier ++ later).Nodup) :
    ((entriesFrom chapter dom earlier later).filter (·.identifiers ≠ [])).flatMap
        (fun entry => entry.identifiers.map fun i => (⟨i, entry.text, entry.level⟩ : HeaderSummary)) =
      later.flatMap fun x => (ownIdentifiers dom (earlier ++ later) x).map fun i =>
        ⟨i, Text.trim (dom.textOf (some x)), levelOf dom x⟩ := by
  induction later generalizing earlier with
  | nil => rfl
  | cons x rest ih =>
    have hx : x ∉ earlier := fun hmem =>
      (List.nodup_append.mp hnodup).2.2 x hmem x List.mem_cons_self rfl
    have hnodup' : ((earlier ++ [x]) ++ rest).Nodup := by simpa using hnodup
    have hrest := ih hnodup'
    rw [List.append_assoc, List.singleton_append] at hrest
    rw [entriesFrom, List.flatMap_cons, ← freshIdentifiers_eq hx rest, ← hrest]
    by_cases hnone : freshIdentifiers dom earlier x = []
    · rw [List.filter_cons_of_neg (by simp [entryAfter, hnone]), hnone]
      rfl
    · rw [List.filter_cons_of_pos (by simp [entryAfter, hnone]), List.flatMap_cons]
      rfl

theorem headersOf_sectionsOf (h : f.WellFormed) (chapter : Chapter) :
    headersOf (sectionsOf chapter f) = headersInOrder f := by
  obtain ⟨state, hstate, hsections⟩ := exists_describes h chapter
  have hnodup : ([] ++ headingsOf f).Nodup := nodup_headingsOf h
  rw [headersOf, hsections, hstate.listed]
  exact headers_entriesFrom hnodup

theorem level_mem_of_mem_headersOf (h : f.WellFormed)
    (hheader : header ∈ headersOf (sectionsOf chapter f)) : header.level ∈ [2, 3, 4] := by
  rw [headersOf_sectionsOf h] at hheader
  obtain ⟨x, hx, hheader⟩ := List.mem_flatMap.mp hheader
  obtain ⟨i, -, rfl⟩ := List.mem_map.mp hheader
  obtain ⟨level, hlevel⟩ := Option.isSome_iff_exists.mp (List.mem_filter.mp hx).2
  rw [levelOf, hlevel]
  exact headingLevel?_mem hlevel

/-! ### Totals -/

/-- How many headers of a level are among these. -/
def countLevel (level : Nat) (headers : List HeaderSummary) : Nat :=
  headers.countP fun header => header.level = level

theorem foldl_count {headers : List HeaderSummary} (h : ∀ header ∈ headers, header.level ∈ [2, 3, 4])
    (levels : HeadersByLevel) :
    headers.foldl (fun levels header => levels.count header.level) levels =
      ⟨levels.second + countLevel 2 headers, levels.third + countLevel 3 headers,
        levels.fourth + countLevel 4 headers⟩ := by
  induction headers generalizing levels with
  | nil => rfl
  | cons header rest ih =>
    obtain ⟨hlevel, hrest⟩ := List.forall_mem_cons.mp h
    rw [List.foldl_cons, ih hrest]
    simp only [List.mem_cons, List.not_mem_nil, or_false] at hlevel
    rcases hlevel with hlevel | hlevel | hlevel <;>
      simp [countLevel, HeadersByLevel.count, hlevel] <;> omega

/-- All headers are of one of the three levels. -/
theorem length_eq_countLevel {headers : List HeaderSummary}
    (h : ∀ header ∈ headers, header.level ∈ [2, 3, 4]) :
    headers.length = countLevel 2 headers + countLevel 3 headers + countLevel 4 headers := by
  induction headers with
  | nil => rfl
  | cons header rest ih =>
    obtain ⟨hlevel, hrest⟩ := List.forall_mem_cons.mp h
    rw [List.length_cons, ih hrest]
    simp only [List.mem_cons, List.not_mem_nil, or_false] at hlevel
    rcases hlevel with hlevel | hlevel | hlevel <;> simp [countLevel, hlevel] <;> omega

/-- What is counted chapter by chapter is what all chapters together have. -/
theorem foldl_add {chapters : List IndexedChapter}
    (h : ∀ indexed ∈ chapters, ∀ header ∈ headersOf indexed.sections, header.level ∈ [2, 3, 4]) :
    chapters.foldl AnalysisSummary.add ⟨0, 0, 0, ⟨0, 0, 0⟩⟩ =
      let headers := chapters.flatMap fun indexed => headersOf indexed.sections
      ⟨headers.length, chapters.length, (chapters.map (·.equations.size)).sum,
        ⟨countLevel 2 headers, countLevel 3 headers, countLevel 4 headers⟩⟩ := by
  induction chapters using List.reverseRecOn with
  | nil => rfl
  | append_singleton earlier last ih =>
    rw [List.foldl_concat, ih fun indexed hmem => h indexed (List.mem_append_left _ hmem)]
    simp [AnalysisSummary.add, foldl_count (h last (by simp)), countLevel]

/-! ### The analysis of the index of a document -/

/-- What an analysis says is what the index holds. -/
structure Analysis.AgreesWith (report : Analysis) (index : DocumentIndex) : Prop where
  /-- There is one analysis for each chapter of the index. -/
  chapterIds : (report.chapters.map (·.chapterId)).Perm index.chapterIds
  nodup : (report.chapters.map (·.chapterId)).Nodup
  totalChapters : report.summary.totalChapters = index.chapterIds.length
  totalHeaders_byLevel : report.summary.totalHeaders =
    report.summary.byLevel.second + report.summary.byLevel.third + report.summary.byLevel.fourth
  totalHeaders_index : report.summary.totalHeaders =
    (index.chapters.map (·.sections.identifierCount)).sum
  totalHeaders_chapters : report.summary.totalHeaders = (report.chapters.map (·.totalHeaders)).sum
  byLevel : report.summary.byLevel =
    let headers := report.chapters.flatMap (·.headers)
    ⟨countLevel 2 headers, countLevel 3 headers, countLevel 4 headers⟩
  totalEquations_index : report.summary.totalEquations = index.totalEquations
  totalEquations_chapters : report.summary.totalEquations =
    (report.chapters.map (·.totalEquations)).sum
  /-- The identifiers of a chapter are listed once each, with what they lead to, and counted. -/
  headers : ∀ chapter ∈ report.chapters, ∃ sections,
    index.sections? chapter.chapterId = some sections ∧
      chapter.totalHeaders = chapter.headers.length ∧
      (chapter.headers.map (·.identifier)).Nodup ∧
      ∀ header, header ∈ chapter.headers ↔ ∃ entry,
        sections.get? header.identifier = some entry ∧ header.text = entry.text ∧
          header.level = entry.level

theorem sorted_perm (index : DocumentIndex) : index.sorted.Perm index.chapters :=
  List.mergeSort_perm _ _

theorem agreesWith_analysis (manifest : Manifest) (hnodup : index.chapterIds.Nodup)
    (hlevels : ∀ indexed ∈ index.chapters, ∀ header ∈ headersOf indexed.sections,
      header.level ∈ [2, 3, 4]) : (analysis manifest index).AgreesWith index := by
  have hsummary : (analysis manifest index).summary = _ := foldl_add hlevels
  have hperm := sorted_perm index
  have hids : ((analysis manifest index).chapters.map (·.chapterId)).Perm index.chapterIds := by
    simpa [analysis, DocumentIndex.chapterIds, Function.comp_def] using hperm.map (·.id)
  have hlengths : (index.chapters.flatMap fun indexed => headersOf indexed.sections).length =
      (index.chapters.map (·.sections.identifierCount)).sum := by
    simp [List.length_flatMap, length_headersOf]
  have hheaders : ((analysis manifest index).chapters.flatMap (·.headers)).Perm
      (index.chapters.flatMap fun indexed => headersOf indexed.sections) := by
    have hflat := hperm.flatMap_right fun indexed => headersOf indexed.sections
    simpa [analysis, List.flatMap_map] using hflat
  exact {
    chapterIds := hids
    nodup := hids.nodup_iff.mpr hnodup
    totalChapters := by rw [hsummary, DocumentIndex.chapterIds, List.length_map]
    totalHeaders_byLevel := by
      rw [hsummary]
      refine length_eq_countLevel fun header hheader => ?_
      obtain ⟨indexed, hmem, hheader⟩ := List.mem_flatMap.mp hheader
      exact hlevels indexed hmem header hheader
    totalHeaders_index := by rw [hsummary, ← hlengths]
    totalHeaders_chapters := by
      have hcounts := (hperm.map fun indexed => (headersOf indexed.sections).length).sum_nat
      rw [hsummary]
      dsimp only
      rw [List.length_flatMap, ← hcounts]
      simp [analysis, Function.comp_def]
    byLevel := by
      rw [hsummary]
      dsimp only
      simp only [countLevel, hheaders.countP_eq]
    totalEquations_index := by
      rw [hsummary, DocumentIndex.totalEquations, List.sum_eq_foldl, List.foldl_map]
    totalEquations_chapters := by
      have hsizes := (hperm.map (·.equations.size)).sum_nat
      rw [hsummary, ← hsizes]
      simp [analysis, Function.comp_def]
    headers := by
      intro chapter hchapter
      obtain ⟨indexed, hindexed, rfl⟩ := List.mem_map.mp hchapter
      refine ⟨indexed.sections, ?_, rfl, ?_, fun header => mem_headersOf_iff⟩
      · rw [DocumentIndex.sections?, DocumentIndex.chapter?_of_mem hnodup (hperm.subset hindexed)]
        rfl
      · rw [identifiers_headersOf]
        exact indexed.sections.nodup_identifiers }

theorem chapterIds_buildIndex (hdistinct : Manifest.repeatedId? [] manifest.chapters = none)
    (sources : Sources) (numbering : Numbering) :
    (buildIndex manifest sources numbering).chapterIds =
      (manifest.chapters.filter fun chapter => (sources chapter.id).isSome).map (·.id) := by
  rw [DocumentIndex.chapterIds, chapters_buildIndex hdistinct, List.map_filterMap,
    ← List.filterMap_eq_filter, List.map_filterMap]
  refine List.filterMap_congr fun chapter _ => ?_
  cases hsource : sources chapter.id <;> simp [indexed?, hsource]

/-- The analysis of the index of a document has one entry for each chapter that has a text. All totals agree
with the index and with these entries, and an entry lists the identifiers of its chapter heading by heading
in document order. -/
theorem analysis_spec (hdistinct : Manifest.repeatedId? [] manifest.chapters = none)
    (sources : Sources) (numbering : Numbering) :
    let index := buildIndex manifest sources numbering
    let report := analysis manifest index
    report.AgreesWith index ∧
      index.chapterIds =
        (manifest.chapters.filter fun chapter => (sources chapter.id).isSome).map (·.id) ∧
      ∀ chapter ∈ manifest.chapters, ∀ content, sources chapter.id = some content →
        ∃ analysed ∈ report.chapters, analysed.chapterId = chapter.id ∧
          analysed.headers = headersInOrder (.parse content) := by
  intro index report
  have hids := chapterIds_buildIndex hdistinct sources numbering
  have hnodup : index.chapterIds.Nodup := by
    rw [hids]
    exact ((Manifest.repeatedId?_eq_none_iff [] _).mp hdistinct).1.sublist (List.filter_sublist.map _)
  have hchapters := chapters_buildIndex hdistinct sources numbering
  refine ⟨agreesWith_analysis manifest hnodup fun indexed hindexed header hheader => ?_, hids,
    fun chapter hchapter content hcontent => ?_⟩
  · rw [hchapters, List.mem_filterMap] at hindexed
    obtain ⟨chapter, -, hindexed⟩ := hindexed
    obtain ⟨content, -, rfl⟩ := Option.map_eq_some_iff.mp hindexed
    exact level_mem_of_mem_headersOf (Fragment.wellFormed_parse content) hheader
  · have hindexed : indexed? sources numbering chapter = some
        ⟨chapter.id, sectionsOf chapter (.parse content),
          equationsOf chapter (.parse content) numbering⟩ := by
      rw [indexed?, hcontent, Option.map_some]
    have hmem := List.mem_filterMap.mpr ⟨chapter, hchapter, hindexed⟩
    rw [← hchapters] at hmem
    exact ⟨_, List.mem_map_of_mem ((sorted_perm index).symm.subset hmem), rfl,
      headersOf_sectionsOf (Fragment.wellFormed_parse content) chapter⟩

theorem analysis_of_repeated_identifier :
    let chapter : Chapter := ⟨"ch1", some (.ordinal 1), "First", none, .chapters⟩
    let sources : Sources := fun _ =>
      some "<h2 id=\"a\" id-old=\"b\">One</h2><h3 id=\"b\">Two</h3><h4 id=\"c\" id-old=\"a\">Three</h4>"
    let index := buildIndex ⟨[chapter]⟩ sources .allDisplay
    (∃ analysed ∈ (analysis ⟨[chapter]⟩ index).chapters, analysed.chapterId = "ch1" ∧
      analysed.headers = [⟨"a", "One", 2⟩, ⟨"b", "One", 2⟩, ⟨"c", "Three", 4⟩]) ∧
    (analysis ⟨[chapter]⟩ index).AgreesWith index := by
  intro chapter sources index
  have hdistinct : Manifest.repeatedId? [] [chapter] = none := by decide
  obtain ⟨hagrees, -, hchapters⟩ := @analysis_spec ⟨[chapter]⟩ hdistinct sources .allDisplay
  refine ⟨?_, hagrees⟩
  obtain ⟨analysed, hmem, hid, hheaders⟩ := hchapters chapter List.mem_cons_self _ rfl
  refine ⟨analysed, hmem, hid, hheaders.trans ?_⟩
  decide +kernel

end Index
end CrossRef
