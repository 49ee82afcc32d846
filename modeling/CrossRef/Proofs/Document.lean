import CrossRef.Proofs.Index.Lookup
import CrossRef.Proofs.Pass.Agreement
import CrossRef.Proofs.Resolution

/-!
The chapters of a document together. What becomes of a chapter is settled by its text and by the
answers to its own references, not by the other texts and their order.
-/
namespace CrossRef

open Markup Index Pass

variable {manifest manifest' : Manifest} {sources : Sources}

/-- The chapter with an id, as the document shows it. -/
theorem lookup_processed (sources : Sources) (process : String → String → ProcessedChapter)
    (chapters : List Chapter) (id : String) :
    ((chapters.filterMap fun chapter =>
      (sources chapter.id).map fun content => (chapter, content)).map fun (chapter, content) =>
        (chapter.id, process chapter.id content)).lookup id =
      (chapters.find? fun chapter => chapter.id = id).bind fun chapter =>
        (sources chapter.id).map (process chapter.id) := by
  induction chapters with
  | nil => rfl
  | cons chapter rest ih =>
    cases hsource : sources chapter.id with
    | none =>
      rw [List.filterMap_cons_none (by rw [hsource]; rfl), ih, List.find?_cons]
      by_cases hid : chapter.id = id
      · -- no chapter with this id has a text
        have hnone : (rest.find? fun chapter => chapter.id = id).bind (fun chapter =>
            (sources chapter.id).map (process chapter.id)) = none := by
          rw [Option.bind_eq_none_iff]
          intro other hother
          have hid' : other.id = id := by simpa using List.find?_some hother
          rw [hid', ← hid, hsource, Option.map_none]
        simp only [hnone, hid, decide_true, Option.bind_some, hid ▸ hsource, Option.map_none]
      · simp only [hid, decide_false]
    | some content =>
      rw [List.filterMap_cons_some (by rw [hsource]; rfl), List.map_cons, List.lookup_cons,
        List.find?_cons]
      by_cases hid : chapter.id = id
      · simp only [hid, BEq.rfl, decide_true, Option.bind_some, hid ▸ hsource, Option.map_some]
      · simp only [beq_eq_false_iff_ne.mpr (Ne.symm hid), hid, decide_false]
        exact ih

/-- Every chapter that has a text is processed by itself. -/
theorem lookup_resolveDocument (manifest : Manifest) (sources : Sources) (config : Config)
    (id : String) :
    (resolveDocument manifest sources config).lookup id =
      (manifest.findChapter? id).bind fun chapter => (sources chapter.id).map
        (processChapter config ⟨manifest, buildIndex manifest sources config.numbering, chapter.id⟩
          (enabled config)) :=
  lookup_processed sources (fun id => processChapter config
    ⟨manifest, buildIndex manifest sources config.numbering, id⟩ (enabled config))
    manifest.chapters id

/-! ### A missing text -/

/-- Take any chapter with a text, and any other chapter in which no local link of the first one finds
a heading or an equation. Whether this other chapter has a text or not, the first one becomes the
same. -/
theorem missing_source_keeps_other_chapters
    (hdistinct : Manifest.repeatedId? [] manifest.chapters = none) (config : Config)
    {chapter : Chapter} {content missing : String} (hchapter : chapter ∈ manifest.chapters)
    (hcontent : sources chapter.id = some content) (hne : chapter.id ≠ missing)
    (hlinks : ∀ x ∈ (Fragment.parse content).localLinks, ∀ target,
      Fragment.localTarget? (Fragment.parse content).dom x = some target →
      let index := buildIndex manifest sources config.numbering
      (∀ entry, index.findSection? chapter.id target = some entry → entry.chapterId ≠ missing) ∧
        ∀ entry, index.findEquation? chapter.id target = some entry → entry.chapterId ≠ missing) :
    ∃ processed,
      (resolveDocument manifest sources config).lookup chapter.id = some processed ∧
      (resolveDocument manifest (without sources missing) config).lookup chapter.id =
        some processed := by
  let index := buildIndex manifest sources config.numbering
  let index' := buildIndex manifest (without sources missing) config.numbering
  let asked : String → Prop := fun target =>
    (∀ entry, index.findSection? chapter.id target = some entry → entry.chapterId ≠ missing) ∧
      ∀ entry, index.findEquation? chapter.id target = some entry → entry.chapterId ≠ missing
  have hagree : Agree asked ⟨manifest, index, chapter.id⟩ ⟨manifest, index', chapter.id⟩ := {
    chapterId := rfl
    chapter? := rfl
    findByReference? := fun _ => rfl
    findSection? := fun _ hasked => findSection?_without hdistinct hne hasked.1
    findEquation? := fun _ hasked => findEquation?_without hdistinct hne hasked.2 }
  have htargets : TargetsIn asked (Fragment.parse content) := hlinks
  have hsame := hagree.processChapter_eq config htargets
  have hfound := Manifest.findChapter?_of_mem hdistinct hchapter
  have hcontent' : without sources missing chapter.id = some content := by
    rw [without, if_neg hne, hcontent]
  refine ⟨processChapter config ⟨manifest, index, chapter.id⟩ (enabled config) content, ?_, ?_⟩
  · rw [lookup_resolveDocument, hfound, Option.bind_some, hcontent, Option.map_some]
  · rw [lookup_resolveDocument, hfound, Option.bind_some, hcontent', Option.map_some, hsame]

/-- Without the text of a chapter that has a heading under the same identifier as another chapter,
links that find the heading of the other chapter stay as they are. -/
theorem heading_without_its_double :
    let c : Chapter := ⟨"c", some (.ordinal 4), "C", none, .chapters⟩
    let manifest : Manifest :=
      ⟨[secondChapter, ⟨"e", some (.ordinal 3), "E", none, .chapters⟩, c]⟩
    let sources := sourcesOf [("d", "<h2 id=s>S</h2>"), ("e", "<h2 id=s>T</h2>"), ("c", "<a href=#s>s</a>")]
    ∃ processed, (resolveDocument manifest sources .default).lookup "c" = some processed ∧
      (resolveDocument manifest (without sources "e") .default).lookup "c" = some processed := by
  intro c manifest sources
  have hmem : c ∈ manifest.chapters := by simp [manifest]
  refine missing_source_keeps_other_chapters (by decide) .default hmem rfl (by decide)
    fun x hx target htarget => ?_
  have hlink : ∀ x ∈ (Fragment.parse "<a href=#s>s</a>").localLinks,
      Fragment.localTarget? (Fragment.parse "<a href=#s>s</a>").dom x = some "s" := by decide +kernel
  have hs : target = "s" := Option.some_inj.mp (htarget.symm.trans (hlink x hx))
  subst hs
  exact ⟨by decide +kernel, by decide +kernel⟩

/-! ### Another order -/

/-- The order of the chapters does not matter as long as no name stands for two of them, and no
identifier leads into two of them. -/
theorem resolveDocument_order_independent
    (hdistinct : Manifest.repeatedId? [] manifest.chapters = none)
    (hdistinct' : Manifest.repeatedId? [] manifest'.chapters = none)
    (hperm : manifest.chapters.Perm manifest'.chapters) (sources : Sources) (config : Config)
    (hnames : ∀ c ∈ manifest.chapters, ∀ d ∈ manifest.chapters, ∀ reference,
      c.answersTo reference → d.answersTo reference → c = d)
    (hindex : (buildIndex manifest sources config.numbering).Unambiguous) :
    (resolveDocument manifest' sources config).Perm (resolveDocument manifest sources config) ∧
      ∀ id, (resolveDocument manifest' sources config).lookup id =
        (resolveDocument manifest sources config).lookup id := by
  let index := buildIndex manifest sources config.numbering
  let index' := buildIndex manifest' sources config.numbering
  have hindexed : index.chapters.Perm index'.chapters :=
    chapters_buildIndex_perm hdistinct hdistinct' hperm
  have hids : ∀ a ∈ index.chapters, ∀ b ∈ index.chapters, a.id = b.id → a = b :=
    fun a ha b hb => eq_of_mem_buildIndex hdistinct ha hb
  have hagree : ∀ id, Agree (fun _ => True) ⟨manifest, index, id⟩ ⟨manifest', index', id⟩ :=
    fun id => {
      chapterId := rfl
      chapter? := Manifest.findChapter?_perm hdistinct hperm id
      findByReference? := Manifest.findByReference?_perm hnames hperm
      findSection? := fun target _ => findSection?_perm hids hindexed hindex id target
      findEquation? := fun target _ => findEquation?_perm hids hindexed hindex id target }
  have hsame : ∀ id content,
      processChapter config ⟨manifest', index', id⟩ (enabled config) content =
        processChapter config ⟨manifest, index, id⟩ (enabled config) content :=
    fun id content => (hagree id).processChapter_eq config fun _ _ _ _ => trivial
  constructor
  · have hpresent : (presentChapters manifest' sources).Perm (presentChapters manifest sources) :=
      (hperm.filterMap _).symm
    have hmap : resolveDocument manifest' sources config =
        (presentChapters manifest' sources).map fun (chapter, content) =>
          (chapter.id, processChapter config ⟨manifest, index, chapter.id⟩ (enabled config) content) :=
      List.map_congr_left fun (chapter, content) _ =>
        congrArg (Prod.mk chapter.id) (hsame chapter.id content)
    rw [hmap]
    exact hpresent.map _
  · intro id
    rw [lookup_resolveDocument, lookup_resolveDocument, Manifest.findChapter?_perm hdistinct hperm]
    congr 1
    funext chapter
    exact congrArg (Option.map · (sources chapter.id)) (funext (hsame chapter.id))

/-- Two chapters with a link from the first to a heading of the second may change places. -/
theorem two_chapters_change_places :
    let e : Chapter := ⟨"e", some (.ordinal 3), "E", none, .chapters⟩
    let sources := sourcesOf [("d", "<a href=#s>s</a>"), ("e", "<h2 id=s>S</h2>")]
    (resolveDocument ⟨[e, secondChapter]⟩ sources .default).Perm
        (resolveDocument ⟨[secondChapter, e]⟩ sources .default) ∧
      ∀ id, (resolveDocument ⟨[e, secondChapter]⟩ sources .default).lookup id =
        (resolveDocument ⟨[secondChapter, e]⟩ sources .default).lookup id := by
  intro e sources
  have hdistinct : Manifest.repeatedId? [] [secondChapter, e] = none := by decide
  refine resolveDocument_order_independent hdistinct (by decide) (.swap e secondChapter [])
    sources .default ?_ ⟨by decide +kernel, by decide +kernel⟩
  intro c hc d hd reference hcr hdr
  have hname : ∀ chapter ∈ [secondChapter, e], chapter.answersTo reference → chapter.id = reference := by
    simp [Chapter.answersTo, secondChapter, e]
  have hid : c.id = d.id := (hname c hc hcr).trans (hname d hd hdr).symm
  rcases List.mem_pair.mp hc with rfl | rfl <;> rcases List.mem_pair.mp hd with rfl | rfl
  · rfl
  · exact absurd hid (by decide)
  · exact absurd hid (by decide)
  · rfl

end CrossRef
