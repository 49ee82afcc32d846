import CrossRef.Resolution
import CrossRef.Proofs.Index.Document
import CrossRef.Proofs.Pass.Settled

/-!
Processing a chapter again. What the passes have written they leave as it is when it is read again,
as far as it is read as what was written.
-/
namespace CrossRef

open Markup Index Pass

variable {config : Config} {ctx : Context} {f g : Fragment}

/-- A fragment shows the passes nothing that another does not: each of its local links has the
address, the identifier and the text of one there, and each of its numbered equations has a parent
like that of one there. -/
structure ReadsAs (numbering : Numbering) (f g : Fragment) : Prop where
  links : ∀ y ∈ g.localLinks, ∃ x ∈ f.localLinks,
    g.dom.attribute? (some y) "href" = f.dom.attribute? (some x) "href" ∧
    g.dom.attribute? (some y) "id" = f.dom.attribute? (some x) "id" ∧
    g.dom.textOf (some y) = f.dom.textOf (some x)
  equations : ∀ m ∈ numberedEquations g numbering, ∃ e ∈ numberedEquations f numbering,
    g.dom.content? (g.dom.parent? (some m)) = f.dom.content? (f.dom.parent? (some e))

theorem Pass.localTarget?_of_href {x y : NodeId}
    (hhref : g.dom.attribute? (some y) "href" = f.dom.attribute? (some x) "href") :
    Fragment.localTarget? g.dom y = Fragment.localTarget? f.dom x := by
  simp only [Fragment.localTarget?, hhref]

theorem Pass.Settled.readsAs (h : Settled config ctx f) (hread : ReadsAs config.numbering f g) :
    Settled config ctx g := by
  intro pass hpass
  have hidle := h pass hpass
  cases pass with
  | equationNumbers =>
    intro hnumber m hm
    obtain ⟨e, he, hparent⟩ := hread.equations m hm
    rw [← hidle hnumber e he]
    simp only [isWrapped, Dom.isElement_congr hparent, Dom.attribute?_congr hparent]
  | equationRefs =>
    intro y hy
    obtain ⟨x, hx, hhref, -, htext⟩ := hread.links y hy
    rw [judgeEquationText, linkTarget?, localTarget?_of_href hhref, htext]
    exact hidle x hx
  | textRefs =>
    intro y hy
    obtain ⟨x, hx, hhref, hid, htext⟩ := hread.links y hy
    have hentry : isContentsEntry g.dom y = isContentsEntry f.dom x := by
      rw [isContentsEntry, hid, isContentsEntry]
    rw [judgeSectionText, hentry, linkTarget?, localTarget?_of_href hhref, htext]
    exact hidle x hx
  | linkTargets =>
    intro y hy
    obtain ⟨x, hx, hhref, -⟩ := hread.links y hy
    rw [judgeTarget, localTarget?_of_href hhref]
    exact hidle x hx

/-- The passes lead links to chapters of the manifest only. -/
theorem ownersAway_buildIndex {manifest : Manifest} {sources : Sources} {chapterId : String}
    (hids : ∀ chapter ∈ manifest.chapters, startsWith ['#'] chapter.id = false) :
    OwnersAway config ⟨manifest, buildIndex manifest sources config.numbering, chapterId⟩ := by
  intro target owner howner
  unfold newOwner? at howner
  split_ifs at howner
  have htarget := (Option.filter_eq_some_iff.mp howner).1
  unfold targetOwner? at htarget
  split at htarget
  · obtain ⟨chapter, hchapter, rfl⟩ := Option.map_eq_some_iff.mp htarget
    exact hids chapter (List.mem_of_find?_eq_some hchapter)
  · obtain ⟨entry, hentry, rfl⟩ := Option.map_eq_some_iff.mp htarget
    obtain ⟨chapter, hchapter, hid⟩ := chapterId_of_findSection? hentry
    exact hid ▸ hids chapter hchapter
  · split_ifs at htarget
    obtain ⟨entry, hentry, rfl⟩ := Option.map_eq_some_iff.mp htarget
    obtain ⟨chapter, hchapter, hid⟩ := chapterId_of_findEquation? hentry
    exact hid ▸ hids chapter hchapter
  · simp at htarget

/-- Process a chapter of a document, and then process its markup. -/
def processTwice (manifest : Manifest) (sources : Sources) (config : Config)
    (chapterId content : String) : ProcessedChapter × ProcessedChapter :=
  let ctx : Context := ⟨manifest, buildIndex manifest sources config.numbering, chapterId⟩
  let first := processChapter config ctx (enabled config) content
  (first, processChapter config ctx (enabled config) first.html)

/-- What makes a chapter ready to be processed twice. -/
structure Repeatable (config : Config) (ctx : Context) (content : String) : Prop where
  /-- No file of a chapter has a name that makes an address a local one. -/
  ids : ∀ chapter ∈ ctx.manifest.chapters, startsWith ['#'] chapter.id = false
  apart : LinksApart (Fragment.parse content)
  /-- With the numbers of its equations, no link names a chapter by its new text again. -/
  names : NamesOnce ctx (runEnabled config ctx .equationNumbers (Fragment.parse content))
  /-- The new markup is read as it was written. -/
  reads : ReadsAs config.numbering
    (applyAll config ctx (enabled config) (Fragment.parse content)).1
    (Fragment.parse (processChapter config ctx (enabled config) content).html)

theorem processChapter_of_settled {content : String}
    (h : Settled config ctx (Fragment.parse content)) :
    (processChapter config ctx (enabled config) content).report.changed = 0 ∧
      (processChapter config ctx (enabled config) content).html = content := by
  obtain ⟨-, hreport⟩ := h.applyAll
  exact ⟨hreport, by simp [processChapter, hreport]⟩

/-- The text of each chapter that has one. -/
def sourcesOf (texts : List (String × String)) : Sources := fun id => texts.lookup id

/-- A chapter with the number 2. -/
def secondChapter : Chapter := ⟨"d", some (.ordinal 2), "T", none, .chapters⟩

/-- The second run changes a chapter of a document with an accepted manifest. -/
def ChangesAgain (manifest : Manifest) (sources : Sources) (config : Config) (chapterId : String) :
    Prop :=
  Manifest.repeatedId? [] manifest.chapters = none ∧ ∃ content, sources chapterId = some content ∧
    (processTwice manifest sources config chapterId content).2.report.changed ≠ 0

/-- A chapter in which one link leads to a chapter, and that link is given a new text. -/
theorem processChapter_of_one_link {content : String} (x : NodeId) (reference new : String)
    {chapter : Chapter} (henabled : enabled config = [.textRefs])
    (hlinks : (Fragment.parse content).localLinks = [x])
    (hentry : isContentsEntry (Fragment.parse content).dom x = false)
    (htarget : linkTarget? (Fragment.parse content).dom x = some (.chapter reference))
    (hchapter : ctx.manifest.findByReference? reference = some chapter)
    (hnew : chapterText ((Fragment.parse content).dom.textOf (some x)) reference chapter = some new)
    (hne : new ≠ (Fragment.parse content).dom.textOf (some x)) :
    processChapter config ctx (enabled config) content =
      ⟨Fragment.html ⟨(Fragment.parse content).dom.replaceChildrenWithText (some x) new,
        (Fragment.parse content).root⟩, ⟨1, []⟩⟩ := by
  have hverdict : judgeSectionText ctx (Fragment.parse content).dom x = .newText new := by
    simp only [judgeSectionText, hentry, htarget, hchapter, hnew, Verdict.ofText, if_neg hne,
      Bool.false_eq_true, if_false]
  simp only [processChapter, henabled, applyAll, apply, renderTextRefs, changeLinks, hlinks,
    judgeLinks, hverdict, Verdict.carryOut, Report.merge_empty]
  rw [if_neg (by decide)]

/-- Settings that leave on the pass for the text of links to chapters and headings only. -/
def textRefsOnly : Config :=
  { Config.default with disable := ["equation-numbers", "equation-refs", "link-targets"] }

/-- Of two names of a chapter in one text each run replaces one. -/
theorem changesAgain_of_second_name :
    ChangesAgain ⟨[secondChapter]⟩ (sourcesOf [("d", "<a href=#ch:d>d or d.</a>")]) textRefsOnly "d" := by
  have hnames : chapterNames "d" secondChapter = ["d"] := chapterNames_id secondChapter (by decide) rfl
  have hold : (Fragment.parse "<a href=#ch:d>d or d.</a>").dom.textOf (some 5) = "d or d." := by
    decide +kernel
  have hold' : (Fragment.parse "<a href=\"#ch:d\">2 or d.</a>").dom.textOf (some 5) = "2 or d." := by
    decide +kernel
  have hnew : chapterText "d or d." "d" secondChapter = some "2 or d." := by
    rw [chapterText, hnames]
    decide +kernel
  have hnew' : chapterText "2 or d." "d" secondChapter = some "2 or 2." := by
    rw [chapterText, hnames]
    decide +kernel
  have hfirst : ∀ ctx : Context, ctx.manifest = ⟨[secondChapter]⟩ →
      (processChapter textRefsOnly ctx (enabled textRefsOnly) "<a href=#ch:d>d or d.</a>").html =
        "<a href=\"#ch:d\">2 or d.</a>" := by
    intro ctx hctx
    rw [processChapter_of_one_link 5 "d" "2 or d." (by decide +kernel) (by decide +kernel)
      (by decide +kernel) (by decide +kernel) (hctx ▸ by decide +kernel) (hold ▸ hnew)
      (hold ▸ by decide)]
    decide +kernel
  refine ⟨by decide, _, rfl, ?_⟩
  simp only [processTwice]
  rw [hfirst _ rfl, processChapter_of_one_link 5 "d" "2 or 2." (by decide +kernel) (by decide +kernel)
    (by decide +kernel) (by decide +kernel) (by decide +kernel) (hold' ▸ hnew') (hold' ▸ by decide)]
  simp

end CrossRef
