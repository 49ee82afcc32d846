import CrossRef.Proofs.Index.Document
import CrossRef.Proofs.Manifest
import Mathlib.Data.List.Find

/-!
Look-ups in the index of a document. The index holds the chapters that have a text in the order of
the manifest, so what is left out of the texts is left out of the index, and another order of the
manifest is another order of the index.
-/
namespace CrossRef
namespace Index

open Markup

variable {manifest manifest' : Manifest} {sources : Sources} {numbering : Numbering}
  {index index' : DocumentIndex}

/-! ### The chapters of the index -/

/-- What the index keeps of a chapter that has a text. -/
def indexed? (sources : Sources) (numbering : Numbering) (chapter : Chapter) :
    Option IndexedChapter :=
  (sources chapter.id).map fun html =>
    ⟨chapter.id, sectionsOf chapter (.parse html), equationsOf chapter (.parse html) numbering⟩

theorem id_of_indexed? {chapter : Chapter} {indexed : IndexedChapter}
    (h : indexed? sources numbering chapter = some indexed) : indexed.id = chapter.id := by
  obtain ⟨_, -, rfl⟩ := Option.map_eq_some_iff.mp h
  rfl

theorem insertInto_of_not_mem {new : IndexedChapter} {chapters : List IndexedChapter}
    (h : ∀ chapter ∈ chapters, chapter.id ≠ new.id) :
    DocumentIndex.insertInto new chapters = chapters ++ [new] := by
  induction chapters with
  | nil => rfl
  | cons chapter rest ih =>
    rw [DocumentIndex.insertInto, if_neg (h chapter List.mem_cons_self),
      ih fun c hc => h c (List.mem_cons_of_mem chapter hc), List.cons_append]

/-- Chapters with new ids are put in one after the other. -/
theorem chapters_foldl_insertChapter {chapters : List Chapter} {index : DocumentIndex}
    (hnodup : (chapters.map (·.id)).Nodup)
    (hnew : ∀ indexed ∈ index.chapters, indexed.id ∉ chapters.map (·.id)) :
    (chapters.foldl (fun index chapter =>
      match sources chapter.id with
      | some html => index.insertChapter chapter (Fragment.parse html) numbering
      | none => index) index).chapters =
        index.chapters ++ chapters.filterMap (indexed? sources numbering) := by
  induction chapters generalizing index with
  | nil => simp
  | cons chapter rest ih =>
    rw [List.map_cons, List.nodup_cons] at hnodup
    rw [List.foldl_cons]
    cases hsource : sources chapter.id with
    | none =>
      rw [ih hnodup.2 fun indexed hmem hrest => hnew indexed hmem (List.mem_cons_of_mem _ hrest),
        List.filterMap_cons_none (by simp [indexed?, hsource])]
    | some html =>
      have hindexed : indexed? sources numbering chapter = some
          ⟨chapter.id, sectionsOf chapter (.parse html), equationsOf chapter (.parse html) numbering⟩ := by
        simp [indexed?, hsource]
      have hinsert : (index.insertChapter chapter (Fragment.parse html) numbering).chapters =
          index.chapters ++ [⟨chapter.id, sectionsOf chapter (.parse html),
            equationsOf chapter (.parse html) numbering⟩] :=
        insertInto_of_not_mem fun indexed hmem heq => hnew indexed hmem (by simp [heq])
      have hrest : ∀ indexed ∈ (index.insertChapter chapter (Fragment.parse html) numbering).chapters,
          indexed.id ∉ rest.map (·.id) := by
        intro indexed hmem hid
        rw [hinsert] at hmem
        rcases List.mem_append.mp hmem with hold | hlast
        · exact hnew indexed hold (List.mem_cons_of_mem _ hid)
        · exact hnodup.1 (by simpa [List.mem_singleton.mp hlast] using hid)
      rw [ih hnodup.2 hrest, hinsert, List.filterMap_cons_some hindexed, List.append_assoc]
      rfl

/-- The index holds the chapters that have a text, in the order of the manifest. -/
theorem chapters_buildIndex (hdistinct : Manifest.repeatedId? [] manifest.chapters = none)
    (sources : Sources) (numbering : Numbering) :
    (buildIndex manifest sources numbering).chapters =
      manifest.chapters.filterMap (indexed? sources numbering) :=
  chapters_foldl_insertChapter ((Manifest.repeatedId?_eq_none_iff [] _).mp hdistinct).1 (by
    simp [DocumentIndex.empty])

/-- No two chapters of the index have the same id. -/
theorem eq_of_mem_buildIndex (hdistinct : Manifest.repeatedId? [] manifest.chapters = none)
    {a b : IndexedChapter} (ha : a ∈ (buildIndex manifest sources numbering).chapters)
    (hb : b ∈ (buildIndex manifest sources numbering).chapters) (hid : a.id = b.id) : a = b := by
  rw [chapters_buildIndex hdistinct, List.mem_filterMap] at ha hb
  obtain ⟨chapter, hchapter, ha⟩ := ha
  obtain ⟨chapter', hchapter', hb⟩ := hb
  have hsame := Manifest.findChapter?_of_mem hdistinct hchapter
  rw [← id_of_indexed? ha, hid, id_of_indexed? hb,
    Manifest.findChapter?_of_mem hdistinct hchapter'] at hsame
  rw [Option.some_inj.mp hsame, ha] at hb
  exact Option.some_inj.mp hb

/-! ### A text left out -/

/-- The texts without that of one chapter. -/
def without (sources : Sources) (chapterId : String) : Sources :=
  fun id => if id = chapterId then none else sources id

theorem indexed?_without (chapterId : String) (chapter : Chapter) :
    indexed? (without sources chapterId) numbering chapter =
      (indexed? sources numbering chapter).filter fun indexed => indexed.id ≠ chapterId := by
  unfold indexed? without
  by_cases hid : chapter.id = chapterId <;> cases sources chapter.id <;>
    simp [hid, Option.filter]

theorem chapters_buildIndex_without (hdistinct : Manifest.repeatedId? [] manifest.chapters = none)
    (chapterId : String) :
    (buildIndex manifest (without sources chapterId) numbering).chapters =
      (buildIndex manifest sources numbering).chapters.filter fun indexed => indexed.id ≠ chapterId := by
  rw [chapters_buildIndex hdistinct, chapters_buildIndex hdistinct, List.filter_filterMap]
  exact List.filterMap_congr fun chapter _ => indexed?_without chapterId chapter

/-- Leaving chapters out leaves them out of the search for another chapter. -/
theorem searchOrder_filter {keep : IndexedChapter → Bool} {current : String}
    (h : index'.chapters = index.chapters.filter keep)
    (hcurrent : ∀ indexed ∈ index.chapters, indexed.id = current → keep indexed) :
    index'.searchOrder current = (index.searchOrder current).filter keep := by
  have hfirst : index'.chapter? current = index.chapter? current := by
    rw [DocumentIndex.chapter?, h, List.find?_filter, DocumentIndex.chapter?]
    refine List.find?_congr fun indexed hmem => ?_
    by_cases hid : indexed.id = current
    · simp [hid, hcurrent indexed hmem hid]
    · simp [hid]
  have hkept : (index.chapter? current).toList.filter keep = (index.chapter? current).toList := by
    refine List.filter_eq_self.mpr fun indexed hmem => ?_
    have hfound := Option.mem_toList.mp hmem
    exact hcurrent indexed (List.mem_of_find?_eq_some hfound)
      (by simpa using List.find?_some hfound)
  rw [DocumentIndex.searchOrder, DocumentIndex.searchOrder, hfirst, h, List.filter_append, hkept,
    List.filter_filter, List.filter_filter]
  simp only [Bool.and_comm]

/-- What is found stays when nothing is left out that gives it. -/
theorem findSome?_filter_of_ne {α β : Type} {g : α → Option β} {keep : α → Bool} {l : List α}
    (h : ∀ a ∈ l, keep a = false → ∀ b, g a = some b → l.findSome? g ≠ some b) :
    (l.filter keep).findSome? g = l.findSome? g := by
  induction l with
  | nil => rfl
  | cons a rest ih =>
    cases hga : g a with
    | none =>
      have hrest := ih fun a' ha' hleft b hb => by
        simpa [List.findSome?_cons, hga] using h a' (List.mem_cons_of_mem a ha') hleft b hb
      rw [List.findSome?_cons, hga, ← hrest, List.filter_cons]
      split_ifs
      · rw [List.findSome?_cons, hga]
      · rfl
    | some b =>
      have hkeep : keep a = true := by
        by_contra hleft
        exact h a List.mem_cons_self (by simpa using hleft) b hga (by simp [hga])
      rw [List.filter_cons_of_pos hkeep, List.findSome?_cons, hga, List.findSome?_cons, hga]

variable {current chapterId : String}

theorem searchOrder_without (hdistinct : Manifest.repeatedId? [] manifest.chapters = none)
    (hne : current ≠ chapterId) :
    (buildIndex manifest (without sources chapterId) numbering).searchOrder current =
      ((buildIndex manifest sources numbering).searchOrder current).filter
        fun indexed => indexed.id ≠ chapterId :=
  searchOrder_filter (chapters_buildIndex_without hdistinct chapterId) fun indexed _ hid => by
    simpa [hid] using hne

/-- A chapter without entries that a look-up finds can be left out. -/
theorem findSection?_without (hdistinct : Manifest.repeatedId? [] manifest.chapters = none)
    (hne : current ≠ chapterId) {identifier : String}
    (h : ∀ entry, (buildIndex manifest sources numbering).findSection? current identifier =
      some entry → entry.chapterId ≠ chapterId) :
    (buildIndex manifest (without sources chapterId) numbering).findSection? current identifier =
      (buildIndex manifest sources numbering).findSection? current identifier := by
  rw [DocumentIndex.findSection?, searchOrder_without hdistinct hne]
  refine findSome?_filter_of_ne fun indexed hmem hleft entry hentry hfound => h entry hfound ?_
  have hitself := (buildIndex_spec manifest sources numbering indexed
    (mem_of_mem_searchOrder hmem)).1
  rw [hitself.sections entry (ChapterSections.mem_of_get? hentry).1]
  simpa using hleft

theorem findEquation?_without (hdistinct : Manifest.repeatedId? [] manifest.chapters = none)
    (hne : current ≠ chapterId) {identifier : String}
    (h : ∀ entry, (buildIndex manifest sources numbering).findEquation? current identifier =
      some entry → entry.chapterId ≠ chapterId) :
    (buildIndex manifest (without sources chapterId) numbering).findEquation? current identifier =
      (buildIndex manifest sources numbering).findEquation? current identifier := by
  rw [DocumentIndex.findEquation?, searchOrder_without hdistinct hne]
  refine findSome?_filter_of_ne fun indexed hmem hleft entry hentry hfound => h entry hfound ?_
  have hitself := (buildIndex_spec manifest sources numbering indexed
    (mem_of_mem_searchOrder hmem)).1
  rw [hitself.equations entry (List.mem_of_find?_eq_some hentry)]
  simpa using hleft

/-! ### Another order -/

/-- Where at most one member gives something, the order does not matter. -/
theorem findSome?_perm {α β : Type} {g : α → Option β} {l l' : List α} (h : l.Perm l')
    (hunique : ∀ a ∈ l, ∀ b ∈ l, (g a).isSome → (g b).isSome → a = b) :
    l'.findSome? g = l.findSome? g := by
  cases hl' : l'.findSome? g with
  | none =>
    rw [List.findSome?_eq_none_iff] at hl'
    exact (List.findSome?_eq_none_iff.mpr fun a ha => hl' a (h.subset ha)).symm
  | some b =>
    obtain ⟨a, ha, hga⟩ := List.exists_of_findSome?_eq_some hl'
    cases hl : l.findSome? g with
    | none => simp [List.findSome?_eq_none_iff.mp hl a (h.symm.subset ha)] at hga
    | some c =>
      obtain ⟨a', ha', hga'⟩ := List.exists_of_findSome?_eq_some hl
      rw [hunique a (h.symm.subset ha) a' ha' (by simp [hga]) (by simp [hga'])] at hga
      rw [← hga, hga']

theorem chapters_buildIndex_perm (hdistinct : Manifest.repeatedId? [] manifest.chapters = none)
    (hdistinct' : Manifest.repeatedId? [] manifest'.chapters = none)
    (hperm : manifest.chapters.Perm manifest'.chapters) :
    (buildIndex manifest sources numbering).chapters.Perm
      (buildIndex manifest' sources numbering).chapters := by
  rw [chapters_buildIndex hdistinct, chapters_buildIndex hdistinct']
  exact hperm.filterMap _

theorem searchOrder_perm
    (hids : ∀ a ∈ index.chapters, ∀ b ∈ index.chapters, a.id = b.id → a = b)
    (hperm : index.chapters.Perm index'.chapters) (current : String) :
    (index.searchOrder current).Perm (index'.searchOrder current) := by
  have hfirst : index.chapter? current = index'.chapter? current :=
    List.find?_eq_find?_of_perm hperm fun a ha b hb => hids a ha.1 b hb.1 (by
      rw [of_decide_eq_true ha.2, of_decide_eq_true hb.2])
  rw [DocumentIndex.searchOrder, hfirst]
  exact (hperm.filter _).append_left _

/-- No identifier leads to headings, or to equations, of two chapters. -/
structure DocumentIndex.Unambiguous (index : DocumentIndex) : Prop where
  sections : ∀ a ∈ index.chapters, ∀ b ∈ index.chapters, ∀ identifier,
    identifier ∈ a.sections.identifiers → identifier ∈ b.sections.identifiers → a.id = b.id
  equations : ∀ a ∈ index.chapters, ∀ b ∈ index.chapters, ∀ e ∈ a.equations.entries,
    ∀ e' ∈ b.equations.entries, e.identifier = e'.identifier → a.id = b.id

theorem mem_identifiers_of_get? {sections : ChapterSections} {identifier : String}
    (h : (sections.get? identifier).isSome) : identifier ∈ sections.identifiers := by
  obtain ⟨entry, hentry⟩ := Option.isSome_iff_exists.mp h
  rw [sections.identifiers_eq]
  exact List.mem_flatMap.mpr ⟨entry, ChapterSections.mem_of_get? hentry⟩

theorem exists_of_get?_isSome {equations : ChapterEquations} {identifier : String}
    (h : (equations.get? identifier).isSome) :
    ∃ e ∈ equations.entries, e.identifier = identifier := by
  obtain ⟨entry, hentry⟩ := Option.isSome_iff_exists.mp h
  exact ⟨entry, List.mem_of_find?_eq_some hentry, by simpa using List.find?_some hentry⟩

theorem findSection?_perm
    (hids : ∀ a ∈ index.chapters, ∀ b ∈ index.chapters, a.id = b.id → a = b)
    (hperm : index.chapters.Perm index'.chapters) (h : index.Unambiguous)
    (current identifier : String) :
    index'.findSection? current identifier = index.findSection? current identifier :=
  findSome?_perm (searchOrder_perm hids hperm current) fun a ha b hb hga hgb =>
    hids a (mem_of_mem_searchOrder ha) b (mem_of_mem_searchOrder hb) <|
      h.sections a (mem_of_mem_searchOrder ha) b (mem_of_mem_searchOrder hb) identifier
        (mem_identifiers_of_get? hga) (mem_identifiers_of_get? hgb)

theorem findEquation?_perm
    (hids : ∀ a ∈ index.chapters, ∀ b ∈ index.chapters, a.id = b.id → a = b)
    (hperm : index.chapters.Perm index'.chapters) (h : index.Unambiguous)
    (current identifier : String) :
    index'.findEquation? current identifier = index.findEquation? current identifier := by
  refine findSome?_perm (searchOrder_perm hids hperm current) fun a ha b hb hga hgb => ?_
  obtain ⟨e, he, hid⟩ := exists_of_get?_isSome hga
  obtain ⟨e', he', hid'⟩ := exists_of_get?_isSome hgb
  exact hids a (mem_of_mem_searchOrder ha) b (mem_of_mem_searchOrder hb) <|
    h.equations a (mem_of_mem_searchOrder ha) b (mem_of_mem_searchOrder hb) e he e' he'
      (hid.trans hid'.symm)

end Index
end CrossRef
