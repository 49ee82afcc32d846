import CrossRef.Index.Document

/-!
The index of a document. Whatever a look-up finds belongs to a chapter of the manifest.
-/
namespace CrossRef
namespace Index

open Markup

variable {manifest : Manifest} {sources : Sources} {numbering : Numbering}

/-- All entries of a chapter name that chapter. -/
structure IndexedChapter.NamesItself (indexed : IndexedChapter) : Prop where
  sections : ∀ entry ∈ indexed.sections.headings, entry.chapterId = indexed.id
  equations : ∀ entry ∈ indexed.equations.entries, entry.chapterId = indexed.id

theorem mem_headings_register {sections : ChapterSections} {entry new : SectionEntry}
    (h : entry ∈ (sections.register new).headings) :
    entry ∈ sections.headings ∨ entry.chapterId = new.chapterId := by
  unfold ChapterSections.register at h
  dsimp only at h
  split at h
  · exact .inl h
  · rcases List.mem_append.mp h with hmem | hnew
    · exact .inl hmem
    · exact .inr (by rw [List.mem_singleton.mp hnew])

theorem chapterId_of_mem_indexNode {chapter : Chapter} {dom : Dom}
    {state : SectionCounter × ChapterSections} {node : NodeId}
    (hstate : ∀ entry ∈ state.2.headings, entry.chapterId = chapter.id) :
    ∀ entry ∈ (indexNode chapter dom state node).2.headings, entry.chapterId = chapter.id := by
  intro entry hentry
  unfold indexNode at hentry
  split at hentry
  · exact hstate entry hentry
  · split at hentry
    · exact hstate entry hentry
    · exact (mem_headings_register hentry).elim (hstate entry) id

theorem chapterId_of_mem_sectionsOf (chapter : Chapter) (f : Fragment) :
    ∀ entry ∈ (sectionsOf chapter f).headings, entry.chapterId = chapter.id :=
  List.foldlRecOn _ (indexNode chapter f.dom)
    (motive := fun state => ∀ entry ∈ state.2.headings, entry.chapterId = chapter.id)
    (by simp [ChapterSections.empty]) fun _ hstate _ _ => chapterId_of_mem_indexNode hstate

theorem chapterId_of_mem_registerEquation {chapter : Chapter} {number : ChapterNumber}
    {entries : List EquationEntry} {equation : ScannedEquation}
    (hentries : ∀ entry ∈ entries, entry.chapterId = chapter.id) :
    ∀ entry ∈ registerEquation chapter number entries equation, entry.chapterId = chapter.id := by
  intro entry hentry
  unfold registerEquation at hentry
  split at hentry
  · exact hentries entry hentry
  · split at hentry
    · exact hentries entry hentry
    · rcases List.mem_append.mp hentry with hmem | hnew
      · exact hentries entry hmem
      · rw [List.mem_singleton.mp hnew]

theorem chapterId_of_mem_equationsOf (chapter : Chapter) (f : Fragment) (numbering : Numbering) :
    ∀ entry ∈ (equationsOf chapter f numbering).entries, entry.chapterId = chapter.id := by
  unfold equationsOf
  split
  · simp [ChapterEquations.empty]
  · next number _ =>
    exact List.foldlRecOn _ (registerEquation chapter number)
      (motive := fun entries => ∀ entry ∈ entries, entry.chapterId = chapter.id)
      (fun _ h => absurd h List.not_mem_nil) fun _ hentries _ _ => chapterId_of_mem_registerEquation hentries

theorem mem_insertInto {new indexed : IndexedChapter} {chapters : List IndexedChapter}
    (h : indexed ∈ DocumentIndex.insertInto new chapters) : indexed = new ∨ indexed ∈ chapters := by
  induction chapters with
  | nil => exact .inl (List.mem_singleton.mp h)
  | cons chapter rest ih =>
    unfold DocumentIndex.insertInto at h
    split at h
    · exact (List.mem_cons.mp h).imp_right (List.mem_cons_of_mem chapter)
    · rcases List.mem_cons.mp h with rfl | hmem
      · exact .inr List.mem_cons_self
      · exact (ih hmem).imp_right (List.mem_cons_of_mem chapter)

/-- Every chapter in the index is one of the manifest, under entries of its own. -/
theorem buildIndex_spec (manifest : Manifest) (sources : Sources) (numbering : Numbering) :
    ∀ indexed ∈ (buildIndex manifest sources numbering).chapters,
      indexed.NamesItself ∧ ∃ chapter ∈ manifest.chapters, indexed.id = chapter.id := by
  refine List.foldlRecOn manifest.chapters _
    (motive := fun index : DocumentIndex => ∀ indexed ∈ index.chapters,
      indexed.NamesItself ∧ ∃ chapter ∈ manifest.chapters, indexed.id = chapter.id)
    (by simp [DocumentIndex.empty]) fun index hindex chapter hchapter indexed hindexed => ?_
  cases hsource : sources chapter.id with
  | none => exact hindex indexed (by simpa [hsource] using hindexed)
  | some html =>
    simp only [hsource] at hindexed
    rcases mem_insertInto hindexed with rfl | hold
    · exact ⟨⟨chapterId_of_mem_sectionsOf chapter _, chapterId_of_mem_equationsOf chapter _ _⟩,
        chapter, hchapter, rfl⟩
    · exact hindex indexed hold

theorem mem_of_mem_searchOrder {index : DocumentIndex} {current : String} {indexed : IndexedChapter}
    (h : indexed ∈ index.searchOrder current) : indexed ∈ index.chapters := by
  rcases List.mem_append.mp h with hfirst | hrest
  · exact List.mem_of_find?_eq_some (Option.mem_toList.mp hfirst)
  · exact (List.mem_filter.mp hrest).1

theorem exists_of_findSection? {index : DocumentIndex} {current identifier : String}
    {entry : SectionEntry} (h : index.findSection? current identifier = some entry) :
    ∃ indexed ∈ index.chapters, indexed.sections.get? identifier = some entry := by
  obtain ⟨indexed, hmem, hget⟩ := List.exists_of_findSome?_eq_some h
  exact ⟨indexed, mem_of_mem_searchOrder hmem, hget⟩

theorem exists_of_findEquation? {index : DocumentIndex} {current identifier : String}
    {entry : EquationEntry} (h : index.findEquation? current identifier = some entry) :
    ∃ indexed ∈ index.chapters, indexed.equations.get? identifier = some entry := by
  obtain ⟨indexed, hmem, hget⟩ := List.exists_of_findSome?_eq_some h
  exact ⟨indexed, mem_of_mem_searchOrder hmem, hget⟩

theorem chapterId_of_findSection? {current identifier : String} {entry : SectionEntry}
    (h : (buildIndex manifest sources numbering).findSection? current identifier = some entry) :
    ∃ chapter ∈ manifest.chapters, entry.chapterId = chapter.id := by
  obtain ⟨indexed, hmem, hget⟩ := exists_of_findSection? h
  obtain ⟨hitself, chapter, hchapter, hid⟩ :=
    buildIndex_spec manifest sources numbering indexed hmem
  exact ⟨chapter, hchapter, (hitself.sections entry (ChapterSections.mem_of_get? hget).1).trans hid⟩

theorem chapterId_of_findEquation? {current identifier : String} {entry : EquationEntry}
    (h : (buildIndex manifest sources numbering).findEquation? current identifier = some entry) :
    ∃ chapter ∈ manifest.chapters, entry.chapterId = chapter.id := by
  obtain ⟨indexed, hmem, hget⟩ := exists_of_findEquation? h
  obtain ⟨hitself, chapter, hchapter, hid⟩ :=
    buildIndex_spec manifest sources numbering indexed hmem
  exact ⟨chapter, hchapter, (hitself.equations entry (List.mem_of_find?_eq_some hget)).trans hid⟩

end Index
end CrossRef
