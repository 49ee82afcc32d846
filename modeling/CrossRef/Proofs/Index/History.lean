import CrossRef.Proofs.Index.Lookup
import Mathlib.Algebra.GroupWithZero.Nat
import Mathlib.Data.List.Induction

/-!
The index after any history of insertions. It lists each chapter once, where it was first put in, and
holds what was put in last; look-ups and totals are those over this list.
-/
namespace CrossRef
namespace Index

namespace DocumentIndex

variable {index : DocumentIndex} {history : List IndexedChapter}

/-- The index after chapters were put in one after the other, new ones and old ones again. -/
def ofHistory (history : List IndexedChapter) : DocumentIndex :=
  history.foldl (fun index new => index.insert new.id new.sections new.equations) .empty

/-- What was put in last under an id. -/
def lastIn? (history : List IndexedChapter) (id : String) : Option IndexedChapter :=
  history.reverse.find? fun new => new.id = id

theorem ofHistory_concat (history : List IndexedChapter) (new : IndexedChapter) :
    ofHistory (history ++ [new]) = (ofHistory history).insert new.id new.sections new.equations := by
  simp [ofHistory]

/-! ### The list of chapters -/

/-- A chapter that is there stays in its place, and a new one comes last. -/
theorem chapterIds_insert (index : DocumentIndex) (id : String) (sections : ChapterSections)
    (equations : ChapterEquations) :
    (index.insert id sections equations).chapterIds =
      if id ∈ index.chapterIds then index.chapterIds else index.chapterIds ++ [id] := by
  obtain ⟨chapters⟩ := index
  induction chapters with
  | nil => simp [insert, chapterIds, insertInto]
  | cons chapter rest ih =>
    simp only [insert, chapterIds, insertInto] at ih ⊢
    by_cases hid : chapter.id = id
    · simp [hid]
    · rw [if_neg hid, List.map_cons, ih]
      by_cases hrest : id ∈ rest.map (·.id) <;> simp [hrest, Ne.symm hid]

theorem chapterIds_ofHistory (history : List IndexedChapter) :
    (ofHistory history).chapterIds = (history.map (·.id)).eraseDups := by
  induction history using List.reverseRecOn with
  | nil => rfl
  | append_singleton earlier new ih =>
    rw [ofHistory_concat, chapterIds_insert, ih, List.map_append, List.map_singleton,
      List.eraseDups_append]
    by_cases hold : new.id ∈ earlier.map (·.id)
    · rw [if_pos (List.mem_eraseDups.mpr hold), List.cons_removeAll, if_neg (by simpa using hold)]
      simp
    · rw [if_neg (mt List.mem_eraseDups.mp hold), List.cons_removeAll, if_pos (by simpa using hold)]
      simp [List.eraseDups_cons]

theorem nodup_chapterIds_ofHistory (history : List IndexedChapter) :
    (ofHistory history).chapterIds.Nodup := by
  induction history using List.reverseRecOn with
  | nil => exact List.nodup_nil
  | append_singleton earlier new ih =>
    rw [ofHistory_concat, chapterIds_insert]
    split_ifs with hold
    · exact ih
    · refine List.nodup_append.mpr ⟨ih, List.nodup_singleton _, fun id hid other hother heq => ?_⟩
      exact hold (List.mem_singleton.mp hother ▸ heq ▸ hid)

/-! ### What is held of a chapter -/

theorem chapter?_ofHistory (history : List IndexedChapter) (id : String) :
    (ofHistory history).chapter? id = lastIn? history id := by
  induction history using List.reverseRecOn with
  | nil => rfl
  | append_singleton earlier new ih =>
    rw [ofHistory_concat, chapter?_insert, ih, lastIn?, lastIn?, List.reverse_append,
      List.reverse_singleton, List.singleton_append, List.find?_cons]
    by_cases hid : id = new.id
    · simp [hid]
    · simp [hid, Ne.symm hid]

theorem chapter?_isSome_iff (index : DocumentIndex) (id : String) :
    (index.chapter? id).isSome ↔ id ∈ index.chapterIds := by
  simp [chapter?, chapterIds]

/-- In an index without repetitions every chapter is found under its id. -/
theorem chapter?_of_mem (hnodup : index.chapterIds.Nodup) {chapter : IndexedChapter}
    (hmem : chapter ∈ index.chapters) : index.chapter? chapter.id = some chapter := by
  obtain ⟨found, hfound⟩ := Option.isSome_iff_exists.mp
    ((chapter?_isSome_iff index chapter.id).mpr (List.mem_map_of_mem hmem))
  have hid : found.id = chapter.id := by simpa using List.find?_some hfound
  rw [hfound, List.inj_on_of_nodup_map hnodup (List.mem_of_find?_eq_some hfound) hmem hid]

/-! ### Totals -/

/-- A count over the chapters is a count over their ids. -/
theorem foldl_add_eq_sum (hnodup : index.chapterIds.Nodup) (count : IndexedChapter → Nat) :
    index.chapters.foldl (fun n chapter => n + count chapter) 0 =
      (index.chapterIds.map fun id => (index.chapter? id).elim 0 count).sum := by
  have hcounts : index.chapters.map count =
      index.chapters.map fun chapter => (index.chapter? chapter.id).elim 0 count :=
    List.map_congr_left fun chapter hmem => by rw [chapter?_of_mem hnodup hmem]; rfl
  rw [← List.foldl_map (f := count) (g := (· + ·)), ← List.sum_eq_foldl, hcounts, chapterIds,
    List.map_map]
  rfl

/-! ### Look-ups -/

/-- A search on behalf of a chapter tries that chapter and then all of them. -/
theorem findSome?_searchOrder {β : Type} (hnodup : index.chapterIds.Nodup) (current : String)
    (answer? : IndexedChapter → Option β) :
    (index.searchOrder current).findSome? answer? =
      ((index.chapter? current).bind answer?).or
        (index.chapterIds.findSome? fun id => (index.chapter? id).bind answer?) := by
  have hall : (index.chapterIds.findSome? fun id => (index.chapter? id).bind answer?) =
      index.chapters.findSome? answer? := by
    rw [chapterIds, List.findSome?_map, ← List.head?_filterMap, ← List.head?_filterMap]
    refine congrArg List.head? (List.filterMap_congr fun chapter hmem => ?_)
    rw [Function.comp_apply, chapter?_of_mem hnodup hmem, Option.bind_some]
  rw [hall, searchOrder, List.findSome?_append]
  cases hcurrent : (index.chapter? current).bind answer? with
  | some entry =>
    obtain ⟨chapter, hchapter, hentry⟩ := Option.bind_eq_some_iff.mp hcurrent
    simp [hchapter, hentry]
  | none =>
    have hfirst : (index.chapter? current).toList.findSome? answer? = none := by
      cases hchapter : index.chapter? current with
      | none => rfl
      | some chapter => simpa [hchapter] using hcurrent
    rw [hfirst, Option.none_or, Option.none_or]
    -- the chapter that was tried first has nothing to give among the others either
    refine findSome?_filter_of_ne fun chapter hmem hleft entry hentry => ?_
    have hid : chapter.id = current := by simpa using hleft
    rw [← hid, chapter?_of_mem hnodup hmem, Option.bind_some, hentry] at hcurrent
    simp at hcurrent

/-! ### The whole index -/

/-- What an index shows of the chapters that were put into it. -/
structure Reflects (index : DocumentIndex) (history : List IndexedChapter) : Prop where
  /-- Each chapter is listed once, in the order in which they first came. -/
  chapterIds : index.chapterIds = (history.map (·.id)).eraseDups
  nodup : index.chapterIds.Nodup
  /-- What came last is there, for the listed chapters and for no others. -/
  sections : ∀ id, index.sections? id = (lastIn? history id).map (·.sections) ∧
    ((index.sections? id).isSome ↔ id ∈ index.chapterIds)
  equations : ∀ id, index.equations? id = (lastIn? history id).map (·.equations) ∧
    ((index.equations? id).isSome ↔ id ∈ index.chapterIds)
  totalHeadings : index.totalHeadings =
    (index.chapterIds.map fun id => (index.sections? id).elim 0 (·.headings.length)).sum
  totalEquations : index.totalEquations =
    (index.chapterIds.map fun id => (index.equations? id).elim 0 (·.size)).sum
  /-- The chapter that asks comes first, and then all chapters as they are listed. -/
  findSection : ∀ current identifier, index.findSection? current identifier =
    ((index.sections? current).bind (·.get? identifier)).or
      (index.chapterIds.findSome? fun id => (index.sections? id).bind (·.get? identifier))
  findEquation : ∀ current identifier, index.findEquation? current identifier =
    ((index.equations? current).bind (·.get? identifier)).or
      (index.chapterIds.findSome? fun id => (index.equations? id).bind (·.get? identifier))

/-- Whatever is put in, new chapters and old ones in any order, the index reflects it. -/
theorem reflects_ofHistory (history : List IndexedChapter) :
    (ofHistory history).Reflects history := by
  have hnodup := nodup_chapterIds_ofHistory history
  refine ⟨chapterIds_ofHistory history, hnodup, fun id => ⟨?_, ?_⟩, fun id => ⟨?_, ?_⟩, ?_, ?_,
    fun current identifier => ?_, fun current identifier => ?_⟩
  · rw [sections?, chapter?_ofHistory]
  · rw [sections?, Option.isSome_map, chapter?_isSome_iff]
  · rw [equations?, chapter?_ofHistory]
  · rw [equations?, Option.isSome_map, chapter?_isSome_iff]
  · simp only [totalHeadings, foldl_add_eq_sum hnodup, sections?, Option.elim_map, Function.comp_def]
  · simp only [totalEquations, foldl_add_eq_sum hnodup, equations?, Option.elim_map, Function.comp_def]
  · simp only [findSection?, findSome?_searchOrder hnodup, sections?, Option.bind_map, Function.comp_def]
  · simp only [findEquation?, findSome?_searchOrder hnodup, equations?, Option.bind_map,
      Function.comp_def]

/-- A chapter that is put in again stays in its place and shows its new entries. -/
example :
    (ofHistory [⟨"a", .empty, ⟨[], 1⟩⟩, ⟨"b", .empty, ⟨[], 2⟩⟩, ⟨"a", .empty, ⟨[], 3⟩⟩]).chapters =
      [⟨"a", .empty, ⟨[], 3⟩⟩, ⟨"b", .empty, ⟨[], 2⟩⟩] := by decide

end DocumentIndex
end Index
end CrossRef
