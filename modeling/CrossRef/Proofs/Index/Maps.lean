import CrossRef.Proofs.Index.History
import Mathlib.Tactic.Linarith

/-!
The index in three parts: the ids of the chapters in the order in which they came, and a map to the sections
and one to the equations of each. However chapters are put in, the parts stay in step, and they answer as the
list of chapters does.
-/
namespace CrossRef
namespace Index

structure IndexMaps where
  order : List String
  sections : Std.HashMap String ChapterSections
  equations : Std.HashMap String ChapterEquations

namespace IndexMaps

def empty : IndexMaps := ⟨[], ∅, ∅⟩

/-- Put in a chapter. One that is there already keeps its place and gets new entries. -/
def insert (maps : IndexMaps) (id : String) (sections : ChapterSections)
    (equations : ChapterEquations) : IndexMaps where
  order := if maps.sections.contains id then maps.order else maps.order ++ [id]
  sections := maps.sections.insert id sections
  equations := maps.equations.insert id equations

/-- The chapters to search on behalf of one: itself, known or not, and then the others. -/
def searchOrder (maps : IndexMaps) (current : String) : List String :=
  current :: maps.order.filter (· ≠ current)

def findSection? (maps : IndexMaps) (current identifier : String) : Option SectionEntry :=
  (maps.searchOrder current).findSome? fun id => do (← maps.sections[id]?).get? identifier

def findEquation? (maps : IndexMaps) (current identifier : String) : Option EquationEntry :=
  (maps.searchOrder current).findSome? fun id => do (← maps.equations[id]?).get? identifier

def totalHeadings (maps : IndexMaps) : Nat :=
  (maps.sections.toList.map fun entry => entry.2.headings.length).sum

def totalEquations (maps : IndexMaps) : Nat :=
  (maps.equations.toList.map fun entry => entry.2.size).sum

/-- The maps after chapters were put in one after the other. -/
def ofHistory (history : List IndexedChapter) : IndexMaps :=
  history.foldl (fun maps new => maps.insert new.id new.sections new.equations) empty

/-- The parts hold what the list of chapters holds. -/
structure Stores (maps : IndexMaps) (index : DocumentIndex) : Prop where
  order : maps.order = index.chapterIds
  sections : ∀ id, maps.sections[id]? = index.sections? id
  equations : ∀ id, maps.equations[id]? = index.equations? id

variable {maps : IndexMaps} {index : DocumentIndex}

/-! ### Insertion -/

namespace Stores

theorem contains (h : maps.Stores index) (id : String) :
    maps.sections.contains id ↔ id ∈ index.chapterIds := by
  rw [Std.HashMap.contains_eq_isSome_getElem?, h.sections, DocumentIndex.sections?, Option.isSome_map,
    DocumentIndex.chapter?_isSome_iff]

theorem insert (h : maps.Stores index) (id : String) (sections : ChapterSections)
    (equations : ChapterEquations) :
    (maps.insert id sections equations).Stores (index.insert id sections equations) := by
  refine ⟨?_, fun other => ?_, fun other => ?_⟩
  · rw [IndexMaps.insert, DocumentIndex.chapterIds_insert, h.order]
    simp only [h.contains id]
  · rw [IndexMaps.insert, Std.HashMap.getElem?_insert, h.sections, DocumentIndex.sections?,
      DocumentIndex.sections?, DocumentIndex.chapter?_insert]
    by_cases hid : id = other
    · simp [hid]
    · simp [hid, Ne.symm hid]
  · rw [IndexMaps.insert, Std.HashMap.getElem?_insert, h.equations, DocumentIndex.equations?,
      DocumentIndex.equations?, DocumentIndex.chapter?_insert]
    by_cases hid : id = other
    · simp [hid]
    · simp [hid, Ne.symm hid]

end Stores

theorem stores_ofHistory (history : List IndexedChapter) :
    (ofHistory history).Stores (.ofHistory history) := by
  induction history using List.reverseRecOn with
  | nil => exact ⟨rfl, fun id => by simp [ofHistory, empty, DocumentIndex.ofHistory]; rfl,
      fun id => by simp [ofHistory, empty, DocumentIndex.ofHistory]; rfl⟩
  | append_singleton earlier new ih =>
    rw [DocumentIndex.ofHistory_concat, ofHistory, List.foldl_concat]
    exact ih.insert new.id new.sections new.equations

/-! ### Answers -/

/-- A map whose keys are listed once each, summed in any order. -/
theorem sum_toList {α : Type} {entries : Std.HashMap String α} {ids : List String} (hnodup : ids.Nodup)
    (hids : ∀ id, id ∈ ids ↔ (entries[id]?).isSome) (count : α → Nat) :
    (entries.toList.map fun entry => count entry.2).sum =
      (ids.map fun id => (entries[id]?).elim 0 count).sum := by
  have hkeys : (entries.toList.map Prod.fst).Perm ids := by
    rw [Std.HashMap.map_fst_toList_eq_keys]
    refine (List.perm_ext_iff_of_nodup Std.HashMap.nodup_keys hnodup).mpr fun id => ?_
    rw [Std.HashMap.mem_keys, hids, Std.HashMap.mem_iff_isSome_getElem?]
  have hcounts : (entries.toList.map fun entry => count entry.2) =
      (entries.toList.map Prod.fst).map fun id => (entries[id]?).elim 0 count := by
    rw [List.map_map]
    refine List.map_congr_left fun entry hentry => ?_
    rw [Function.comp_apply, Std.HashMap.mem_toList_iff_getElem?_eq_some.mp hentry]
    rfl
  rw [hcounts]
  exact (hkeys.map _).sum_nat

/-- What is looked up for each of the ids to search is looked up in each of the chapters to search. -/
theorem findSome?_searchOrder {β : Type} (horder : maps.order = index.chapterIds)
    (hnodup : index.chapterIds.Nodup) (current : String) (answer? : IndexedChapter → Option β) :
    (maps.searchOrder current).findSome? (fun id => (index.chapter? id).bind answer?) =
      (index.searchOrder current).findSome? answer? := by
  have hothers : (maps.order.filter (· ≠ current)).findSome?
      (fun id => (index.chapter? id).bind answer?) =
        (index.chapters.filter fun chapter => chapter.id ≠ current).findSome? answer? := by
    rw [horder, DocumentIndex.chapterIds, List.filter_map, List.findSome?_map, ← List.head?_filterMap,
      ← List.head?_filterMap]
    refine congrArg List.head? (List.filterMap_congr fun chapter hmem => ?_)
    rw [Function.comp_apply, DocumentIndex.chapter?_of_mem hnodup (List.mem_filter.mp hmem).1,
      Option.bind_some]
  rw [searchOrder, List.findSome?_cons, hothers, DocumentIndex.searchOrder, List.findSome?_append]
  cases index.chapter? current with
  | none => rfl
  | some chapter => cases hanswer : answer? chapter <;> simp [hanswer]

/-- In step with each other, the parts answer as the list of chapters does. -/
structure Answers (maps : IndexMaps) (index : DocumentIndex) : Prop where
  sections : ∀ id, id ∈ maps.order ↔ maps.sections.contains id
  equations : ∀ id, id ∈ maps.order ↔ maps.equations.contains id
  nodup : maps.order.Nodup
  contains : ∀ id, maps.sections.contains id = index.contains id
  findSection? : ∀ current identifier,
    maps.findSection? current identifier = index.findSection? current identifier
  findEquation? : ∀ current identifier,
    maps.findEquation? current identifier = index.findEquation? current identifier
  totalHeadings : maps.totalHeadings = index.totalHeadings
  totalEquations : maps.totalEquations = index.totalEquations

theorem Stores.answers (h : maps.Stores index) (hnodup : index.chapterIds.Nodup) :
    maps.Answers index := by
  have hsections : ∀ id, id ∈ index.chapterIds ↔ (maps.sections[id]?).isSome := fun id => by
    rw [h.sections, DocumentIndex.sections?, Option.isSome_map, DocumentIndex.chapter?_isSome_iff]
  have hequations : ∀ id, id ∈ index.chapterIds ↔ (maps.equations[id]?).isSome := fun id => by
    rw [h.equations, DocumentIndex.equations?, Option.isSome_map, DocumentIndex.chapter?_isSome_iff]
  refine ⟨fun id => ?_, fun id => ?_, h.order ▸ hnodup, fun id => ?_, fun current identifier => ?_,
    fun current identifier => ?_, ?_, ?_⟩
  · rw [h.order, hsections, Std.HashMap.contains_eq_isSome_getElem?]
  · rw [h.order, hequations, Std.HashMap.contains_eq_isSome_getElem?]
  · rw [Bool.eq_iff_iff, h.contains, DocumentIndex.contains, DocumentIndex.chapter?_isSome_iff]
  · rw [DocumentIndex.findSection?, ← findSome?_searchOrder h.order hnodup]
    simp only [findSection?, h.sections, DocumentIndex.sections?, Option.bind_eq_bind, Option.bind_map,
      Function.comp_def]
  · rw [DocumentIndex.findEquation?, ← findSome?_searchOrder h.order hnodup]
    simp only [findEquation?, h.equations, DocumentIndex.equations?, Option.bind_eq_bind, Option.bind_map,
      Function.comp_def]
  · rw [totalHeadings, sum_toList hnodup hsections (·.headings.length), DocumentIndex.totalHeadings,
      DocumentIndex.foldl_add_eq_sum hnodup]
    simp only [h.sections, DocumentIndex.sections?, Option.elim_map, Function.comp_def]
  · rw [totalEquations, sum_toList hnodup hequations, DocumentIndex.totalEquations,
      DocumentIndex.foldl_add_eq_sum hnodup]
    simp only [h.equations, DocumentIndex.equations?, Option.elim_map, Function.comp_def]

/-- Whatever is put in, new chapters and old ones in any order, the parts answer as the list does. -/
theorem answers_ofHistory (history : List IndexedChapter) :
    (ofHistory history).Answers (.ofHistory history) :=
  (stores_ofHistory history).answers (DocumentIndex.nodup_chapterIds_ofHistory history)

end IndexMaps
end Index
end CrossRef
