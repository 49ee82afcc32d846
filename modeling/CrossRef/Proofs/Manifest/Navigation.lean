import CrossRef.Proofs.Manifest
import Mathlib.Data.List.Infix

/-!
The way from chapter to chapter. Chapters are looked up by their ids, and since these are distinct the
chapter before and the chapter after are those of the manifest's order.
-/
namespace CrossRef
namespace Manifest

variable {manifest : Manifest} {chapter c d : Chapter} {before after : List Chapter}

theorem neighboursFrom_of_not_mem {id : String} {chapters : List Chapter}
    (h : ∀ chapter ∈ chapters, chapter.id ≠ id) (previous : Option Chapter) :
    neighboursFrom id previous chapters = (none, none) := by
  induction chapters generalizing previous with
  | nil => rfl
  | cons chapter rest ih =>
    rw [List.forall_mem_cons] at h
    rw [neighboursFrom, if_neg h.1, ih h.2]

theorem neighboursFrom_append (h : ∀ passed ∈ before, passed.id ≠ chapter.id)
    (previous : Option Chapter) :
    neighboursFrom chapter.id previous (before ++ chapter :: after) =
      (before.getLast?.or previous, after.head?) := by
  induction before generalizing previous with
  | nil => simp [neighboursFrom]
  | cons first before ih =>
    rw [List.forall_mem_cons] at h
    rw [List.cons_append, neighboursFrom, if_neg h.1, ih h.2]
    cases before <;> simp [List.getLast?_cons]

section Distinct

variable (hdistinct : repeatedId? [] manifest.chapters = none)

include hdistinct

theorem nodup_ids : (manifest.chapters.map (·.id)).Nodup :=
  ((repeatedId?_eq_none_iff [] manifest.chapters).mp hdistinct).1

/-- The neighbours of a chapter are what stands next to it. -/
theorem neighbours_of_split (hsplit : manifest.chapters = before ++ chapter :: after) :
    manifest.neighbours chapter.id = (before.getLast?, after.head?) := by
  have hnodup := nodup_ids hdistinct
  rw [hsplit, List.map_append, List.map_cons] at hnodup
  have happart : ∀ passed ∈ before, passed.id ≠ chapter.id := fun passed hmem heq =>
    (List.nodup_append.mp hnodup).2.2 _ (List.mem_map_of_mem hmem) _ List.mem_cons_self heq
  rw [neighbours, hsplit, neighboursFrom_append happart, Option.or_none]

theorem next_eq_some_iff (hmem : c ∈ manifest.chapters) :
    (manifest.neighbours c.id).2 = some d ↔
      ∃ before after, manifest.chapters = before ++ c :: d :: after := by
  constructor
  · intro hnext
    obtain ⟨before, rest, hsplit⟩ := List.append_of_mem hmem
    rw [neighbours_of_split hdistinct hsplit] at hnext
    obtain ⟨after, rfl⟩ := List.head?_eq_some_iff.mp hnext
    exact ⟨before, after, hsplit⟩
  · rintro ⟨before, after, hsplit⟩
    rw [neighbours_of_split hdistinct hsplit]
    rfl

theorem previous_eq_some_iff (hmem : d ∈ manifest.chapters) :
    (manifest.neighbours d.id).1 = some c ↔
      ∃ before after, manifest.chapters = before ++ c :: d :: after := by
  constructor
  · intro hprevious
    obtain ⟨passed, after, hsplit⟩ := List.append_of_mem hmem
    rw [neighbours_of_split hdistinct hsplit] at hprevious
    obtain ⟨before, rfl⟩ := List.getLast?_eq_some_iff.mp hprevious
    exact ⟨before, after, by simpa using hsplit⟩
  · rintro ⟨before, after, hsplit⟩
    have hshifted : manifest.chapters = (before ++ [c]) ++ d :: after := by simpa using hsplit
    rw [neighbours_of_split hdistinct hshifted, List.getLast?_concat]

end Distinct

/-- The chapters that come one after the other when the way to the next one is taken, at most this many. -/
def onward (manifest : Manifest) : Nat → Option Chapter → List Chapter
  | 0, _ => []
  | _, none => []
  | count + 1, some chapter =>
    chapter :: manifest.onward count (manifest.neighbours chapter.id).2

/-- From any chapter on, the way leads through the rest of the manifest. -/
theorem onward_of_split (hdistinct : repeatedId? [] manifest.chapters = none)
    (hsplit : manifest.chapters = before ++ after) (count : Nat) :
    manifest.onward count after.head? = after.take count := by
  induction count generalizing before after with
  | zero => simp [onward]
  | succ count ih =>
    cases after with
    | nil => rfl
    | cons chapter after =>
      have hshifted : manifest.chapters = (before ++ [chapter]) ++ after := by simpa using hsplit
      rw [List.head?_cons, onward, neighbours_of_split hdistinct hsplit, ih hshifted,
        List.take_succ_cons]

/-- A manifest that is accepted is one chain of chapters: each is found under its id and has as neighbours
the chapters that stand next to it, and the way onward from the first chapter ends after leading
through all of them once. -/
theorem neighbours_chain {text : String} (h : read text = .ok manifest) :
    (∀ before chapter after, manifest.chapters = before ++ chapter :: after →
      manifest.findChapter? chapter.id = some chapter ∧
      manifest.neighbours chapter.id = (before.getLast?, after.head?)) ∧
    (∀ id, (∀ chapter ∈ manifest.chapters, chapter.id ≠ id) →
      manifest.neighbours id = (none, none)) ∧
    (∀ c ∈ manifest.chapters, ∀ d ∈ manifest.chapters,
      (manifest.neighbours c.id).2 = some d ↔ (manifest.neighbours d.id).1 = some c) ∧
    (∀ count, manifest.onward count manifest.chapters.head? = manifest.chapters.take count) ∧
    manifest.chapters.Nodup := by
  have hdistinct := repeatedId?_of_read h
  refine ⟨fun before chapter after hsplit => ?_, fun id hid => ?_, fun c hc d hd => ?_, ?_, ?_⟩
  · have hmem : chapter ∈ manifest.chapters := hsplit ▸ List.mem_append_right _ List.mem_cons_self
    exact ⟨findChapter?_of_mem hdistinct hmem, neighbours_of_split hdistinct hsplit⟩
  · exact neighboursFrom_of_not_mem hid none
  · rw [next_eq_some_iff hdistinct hc, previous_eq_some_iff hdistinct hd]
  · exact fun count => onward_of_split hdistinct (List.nil_append manifest.chapters).symm count
  · exact (nodup_ids hdistinct).of_map

/-- The chapter in the middle has the id of the first one as its other name, and the id of the last one is
empty. -/
theorem way_through_three_chapters :
    let text :=
      "\x7b\"chapters\":[[\"b\",null,\"\",null,\"\"],[\"a\",1,\"\",\"b\",\"\"],[\"\",null,\"\",null,\"\"]]\x7d"
    let first : Chapter := ⟨"b", none, "", none, .other⟩
    let middle : Chapter := ⟨"a", some (.ordinal 1), "", some "b", .other⟩
    let last : Chapter := ⟨"", none, "", none, .other⟩
    let manifest : Manifest := ⟨[first, middle, last]⟩
    read text = .ok manifest ∧ manifest.findChapter? "b" = some first ∧
      manifest.neighbours "b" = (none, some middle) ∧
      manifest.neighbours "a" = (some first, some last) ∧ manifest.neighbours "c" = (none, none) ∧
      manifest.onward 4 (some first) = [first, middle, last] := by
  intro text first middle last manifest
  have hread : read text = .ok manifest := by
    simp only [text, manifest, first, middle, last]
    decide +kernel
  obtain ⟨hchapter, hunknown, -, honward, -⟩ := neighbours_chain hread
  obtain ⟨hfind, hfirst⟩ := hchapter [] first [middle, last] rfl
  exact ⟨hread, hfind, hfirst, (hchapter [first] middle [last] rfl).2, hunknown "c" (by decide),
    honward 4⟩

end Manifest
end CrossRef
