import CrossRef.Manifest.Reader
import Mathlib.Data.List.Find
import Mathlib.Data.List.Nodup

/-!
Look-ups in a manifest whose chapter ids are distinct, as the reader demands.
-/
namespace CrossRef
namespace Manifest

theorem repeatedId?_eq_none_iff (seen : List String) (chapters : List Chapter) :
    repeatedId? seen chapters = none ↔
      (chapters.map (·.id)).Nodup ∧ ∀ chapter ∈ chapters, chapter.id ∉ seen := by
  induction chapters generalizing seen with
  | nil => simp [repeatedId?]
  | cons chapter rest ih =>
    rw [repeatedId?]
    by_cases hseen : chapter.id ∈ seen
    · simp [hseen]
    · rw [if_neg (by simpa using hseen), ih]
      simp only [List.map_cons, List.nodup_cons, List.mem_cons, List.mem_map, not_or,
        forall_eq_or_imp]
      constructor
      · rintro ⟨hnodup, hrest⟩
        exact ⟨⟨fun ⟨c, hc, heq⟩ => (hrest c hc).1 heq, hnodup⟩, hseen, fun c hc => (hrest c hc).2⟩
      · rintro ⟨⟨hfirst, hnodup⟩, -, hrest⟩
        exact ⟨hnodup, fun c hc => ⟨fun heq => hfirst ⟨c, hc, heq⟩, hrest c hc⟩⟩

/-- The reader accepts no manifest in which an id is there twice. -/
theorem repeatedId?_of_read {text : String} {manifest : Manifest} (h : read text = .ok manifest) :
    repeatedId? [] manifest.chapters = none := by
  unfold read ofJson at h
  split at h
  · split at h
    · cases h
    · split at h
      · cases h
      · next hnone => exact Except.ok.inj h ▸ hnone
  · cases h

variable {manifest manifest' : Manifest} {chapter : Chapter}

/-- Every chapter is found under its id. -/
theorem findChapter?_of_mem (hdistinct : repeatedId? [] manifest.chapters = none)
    (hmem : chapter ∈ manifest.chapters) : manifest.findChapter? chapter.id = some chapter := by
  have hnodup := ((repeatedId?_eq_none_iff [] manifest.chapters).mp hdistinct).1
  obtain ⟨chapters⟩ := manifest
  clear hdistinct
  rw [findChapter?]
  induction chapters with
  | nil => simp at hmem
  | cons first rest ih =>
    rw [List.map_cons, List.nodup_cons] at hnodup
    rcases List.mem_cons.mp hmem with rfl | hmem
    · simp
    · have hne : first.id ≠ chapter.id := fun heq =>
        hnodup.1 (heq ▸ List.mem_map_of_mem hmem)
      simpa [hne] using ih hmem hnodup.2

/-- Ids lead to the same chapters in every order. -/
theorem findChapter?_perm (hdistinct : repeatedId? [] manifest.chapters = none)
    (hperm : manifest.chapters.Perm manifest'.chapters) (id : String) :
    manifest'.findChapter? id = manifest.findChapter? id := by
  refine (List.find?_eq_find?_of_perm hperm fun c hc d hd => ?_).symm
  have hsame := findChapter?_of_mem hdistinct hc.1
  rw [of_decide_eq_true hc.2, ← of_decide_eq_true hd.2, findChapter?_of_mem hdistinct hd.1] at hsame
  exact (Option.some_inj.mp hsame).symm

/-- So do names that no two chapters answer to. -/
theorem findByReference?_perm
    (hunique : ∀ c ∈ manifest.chapters, ∀ d ∈ manifest.chapters, ∀ reference,
      c.answersTo reference → d.answersTo reference → c = d)
    (hperm : manifest.chapters.Perm manifest'.chapters) (reference : String) :
    manifest'.findByReference? reference = manifest.findByReference? reference :=
  (List.find?_eq_find?_of_perm hperm fun c hc d hd =>
    hunique c hc.1 d hd.1 reference hc.2 hd.2).symm

end Manifest
end CrossRef
