import CrossRef.Manifest.Writer
import CrossRef.Proofs.Json.RoundTrip
import CrossRef.Proofs.Manifest

/-!
Manifests that are read as they were written: those whose ordinals have at most 64 bits and whose
chapter ids are distinct. Of the ids that are there twice, the reader names the first one.
-/
namespace CrossRef

open Json

/-! ### One chapter -/

theorem ChapterGroup.ofLabel_label (group : ChapterGroup) : ofLabel group.label = group := by
  cases group <;> rfl

/-- A label stays a label, also if it looks like a number. -/
theorem ChapterNumber.readOptional?_toJson {number : ChapterNumber}
    (h : ∀ n, number = .ordinal n → n < Nat.pow 2 64) :
    Manifest.readOptional? Manifest.readNumber? number.toJson = some (some number) := by
  cases number with
  | ordinal n => simp [toJson, Manifest.readOptional?, Manifest.readNumber?, h n rfl]
  | label text => rfl

theorem plain_optionalMember {name : String} {value? : Option Json} (h : ∀ value ∈ value?, value.Plain) :
    ∀ member ∈ optionalMember name value?, member.2.Plain := by
  cases value? with
  | none => simp [optionalMember]
  | some value => simpa [optionalMember] using h value rfl

namespace Chapter

variable {chapter : Chapter}

/-- The ordinal, if there is one, has at most 64 bits. -/
def HasShortOrdinal (chapter : Chapter) : Prop :=
  ∀ n, chapter.number = some (.ordinal n) → n < Nat.pow 2 64

theorem plain_toJson (chapter : Chapter) : chapter.toJson.Plain := by
  refine .object fun member hmember => ?_
  simp only [List.mem_append, List.mem_cons, List.not_mem_nil, or_false, or_assoc] at hmember
  rcases hmember with rfl | hmember | rfl | hmember | rfl
  · exact .text _
  · refine plain_optionalMember (fun value hvalue => ?_) member hmember
    obtain ⟨number, -, rfl⟩ := Option.map_eq_some_iff.mp hvalue
    cases number
    · exact .natural _
    · exact .text _
  · exact .text _
  · refine plain_optionalMember (fun value hvalue => ?_) member hmember
    obtain ⟨refId, -, rfl⟩ := Option.map_eq_some_iff.mp hvalue
    exact .text _
  · exact .text _

/-- A chapter is read from what is written for it, with and without the members that may be left
out. -/
theorem readChapter?_toJson (h : chapter.HasShortOrdinal) :
    Manifest.readChapter? chapter.toJson = some chapter := by
  obtain ⟨id, number, title, refId, group⟩ := chapter
  have hgroup := ChapterGroup.ofLabel_label group
  have hnumber : ∀ n, number = some n →
      Manifest.readOptional? Manifest.readNumber? n.toJson = some (some n) := fun n hn =>
    ChapterNumber.readOptional?_toJson fun k hk => h k (hn.trans (congrArg some hk))
  have hrefId : ∀ s, Manifest.readOptional? Manifest.readText? (.text s) = some (some s) :=
    fun s => rfl
  cases number <;> cases refId <;>
    simp [toJson, optionalMember, ofMembers_eq, Manifest.readChapter?, Manifest.allNamed,
      Manifest.field?, Manifest.readText?, Manifest.readGroup?, Manifest.chapterOf?,
      Manifest.Field.required, Manifest.Field.orElse, hgroup, hnumber, hrefId]

end Chapter

/-! ### The manifest -/

namespace Manifest

variable {manifest : Manifest}

theorem plain_toJson (manifest : Manifest) : manifest.toJson.Plain := by
  refine .object fun member hmember => ?_
  obtain rfl := List.mem_singleton.mp hmember
  refine .array fun item hitem => ?_
  obtain ⟨chapter, -, rfl⟩ := List.mem_map.mp hitem
  exact chapter.plain_toJson

theorem readRecord?_toJson (h : ∀ chapter ∈ manifest.chapters, chapter.HasShortOrdinal) :
    readRecord? manifest.toJson = some manifest := by
  obtain ⟨chapters⟩ := manifest
  have hread : readChapters? (.array (chapters.map (·.toJson))) = some chapters := by
    rw [readChapters?]
    induction chapters with
    | nil => rfl
    | cons chapter rest ih =>
      rw [List.map_cons, List.mapM_cons, Chapter.readChapter?_toJson (h chapter (by simp)),
        ih fun c hc => h c (by simp [hc])]
      rfl
  simp [toJson, ofMembers_eq, readRecord?, allNamed, field?, hread, Field.required]

/-- The first id that is there twice stands at the end of the longest part whose ids are distinct. -/
theorem exists_of_repeatedId? {seen : List String} {chapters : List Chapter} {id : String}
    (h : repeatedId? seen chapters = some id) :
    ∃ before chapter after, chapters = before ++ chapter :: after ∧ chapter.id = id ∧
      (before.map (·.id)).Nodup ∧ (∀ c ∈ before, c.id ∉ seen) ∧
      (id ∈ seen ∨ id ∈ before.map (·.id)) := by
  induction chapters generalizing seen with
  | nil => simp [repeatedId?] at h
  | cons first rest ih =>
    rw [repeatedId?] at h
    split_ifs at h with hseen
    · obtain rfl := Option.some_inj.mp h
      exact ⟨[], first, rest, rfl, rfl, by simp, by simp, .inl (by simpa using hseen)⟩
    · obtain ⟨before, chapter, after, rfl, hid, hnodup, hfresh, hrepeat⟩ := ih h
      refine ⟨first :: before, chapter, after, rfl, hid, ?_, ?_, ?_⟩
      · rw [List.map_cons, List.nodup_cons]
        refine ⟨fun hmem => ?_, hnodup⟩
        obtain ⟨c, hc, heq⟩ := List.mem_map.mp hmem
        exact hfresh c hc (heq ▸ List.mem_cons_self)
      · intro c hc hmem
        rcases List.mem_cons.mp hc with rfl | hc
        · exact hseen (by simpa using hmem)
        · exact hfresh c hc (List.mem_cons_of_mem _ hmem)
      · rw [List.map_cons, List.mem_cons]
        rcases hrepeat with hrepeat | hrepeat
        · exact (List.mem_cons.mp hrepeat).elim (.inr ∘ .inl) .inl
        · exact .inr (.inr hrepeat)

/-- A manifest with distinct chapter ids is read as it was written. Otherwise the reader names the id
of the first chapter that repeats an earlier one. -/
theorem read_write (h : ∀ chapter ∈ manifest.chapters, chapter.HasShortOrdinal) :
    ((manifest.chapters.map (·.id)).Nodup → read manifest.write = .ok manifest) ∧
    (¬ (manifest.chapters.map (·.id)).Nodup → ∃ before chapter after,
      manifest.chapters = before ++ chapter :: after ∧ (before.map (·.id)).Nodup ∧
      chapter.id ∈ before.map (·.id) ∧ read manifest.write = .error (.duplicateId chapter.id)) := by
  have hdistinct : repeatedId? [] manifest.chapters = none ↔ (manifest.chapters.map (·.id)).Nodup := by
    simpa using repeatedId?_eq_none_iff [] manifest.chapters
  have hread : read manifest.write = ofJson manifest.toJson := by
    rw [read, write, read?_compact manifest.plain_toJson]
  rw [hread, ofJson, readRecord?_toJson h, ← hdistinct]
  refine ⟨fun hnone => by simp only [hnone], fun hsome => ?_⟩
  obtain ⟨id, hid⟩ := Option.ne_none_iff_exists'.mp hsome
  obtain ⟨before, chapter, after, hchapters, rfl, hnodup, -, hrepeat⟩ := exists_of_repeatedId? hid
  exact ⟨before, chapter, after, hchapters, hnodup, hrepeat.resolve_left (by simp), by simp only [hid]⟩

/-- A label that looks like a number, an ordinal and texts that need escapes. -/
theorem read_write_of_label_like_number :
    let manifest : Manifest := ⟨[⟨"a", some (.label "2"), "A \"b\"\n", none, .other⟩,
      ⟨"b", some (.ordinal 18446744073709551615), "\\", some "", .appendix⟩]⟩
    (manifest.chapters.map (·.id)).Nodup ∧ read manifest.write = .ok manifest := by
  intro manifest
  have hshort : ∀ chapter ∈ manifest.chapters, chapter.HasShortOrdinal := by
    simp [manifest, Chapter.HasShortOrdinal]
  have hnodup : (manifest.chapters.map (·.id)).Nodup := by decide
  exact ⟨hnodup, (read_write hshort).1 hnodup⟩

end Manifest
end CrossRef
