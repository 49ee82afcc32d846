import CrossRef.Pass.Reference
import CrossRef.Proofs.Text.Word
import Mathlib.Data.String.Basic

/-!
The text of a link to a chapter. A text that is a name of the chapter and nothing else becomes what the
chapter is shown as. In another text this takes the place of the first name that stands there as a word,
and of the names that start at one place it is the longest.
-/
namespace CrossRef
namespace Pass

open Text

variable {chapter : Chapter} {reference name text : String}

/-! ### The names of a chapter -/

/-- The names that stand for a chapter in the text of a link: the reference that the link has, the id
and the other name. -/
def IsNameOf (chapter : Chapter) (reference name : String) : Prop :=
  name ≠ "" ∧ (name = reference ∨ name = chapter.id ∨ chapter.refId = some name)

theorem sublist_dropRepeats (names : List String) : (dropRepeats names).Sublist names := by
  fun_induction dropRepeats names with
  | case1 => exact .slnil
  | case2 s => exact .refl [s]
  | case3 s rest ih => exact ih.cons s
  | case4 s t rest hne ih => exact ih.cons_cons s

theorem mem_dropRepeats {names : List String} : name ∈ dropRepeats names ↔ name ∈ names := by
  fun_induction dropRepeats names with
  | case1 => rfl
  | case2 s => rfl
  | case3 s rest ih => simp [ih]
  | case4 s t rest hne ih => simp [ih]

theorem mem_chapterNames_iff :
    name ∈ chapterNames reference chapter ↔ IsNameOf chapter reference name := by
  simp only [chapterNames, mem_dropRepeats, List.mem_mergeSort, List.mem_filter, List.mem_cons,
    Option.mem_toList, IsNameOf, ne_eq, decide_not, Bool.not_eq_true', decide_eq_false_iff_not]
  exact and_comm

/-- Longer names come first, and equally long ones in their order. -/
theorem nameBefore_iff {s t : String} :
    nameBefore s t ↔ t.utf8ByteSize < s.utf8ByteSize ∨ s.utf8ByteSize = t.utf8ByteSize ∧ s ≤ t := by
  simp [nameBefore]

theorem nameBefore_trans {s t u : String} (hst : nameBefore s t) (htu : nameBefore t u) :
    nameBefore s u := by
  rw [nameBefore_iff] at *
  rcases hst with hst | ⟨hst, hle⟩
  · rcases htu with htu | ⟨htu, -⟩ <;> omega
  · rcases htu with htu | ⟨htu, hle'⟩
    · omega
    · exact .inr ⟨hst.trans htu, hle.trans hle'⟩

theorem nameBefore_total (s t : String) : (nameBefore s t || nameBefore t s) = true := by
  rw [Bool.or_eq_true, nameBefore_iff, nameBefore_iff]
  rcases Nat.lt_trichotomy s.utf8ByteSize t.utf8ByteSize with h | h | h
  · exact .inr (.inl h)
  · exact (le_total s t).imp (fun hle => .inr ⟨h, hle⟩) fun hle => .inr ⟨h.symm, hle⟩
  · exact .inl (.inl h)

theorem nameBefore_antisymm {s t : String} (hst : nameBefore s t) (hts : nameBefore t s) : s = t := by
  rw [nameBefore_iff] at *
  rcases hst with hst | ⟨hst, hle⟩
  · rcases hts with hts | ⟨hts, -⟩ <;> omega
  · rcases hts with hts | ⟨-, hle'⟩
    · omega
    · exact le_antisymm hle hle'

theorem pairwise_chapterNames (reference : String) (chapter : Chapter) :
    (chapterNames reference chapter).Pairwise fun s t => nameBefore s t := by
  have hsorted := List.pairwise_mergeSort
    (fun s t u (hst : nameBefore s t) (htu : nameBefore t u) => nameBefore_trans hst htu)
    nameBefore_total ((reference :: chapter.id :: chapter.refId.toList).filter (· ≠ ""))
  exact hsorted.sublist (sublist_dropRepeats _)

/-! ### Names in a text -/

/-- The text is a name of the chapter and nothing else, apart from case and blanks around it. -/
def IsBareName (chapter : Chapter) (reference text : String) : Prop :=
  ∃ name, IsNameOf chapter reference name ∧ lowercase name = lowercase (trim text)

/-- In the text a name of the chapter stands as a word between `before` and `after`. -/
structure Mentions (chapter : Chapter) (reference text name before found after : String) : Prop where
  isName : IsNameOf chapter reference name
  text_eq : text = before ++ found ++ after
  isWord : IsWord name.toList before.toList found.toList after.toList

/-- No name stands further ahead in the text, and of those that start here none is longer, or equally
long and smaller. -/
structure MentionsFirst (chapter : Chapter) (reference text name before found after : String) : Prop
    extends Mentions chapter reference text name before found after where
  first : ∀ {name' before' found' after' : String},
    Mentions chapter reference text name' before' found' after' → before.length ≤ before'.length
  longest : ∀ {name' found' after' : String},
    Mentions chapter reference text name' before found' after' →
      name'.utf8ByteSize < name.utf8ByteSize ∨
        name.utf8ByteSize = name'.utf8ByteSize ∧ name ≤ name'

theorem Mentions.isWordHere {before found after : String}
    (h : Mentions chapter reference text name before found after) :
    text.toList = before.toList ++ (found.toList ++ after.toList) ∧
      isWordHere before.toList.getLast? name.toList (found.toList ++ after.toList) := by
  refine ⟨?_, isWordHere_iff.mpr ⟨_, _, rfl, h.isWord⟩⟩
  rw [h.text_eq, String.toList_append, String.toList_append, List.append_assoc]

theorem Mentions.not_noWord {before found after : String}
    (h : Mentions chapter reference text name before found after) :
    ¬ NoWord ((chapterNames reference chapter).map String.toList) before.toList
      (found.toList ++ after.toList) := fun hno => by
  have hmem := List.mem_map_of_mem (f := String.toList) (mem_chapterNames_iff.mpr h.isName)
  simpa [hno _ hmem] using h.isWordHere.2

/-- There is at most one first place and one name that counts there. -/
theorem MentionsFirst.unique {name' before found after before' found' after' : String}
    (h : MentionsFirst chapter reference text name before found after)
    (h' : MentionsFirst chapter reference text name' before' found' after') :
    before = before' ∧ found = found' ∧ after = after' := by
  have hlength := le_antisymm (h.first h'.toMentions) (h'.first h.toMentions)
  have htext := h.isWordHere.1.symm.trans h'.isWordHere.1
  obtain ⟨hbefore, hrest⟩ := List.append_inj htext
    (by rw [String.length_toList, String.length_toList, hlength])
  obtain rfl := String.toList_injective hbefore
  obtain rfl := nameBefore_antisymm (nameBefore_iff.mpr (h.longest h'.toMentions))
    (nameBefore_iff.mpr (h'.longest h.toMentions))
  obtain ⟨hfound, hafter⟩ := List.append_inj hrest (h.isWord.length_eq.trans h'.isWord.length_eq.symm)
  exact ⟨rfl, String.toList_injective hfound, String.toList_injective hafter⟩

/-- The search for the names of a chapter finds the first place where one stands as a word, and the
longest name there. -/
theorem cutAtWord?_chapterNames (chapter : Chapter) (reference text : String) :
    (cutAtWord? (chapterNames reference chapter) text = none ∧
      ∀ name before found after, ¬ Mentions chapter reference text name before found after) ∨
    ∃ name before found after, MentionsFirst chapter reference text name before found after ∧
      cutAtWord? (chapterNames reference chapter) text =
        some ⟨before.toList, found.toList, after.toList⟩ := by
  rcases cutFrom_cases ((chapterNames reference chapter).map String.toList) [] text.toList with
    ⟨hnone, hno⟩ | ⟨p, q, token, htext, hfind, hfirst, hcut⟩
  · refine .inl ⟨hnone, fun name before found after h => h.not_noWord ?_⟩
    exact hno _ _ h.isWordHere.1
  · rw [List.reverse_nil, List.nil_append] at hfind hcut
    obtain ⟨name, hname, rfl⟩ := Option.map_eq_some_iff.mp (List.find?_map ▸ hfind)
    obtain ⟨hhere, earlier, later, hnames, hearlier⟩ := List.find?_eq_some_iff_append.mp hname
    obtain ⟨found, after, rfl, hword⟩ := isWordHere_iff.mp hhere
    have hmem : name ∈ chapterNames reference chapter := by simp [hnames]
    refine .inr ⟨name, String.ofList p, String.ofList found, String.ofList after, ⟨⟨?_, ?_, ?_⟩, ?_, ?_⟩,
      ?_⟩
    · exact mem_chapterNames_iff.mp hmem
    · exact String.toList_injective (by simpa using htext)
    · simpa using hword
    · intro name' before' found' after' h
      by_contra hlt
      exact h.not_noWord (hfirst _ _ h.isWordHere.1 (by simpa using hlt))
    · intro name' found' after' h
      obtain ⟨htext', hhere'⟩ := h.isWordHere
      rw [htext, String.toList_ofList] at htext'
      rw [← List.append_cancel_left htext', String.toList_ofList] at hhere'
      -- a name that stands here too comes later in the list
      have hmem' := mem_chapterNames_iff.mpr h.isName
      rw [hnames, List.mem_append, List.mem_cons] at hmem'
      have hsorted := pairwise_chapterNames reference chapter
      rw [hnames] at hsorted
      rcases hmem' with hbefore | rfl | hafter
      · simpa [hhere'] using hearlier _ hbefore
      · exact .inr ⟨rfl, le_rfl⟩
      · exact nameBefore_iff.mp ((List.pairwise_cons.mp (List.pairwise_append.mp hsorted).2.1).1 _ hafter)
    · rw [cutAtWord?, hcut, cutAtStart, List.take_left' hword.length_eq,
        List.drop_left' hword.length_eq]
      simp

/-! ### The text of a link -/

theorem chapterText_of_isBareName (h : IsBareName chapter reference text) :
    chapterText text reference chapter = some (chapterName chapter) := by
  obtain ⟨name, hname, hbare⟩ := h
  have hany : ((chapterNames reference chapter).any fun name =>
      lowercase name = lowercase (trim text)) = true :=
    List.any_eq_true.mpr ⟨name, mem_chapterNames_iff.mpr hname, by simpa using hbare⟩
  simp only [chapterText, hany, if_true]

/-- A name is known again whatever the case of its letters, and of letters beyond ASCII too. -/
example : lowercase (trim " ÉØ-2 ") = lowercase "éø-2" := by decide +kernel

theorem chapterText_of_not_isBareName (hname : ∃ name, IsNameOf chapter reference name)
    (h : ¬ IsBareName chapter reference text) :
    chapterText text reference chapter =
      (cutAtWord? (chapterNames reference chapter) text).map fun cut =>
        String.ofList (cut.before ++ (chapterName chapter).toList ++ cut.after) := by
  have hany : ((chapterNames reference chapter).any fun name =>
      lowercase name = lowercase (trim text)) = false := by
    rw [List.any_eq_false]
    intro name hmem hbare
    exact h ⟨name, mem_chapterNames_iff.mp hmem, by simpa using hbare⟩
  have hsome : (chapterNames reference chapter).isEmpty = false := by
    obtain ⟨name, hname⟩ := hname
    rw [List.isEmpty_eq_false_iff_exists_mem]
    exact ⟨name, mem_chapterNames_iff.mpr hname⟩
  simp only [chapterText, hany, hsome, Bool.false_eq_true, if_false]

/-- A link to a chapter that has a name. If its text is a name of the chapter and nothing else, the
new text is what the chapter is shown as: its number, or its title if it has none. If names stand in
the text as words, this takes the place of the first one, the longest where several start at one
place, and the text around it stays. Other texts do not change. -/
theorem chapterText_spec (chapter : Chapter) (reference text : String)
    (hname : ∃ name, IsNameOf chapter reference name) :
    let shown := (chapter.number.map ChapterNumber.shown).getD chapter.title
    (IsBareName chapter reference text → chapterText text reference chapter = some shown) ∧
    (¬ IsBareName chapter reference text →
      (∀ new, chapterText text reference chapter = some new ↔
        ∃ name before found after, MentionsFirst chapter reference text name before found after ∧
          new = before ++ shown ++ after) ∧
      (chapterText text reference chapter = none ↔
        ¬ ∃ name before found after, Mentions chapter reference text name before found after)) := by
  intro shown
  refine ⟨chapterText_of_isBareName, fun hbare => ?_⟩
  rw [chapterText_of_not_isBareName hname hbare]
  rcases cutAtWord?_chapterNames chapter reference text with
    ⟨hcut, hno⟩ | ⟨name, before, found, after, hfirst, hcut⟩
  · rw [hcut, Option.map_none]
    refine ⟨fun new => ⟨nofun, ?_⟩, fun _ ⟨name, before, found, after, h⟩ => hno _ _ _ _ h, fun _ => rfl⟩
    rintro ⟨name, before, found, after, h, -⟩
    exact absurd h.toMentions (hno name before found after)
  · have hnew : String.ofList (before.toList ++ (chapterName chapter).toList ++ after.toList) =
        before ++ shown ++ after :=
      String.toList_injective (by simp [shown, chapterName, Chapter.shownNumber?])
    rw [hcut, Option.map_some, hnew]
    refine ⟨fun new => ⟨fun h => ?_, ?_⟩, nofun, fun hno => ?_⟩
    · exact ⟨name, before, found, after, hfirst, (Option.some_inj.mp h).symm⟩
    · rintro ⟨name', before', found', after', hfirst', rfl⟩
      obtain ⟨rfl, -, rfl⟩ := hfirst.unique hfirst'
      rfl
    · exact absurd ⟨name, before, found, after, hfirst.toMentions⟩ hno

/-- Both names of the chapter stand at the first place, and the longer one is replaced by a label that looks
like the mark of a group. -/
theorem chapterText_of_longer_name :
    let chapter : Chapter := ⟨"ml", some (.label "$1"), "T", some "ml-pws", .chapters⟩
    (∃ name, IsNameOf chapter "ml" name) ∧
      chapterText "see ML-PWS, ml" "ml" chapter = some "see $1, ml" ∧
      ∃ name before found after,
        MentionsFirst chapter "ml" "see ML-PWS, ml" name before found after ∧
          "see $1, ml" = before ++ "$1" ++ after := by
  intro chapter
  have hname : ∃ name, IsNameOf chapter "ml" name := ⟨"ml", by decide, .inl rfl⟩
  have hbare : ¬ IsBareName chapter "ml" "see ML-PWS, ml" := by
    rintro ⟨name, ⟨-, rfl | rfl | hother⟩, hbare⟩
    · exact absurd hbare (by decide +kernel)
    · exact absurd hbare (by decide +kernel)
    · obtain rfl := Option.some_inj.mp hother
      exact absurd hbare (by decide +kernel)
  have hsorted : ["ml", "ml", "ml-pws"].mergeSort nameBefore = ["ml-pws", "ml", "ml"] := by
    have hsame : nameBefore "ml" "ml" = true := by decide +kernel
    have hlonger : nameBefore "ml" "ml-pws" = false := by decide +kernel
    simp [List.mergeSort, List.MergeSort.Internal.splitInTwo, hsame, hlonger]
  have hnames : chapterNames "ml" chapter = ["ml-pws", "ml"] := by
    simp [chapterNames, chapter, hsorted, dropRepeats]
  have htext : chapterText "see ML-PWS, ml" "ml" chapter = some "see $1, ml" := by
    rw [chapterText, hnames]
    decide +kernel
  exact ⟨hname, htext, (((chapterText_spec chapter "ml" "see ML-PWS, ml" hname).2 hbare).1 _).mp htext⟩

end Pass
end CrossRef
