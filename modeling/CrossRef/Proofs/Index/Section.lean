import CrossRef.Proofs.Construction.Run
import CrossRef.Proofs.Index.SectionNumber
import Mathlib.Algebra.GroupWithZero.Nat

/-!
The sections of a chapter. An identifier leads to the first heading that has it, and a heading is listed
if it is the first one for some identifier. Every heading counts, listed or not.
-/
namespace CrossRef
namespace Index

open Markup Markup.Dom

variable {chapter : Chapter} {dom : Dom} {f : Fragment} {x : NodeId} {earlier later : List NodeId}
  {i : String}

/-! ### Identifiers without repetition -/

theorem untaken_eq (taken identifiers : List String) :
    untaken taken identifiers = (identifiers.filter (· ∉ taken)).eraseDups := by
  induction identifiers generalizing taken with
  | nil => rfl
  | cons first rest ih =>
    by_cases hfirst : first ∈ taken
    · simp [untaken, hfirst, ih]
    · have hrest : rest.filter (· ∉ taken ++ [first]) =
          (rest.filter (· ∉ taken)).filter fun i => !i == first := by
        rw [List.filter_filter]
        refine List.filter_congr fun i _ => ?_
        by_cases h : i = first <;> simp [h]
      rw [List.filter_cons_of_pos (by simpa using hfirst), List.eraseDups_cons, ← hrest, ← ih]
      simp [untaken, hfirst]

theorem eraseDups_of_nodup {identifiers : List String} (h : identifiers.Nodup) :
    identifiers.eraseDups = identifiers := by
  induction identifiers with
  | nil => rfl
  | cons first rest ih =>
    obtain ⟨hnot, hrest⟩ := List.nodup_cons.mp h
    have hothers : rest.filter (fun i => !i == first) = rest :=
      List.filter_eq_self.mpr fun i hi => by
        have hne : i ≠ first := fun heq => hnot (heq ▸ hi)
        simp [hne]
    rw [List.eraseDups_cons, hothers, ih hrest]

theorem untaken_of_nodup (taken : List String) {identifiers : List String}
    (h : identifiers.Nodup) : untaken taken identifiers = identifiers.filter (· ∉ taken) := by
  rw [untaken_eq, eraseDups_of_nodup (h.filter _)]

theorem foldl_addIdentifier (values found : List String) :
    values.foldl addIdentifier found = found ++ untaken found (values.filter (· ≠ "")) := by
  induction values generalizing found with
  | nil => simp [untaken]
  | cons value rest ih =>
    rw [List.foldl_cons, ih]
    by_cases hempty : value = ""
    · simp [addIdentifier, hempty]
    · rw [List.filter_cons_of_pos (by simpa using hempty)]
      by_cases hfound : value ∈ found <;> simp [addIdentifier, hempty, hfound, untaken]

theorem headingIdentifiers_eq (dom : Dom) (x : NodeId) :
    headingIdentifiers dom x =
      ((((dom.attributes (some x)).filter fun a => "id".toList.isPrefixOf a.name.label.toList).map
        fun a => Text.trim a.value).filter (· ≠ "")).eraseDups := by
  rw [headingIdentifiers, foldl_addIdentifier, untaken_eq]
  simp

theorem nodup_headingIdentifiers (dom : Dom) (x : NodeId) : (headingIdentifiers dom x).Nodup := by
  rw [headingIdentifiers, foldl_addIdentifier]
  exact nodup_untaken _ _

/-! ### What is said of each heading -/

/-- The headings of a chapter in document order. -/
def headingsOf (f : Fragment) : List NodeId :=
  ((f.dom.children (some f.root)).flatMap f.dom.preorder).filter fun x =>
    (headingLevel? f.dom x).isSome

def levelOf (dom : Dom) (x : NodeId) : Nat := (headingLevel? dom x).getD 0

/-- The identifiers of a heading that none of the headings before it has. -/
def freshIdentifiers (dom : Dom) (earlier : List NodeId) (x : NodeId) : List String :=
  (headingIdentifiers dom x).filter fun i => ∀ y ∈ earlier, i ∉ headingIdentifiers dom y

/-- The entry of a heading that comes after some. Its number counts all of them. -/
def entryAfter (chapter : Chapter) (dom : Dom) (earlier : List NodeId) (x : NodeId) :
    SectionEntry where
  identifiers := freshIdentifiers dom earlier x
  text := Text.trim (dom.textOf (some x))
  level := levelOf dom x
  chapterId := chapter.id
  chapterTitle := chapter.title
  number := dotted
    (((SectionCounter.zero.after (earlier.map (levelOf dom))).advance (levelOf dom x)).2.getD [])

/-- The entries of headings that come after some, one for each heading. -/
def entriesFrom (chapter : Chapter) (dom : Dom) : List NodeId → List NodeId → List SectionEntry
  | _, [] => []
  | earlier, x :: later =>
    entryAfter chapter dom earlier x :: entriesFrom chapter dom (earlier ++ [x]) later

theorem mem_freshIdentifiers_iff : i ∈ freshIdentifiers dom earlier x ↔
    i ∈ headingIdentifiers dom x ∧ ∀ y ∈ earlier, i ∉ headingIdentifiers dom y := by
  simp [freshIdentifiers]

theorem entriesFrom_append (chapter : Chapter) (dom : Dom) (before earlier later : List NodeId) :
    entriesFrom chapter dom before (earlier ++ later) =
      entriesFrom chapter dom before earlier ++
        entriesFrom chapter dom (before ++ earlier) later := by
  induction earlier generalizing before with
  | nil => simp [entriesFrom]
  | cons x rest ih => simp [entriesFrom, ih]

theorem exists_of_mem_entriesFrom {before : List NodeId} {entry : SectionEntry}
    (h : entry ∈ entriesFrom chapter dom before later) (hi : i ∈ entry.identifiers) :
    ∃ y ∈ later, i ∈ headingIdentifiers dom y := by
  induction later generalizing before with
  | nil => simp [entriesFrom] at h
  | cons x rest ih =>
    rcases List.mem_cons.mp h with rfl | hrest
    · exact ⟨x, by simp, (mem_freshIdentifiers_iff.mp hi).1⟩
    · obtain ⟨y, hy, hidentifier⟩ := ih hrest
      exact ⟨y, List.mem_cons_of_mem x hy, hidentifier⟩

/-! ### The index of headings -/

namespace ChapterSections

theorem identifiers_register (sections : ChapterSections) (entry : SectionEntry) :
    (sections.register entry).identifiers =
      sections.identifiers ++ untaken sections.identifiers entry.identifiers := by
  rw [identifiers, register, List.map_append, List.map_map]
  exact congrArg (_ ++ ·) (List.map_id _)

theorem headings_register (sections : ChapterSections) (entry : SectionEntry) :
    (sections.register entry).headings = sections.headings ++
      [{ entry with identifiers := untaken sections.identifiers entry.identifiers }].filter
        (·.identifiers ≠ []) := by
  by_cases hnone : untaken sections.identifiers entry.identifiers = [] <;> simp [register, hnone]

end ChapterSections

/-- The state of the index after some headings: every heading is counted, every identifier of theirs is
taken, and those with a fresh identifier are listed. -/
structure Describes (chapter : Chapter) (dom : Dom) (headings : List NodeId)
    (state : SectionCounter × ChapterSections) : Prop where
  counter : state.1 = SectionCounter.zero.after (headings.map (levelOf dom))
  taken : ∀ i, i ∈ state.2.identifiers ↔ ∃ y ∈ headings, i ∈ headingIdentifiers dom y
  listed : state.2.headings = (entriesFrom chapter dom [] headings).filter (·.identifiers ≠ [])

theorem headingLevel?_mem {level : Nat} (h : headingLevel? dom x = some level) :
    level ∈ [2, 3, 4] := by
  unfold headingLevel? at h
  split at h <;> simp_all

/-- The next heading keeps the index in this state. -/
theorem Describes.indexNode {state : SectionCounter × ChapterSections}
    (h : Describes chapter dom earlier state) (hx : (headingLevel? dom x).isSome) :
    Describes chapter dom (earlier ++ [x]) (indexNode chapter dom state x) := by
  obtain ⟨level, hlevel⟩ := Option.isSome_iff_exists.mp hx
  have hlevelOf : levelOf dom x = level := by rw [levelOf, hlevel, Option.getD_some]
  have hnumber := SectionCounter.advance_of_mem state.1 (headingLevel?_mem hlevel)
  -- what is taken are the identifiers of the headings so far
  have hkept : untaken state.2.identifiers (headingIdentifiers dom x) =
      freshIdentifiers dom earlier x := by
    rw [untaken_of_nodup _ (nodup_headingIdentifiers dom x), freshIdentifiers]
    refine List.filter_congr fun i _ => ?_
    simp [h.taken i]
  have hstate : Index.indexNode chapter dom state x =
      ((state.1.advance level).1, state.2.register { entryAfter chapter dom earlier x with
        identifiers := headingIdentifiers dom x }) := by
    simp only [Index.indexNode, hlevel, entryAfter, hlevelOf, ← h.counter]
    split
    · next hnone => simp [hnone] at hnumber
    · next heq => simp [heq]
  rw [hstate]
  refine ⟨?_, fun i => ?_, ?_⟩
  · rw [List.map_append, List.map_singleton, SectionCounter.after_concat, hlevelOf, ← h.counter]
  · rw [ChapterSections.identifiers_register, List.mem_append, h.taken, mem_untaken, h.taken]
    simp only [List.mem_append, List.mem_singleton, or_and_right, exists_or, exists_eq_left]
    by_cases htaken : ∃ y ∈ earlier, i ∈ headingIdentifiers dom y <;> simp [htaken]
  · rw [ChapterSections.headings_register, hkept, h.listed, entriesFrom_append, List.filter_append]
    rfl

theorem describes_foldl (chapter : Chapter) (dom : Dom) {headings : List NodeId}
    (h : ∀ x ∈ headings, (headingLevel? dom x).isSome) :
    Describes chapter dom headings (headings.foldl (indexNode chapter dom) (.zero, .empty)) := by
  induction headings using List.reverseRecOn with
  | nil => exact ⟨rfl, by simp [ChapterSections.identifiers, ChapterSections.empty], rfl⟩
  | append_singleton earlier x ih =>
    rw [List.foldl_append]
    exact (ih fun y hy => h y (List.mem_append_left _ hy)).indexNode (h x (by simp))

/-- Nodes that are no headings are passed over. -/
theorem sectionsOf_eq (h : f.WellFormed) (chapter : Chapter) :
    sectionsOf chapter f = ((headingsOf f).foldl (indexNode chapter f.dom) (.zero, .empty)).2 := by
  rw [sectionsOf, headingsOf, List.foldl_filter, h.dom.descendants_eq h.root]
  congr 2
  funext state x
  split
  · rfl
  · next hnone => simp [indexNode, Option.not_isSome_iff_eq_none.mp hnone]

theorem exists_describes (h : f.WellFormed) (chapter : Chapter) :
    ∃ state, Describes chapter f.dom (headingsOf f) state ∧ sectionsOf chapter f = state.2 :=
  ⟨_, describes_foldl chapter f.dom fun _ hx => (List.mem_filter.mp hx).2, sectionsOf_eq h chapter⟩

/-! ### Looking up an identifier -/

theorem exists_first {headings : List NodeId}
    (h : ∃ x ∈ headings, i ∈ headingIdentifiers dom x) :
    ∃ earlier x later, headings = earlier ++ x :: later ∧ i ∈ headingIdentifiers dom x ∧
      ∀ y ∈ earlier, i ∉ headingIdentifiers dom y := by
  have hsome : (headings.find? fun x => i ∈ headingIdentifiers dom x).isSome := by
    simpa using h
  obtain ⟨x, hx⟩ := Option.isSome_iff_exists.mp hsome
  obtain ⟨hidentifier, earlier, later, hsplit, hearlier⟩ := List.find?_eq_some_iff_append.mp hx
  exact ⟨earlier, x, later, hsplit, by simpa using hidentifier, fun y hy => by simpa using hearlier y hy⟩

theorem find?_listed (entries : List SectionEntry) (i : String) :
    (entries.filter (·.identifiers ≠ [])).find? (fun entry => entry.identifiers.contains i) =
      entries.find? fun entry => entry.identifiers.contains i := by
  rw [List.find?_filter]
  congr 1
  funext entry
  cases entry.identifiers <;> simp

/-- The identifier leads to the first heading that has it. -/
theorem find?_entriesFrom (chapter : Chapter) (hx : i ∈ headingIdentifiers dom x)
    (hearlier : ∀ y ∈ earlier, i ∉ headingIdentifiers dom y) :
    ((entriesFrom chapter dom [] (earlier ++ x :: later)).filter (·.identifiers ≠ [])).find?
        (fun entry => entry.identifiers.contains i) =
      some (entryAfter chapter dom earlier x) := by
  have hbefore : (entriesFrom chapter dom [] earlier).find?
      (fun entry => entry.identifiers.contains i) = none := by
    rw [List.find?_eq_none]
    intro entry hentry hi
    obtain ⟨y, hy, hidentifier⟩ := exists_of_mem_entriesFrom hentry (List.contains_iff_mem.mp hi)
    exact hearlier y hy hidentifier
  have hfresh : (entryAfter chapter dom earlier x).identifiers.contains i = true :=
    List.contains_iff_mem.mpr (mem_freshIdentifiers_iff.mpr ⟨hx, hearlier⟩)
  rw [find?_listed, entriesFrom_append, List.find?_append, hbefore, Option.none_or, List.nil_append,
    entriesFrom, List.find?_cons, hfresh]

namespace Describes

variable {headings : List NodeId} {state : SectionCounter × ChapterSections}

theorem get?_isSome_iff (h : Describes chapter dom headings state) (i : String) :
    (state.2.get? i).isSome ↔ ∃ x ∈ headings, i ∈ headingIdentifiers dom x := by
  rw [← h.taken, ChapterSections.identifiers_eq, ChapterSections.get?_eq_find?]
  simp

theorem get?_eq_some_iff (h : Describes chapter dom headings state) (i : String)
    (entry : SectionEntry) :
    state.2.get? i = some entry ↔ ∃ earlier x later, headings = earlier ++ x :: later ∧
      i ∈ headingIdentifiers dom x ∧ (∀ y ∈ earlier, i ∉ headingIdentifiers dom y) ∧
      entry = entryAfter chapter dom earlier x := by
  have hfirst : ∀ {earlier x later}, headings = earlier ++ x :: later →
      i ∈ headingIdentifiers dom x → (∀ y ∈ earlier, i ∉ headingIdentifiers dom y) →
      state.2.get? i = some (entryAfter chapter dom earlier x) := by
    rintro earlier x later hsplit hx hearlier
    rw [ChapterSections.get?_eq_find?, h.listed, hsplit, find?_entriesFrom chapter hx hearlier]
  constructor
  · intro hget
    obtain ⟨earlier, x, later, hsplit, hx, hearlier⟩ :=
      exists_first ((h.get?_isSome_iff i).mp (Option.isSome_of_eq_some hget))
    have hentry := hget.symm.trans (hfirst hsplit hx hearlier)
    exact ⟨earlier, x, later, hsplit, hx, hearlier, Option.some_inj.mp hentry⟩
  · rintro ⟨earlier, x, later, hsplit, hx, hearlier, rfl⟩
    exact hfirst hsplit hx hearlier

end Describes

theorem filter_eq_toList_find? {headings : List SectionEntry}
    (h : (headings.flatMap (·.identifiers)).Nodup) (i : String) :
    headings.filter (fun entry => entry.identifiers.contains i) =
      (headings.find? fun entry => entry.identifiers.contains i).toList := by
  induction headings with
  | nil => rfl
  | cons entry rest ih =>
    rw [List.flatMap_cons, List.nodup_append] at h
    obtain ⟨-, hrest, hapart⟩ := h
    by_cases hi : entry.identifiers.contains i
    · have hothers : rest.filter (fun entry => entry.identifiers.contains i) = [] := by
        rw [List.filter_eq_nil_iff]
        intro other hother hmem
        have hlater := List.mem_flatMap.mpr ⟨other, hother, List.contains_iff_mem.mp hmem⟩
        exact hapart i (List.contains_iff_mem.mp hi) i hlater rfl
      simp only [List.filter_cons, List.find?_cons, hi, hothers, if_true, Option.toList_some]
    · simpa only [List.filter_cons, List.find?_cons, hi, Bool.false_eq_true, if_false] using ih hrest

/-- Every identifier of a listed heading is listed there only. -/
theorem ChapterSections.filter_headings (sections : ChapterSections) (i : String) :
    sections.headings.filter (fun entry => entry.identifiers.contains i) =
      (sections.get? i).toList := by
  have hnodup := sections.nodup_identifiers
  rw [sections.positions_eq, fst_positionsOf] at hnodup
  rw [get?_eq_find?, filter_eq_toList_find? hnodup]

theorem ChapterSections.identifierCount_eq (sections : ChapterSections) :
    sections.identifierCount = (sections.headings.map (·.identifiers.length)).sum := by
  rw [← List.length_flatMap, ← sections.identifiers_eq, identifiers, List.length_map,
    identifierCount]

/-- The index of a chapter tells of each identifier that some heading has the first heading in document
order that has it, with the number that it gets when all headings up to it are counted. The headings
that are the first one for some identifier are listed in document order, each under those identifiers
in their order, and an identifier is listed under no other heading. -/
theorem sectionsOf_spec (h : f.WellFormed) (chapter : Chapter) :
    let sections := sectionsOf chapter f
    let headings := headingsOf f
    (∀ x, headingIdentifiers f.dom x =
      ((((f.dom.attributes (some x)).filter fun a => "id".toList.isPrefixOf a.name.label.toList).map
        fun a => Text.trim a.value).filter (· ≠ "")).eraseDups) ∧
    (∀ i, (sections.get? i).isSome ↔ ∃ x ∈ headings, i ∈ headingIdentifiers f.dom x) ∧
    (∀ i entry, sections.get? i = some entry ↔ ∃ earlier x later, headings = earlier ++ x :: later ∧
      i ∈ headingIdentifiers f.dom x ∧ (∀ y ∈ earlier, i ∉ headingIdentifiers f.dom y) ∧
      entry = entryAfter chapter f.dom earlier x) ∧
    sections.headings = (entriesFrom chapter f.dom [] headings).filter (·.identifiers ≠ []) ∧
    (∀ i, sections.headings.filter (fun entry => entry.identifiers.contains i) =
      (sections.get? i).toList) ∧
    sections.identifierCount = (sections.headings.map (·.identifiers.length)).sum := by
  intro sections headings
  obtain ⟨state, hstate, hsections⟩ := exists_describes h chapter
  have hsame : sections = state.2 := hsections
  rw [hsame]
  exact ⟨headingIdentifiers_eq f.dom, hstate.get?_isSome_iff, hstate.get?_eq_some_iff, hstate.listed,
    state.2.filter_headings, state.2.identifierCount_eq⟩

/-- The second heading shares an identifier with the first, the third has only identifiers that are
taken, and the fourth has none. -/
theorem sectionsOf_shared_identifiers :
    let made (dom : Dom) (content : Content) := (dom.create content).1.append (some 0) (some dom.size)
    let heading (label first second : String) : Content :=
      .element (.html label) [.plain "id" first, .plain "id-slug" second]
    let f : Fragment := ⟨made (made (made (made (made empty (heading "h2" "a" "")) (heading "h3" " a " "b"))
      (heading "h3" "b" "a")) (heading "h4" "" " ")) (heading "h3" "" "c"), 0⟩
    let chapter : Chapter := ⟨"d", none, "T", none, .chapters⟩
    let sections := sectionsOf chapter f
    f.WellFormed ∧ sections.get? "b" = some (entryAfter chapter f.dom [1] 2) ∧
      (sections.headings.map fun entry => (entry.number, entry.identifiers)) =
        [("1", ["a"]), ("1.1", ["b"]), ("1.3", ["c"])] := by
  intro made heading f chapter sections
  have hwf : f.WellFormed :=
    ⟨((((wellFormed_empty.append_create _ (p := 0) (by decide)).append_create _ (p := 0)
      (by decide)).append_create _ (p := 0) (by decide)).append_create _ (p := 0)
      (by decide)).append_create _ (p := 0) (by decide), by decide⟩
  have hb := ((sectionsOf_spec hwf chapter).2.2.1 "b" (entryAfter chapter f.dom [1] 2)).mpr
    ⟨[1], 2, [3, 4, 5], by decide +kernel, by decide +kernel, by decide +kernel, rfl⟩
  exact ⟨hwf, hb, by decide +kernel⟩

end Index
end CrossRef
