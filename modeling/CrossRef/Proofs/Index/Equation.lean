import CrossRef.Proofs.Pass.EquationNumbers
import CrossRef.Proofs.Text.Digit

/-!
The equations of a chapter. An identifier leads to the first equation that is known by it, and reports
list the equations in document order, in whatever order the index keeps them.
-/
namespace CrossRef
namespace Index

open Markup Markup.Dom Text

variable {chapter other : Chapter} {number number' : ChapterNumber} {f g : Fragment}
  {numbering numbering' : Numbering} {i i' : String} {k k' n : Nat}

/-! ### Numbers that are shown -/

theorem toList_equationNumber (number : ChapterNumber) (k : Nat) :
    (equationNumber number k).toList = number.shown.toList ++ '.' :: Nat.toDigits 10 k := by
  simp [equationNumber, ToString.toString, Nat.toList_repr]

/-- The last part of a number is the place, even if the number of the chapter has parts of its own. -/
theorem getLast?_cutAt_equationNumber (number : ChapterNumber) (k : Nat) :
    (cutAt '.' (equationNumber number k).toList).getLast? = some (Nat.toDigits 10 k) := by
  have hpoint : '.' ∉ Nat.toDigits 10 k := not_mem_toDigits (by decide) k
  rw [toList_equationNumber, cutAt_append, cutAt_of_not_mem hpoint, List.getLast?_concat]

theorem sequenceOf_equationNumber (number : ChapterNumber) (hk : k < UInt64.size) :
    sequenceOf (equationNumber number k) = k := by
  have hplus : (Nat.toDigits 10 k).head? ≠ some '+' := fun h =>
    not_mem_toDigits (by decide) k (List.mem_of_mem_head? h)
  have hdigits : (Nat.toDigits 10 k).all isAsciiDigit :=
    List.all_eq_true.mpr fun c => isAsciiDigit_of_mem_toDigits
  have hle : k ≤ lastPlace := by
    rw [lastPlace]
    exact Nat.le_sub_one_of_lt hk
  simp [sequenceOf, getLast?_cutAt_equationNumber, hplus, hdigits, Nat.toDigits_ne_nil,
    numeral_toDigits, hle]

theorem equationNumber_inj (h : equationNumber number k = equationNumber number' k') :
    number.shown = number'.shown ∧ k = k' := by
  have hlast := getLast?_cutAt_equationNumber number k
  rw [h, getLast?_cutAt_equationNumber] at hlast
  obtain rfl : k' = k := toDigits_injective (Option.some_inj.mp hlast)
  have hchars := congrArg String.toList h
  rw [toList_equationNumber, toList_equationNumber] at hchars
  exact ⟨String.toList_inj.mp (List.append_cancel_right hchars), rfl⟩

/-! ### Places -/

/-- The place of the first numbered equation that is known by an identifier, counted from one on. -/
def place? (f : Fragment) (numbering : Numbering) (identifier : String) : Option Nat :=
  ((numberedEquations f numbering).findIdx? fun x =>
    owningIdentifier? f.dom x = some identifier).map (· + 1)

/-- The entry of the equation at a place. -/
def entryAt (chapter : Chapter) (number : ChapterNumber) (identifier : String) (k : Nat) :
    EquationEntry :=
  ⟨identifier, equationNumber number k, chapter.id, number.shown⟩

theorem place?_isSome_iff : (place? f numbering i).isSome ↔
    ∃ x ∈ numberedEquations f numbering, owningIdentifier? f.dom x = some i := by
  simp [place?, List.findIdx?_isSome]

theorem place?_le_length (h : place? f numbering i = some k) :
    k ≤ (numberedEquations f numbering).length := by
  obtain ⟨n, hn, rfl⟩ := Option.map_eq_some_iff.mp h
  obtain ⟨hlt, -⟩ := List.findIdx?_eq_some_iff_getElem.mp hn
  exact hlt

/-- Two identifiers have different places, as an equation is known by one. -/
theorem place?_inj (h : place? f numbering i = some k) (h' : place? f numbering i' = some k) :
    i = i' := by
  obtain ⟨n, hn, rfl⟩ := Option.map_eq_some_iff.mp h
  obtain ⟨m, hm, heq⟩ := Option.map_eq_some_iff.mp h'
  obtain rfl : m = n := Nat.succ.inj heq
  obtain ⟨_, howner, _⟩ := List.findIdx?_eq_some_iff_getElem.mp hn
  obtain ⟨_, howner', _⟩ := List.findIdx?_eq_some_iff_getElem.mp hm
  exact Option.some_inj.mp ((of_decide_eq_true howner).symm.trans (of_decide_eq_true howner'))

theorem sequence_find?_scanFrom (dom : Dom) (n : Nat) (nodes : List NodeId) (i : String) :
    ((scanFrom dom n nodes).find? fun e => e.identifier = some i).map (·.sequence) =
      (nodes.findIdx? fun x => owningIdentifier? dom x = some i).map (· + n) := by
  induction nodes generalizing n with
  | nil => rfl
  | cons x rest ih =>
    by_cases hx : owningIdentifier? dom x = some i
    · simp [scanFrom, hx, List.findIdx?_cons]
    · have hrest := ih (n + 1)
      simp only [scanFrom, List.find?_cons, hx, List.findIdx?_cons, decide_false,
        Bool.false_eq_true, if_false, Option.map_map]
      rw [hrest]
      congr 1
      funext m
      simp only [Function.comp_apply]
      omega

/-- An identifier leads to the first equation that is known by it. -/
theorem get?_eq_place? (hnumber : chapter.number = some number) (f : Fragment)
    (numbering : Numbering) (i : String) :
    (equationsOf chapter f numbering).get? i =
      (place? f numbering i).map (entryAt chapter number i) := by
  have hplace : place? f numbering i =
      ((scanEquations f numbering).find? fun e => e.identifier = some i).map (·.sequence) :=
    (sequence_find?_scanFrom f.dom 1 (numberedEquations f numbering) i).symm
  rw [get?_equationsOf hnumber, hplace, Option.map_map]
  rfl

/-! ### The entries that are kept -/

/-- Entries of a chapter with places below a bound, each after those before it. -/
structure InOrder (number : ChapterNumber) (bound : Nat) (entries : List EquationEntry) : Prop where
  identifiers : (entries.map (·.identifier)).Nodup
  below : ∀ e ∈ entries, ∃ k < bound, e.number = equationNumber number k
  increasing : entries.Pairwise fun e e' => ∃ k k', e.number = equationNumber number k ∧
    e'.number = equationNumber number k' ∧ k < k'

theorem InOrder.register {entries : List EquationEntry} (h : InOrder number n entries)
    (chapter : Chapter) (x : NodeId) (identifier : Option String) :
    InOrder number (n + 1) (registerEquation chapter number entries ⟨x, n, identifier⟩) := by
  have hsame : InOrder number (n + 1) entries := by
    refine ⟨h.identifiers, fun e he => ?_, h.increasing⟩
    obtain ⟨k, hk, hnumber⟩ := h.below e he
    exact ⟨k, Nat.lt_succ_of_lt hk, hnumber⟩
  cases identifier with
  | none => exact hsame
  | some i =>
    simp only [registerEquation]
    split
    · exact hsame
    · next hfree =>
      refine ⟨?_, ?_, ?_⟩
      · rw [List.map_append, List.nodup_append]
        refine ⟨h.identifiers, by simp, ?_⟩
        rintro j hj j' hj' rfl
        obtain ⟨e, he, hidentifier⟩ := List.mem_map.mp hj
        have hnew : j = i := by simpa using hj'
        exact hfree (List.any_eq_true.mpr ⟨e, he, by simpa using hidentifier.trans hnew⟩)
      · intro e he
        rcases List.mem_append.mp he with hold | hnew
        · exact hsame.below e hold
        · rw [List.mem_singleton.mp hnew]
          exact ⟨n, Nat.lt_succ_self n, rfl⟩
      · rw [List.pairwise_append]
        refine ⟨h.increasing, List.pairwise_singleton _ _, fun e he e' he' => ?_⟩
        obtain ⟨k, hk, hnumber⟩ := h.below e he
        rw [List.mem_singleton.mp he']
        exact ⟨k, n, hnumber, rfl, hk⟩

theorem InOrder.foldl {entries : List EquationEntry} (h : InOrder number n entries)
    (chapter : Chapter) (dom : Dom) (nodes : List NodeId) :
    InOrder number (n + nodes.length)
      ((scanFrom dom n nodes).foldl (registerEquation chapter number) entries) := by
  induction nodes generalizing n entries with
  | nil => exact h
  | cons x rest ih =>
    have hrest := ih (h.register chapter x (owningIdentifier? dom x))
    rw [Nat.add_right_comm] at hrest
    exact hrest

theorem inOrder_equationsOf (hnumber : chapter.number = some number) (f : Fragment)
    (numbering : Numbering) :
    InOrder number (1 + (numberedEquations f numbering).length)
      (equationsOf chapter f numbering).entries := by
  have hempty : InOrder number 1 [] := ⟨.nil, by simp, .nil⟩
  have hentries : (equationsOf chapter f numbering).entries =
      (scanEquations f numbering).foldl (registerEquation chapter number) [] := by
    simp [equationsOf, hnumber]
  rw [hentries]
  exact hempty.foldl chapter f.dom (numberedEquations f numbering)

/-- What is kept is what is found. -/
theorem mem_entries_iff (hnumber : chapter.number = some number) (e : EquationEntry) :
    e ∈ (equationsOf chapter f numbering).entries ↔
      (equationsOf chapter f numbering).get? e.identifier = some e := by
  constructor
  · intro he
    have hfound : ((equationsOf chapter f numbering).get? e.identifier).isSome :=
      List.find?_isSome.mpr ⟨e, he, by simp⟩
    obtain ⟨e', he'⟩ := Option.isSome_iff_exists.mp hfound
    have hidentifier : e'.identifier = e.identifier := by simpa using List.find?_some he'
    have hsame := List.inj_on_of_nodup_map (inOrder_equationsOf hnumber f numbering).identifiers
      (List.mem_of_find?_eq_some he') he hidentifier
    rw [he', hsame]
  · exact List.mem_of_find?_eq_some

/-- Every entry that is kept is the one of its place. -/
theorem exists_place_of_mem (hnumber : chapter.number = some number) {e : EquationEntry}
    (he : e ∈ (equationsOf chapter f numbering).entries) :
    ∃ k, place? f numbering e.identifier = some k ∧ e = entryAt chapter number e.identifier k := by
  have hget := (mem_entries_iff hnumber e).mp he
  rw [get?_eq_place? hnumber] at hget
  obtain ⟨k, hplace, hentry⟩ := Option.map_eq_some_iff.mp hget
  exact ⟨k, hplace, hentry.symm⟩

theorem place_of_mem (hnumber : chapter.number = some number) {e : EquationEntry}
    (he : e ∈ (equationsOf chapter f numbering).entries) (hk : e.number = equationNumber number k) :
    place? f numbering e.identifier = some k := by
  obtain ⟨k', hplace, hentry⟩ := exists_place_of_mem hnumber he
  rw [hentry] at hk
  obtain ⟨-, rfl⟩ := equationNumber_inj hk
  exact hplace

/-- The equations are kept in document order. -/
theorem pairwise_entries (hnumber : chapter.number = some number) (f : Fragment)
    (numbering : Numbering) :
    (equationsOf chapter f numbering).entries.Pairwise fun e e' =>
      ∃ k k', place? f numbering e.identifier = some k ∧
        place? f numbering e'.identifier = some k' ∧ k < k' := by
  refine (inOrder_equationsOf hnumber f numbering).increasing.imp_of_mem ?_
  rintro e e' he he' ⟨k, k', hk, hk', hlt⟩
  exact ⟨k, k', place_of_mem hnumber he hk, place_of_mem hnumber he' hk', hlt⟩

/-! ### The order of reports -/

theorem sequenceOf_of_place (hnumber : chapter.number = some number)
    (hfew : (numberedEquations f numbering).length < UInt64.size) {e : EquationEntry}
    (he : e ∈ (equationsOf chapter f numbering).entries) :
    place? f numbering e.identifier = some (sequenceOf e.number) := by
  obtain ⟨k, hplace, hentry⟩ := exists_place_of_mem hnumber he
  have hk : k < UInt64.size := Nat.lt_of_le_of_lt (place?_le_length hplace) hfew
  have hsequence : sequenceOf e.number = k := by
    rw [hentry]
    exact sequenceOf_equationNumber number hk
  rw [hsequence, hplace]

theorem sortBySequence_perm (entries : List EquationEntry) : (sortBySequence entries).Perm entries :=
  List.mergeSort_perm entries _

theorem pairwise_sortBySequence (entries : List EquationEntry) :
    (sortBySequence entries).Pairwise fun e e' => sequenceOf e.number ≤ sequenceOf e'.number := by
  rw [sortBySequence]
  refine (List.pairwise_mergeSort (fun a b c hab hbc => ?_) (fun a b => ?_) entries).imp
    of_decide_eq_true
  · exact decide_eq_true (Nat.le_trans (of_decide_eq_true hab) (of_decide_eq_true hbc))
  · simpa using Nat.le_total (sequenceOf a.number) (sequenceOf b.number)

/-- In whatever order the entries are kept, they are listed in document order. -/
theorem sortBySequence_eq (hnumber : chapter.number = some number)
    (hfew : (numberedEquations f numbering).length < UInt64.size) {stored : List EquationEntry}
    (hstored : stored.Perm (equationsOf chapter f numbering).entries) :
    sortBySequence stored = (equationsOf chapter f numbering).entries := by
  have hperm := (sortBySequence_perm stored).trans hstored
  refine List.Perm.eq_of_pairwise ?_ (pairwise_sortBySequence stored) ?_ hperm
  · -- equal places are of one identifier
    intro e e' he he' hle hge
    have hplace := sequenceOf_of_place hnumber hfew (hperm.mem_iff.mp he)
    have hplace' := sequenceOf_of_place hnumber hfew he'
    rw [Nat.le_antisymm hle hge] at hplace
    exact List.inj_on_of_nodup_map (inOrder_equationsOf hnumber f numbering).identifiers
      (hperm.mem_iff.mp he) he' (place?_inj hplace hplace')
  · refine (pairwise_entries hnumber f numbering).imp_of_mem ?_
    rintro e e' he he' ⟨k, k', hk, hk', hlt⟩
    rw [sequenceOf_of_place hnumber hfew he, Option.some_inj] at hk
    rw [sequenceOf_of_place hnumber hfew he', Option.some_inj] at hk'
    omega

/-- Equal numbers are of equal places in chapters that show the same number. -/
theorem equal_numbers (hnumber : chapter.number = some number) {e e' : EquationEntry}
    (he : e ∈ (equationsOf chapter f numbering).entries)
    (he' : e' ∈ (equationsOf other g numbering').entries) (h : e.number = e'.number) :
    chapter.shownNumber? = other.shownNumber? ∧
      place? f numbering e.identifier = place? g numbering' e'.identifier := by
  cases hother : other.number with
  | none => simp [equationsOf, hother, ChapterEquations.empty] at he'
  | some number' =>
    obtain ⟨k, hk, hentry⟩ := exists_place_of_mem hnumber he
    obtain ⟨k', hk', hentry'⟩ := exists_place_of_mem hother he'
    rw [hentry, hentry'] at h
    obtain ⟨hshown, rfl⟩ := equationNumber_inj h
    exact ⟨by simp [Chapter.shownNumber?, hnumber, hother, hshown], hk.trans hk'.symm⟩

end Index
end CrossRef
