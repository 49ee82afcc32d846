import CrossRef.Index.Section
import CrossRef.Proofs.Text.Digit
import Mathlib.Data.List.Induction
import Mathlib.Data.List.Nodup
import Mathlib.Data.List.ReduceOption

/-!
Section numbers. The counter tells how many headings of each level have come since the last one above
them, and each number that it gives is greater than all numbers before it.
-/
namespace CrossRef
namespace Index

/-! ### Numbers as they are shown -/

theorem toList_dotted (number : List Nat) :
    (dotted number).toList = ['.'].intercalate (number.map (Nat.toDigits 10)) := by
  rw [dotted, String.toList_intercalate, List.map_map]
  congr 1
  exact List.map_congr_left fun n _ => Nat.toList_repr

/-- Between the points of a number that is shown stand the digits of its parts. -/
theorem splitOn_dotted {number : List Nat} (h : number ≠ []) :
    (dotted number).toList.splitOn '.' = number.map (Nat.toDigits 10) := by
  have hparts : ∀ part ∈ number.map (Nat.toDigits 10), '.' ∉ part := by
    intro part hpart
    obtain ⟨n, -, rfl⟩ := List.mem_map.mp hpart
    exact Text.not_mem_toDigits (by decide) n
  rw [toList_dotted, List.splitOn_intercalate '.' hparts (by simpa using h)]

theorem dotted_ne_empty {number : List Nat} (h : number ≠ []) : dotted number ≠ "" := by
  intro hempty
  have hsplit := splitOn_dotted h
  rw [hempty] at hsplit
  cases number with
  | nil => exact h rfl
  | cons n rest =>
    have hdigits : [] = Nat.toDigits 10 n := by simpa using congrArg List.head? hsplit
    exact Nat.toDigits_ne_nil hdigits.symm

/-- Different numbers are shown differently. -/
theorem dotted_injective : Function.Injective dotted := by
  intro number other h
  by_cases hnumber : number = []
  · subst hnumber
    by_contra hne
    exact dotted_ne_empty (Ne.symm hne) h.symm
  · by_cases hother : other = []
    · subst hother
      exact absurd h (dotted_ne_empty hnumber)
    · have hparts : number.map (Nat.toDigits 10) = other.map (Nat.toDigits 10) := by
        rw [← splitOn_dotted hnumber, h, splitOn_dotted hother]
      exact List.map_injective_iff.mpr Text.toDigits_injective hparts

namespace SectionCounter

variable {counter : SectionCounter} {level : Nat} {levels : List Nat} {number : List Nat}

/-! ### What the counter counts -/

/-- The counter after a sequence of headings. -/
def after (counter : SectionCounter) (levels : List Nat) : SectionCounter :=
  levels.foldl (fun counter level => (counter.advance level).1) counter

theorem after_concat (counter : SectionCounter) (levels : List Nat) (level : Nat) :
    counter.after (levels ++ [level]) = ((counter.after levels).advance level).1 := by
  rw [after, List.foldl_append]
  rfl

/-- The three counts as a number of the lowest level. -/
def lowest (counter : SectionCounter) : List Nat :=
  [counter.second, counter.third, counter.fourth]

/-- Headings of other levels are passed over. -/
theorem advance_of_not_mem (counter : SectionCounter) (h : level ∉ [2, 3, 4]) :
    counter.advance level = (counter, none) := by
  simp only [List.mem_cons, List.not_mem_nil, or_false, not_or] at h
  unfold advance
  split
  · exact absurd rfl h.1
  · exact absurd rfl h.2.1
  · exact absurd rfl h.2.2
  · rfl

/-- Every other heading gets the upper counts of the counter that it moves on. -/
theorem advance_of_mem (counter : SectionCounter) (h : level ∈ [2, 3, 4]) :
    (counter.advance level).2 = some ((counter.advance level).1.lowest.take (level - 1)) := by
  simp only [List.mem_cons, List.not_mem_nil, or_false] at h
  rcases h with rfl | rfl | rfl <;> rfl

/-- How often a level has come since one of the levels came that its count starts again after. -/
def countSince (stops : List Nat) (level : Nat) (levels : List Nat) : Nat :=
  (levels.reverse.takeWhile fun other => other ∉ stops).count level

theorem countSince_concat (stops : List Nat) (level : Nat) (levels : List Nat) (last : Nat) :
    countSince stops level (levels ++ [last]) =
      if last ∈ stops then 0
      else countSince stops level levels + if last = level then 1 else 0 := by
  by_cases hstop : last ∈ stops
  · simp [countSince, hstop]
  · simp [countSince, hstop, List.count_cons]

theorem countSince_le_length (stops : List Nat) (level : Nat) (levels : List Nat) :
    countSince stops level levels ≤ levels.length := by
  have htaken := (levels.reverse.takeWhile_sublist fun other => other ∉ stops).length_le
  rw [List.length_reverse] at htaken
  exact Nat.le_trans List.count_le_length htaken

/-- The counter holds the counts of the headings so far. -/
theorem after_zero (levels : List Nat) :
    zero.after levels =
      ⟨levels.count 2, countSince [2] 3 levels, countSince [2, 3] 4 levels⟩ := by
  induction levels using List.reverseRecOn with
  | nil => rfl
  | append_singleton earlier level ih =>
    rw [after_concat, ih, List.count_append, countSince_concat, countSince_concat]
    by_cases hlevel : level ∈ [2, 3, 4]
    · simp only [List.mem_cons, List.not_mem_nil, or_false] at hlevel
      rcases hlevel with rfl | rfl | rfl <;> simp [advance]
    · rw [advance_of_not_mem _ hlevel]
      simp only [List.mem_cons, List.not_mem_nil, or_false, not_or] at hlevel
      simp [hlevel]

theorem le_length_of_mem_after {n : Nat} (h : n ∈ (zero.after levels).lowest) :
    n ≤ levels.length := by
  rw [after_zero] at h
  simp only [lowest, List.mem_cons, List.not_mem_nil, or_false] at h
  rcases h with rfl | rfl | rfl
  · exact List.count_le_length
  · exact countSince_le_length _ _ _
  · exact countSince_le_length _ _ _

/-! ### The number of each heading -/

/-- The number of the last of some headings, from the counts that include it. -/
def numberOfLast (levels : List Nat) : Option (List Nat) :=
  match levels.getLast? with
  | some 2 => some [levels.count 2]
  | some 3 => some [levels.count 2, countSince [2] 3 levels]
  | some 4 => some [levels.count 2, countSince [2] 3 levels, countSince [2, 3] 4 levels]
  | _ => none

theorem numberOfLast_of_not_mem (earlier : List Nat) (h : level ∉ [2, 3, 4]) :
    numberOfLast (earlier ++ [level]) = none := by
  simp only [List.mem_cons, List.not_mem_nil, or_false, not_or] at h
  unfold numberOfLast
  rw [List.getLast?_concat]
  split
  · next heq => exact absurd (Option.some_inj.mp heq) h.1
  · next heq => exact absurd (Option.some_inj.mp heq) h.2.1
  · next heq => exact absurd (Option.some_inj.mp heq) h.2.2
  · rfl

theorem numberOfLast_of_mem (earlier : List Nat) (h : level ∈ [2, 3, 4]) :
    numberOfLast (earlier ++ [level]) =
      some ((zero.after (earlier ++ [level])).lowest.take (level - 1)) := by
  simp only [List.mem_cons, List.not_mem_nil, or_false] at h
  rw [after_zero]
  unfold numberOfLast
  rw [List.getLast?_concat]
  rcases h with rfl | rfl | rfl <;> rfl

theorem advance_after (earlier : List Nat) (level : Nat) :
    (zero.after earlier).advance level =
      (zero.after (earlier ++ [level]), numberOfLast (earlier ++ [level])) := by
  refine Prod.ext (after_concat zero earlier level).symm ?_
  by_cases hlevel : level ∈ [2, 3, 4]
  · rw [advance_of_mem _ hlevel, numberOfLast_of_mem earlier hlevel, after_concat]
  · rw [advance_of_not_mem _ hlevel, numberOfLast_of_not_mem earlier hlevel]

theorem numbersFrom_append (counter : SectionCounter) (earlier later : List Nat) :
    counter.numbersFrom (earlier ++ later) =
      counter.numbersFrom earlier ++ (counter.after earlier).numbersFrom later := by
  induction earlier generalizing counter with
  | nil => rfl
  | cons level rest ih =>
    have hrest := ih (counter.advance level).1
    simp only [List.cons_append, numbersFrom, hrest]
    rfl

theorem numbersFrom_getElem? (earlier later : List Nat) (level : Nat) :
    (zero.numbersFrom (earlier ++ level :: later))[earlier.length]? =
      some (numberOfLast (earlier ++ [level])) := by
  rw [numbersFrom_append, List.getElem?_append_right (by simp), length_numbersFrom, Nat.sub_self,
    numbersFrom, advance_after]
  rfl

/-! ### The order of the numbers -/

/-- A heading is passed over, or its number comes after the counts before it and opens the counts
after it. -/
theorem advance_cases (counter : SectionCounter) (level : Nat) :
    counter.advance level = (counter, none) ∨
      ∃ number, (counter.advance level).2 = some number ∧ counter.lowest < number ∧
        number <+: (counter.advance level).1.lowest := by
  by_cases hlevel : level ∈ [2, 3, 4]
  · refine .inr ⟨_, advance_of_mem counter hlevel, ?_, List.take_prefix _ _⟩
    simp only [List.mem_cons, List.not_mem_nil, or_false] at hlevel
    rcases hlevel with rfl | rfl | rfl <;> simp [lowest, advance, List.cons_lt_cons_iff]
  · exact .inl (advance_of_not_mem counter hlevel)

theorem lowest_lt_of_mem_numbersFrom (h : some number ∈ counter.numbersFrom levels) :
    counter.lowest < number := by
  induction levels generalizing counter with
  | nil => simp [numbersFrom] at h
  | cons level rest ih =>
    rw [numbersFrom, List.mem_cons] at h
    rcases advance_cases counter level with hskip | ⟨own, hown, hlt, hopens⟩
    · rw [hskip] at h
      exact ih (h.resolve_left (by simp))
    · rcases h with hnow | hlater
      · rw [hown, Option.some_inj] at hnow
        exact hnow ▸ hlt
      · exact List.lt_trans hlt (List.lt_of_le_of_lt hopens.le (ih hlater))

/-- Every number is greater than the numbers before it. -/
theorem pairwise_numbersFrom (counter : SectionCounter) (levels : List Nat) :
    (counter.numbersFrom levels).reduceOption.Pairwise (· < ·) := by
  induction levels generalizing counter with
  | nil => exact .nil
  | cons level rest ih =>
    rw [numbersFrom]
    rcases advance_cases counter level with hskip | ⟨own, hown, -, hopens⟩
    · rw [hskip]
      exact ih counter
    · simp only [hown, List.reduceOption_cons_of_some, List.pairwise_cons]
      refine ⟨fun number hnumber => ?_, ih _⟩
      have hlater := lowest_lt_of_mem_numbersFrom (List.reduceOption_mem_iff.mp hnumber)
      exact List.lt_of_le_of_lt hopens.le hlater

/-- Take any headings, counted from zero on. A heading of the second, third or fourth level gets the
counts of the headings up to it, and a heading of another level gets no number and leaves the counter as
it was. The numbers increase strictly, where a number comes before those that it opens, so no two of
them are shown alike. No count is greater than the number of headings. -/
theorem numbersFrom_zero_increases (levels : List Nat) :
    (∀ earlier level later, levels = earlier ++ level :: later →
      (zero.numbersFrom levels)[earlier.length]? = some (numberOfLast (earlier ++ [level])) ∧
      (level ∉ [2, 3, 4] → (zero.after earlier).advance level = (zero.after earlier, none)) ∧
      (level ∈ [2, 3, 4] → (numberOfLast (earlier ++ [level])).isSome)) ∧
    (zero.numbersFrom levels).reduceOption.Pairwise (· < ·) ∧
    ((zero.numbersFrom levels).reduceOption.map dotted).Nodup ∧
    ∀ n ∈ (zero.after levels).lowest, n ≤ levels.length := by
  have hincreasing := pairwise_numbersFrom zero levels
  have hnodup : (zero.numbersFrom levels).reduceOption.Nodup := by
    refine hincreasing.imp fun {number other} hlt => ?_
    rintro rfl
    exact List.lt_irrefl number hlt
  refine ⟨?_, hincreasing, hnodup.map dotted_injective, fun n => le_length_of_mem_after⟩
  rintro earlier level later rfl
  refine ⟨numbersFrom_getElem? earlier later level, advance_of_not_mem _, fun hlevel => ?_⟩
  rw [numberOfLast_of_mem earlier hlevel]
  rfl

/-- A heading of the fourth level before any of the third, and one of the sixth. -/
example : (zero.numbersFrom [4, 2, 4, 3, 6, 3, 4]).reduceOption.map dotted =
    ["0.0.1", "1", "1.0.1", "1.1", "1.2", "1.2.1"] := by decide +kernel

end SectionCounter
end Index
end CrossRef
