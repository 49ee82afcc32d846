import CrossRef.Text.Blank
import Mathlib.Data.List.DropRight

/-!
Texts without the blanks at their ends.
-/
namespace CrossRef
namespace Text

variable {cs kept : List Char}

/-- What is left of a text once blanks are taken away at both ends, as many as there are. -/
structure Trims (cs kept : List Char) : Prop where
  surrounded : ∃ before after, cs = before ++ kept ++ after ∧
    (∀ c ∈ before, isBlank c) ∧ ∀ c ∈ after, isBlank c
  starts : ∀ c ∈ kept.head?, ¬ isBlank c
  ends : ∀ c ∈ kept.getLast?, ¬ isBlank c

theorem dropWhile_isBlank (h : ∀ c ∈ cs.head?, ¬ isBlank c) : cs.dropWhile isBlank = cs := by
  cases cs with
  | nil => rfl
  | cons c rest => exact List.dropWhile_cons_of_neg (h c rfl)

theorem trimEnd_append {after : List Char} (hafter : ∀ c ∈ after, isBlank c)
    (hends : ∀ c ∈ cs.getLast?, ¬ isBlank c) : trimEnd (cs ++ after) = cs := by
  rw [trimEnd, List.reverse_append, List.dropWhile_append_of_pos (by simpa using hafter),
    dropWhile_isBlank (by simpa using hends), List.reverse_reverse]

theorem trimEnd_spec (cs : List Char) :
    ∃ after, cs = trimEnd cs ++ after ∧ (∀ c ∈ after, isBlank c) ∧
      ∀ c ∈ (trimEnd cs).getLast?, ¬ isBlank c := by
  refine ⟨(cs.reverse.takeWhile isBlank).reverse, ?_, ?_, ?_⟩
  · rw [trimEnd, ← List.reverse_append, List.takeWhile_append_dropWhile, List.reverse_reverse]
  · intro c hc
    exact List.mem_takeWhile_imp (List.mem_reverse.mp hc)
  · intro c hc
    rw [trimEnd, List.getLast?_reverse] at hc
    simpa [Option.mem_def.mp hc] using List.head?_dropWhile_not isBlank cs.reverse

theorem trims_trimChars (cs : List Char) : Trims cs (trimChars cs) := by
  obtain ⟨after, hafter, hblank, hends⟩ := trimEnd_spec (cs.dropWhile isBlank)
  refine ⟨⟨cs.takeWhile isBlank, after, ?_, fun c => List.mem_takeWhile_imp, hblank⟩, ?_, hends⟩
  · rw [List.append_assoc, trimChars, ← hafter, List.takeWhile_append_dropWhile]
  · intro c hc
    have hstarts := List.head?_dropWhile_not isBlank cs
    rw [hafter, List.head?_append, show (trimEnd (cs.dropWhile isBlank)).head? = some c from hc]
      at hstarts
    simpa using hstarts

theorem trimChars_eq_iff : trimChars cs = kept ↔ Trims cs kept := by
  refine ⟨fun h => h ▸ trims_trimChars cs, ?_⟩
  rintro ⟨⟨before, after, rfl, hbefore, hafter⟩, hstarts, hends⟩
  rw [trimChars, List.append_assoc, List.dropWhile_append_of_pos hbefore]
  cases kept with
  | nil =>
    rw [List.nil_append, List.dropWhile_eq_nil_iff.mpr hafter]
    rfl
  | cons c rest =>
    rw [List.cons_append, List.dropWhile_cons_of_neg (hstarts c rfl), ← List.cons_append,
      trimEnd_append hafter hends]

/-- Trimming leaves a text that no trimming changes. -/
theorem trimChars_trimChars (cs : List Char) : trimChars (trimChars cs) = trimChars cs := by
  have h := trims_trimChars cs
  exact trimChars_eq_iff.mpr ⟨⟨[], [], by simp, by simp, by simp⟩, h.starts, h.ends⟩

theorem trim_trim (s : String) : trim (trim s) = trim s := by
  rw [trim, trim, String.toList_ofList, trimChars_trimChars]

theorem trimChars_infix (cs : List Char) : trimChars cs <:+: cs := by
  obtain ⟨before, after, heq, -⟩ := (trims_trimChars cs).surrounded
  exact ⟨before, after, heq.symm⟩

end Text
end CrossRef
