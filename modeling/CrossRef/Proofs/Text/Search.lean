import CrossRef.Text.Search
import Mathlib.Data.List.Infix

/-!
The first occurrence of a piece in a text. A piece whose first character does not come back in it cannot
overlap itself, so the first occurrence is where no other stands before it.
-/
namespace CrossRef
namespace Text

variable {piece cs before after : List Char}

theorem afterStart?_eq_some_iff : afterStart? piece cs = some after ↔ cs = piece ++ after := by
  induction piece generalizing cs with
  | nil => simp [afterStart?]
  | cons p piece ih =>
    cases cs with
    | nil => simp [afterStart?]
    | cons c cs =>
      rw [afterStart?]
      split_ifs with hpc
      · rw [ih, hpc, List.cons_append, List.cons_eq_cons]
        simp
      · simp [Ne.symm hpc]

theorem afterStart?_eq_none_iff : afterStart? piece cs = none ↔ ¬ piece <+: cs := by
  have hstarts : (∃ after, afterStart? piece cs = some after) ↔ piece <+: cs :=
    exists_congr fun after => afterStart?_eq_some_iff.trans eq_comm
  rw [← hstarts, not_exists, Option.eq_none_iff_forall_ne_some]

/-- A cut is made at an occurrence before which there is none. -/
theorem of_splitFirst? (hpiece : piece ≠ []) (h : splitFirst? piece cs = some (before, after)) :
    cs = before ++ piece ++ after ∧ ¬ piece <:+: before := by
  induction cs generalizing before with
  | nil => simp [splitFirst?, hpiece] at h
  | cons c cs ih =>
    rw [splitFirst?] at h
    split at h
    · next rest hstart =>
      obtain ⟨rfl, rfl⟩ := Prod.mk.inj (Option.some_inj.mp h)
      exact ⟨by simpa using afterStart?_eq_some_iff.mp hstart, by simpa using hpiece⟩
    · next hstart =>
      obtain ⟨⟨passed, rest⟩, hsplit, hcut⟩ := Option.map_eq_some_iff.mp h
      obtain ⟨rfl, rfl⟩ := Prod.mk.inj hcut
      obtain ⟨rfl, hfree⟩ := ih hsplit
      refine ⟨by simp, fun hwithin => ?_⟩
      rcases List.infix_cons_iff.mp hwithin with hstarts | hwithin
      · refine afterStart?_eq_none_iff.mp hstart (hstarts.trans ?_)
        simp [List.append_assoc]
      · exact hfree hwithin

/-- No occurrence starts before one of a piece that cannot overlap itself, unless it ends before it. -/
theorem not_prefix_of_mark {mark c : Char} {rest passed : List Char} (after : List Char)
    (hmark : mark ∉ rest) (hfree : ¬ mark :: rest <:+: c :: passed) :
    ¬ mark :: rest <+: c :: passed ++ (mark :: rest ++ after) := by
  rintro ⟨more, hmore⟩
  rcases List.append_eq_append_iff.mp hmore with ⟨extra, heq, -⟩ | ⟨extra, heq, hextra⟩
  · exact hfree (heq ▸ (List.prefix_append _ extra).isInfix)
  · cases extra with
    | nil => exact hfree (by rw [heq]; simp)
    | cons d extra =>
      -- The occurrence reaches into the later one, whose mark would then stand in the rest of the piece.
      obtain rfl : mark = d := (List.cons_eq_cons.mp hextra).1
      obtain ⟨-, hrest⟩ := List.cons_eq_cons.mp heq
      exact hmark (hrest ▸ List.mem_append_right _ List.mem_cons_self)

theorem splitFirst?_append {mark : Char} {rest : List Char} (hmark : mark ∉ rest)
    (hfree : ¬ mark :: rest <:+: before) :
    splitFirst? (mark :: rest) (before ++ (mark :: rest) ++ after) = some (before, after) := by
  rw [List.append_assoc]
  induction before with
  | nil =>
    have hstart : afterStart? (mark :: rest) (mark :: (rest ++ after)) = some after :=
      afterStart?_eq_some_iff.mpr rfl
    rw [List.nil_append, List.cons_append, splitFirst?, hstart]
  | cons c passed ih =>
    have hstart := afterStart?_eq_none_iff.mpr (not_prefix_of_mark after hmark hfree)
    rw [List.cons_append] at hstart ⊢
    rw [splitFirst?, hstart]
    simp only
    rw [ih fun hwithin => hfree (List.infix_cons hwithin)]
    rfl

/-- A text is cut at an occurrence exactly when none comes before it. -/
theorem splitFirst?_eq_some_iff {mark : Char} {rest : List Char} (hmark : mark ∉ rest) :
    splitFirst? (mark :: rest) cs = some (before, after) ↔
      cs = before ++ (mark :: rest) ++ after ∧ ¬ mark :: rest <:+: before :=
  ⟨of_splitFirst? (List.cons_ne_nil _ _), fun ⟨heq, hfree⟩ => heq ▸ splitFirst?_append hmark hfree⟩

end Text
end CrossRef
