import CrossRef.Proofs.Dom.Surgery

/-!
The lists of children that surgery leaves. On a well-formed arena the walk along next siblings finds
the children of a node, and each edit changes these lists in one place.
-/
namespace CrossRef
namespace Markup
namespace Dom

variable {dom dom' : Dom} {p q c s n i : NodeId} {l : List NodeId}

theorem siblingsFrom_none (fuel : Nat) : dom.siblingsFrom fuel none = [] := by
  cases fuel <;> rfl

/-- From any place in a list of children the next siblings are the rest of the list. -/
theorem ChildList.siblingsFrom_eq (xs : List NodeId) {ys : List NodeId}
    (h : dom.ChildList p (xs ++ ys)) {fuel : Nat} (hfuel : ys.length ≤ fuel) :
    dom.siblingsFrom fuel ys.head? = ys := by
  induction ys generalizing xs fuel with
  | nil => exact siblingsFrom_none fuel
  | cons c ys ih =>
    obtain ⟨fuel, rfl⟩ : ∃ n, fuel = n + 1 := ⟨fuel - 1, by simp at hfuel; omega⟩
    have hnext := h.next?_eq
    have hrest := ih (xs ++ [c]) (by simpa using h) (by simpa using hfuel)
    change c :: dom.siblingsFrom fuel (dom.next? (some c)) = c :: ys
    rw [hnext, hrest]

theorem ChildList.length_le (h : dom.ChildList p l) : l.length ≤ dom.size := by
  have hsub : l ⊆ List.range dom.size := fun c hc => List.mem_range.mpr (h.lt_size hc)
  simpa using h.nodup.length_le_of_subset hsub

theorem ChildList.children_eq (h : dom.ChildList p l) : dom.children (some p) = l := by
  rw [children, h.first]
  exact ChildList.siblingsFrom_eq [] h (by have := h.length_le; omega)

theorem children_of_size_le (h : dom.size ≤ p) : dom.children (some p) = [] := by
  rw [children, firstChild?, (node?_eq_none_iff dom p).mpr h]
  exact siblingsFrom_none _

namespace WellFormed

theorem childList_children (h : dom.WellFormed) (hp : p < dom.size) :
    dom.ChildList p (dom.children (some p)) := by
  obtain ⟨l, hl⟩ := h.childList p hp
  rwa [hl.children_eq]

theorem mem_children_iff (h : dom.WellFormed) :
    c ∈ dom.children (some p) ↔ dom.parent? (some c) = some p := by
  by_cases hp : p < dom.size
  · exact (h.childList_children hp).mem_iff c
  · rw [children_of_size_le (Nat.le_of_not_lt hp)]
    simpa using fun hc => hp (h.parent_lt hc)

theorem nodup_children (h : dom.WellFormed) (p : NodeId) : (dom.children (some p)).Nodup := by
  by_cases hp : p < dom.size
  · exact (h.childList_children hp).nodup
  · simp [children_of_size_le (Nat.le_of_not_lt hp)]

theorem children_append (h : dom.WellFormed) (hp : p < dom.size) (hc : c < dom.size)
    (hdet : dom.parent? (some c) = none) (q : NodeId) :
    (dom.append (some p) (some c)).children (some q) =
      if q = p then dom.children (some p) ++ [c] else dom.children (some q) := by
  have hl := h.childList_children hp
  split_ifs with hqp
  · rw [hqp]
    exact (hl.append hp hc hdet).children_eq
  · by_cases hq : q < dom.size
    · exact ((h.childList_children hq).append_of_ne hq hqp hl hc hdet).children_eq
    · rw [children_of_size_le (Nat.le_of_not_lt hq), children_of_size_le (by simpa using hq)]

theorem children_insertBefore (h : dom.WellFormed) (hs : s < dom.size) (hn : n < dom.size)
    (hdet : dom.parent? (some n) = none) (q : NodeId) :
    (dom.insertBefore (some s) (some n)).children (some q) =
      (dom.children (some q)).flatMap fun i => if i = s then [n, s] else [i] := by
  have hsame : ∀ l : List NodeId, s ∉ l → l.flatMap (fun i => if i = s then [n, s] else [i]) = l := by
    intro l hl
    induction l with
    | nil => rfl
    | cons i l ih => grind
  by_cases hq : q < dom.size
  · have hl := h.childList_children hq
    by_cases hmem : s ∈ dom.children (some q)
    · obtain ⟨xs, ys, hsplit⟩ := List.append_of_mem hmem
      rw [hsplit] at hl
      have hnodup := List.nodup_middle.mp hl.nodup
      simp only [List.nodup_cons, List.mem_append, not_or] at hnodup
      rw [(hl.insertBefore hq hn hdet).children_eq, hsplit, List.flatMap_append,
        List.flatMap_cons, hsame xs hnodup.1.1, hsame ys hnodup.1.2]
      simp
    · rw [(hl.insertBefore_of_not_mem h hq hmem hs hn hdet).children_eq, hsame _ hmem]
  · rw [children_of_size_le (Nat.le_of_not_lt hq), children_of_size_le (by simpa using hq)]
    rfl

theorem children_detach (h : dom.WellFormed) (c q : NodeId) :
    (dom.detach (some c)).children (some q) = (dom.children (some q)).filter (· ≠ c) := by
  by_cases hq : q < dom.size
  · have hl := h.childList_children hq
    by_cases hmem : c ∈ dom.children (some q)
    · obtain ⟨xs, ys, hsplit⟩ := List.append_of_mem hmem
      rw [hsplit] at hl
      have hnodup := List.nodup_middle.mp hl.nodup
      have hkeep : ∀ d ∈ xs ++ ys, (decide (d ≠ c)) = true := fun d hd =>
        decide_eq_true fun hdc => (List.nodup_cons.mp hnodup).1 (hdc ▸ hd)
      rw [(hl.detach hq).children_eq, hsplit, List.filter_append, List.filter_cons,
        if_neg (by simp), ← List.filter_append, List.filter_eq_self.mpr hkeep]
    · have hkeep : ∀ d ∈ dom.children (some q), (decide (d ≠ c)) = true := fun d hd =>
        decide_eq_true fun hdc => hmem (hdc ▸ hd)
      rw [(hl.detach_of_not_mem h hq hmem).children_eq, List.filter_eq_self.mpr hkeep]
  · rw [children_of_size_le (Nat.le_of_not_lt hq), children_of_size_le (by simpa using hq)]
    rfl

end WellFormed

end Dom
end Markup
end CrossRef
