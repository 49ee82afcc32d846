import CrossRef.Proofs.Dom.Link
import Mathlib.Data.List.Chain
import Mathlib.Data.List.Nodup
import Mathlib.Logic.Relation

/-!
Well-formed arenas. Every node has exactly one doubly linked list of children, a node without a
parent has no siblings, and no node stands above itself.
-/
namespace CrossRef
namespace Markup

def Node.links (n : Node) : List Link := [n.parent, n.firstChild, n.lastChild, n.previous, n.next]

namespace Dom

/-- Following parent links from `i` leads to `a`. -/
def Above (dom : Dom) : NodeId → NodeId → Prop :=
  Relation.TransGen fun a i => dom.parent? (some i) = some a

/-- `i` lies in the subtree of `a`: it is `a` itself or has it above. -/
def Encloses (dom : Dom) : NodeId → NodeId → Prop :=
  Relation.ReflTransGen fun a i => dom.parent? (some i) = some a

/-- The links of the nodes involved make `l` the list of the children of `p`. -/
structure ChildList (dom : Dom) (p : NodeId) (l : List NodeId) : Prop where
  first : dom.firstChild? (some p) = l.head?
  last : dom.lastChild? (some p) = l.getLast?
  previous_head : ∀ c ∈ l.head?, dom.previous? (some c) = none
  next_last : ∀ c ∈ l.getLast?, dom.next? (some c) = none
  neighbours :
    l.IsChain fun a b => dom.next? (some a) = some b ∧ dom.previous? (some b) = some a
  nodup : l.Nodup
  /-- The nodes of the list are those whose parent link leads to `p`. -/
  mem_iff : ∀ c, c ∈ l ↔ dom.parent? (some c) = some p

structure WellFormed (dom : Dom) : Prop where
  /-- Every link leads to a node that exists, if it leads anywhere. -/
  links : ∀ i node, dom.node? (some i) = some node → ∀ j, some j ∈ node.links → j < dom.size
  childList : ∀ p, p < dom.size → ∃ l, dom.ChildList p l
  alone : ∀ i, dom.parent? (some i) = none →
    dom.previous? (some i) = none ∧ dom.next? (some i) = none
  acyclic : ∀ i, ¬ dom.Above i i

namespace ChildList

variable {dom : Dom} {p c : NodeId} {l xs ys : List NodeId}

theorem previous?_eq (h : dom.ChildList p (xs ++ c :: ys)) :
    dom.previous? (some c) = xs.getLast? := by
  rcases List.eq_nil_or_concat xs with rfl | ⟨init, a, rfl⟩
  · exact h.previous_head c (by simp)
  · have hac := (List.isChain_append.mp h.neighbours).2.2 a (by simp) c (by simp)
    simpa using hac.2

theorem next?_eq (h : dom.ChildList p (xs ++ c :: ys)) : dom.next? (some c) = ys.head? := by
  cases ys with
  | nil => exact h.next_last c (by simp)
  | cons b ys =>
    have hbc := (List.isChain_append.mp h.neighbours).2.1
    exact (List.isChain_cons_cons.mp hbc).1.1

theorem lt_size (h : dom.ChildList p l) (hc : c ∈ l) : c < dom.size :=
  lt_size_of_parent? ((h.mem_iff c).mp hc)

/-- Among the children of a node the two sibling links are inverse to each other. -/
theorem previous?_eq_some_iff {b c : NodeId} (h : dom.ChildList p l) (hb : b ∈ l) (hc : c ∈ l) :
    dom.previous? (some c) = some b ↔ dom.next? (some b) = some c := by
  constructor
  · intro hcb
    obtain ⟨xs, ys, rfl⟩ := List.append_of_mem hc
    obtain ⟨init, rfl⟩ := List.getLast?_eq_some_iff.mp (h.previous?_eq.symm.trans hcb)
    have h' : dom.ChildList p (init ++ b :: c :: ys) := by simpa using h
    simpa using h'.next?_eq
  · intro hbc
    obtain ⟨xs, ys, rfl⟩ := List.append_of_mem hb
    obtain ⟨rest, rfl⟩ := List.head?_eq_some_iff.mp (h.next?_eq.symm.trans hbc)
    have h' : dom.ChildList p ((xs ++ [b]) ++ c :: rest) := by simpa using h
    simpa using h'.previous?_eq

/-- The neighbours of a child are children. -/
theorem mem_of_side (h : dom.ChildList p l) (hc : c ∈ l) {i : NodeId}
    (hi : dom.previous? (some c) = some i ∨ dom.next? (some c) = some i) : i ∈ l := by
  obtain ⟨xs, ys, rfl⟩ := List.append_of_mem hc
  rcases hi with hi | hi
  · rw [h.previous?_eq] at hi
    simp [List.mem_of_mem_getLast? hi]
  · rw [h.next?_eq] at hi
    simp [List.mem_of_mem_head? hi]

/-- Only links of `p` and of its children decide what the children of `p` are. -/
theorem congr {dom' : Dom} (h : dom.ChildList p l)
    (hfirst : dom'.firstChild? (some p) = dom.firstChild? (some p))
    (hlast : dom'.lastChild? (some p) = dom.lastChild? (some p))
    (hparent : ∀ c, dom'.parent? (some c) = some p ↔ dom.parent? (some c) = some p)
    (hsides : ∀ c ∈ l, dom'.previous? (some c) = dom.previous? (some c) ∧
      dom'.next? (some c) = dom.next? (some c)) : dom'.ChildList p l where
  first := hfirst.trans h.first
  last := hlast.trans h.last
  previous_head c hc := by
    rw [(hsides c (List.mem_of_mem_head? hc)).1, h.previous_head c hc]
  next_last c hc := by
    rw [(hsides c (List.mem_of_mem_getLast? hc)).2, h.next_last c hc]
  neighbours := h.neighbours.imp_of_mem_imp fun a b ha hb hab => by
    rw [(hsides a ha).2, (hsides b hb).1]
    exact hab
  nodup := h.nodup
  mem_iff c := by rw [h.mem_iff, hparent]

end ChildList

namespace WellFormed

variable {dom : Dom} {i p : NodeId}

/-- What is left to show when every parent link leads to a node with a list of children. -/
theorem of_childLists (hparent : ∀ i p, dom.parent? (some i) = some p → p < dom.size)
    (hlists : ∀ p, p < dom.size → ∃ l, dom.ChildList p l)
    (halone : ∀ i, dom.parent? (some i) = none →
      dom.previous? (some i) = none ∧ dom.next? (some i) = none)
    (hacyclic : ∀ i, ¬ dom.Above i i) : dom.WellFormed where
  childList := hlists
  alone := halone
  acyclic := hacyclic
  links i node hn j hj := by
    have hi : i < dom.size := (node?_isSome_iff dom i).mp (by simp [hn])
    obtain ⟨l, hl⟩ := hlists i hi
    have hsides : node.previous = some j ∨ node.next = some j → j < dom.size := by
      intro hj
      have hj' : dom.previous? (some i) = some j ∨ dom.next? (some i) = some j := by
        simpa [previous?, next?, hn] using hj
      cases hp : dom.parent? (some i) with
      | none => simp [halone i hp] at hj'
      | some p =>
        obtain ⟨l', hl'⟩ := hlists p (hparent i p hp)
        exact hl'.lt_size (hl'.mem_of_side ((hl'.mem_iff i).mpr hp) hj')
    have hfirst : node.firstChild = l.head? := by simpa [firstChild?, hn] using hl.first
    have hlast : node.lastChild = l.getLast? := by simpa [lastChild?, hn] using hl.last
    simp only [Node.links, List.mem_cons, List.not_mem_nil, or_false, hfirst, hlast] at hj
    rcases hj with h | h | h | h | h
    · exact hparent i j (by simp [parent?, hn, ← h])
    · exact hl.lt_size (List.mem_of_mem_head? h.symm)
    · exact hl.lt_size (List.mem_of_mem_getLast? h.symm)
    · exact hsides (.inl h.symm)
    · exact hsides (.inr h.symm)

theorem parent_lt (h : dom.WellFormed) (hi : dom.parent? (some i) = some p) : p < dom.size := by
  obtain ⟨node, hn⟩ := exists_node (lt_size_of_parent? hi)
  have hp : node.parent = some p := by simpa [parent?, hn] using hi
  exact h.links i node hn p (by simp [Node.links, hp])

/-- Siblings have the same parent. -/
theorem parent?_of_side (h : dom.WellFormed) {c : NodeId}
    (hi : dom.previous? (some c) = some i ∨ dom.next? (some c) = some i) :
    dom.parent? (some i) = dom.parent? (some c) := by
  cases hp : dom.parent? (some c) with
  | none => simp [h.alone c hp] at hi
  | some p =>
    obtain ⟨l, hl⟩ := h.childList p (h.parent_lt hp)
    exact (hl.mem_iff i).mp (hl.mem_of_side ((hl.mem_iff c).mpr hp) hi)

end WellFormed

/-- The lone document is well formed. -/
theorem wellFormed_empty : empty.WellFormed := by
  have hnone : ∀ i, empty.parent? (some i) = none ∧ empty.previous? (some i) = none ∧
      empty.next? (some i) = none ∧ empty.firstChild? (some i) = none ∧
      empty.lastChild? (some i) = none := by
    intro i
    cases i <;>
      simp [empty, parent?, previous?, next?, firstChild?, lastChild?, node?, Node.alone]
  refine .of_childLists (fun i p h => ?_) (fun p _ => ⟨[], ?_⟩) (fun i _ => ?_) (fun i h => ?_)
  · simp [hnone] at h
  · exact ⟨by simp [hnone], by simp [hnone], by simp, by simp, .nil, .nil, by simp [hnone]⟩
  · simp [hnone]
  · obtain ⟨a, -, ha⟩ := Relation.TransGen.tail'_iff.mp h
    simp [hnone] at ha

end Dom
end Markup
end CrossRef
