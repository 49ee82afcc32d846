import CrossRef.Proofs.Dom.Order

/-!
The trees that an arena holds. A tree has the contents of its nodes and their order, and nothing of
the places where the nodes are kept.
-/
namespace CrossRef
namespace Markup

inductive Tree
  | node (content : Option Content) (children : List Tree)

namespace Dom

variable {dom : Dom} {i : NodeId}

/-- A node and what is below it, down to the given number of levels. -/
def treeTo (dom : Dom) : Nat → NodeId → Tree
  | 0, i => .node (dom.content? (some i)) []
  | levels + 1, i =>
    .node (dom.content? (some i)) ((dom.children (some i)).map (treeTo dom levels))

/-- A node and all that is below it. -/
def tree (dom : Dom) (i : NodeId) : Tree := dom.treeTo dom.size i

/-- What is below a node, one tree for each child. -/
def forest (dom : Dom) (i : NodeId) : List Tree := (dom.children (some i)).map dom.tree

namespace WellFormed

theorem treeTo_eq (h : dom.WellFormed) {m n : Nat} (hm : dom.height i < m)
    (hn : dom.height i < n) : dom.treeTo m i = dom.treeTo n i := by
  induction m generalizing i n with
  | zero => omega
  | succ m ih =>
    obtain ⟨n, rfl⟩ : ∃ k, n = k + 1 := ⟨n - 1, by omega⟩
    rw [treeTo, treeTo]
    congr 1
    refine List.map_congr_left fun c hc => ?_
    have hheight := h.height_lt (h.mem_children_iff.mp hc)
    exact ih (by omega) (by omega)

theorem tree_eq (h : dom.WellFormed) (hi : i < dom.size) :
    dom.tree i = .node (dom.content? (some i)) (dom.forest i) := by
  obtain ⟨k, hk⟩ := Nat.exists_eq_add_one_of_ne_zero (Nat.ne_zero_of_lt hi)
  rw [tree, hk, treeTo, forest]
  congr 1
  refine List.map_congr_left fun c hc => ?_
  have hheight := h.height_lt (h.mem_children_iff.mp hc)
  have hlt := h.height_lt_size hi
  exact h.treeTo_eq (by omega) (by omega)

/-- A tree settles the content of its root and what is below it. -/
theorem of_tree_eq {dom' : Dom} {j : NodeId} (h : dom.WellFormed) (h' : dom'.WellFormed)
    (hi : i < dom.size) (hj : j < dom'.size) (heq : dom'.tree j = dom.tree i) :
    dom'.content? (some j) = dom.content? (some i) ∧ dom'.forest j = dom.forest i := by
  rw [h.tree_eq hi, h'.tree_eq hj] at heq
  exact Tree.node.inj heq

end WellFormed

/-! ### Taking nodes out -/

/-- The trees that are left of a node and what is below it, down to the given number of levels, when
nodes are taken out and their children take their places. -/
def treesWithoutTo (dom : Dom) (out : NodeId → Bool) : Nat → NodeId → List Tree
  | 0, _ => []
  | levels + 1, i =>
    let below := (dom.children (some i)).flatMap (treesWithoutTo dom out levels)
    if out i then below else [.node (dom.content? (some i)) below]

/-- The trees that are left of a node and all that is below it when nodes are taken out. -/
def treesWithout (dom : Dom) (out : NodeId → Bool) (i : NodeId) : List Tree :=
  dom.treesWithoutTo out dom.size i

/-- What is left below a node when nodes are taken out. -/
def forestWithout (dom : Dom) (out : NodeId → Bool) (i : NodeId) : List Tree :=
  (dom.children (some i)).flatMap (dom.treesWithout out)

namespace WellFormed

theorem treesWithoutTo_eq (h : dom.WellFormed) (out : NodeId → Bool) {m n : Nat}
    (hm : dom.height i < m) (hn : dom.height i < n) :
    dom.treesWithoutTo out m i = dom.treesWithoutTo out n i := by
  induction m generalizing i n with
  | zero => omega
  | succ m ih =>
    obtain ⟨n, rfl⟩ : ∃ k, n = k + 1 := ⟨n - 1, by omega⟩
    have hbelow : (dom.children (some i)).flatMap (dom.treesWithoutTo out m) =
        (dom.children (some i)).flatMap (dom.treesWithoutTo out n) :=
      List.flatMap_congr fun c hc => by
        have hheight := h.height_lt (h.mem_children_iff.mp hc)
        exact ih (by omega) (by omega)
    rw [treesWithoutTo, treesWithoutTo, hbelow]

theorem treesWithout_eq (h : dom.WellFormed) (hi : i < dom.size) (out : NodeId → Bool) :
    dom.treesWithout out i = if out i then dom.forestWithout out i
      else [.node (dom.content? (some i)) (dom.forestWithout out i)] := by
  obtain ⟨k, hk⟩ := Nat.exists_eq_add_one_of_ne_zero (Nat.ne_zero_of_lt hi)
  have hbelow : (dom.children (some i)).flatMap (dom.treesWithoutTo out k) =
      dom.forestWithout out i :=
    List.flatMap_congr fun c hc => by
      have hheight := h.height_lt (h.mem_children_iff.mp hc)
      have hlt := h.height_lt_size hi
      exact h.treesWithoutTo_eq out (by omega) (by omega)
  rw [treesWithout, hk, treesWithoutTo, hbelow]

end WellFormed

end Dom
end Markup
end CrossRef
