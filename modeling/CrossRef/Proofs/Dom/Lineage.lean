import CrossRef.Proofs.Dom.Tree

/-!
Positions in a tree: the content of a node with the contents of the nodes above it, from the inside
out. What is asked of a node and of the nodes near above it can be asked of its position.
-/
namespace CrossRef
namespace Markup

/-- A node as it is seen in a tree: its content, then the contents of the nodes above it. -/
abbrev Position := List (Option Content)

/-- The value of the first attribute with this local name. -/
def attributeIn? (content : Option Content) (label : String) : Option String :=
  match content with
  | some (.element _ attributes) => (attributes.find? (·.name.label == label)).map (·.value)
  | _ => none

/-- Is this the content of an element with the given local name? -/
def isElementIn (content : Option Content) (label : String) : Bool :=
  match content with
  | some (.element name _) => name.label == label
  | _ => false

mutual

/-- How many nodes of a tree that stands below `above` have a property of positions. -/
def Tree.count (holds : Position → Bool) (above : Position) : Tree → Nat
  | .node content children =>
    (if holds (content :: above) then 1 else 0) + Tree.countAll holds (content :: above) children

/-- How many nodes of several trees that stand below `above` have a property of positions. -/
def Tree.countAll (holds : Position → Bool) (above : Position) : List Tree → Nat
  | [] => 0
  | tree :: rest => tree.count holds above + Tree.countAll holds above rest

end

namespace Dom

variable {dom : Dom} {i c p : NodeId} {levels m n : Nat}

theorem attribute?_eq (dom : Dom) (i : NodeId) (label : String) :
    dom.attribute? (some i) label = attributeIn? (dom.content? (some i)) label := by
  unfold attribute? attributes attributeIn?
  cases dom.content? (some i) with
  | none => rfl
  | some content => cases content <;> rfl

theorem isElement_eq (dom : Dom) (i : NodeId) (label : String) :
    dom.isElement (some i) label = isElementIn (dom.content? (some i)) label := by
  unfold isElement name? isElementIn
  cases dom.content? (some i) with
  | none => rfl
  | some content => cases content <;> rfl

/-- The contents of the nodes above a node, up to the given number of levels. -/
def contentsAbove (dom : Dom) : Nat → NodeId → Position
  | 0, _ => []
  | levels + 1, i =>
    match dom.parent? (some i) with
    | none => []
    | some p => dom.content? (some p) :: contentsAbove dom levels p

theorem contentsAbove_of_parent (hp : dom.parent? (some i) = some p) (levels : Nat) :
    dom.contentsAbove (levels + 1) i = dom.content? (some p) :: dom.contentsAbove levels p := by
  rw [contentsAbove, hp]

theorem contentsAbove_of_top (hp : dom.parent? (some i) = none) (levels : Nat) :
    dom.contentsAbove levels i = [] := by
  cases levels with
  | zero => rfl
  | succ levels => rw [contentsAbove, hp]

theorem take_contentsAbove (dom : Dom) (h : m ≤ n) (i : NodeId) :
    (dom.contentsAbove n i).take m = dom.contentsAbove m i := by
  induction m generalizing n i with
  | zero => rfl
  | succ m ih =>
    obtain ⟨n, rfl⟩ : ∃ k, n = k + 1 := ⟨n - 1, by omega⟩
    cases hp : dom.parent? (some i) with
    | none => simp [contentsAbove_of_top hp]
    | some p =>
      rw [contentsAbove_of_parent hp, contentsAbove_of_parent hp, List.take_succ_cons,
        ih (by omega)]

/-- As far as `levels` reach, this is what stands above the node. -/
def StandsBelow (dom : Dom) (levels : Nat) (i : NodeId) (above : Position) : Prop :=
  above.take levels = dom.contentsAbove levels i

theorem standsBelow_contentsAbove (dom : Dom) (levels : Nat) (i : NodeId) :
    dom.StandsBelow levels i (dom.contentsAbove levels i) :=
  dom.take_contentsAbove le_rfl i

/-- From a node to its children. -/
theorem StandsBelow.child {above : Position} (h : dom.StandsBelow levels p above)
    (hc : dom.parent? (some c) = some p) :
    dom.StandsBelow levels c (dom.content? (some p) :: above) := by
  cases levels with
  | zero => rfl
  | succ levels =>
    have hshort : (above.take (levels + 1)).take levels = above.take levels := by
      rw [List.take_take, min_eq_left (Nat.le_succ levels)]
    rw [StandsBelow, contentsAbove_of_parent hc, List.take_succ_cons, ← hshort, h,
      take_contentsAbove dom (Nat.le_succ levels)]

/-- A property of positions says of every node of the arena what `q` says of it. -/
def Reads (dom : Dom) (levels : Nat) (holds : Position → Bool) (q : NodeId → Bool) : Prop :=
  ∀ i above, dom.StandsBelow levels i above → holds (dom.content? (some i) :: above) = q i

section Reads

variable {holds : Position → Bool} {q : NodeId → Bool} {above : Position}

theorem countAll_map {children : List NodeId}
    (hcount : ∀ c ∈ children,
      (dom.tree c).count holds above = ((dom.preorder c).filter q).length) :
    Tree.countAll holds above (children.map dom.tree) =
      ((children.flatMap dom.preorder).filter q).length := by
  induction children with
  | nil => rfl
  | cons c rest ih =>
    rw [List.map_cons, Tree.countAll, hcount c List.mem_cons_self,
      ih fun d hd => hcount d (List.mem_cons_of_mem c hd), List.flatMap_cons, List.filter_append,
      List.length_append]

/-- The nodes of a tree that have a property of positions are those below in the arena that have
it. -/
theorem Reads.count_tree (hreads : dom.Reads levels holds q) (h : dom.WellFormed) (hi : i < dom.size)
    (habove : dom.StandsBelow levels i above) :
    (dom.tree i).count holds above = ((dom.preorder i).filter q).length := by
  induction i using h.subtree_induction generalizing above with
  | step i ih =>
    have hkids : Tree.countAll holds (dom.content? (some i) :: above) (dom.forest i) = _ :=
      countAll_map fun c hc => by
        have hci := h.mem_children_iff.mp hc
        exact ih c hci (lt_size_of_parent? hci) (habove.child hci)
    rw [h.tree_eq hi, Tree.count, hkids, hreads i above habove, h.preorder_eq hi, List.filter_cons]
    split_ifs
    · rw [List.length_cons, Nat.add_comm]
    · rw [Nat.zero_add]

end Reads

end Dom
end Markup
end CrossRef
