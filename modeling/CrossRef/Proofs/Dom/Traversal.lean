import CrossRef.Proofs.Dom.ShownLink

/-!
The walk below a node keeps nothing but the place where it stands. It comes to an end, and what it has
visited by then is what the recursion over the children lists, in the same order. So the text of a node
is that of its children, one after the other.
-/
namespace CrossRef
namespace Markup
namespace Dom

variable {dom : Dom} {root i j p c : NodeId} {l l' : Link} {nodes nodes' : List NodeId}

/-! ### The climb and the walk -/

/-- Looking from a node for the next sibling of it or of one of the nodes above it, no higher than
`root`, ends with this link. -/
inductive Climbs (dom : Dom) (root : NodeId) : NodeId → Link → Prop
  | root : Climbs dom root root none
  | next {i j : NodeId} : i ≠ root → dom.next? (some i) = some j → Climbs dom root i (some j)
  | up {i p : NodeId} {l : Link} : i ≠ root → dom.next? (some i) = none →
    dom.parent? (some i) = some p → Climbs dom root p l → Climbs dom root i l
  | top {i : NodeId} : i ≠ root → dom.next? (some i) = none → dom.parent? (some i) = none →
    Climbs dom root i none

/-- From this place on, the walk below `root` visits these nodes and comes to an end. -/
inductive Walks (dom : Dom) (root : NodeId) : Link → List NodeId → Prop
  | done : Walks dom root none []
  | missing {i : NodeId} : dom.size ≤ i → Walks dom root (some i) []
  | down {i c : NodeId} {nodes : List NodeId} : i < dom.size → dom.firstChild? (some i) = some c →
    Walks dom root (some c) nodes → Walks dom root (some i) (i :: nodes)
  | onward {i : NodeId} {l : Link} {nodes : List NodeId} : i < dom.size →
    dom.firstChild? (some i) = none → dom.Climbs root i l → Walks dom root l nodes →
      Walks dom root (some i) (i :: nodes)

theorem Climbs.unique (h : dom.Climbs root i l) (h' : dom.Climbs root i l') : l = l' := by
  induction h with
  | root => cases h' <;> simp_all
  | next => cases h' <;> simp_all
  | up _ _ _ _ ih => cases h' <;> simp_all
  | top => cases h' <;> simp_all

theorem Walks.unique (h : dom.Walks root l nodes) (h' : dom.Walks root l nodes') : nodes = nodes' := by
  induction h generalizing nodes' with
  | done =>
    cases h'
    rfl
  | missing hi =>
    cases h' with
    | missing => rfl
    | down hi' => exact absurd hi' hi.not_gt
    | onward hi' => exact absurd hi' hi.not_gt
  | down hi hc _ ih =>
    cases h' with
    | missing hi' => exact absurd hi hi'.not_gt
    | down _ hc' hrest =>
      obtain rfl := Option.some_inj.mp (hc.symm.trans hc')
      rw [ih hrest]
    | onward _ hc' => simp [hc] at hc'
  | onward hi hc hclimb _ ih =>
    cases h' with
    | missing hi' => exact absurd hi hi'.not_gt
    | down _ hc' => simp [hc] at hc'
    | onward _ _ hclimb' hrest =>
      obtain rfl := hclimb.unique hclimb'
      rw [ih hrest]

namespace WellFormed

theorem after_of_top (h : dom.WellFormed) (hp : dom.parent? (some i) = none) :
    dom.after root i = none := by
  have hnext := (h.alone i hp).2
  rw [after, following]
  split_ifs
  · rfl
  · cases hn : dom.node? (some i) with
    | none => rfl
    | some node => simp_all [parent?, next?]

/-- The climb ends, because each step leaves fewer nodes above. -/
theorem climbs_after (h : dom.WellFormed) (root i : NodeId) :
    dom.Climbs root i (dom.after root i) := by
  induction hdepth : dom.depth i using Nat.strong_induction_on generalizing i with
  | _ n ih =>
    subst hdepth
    by_cases hi : i = root
    · rw [hi, after_root]
      exact .root
    · cases hp : dom.parent? (some i) with
      | none =>
        rw [h.after_of_top hp]
        exact .top hi (h.alone i hp).2 hp
      | some p =>
        rw [h.after_eq hi hp]
        cases hnext : dom.next? (some i) with
        | none => exact .up hi hnext hp (ih _ (h.depth_lt hp) p rfl)
        | some j => exact .next hi hnext

/-- A walk that has fuel left has come to an end. -/
theorem walks_walkFrom (h : dom.WellFormed) {fuel : Nat}
    (hfuel : (dom.walkFrom (some root) fuel l).length < fuel) :
    dom.Walks root l (dom.walkFrom (some root) fuel l) := by
  induction fuel generalizing l with
  | zero => exact absurd hfuel (Nat.not_lt_zero _)
  | succ fuel ih =>
    cases l with
    | none => exact .done
    | some i =>
      by_cases hi : i < dom.size
      · rw [walkFrom_succ hi] at hfuel ⊢
        have hrest := ih (Nat.lt_of_succ_lt_succ hfuel)
        cases hc : dom.firstChild? (some i) with
        | none =>
          rw [hc, Option.none_or] at hrest
          exact .onward hi hc (h.climbs_after root i) hrest
        | some c =>
          rw [hc, Option.some_or] at hrest
          exact .down hi hc hrest
      · have hmissing := Nat.le_of_not_lt hi
        rw [walkFrom, (node?_eq_none_iff dom i).mpr hmissing]
        exact .missing hmissing

/-- A node that does not exist has no descendants either. -/
theorem descendants_eq_flatMap (h : dom.WellFormed) (root : NodeId) :
    dom.descendants (some root) = (dom.children (some root)).flatMap dom.preorder := by
  by_cases hroot : root < dom.size
  · exact h.descendants_eq hroot
  · have hmissing := Nat.le_of_not_lt hroot
    rw [children_of_size_le hmissing, descendants, firstChild?,
      (node?_eq_none_iff dom root).mpr hmissing]
    exact walkFrom_none _ _

theorem walks_iff (h : dom.WellFormed) :
    dom.Walks root (dom.firstChild? (some root)) nodes ↔ nodes = dom.descendants (some root) := by
  have hlen := h.length_below_le root
  rw [← h.descendants_eq_flatMap] at hlen
  have hwalks : dom.Walks root (dom.firstChild? (some root)) (dom.descendants (some root)) :=
    h.walks_walkFrom (Nat.lt_succ_of_le hlen)
  exact ⟨fun hnodes => hnodes.unique hwalks, fun hnodes => hnodes ▸ hwalks⟩

/-! ### Texts -/

/-- The text of a node, seen as a tree. -/
theorem textOf_tree (h : dom.WellFormed) (hleaf : dom.TextIsLeaf) (hi : i < dom.size) :
    dom.textOf (some i) = Tree.textOf [dom.tree i] := by
  rw [h.tree_eq hi]
  cases hcontent : Tree.textIn? (dom.content? (some i)) with
  | none =>
    have hholds : dom.CanHold i := ⟨hi, fun text htext => by simp [htext, Tree.textIn?] at hcontent⟩
    rw [h.textOf_eq hholds, Tree.textOf_node hcontent]
  | some text =>
    have htext : dom.content? (some i) = some (.text text) := by
      unfold Tree.textIn? at hcontent
      split at hcontent <;> simp_all
    rw [htext, forest, hleaf i text htext, textOf, htext]
    exact (Tree.textOf_ofText text).symm

theorem textOf_children (h : dom.WellFormed) (hleaf : dom.TextIsLeaf)
    (hcontent : ∀ text, dom.content? (some i) ≠ some (.text text)) :
    dom.textOf (some i) =
      String.join ((dom.children (some i)).map fun c => dom.textOf (some c)) := by
  by_cases hi : i < dom.size
  · rw [h.textOf_eq ⟨hi, hcontent⟩, Tree.textOf_eq_join, forest, List.map_map]
    congr 1
    refine List.map_congr_left fun c hc => ?_
    exact (h.textOf_tree hleaf (lt_size_of_parent? (h.mem_children_iff.mp hc))).symm
  · rw [textOf_of_not_text hcontent, h.descendants_eq_flatMap,
      children_of_size_le (Nat.le_of_not_lt hi)]
    rfl

end WellFormed

/-- The walk below a node ends after it has visited each node below once, in the order of the recursion
over the children, and no other node. So the text of a node that is not text is put together from the
texts of its children, if text nodes are leaves, as they are in all markup that was read. -/
theorem descendants_in_document_order (h : dom.WellFormed) (root : NodeId) :
    (∀ nodes, dom.Walks root (dom.firstChild? (some root)) nodes ↔
        nodes = dom.descendants (some root)) ∧
      dom.descendants (some root) = (dom.children (some root)).flatMap dom.preorder ∧
      (∀ i < dom.size, dom.preorder i = i :: (dom.children (some i)).flatMap dom.preorder) ∧
      (dom.descendants (some root)).Nodup ∧
      (∀ i, i ∈ dom.descendants (some root) ↔ dom.Above root i) ∧
      (dom.TextIsLeaf → (∀ text, dom.content? (some root) ≠ some (.text text)) →
        dom.textOf (some root) =
          String.join ((dom.children (some root)).map fun c => dom.textOf (some c))) ∧
      ∀ html, (Fragment.parse html).dom.TextIsLeaf := by
  refine ⟨fun nodes => h.walks_iff, h.descendants_eq_flatMap root, fun i hi => h.preorder_eq hi,
    ?_, fun i => ?_, h.textOf_children, Fragment.textIsLeaf_parse⟩
  · rw [h.descendants_eq_flatMap]
    exact h.nodup_below root
  · rw [h.descendants_eq_flatMap]
    exact h.mem_flatMap_preorder_iff

/-- The second of three paragraphs: the walk goes down to the text in bold print, up again, and does not
go on to the third. -/
theorem descendants_of_second_paragraph :
    let made (dom : Dom) (content : Content) (p : NodeId) :=
      (dom.create content).1.append (some p) (some dom.size)
    let paragraph : Content := .element (.html "p") []
    let dom := made (made (made (made (made (made empty paragraph 0) paragraph 0) paragraph 0)
      (.element (.html "b") []) 2) (.text "x") 4) (.text "y") 2
    dom.next? (some 2) = some 3 ∧ dom.Walks 2 (some 4) [4, 5, 6] ∧ dom.textOf (some 2) = "xy" := by
  intro made paragraph dom
  have hmade : ∀ {dom : Dom} {p : NodeId} (content : Content), Html.Holds dom [] → dom.CanHold p →
      Html.Holds (made dom content p) [] := fun content h hp => h.append_create hp content
  have hfirst := hmade paragraph Html.holds_empty Html.holds_empty.document
  have hsecond := hmade paragraph hfirst hfirst.document
  have hthird := hmade paragraph hsecond hsecond.document
  have hbold := hmade (p := 2) (.element (.html "b") []) hthird (.of_name (by decide))
  have hinner := hmade (p := 4) (.text "x") hbold (.of_name (by decide))
  have hholds : Html.Holds dom [] := hmade (p := 2) (.text "y") hinner (.of_name (by decide))
  obtain ⟨hwalks, -, -, -, -, htext, -⟩ := descendants_in_document_order hholds.wellFormed 2
  have hcontent : dom.content? (some 2) = some paragraph := by decide
  have hstart : dom.firstChild? (some 2) = some 4 := by decide
  rw [hstart] at hwalks
  refine ⟨by decide, (hwalks _).mpr (by decide), ?_⟩
  exact (htext hholds.leaves (by simp [hcontent, paragraph])).trans (by decide)

end Dom
end Markup
end CrossRef
