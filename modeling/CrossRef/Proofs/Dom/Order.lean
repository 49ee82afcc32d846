import CrossRef.Proofs.Dom.Composite
import Mathlib.Data.Finset.Card
import Mathlib.Data.List.Flatten
import Mathlib.Data.List.Nodup

/-!
Document order. On a well-formed arena the walk by links and the tree of children list the same
nodes in the same order, and the walk to the ancestors of a node finds all of them.
-/
namespace CrossRef
namespace Markup
namespace Dom

variable {dom dom' : Dom} {root p c a b i j : NodeId}

/-! ### How far a node is from the top and from the bottom -/

section Measures

open Classical

/-- How many nodes stand above a node. -/
noncomputable def depth (dom : Dom) (i : NodeId) : Nat :=
  ((Finset.range dom.size).filter (dom.Above · i)).card

/-- How many nodes stand below a node. -/
noncomputable def height (dom : Dom) (i : NodeId) : Nat :=
  ((Finset.range dom.size).filter (dom.Above i ·)).card

theorem Above.lt_size (h : dom.Above a i) : i < dom.size := by
  obtain ⟨p, -, hp⟩ := Relation.TransGen.tail'_iff.mp h
  exact lt_size_of_parent? hp

theorem Encloses.lt_size (h : dom.Encloses a i) (ha : a < dom.size) : i < dom.size := by
  rcases Relation.reflTransGen_iff_eq_or_transGen.mp h with rfl | h
  · exact ha
  · exact Above.lt_size h

theorem above_iff_exists_parent : dom.Above a i ↔ ∃ p, dom.parent? (some i) = some p ∧
    dom.Encloses a p := by
  rw [Above, Relation.TransGen.tail'_iff]
  exact exists_congr fun p => and_comm

theorem depth_le_size (dom : Dom) (i : NodeId) : dom.depth i ≤ dom.size := by
  simpa [depth] using Finset.card_filter_le (Finset.range dom.size) (dom.Above · i)

/-- Of the nodes that share a descendant one encloses the other. -/
theorem encloses_or_encloses (ha : dom.Encloses a i) (hb : dom.Encloses b i) :
    dom.Encloses a b ∨ dom.Encloses b a := by
  induction ha with
  | refl => exact .inr hb
  | tail hap hpi ih =>
    rcases hb.cases_tail with rfl | ⟨q, hbq, hqi⟩
    · exact .inl (hap.tail hpi)
    · obtain rfl := Option.some_inj.mp (hpi.symm.trans hqi)
      exact ih hbq

namespace WellFormed

theorem above_lt (h : dom.WellFormed) (ha : dom.Above a i) : a < dom.size := by
  obtain ⟨j, hj, -⟩ := Relation.TransGen.head'_iff.mp ha
  exact h.parent_lt hj

theorem depth_lt (h : dom.WellFormed) (hp : dom.parent? (some i) = some p) :
    dom.depth p < dom.depth i := by
  refine Finset.card_lt_card (Finset.ssubset_iff_of_subset ?_ |>.mpr ⟨p, ?_, ?_⟩)
  · intro a ha
    rw [Finset.mem_filter] at ha ⊢
    exact ⟨ha.1, ha.2.tail hp⟩
  · exact Finset.mem_filter.mpr ⟨Finset.mem_range.mpr (h.parent_lt hp), .single hp⟩
  · exact fun hpp => h.acyclic p (Finset.mem_filter.mp hpp).2

theorem height_lt (h : dom.WellFormed) (hp : dom.parent? (some c) = some p) :
    dom.height c < dom.height p := by
  refine Finset.card_lt_card (Finset.ssubset_iff_of_subset ?_ |>.mpr ⟨c, ?_, ?_⟩)
  · intro i hi
    rw [Finset.mem_filter] at hi ⊢
    exact ⟨hi.1, hi.2.head hp⟩
  · exact Finset.mem_filter.mpr ⟨Finset.mem_range.mpr (lt_size_of_parent? hp), .single hp⟩
  · exact fun hcc => h.acyclic c (Finset.mem_filter.mp hcc).2

theorem height_lt_size (h : dom.WellFormed) (hi : i < dom.size) : dom.height i < dom.size := by
  rw [← Finset.card_range dom.size]
  refine Finset.card_lt_card (Finset.ssubset_iff_of_subset (Finset.filter_subset _ _) |>.mpr ?_)
  refine ⟨i, Finset.mem_range.mpr hi, fun hii => h.acyclic i ?_⟩
  simpa using (Finset.mem_filter.mp hii).2

end WellFormed

end Measures

namespace WellFormed

/-- A node stands in no subtree of a sibling. -/
theorem not_encloses_sibling (h : dom.WellFormed) (ha : dom.parent? (some a) = some p)
    (hb : dom.parent? (some b) = some p) (hne : a ≠ b) : ¬ dom.Encloses a b := by
  intro hab
  rcases Relation.reflTransGen_iff_eq_or_transGen.mp hab with rfl | hab
  · exact hne rfl
  · obtain ⟨q, hq, haq⟩ := above_iff_exists_parent.mp hab
    obtain rfl := Option.some_inj.mp (hq.symm.trans hb)
    exact h.acyclic q (.head' ha haq)

/-! ### Ancestors -/

theorem isInside_iff (h : dom.WellFormed) {fuel : Nat} (hfuel : dom.depth i < fuel) :
    dom.isInside (some a) fuel (some i) = true ↔ dom.Encloses a i := by
  induction fuel generalizing i with
  | zero => omega
  | succ fuel ih =>
    rw [isInside, Bool.or_eq_true, decide_eq_true_iff, Option.some_inj, Encloses,
      Relation.ReflTransGen.cases_tail_iff]
    cases hp : dom.parent? (some i) with
    | none => cases fuel <;> simp [isInside]
    | some p =>
      have hdepth := h.depth_lt hp
      rw [ih (by omega)]
      simp [Encloses]

theorem contains_iff (h : dom.WellFormed) :
    dom.contains (some a) (some i) = true ↔ dom.Encloses a i :=
  h.isInside_iff (Nat.lt_succ_of_le (depth_le_size dom i))

end WellFormed

/-! ### The nodes of a subtree -/

/-- A node and what is below it, in document order, down to the given number of levels. -/
def preorderTo (dom : Dom) : Nat → NodeId → List NodeId
  | 0, _ => []
  | levels + 1, i => i :: (dom.children (some i)).flatMap (preorderTo dom levels)

/-- A node and all that is below it, in document order. -/
def preorder (dom : Dom) (i : NodeId) : List NodeId := dom.preorderTo dom.size i

namespace WellFormed

theorem preorderTo_eq (h : dom.WellFormed) {m n : Nat} (hm : dom.height i < m)
    (hn : dom.height i < n) : dom.preorderTo m i = dom.preorderTo n i := by
  induction m generalizing i n with
  | zero => omega
  | succ m ih =>
    obtain ⟨n, rfl⟩ : ∃ k, n = k + 1 := ⟨n - 1, by omega⟩
    rw [preorderTo, preorderTo]
    congr 1
    refine List.flatMap_congr fun c hc => ?_
    have hheight := h.height_lt (h.mem_children_iff.mp hc)
    exact ih (by omega) (by omega)

theorem preorder_eq (h : dom.WellFormed) (hi : i < dom.size) :
    dom.preorder i = i :: (dom.children (some i)).flatMap dom.preorder := by
  obtain ⟨k, hk⟩ := Nat.exists_eq_add_one_of_ne_zero (Nat.ne_zero_of_lt hi)
  rw [preorder, hk, preorderTo]
  congr 1
  refine List.flatMap_congr fun c hc => ?_
  have hheight := h.height_lt (h.mem_children_iff.mp hc)
  have hlt := h.height_lt_size hi
  exact h.preorderTo_eq (by omega) (by omega)

/-- Induction over a subtree: a node follows from its children. -/
theorem subtree_induction (h : dom.WellFormed) {motive : NodeId → Prop}
    (step : ∀ i, (∀ c, dom.parent? (some c) = some i → motive c) → motive i) (i : NodeId) :
    motive i := by
  induction hn : dom.height i using Nat.strong_induction_on generalizing i with
  | _ n ih =>
    subst hn
    exact step i fun c hc => ih (dom.height c) (h.height_lt hc) c rfl

theorem mem_preorder_iff (h : dom.WellFormed) (hi : i < dom.size) :
    j ∈ dom.preorder i ↔ dom.Encloses i j := by
  induction i using h.subtree_induction with
  | step i ih =>
    rw [h.preorder_eq hi, Encloses, Relation.ReflTransGen.cases_head_iff, List.mem_cons,
      eq_comm, List.mem_flatMap]
    refine or_congr Iff.rfl (exists_congr fun c => ?_)
    rw [h.mem_children_iff]
    exact and_congr_right fun hc => ih c hc (lt_size_of_parent? hc)

theorem mem_flatMap_preorder_iff (h : dom.WellFormed) :
    j ∈ (dom.children (some i)).flatMap dom.preorder ↔ dom.Above i j := by
  rw [Above, Relation.TransGen.head'_iff, List.mem_flatMap]
  refine exists_congr fun c => ?_
  rw [h.mem_children_iff]
  exact and_congr_right fun hc => h.mem_preorder_iff (lt_size_of_parent? hc)

theorem pairwise_flatMap_preorder (h : dom.WellFormed)
    (hc : ∀ c, dom.parent? (some c) = some i →
      (dom.preorder c).Pairwise fun a b => ¬ dom.Encloses b a) :
    ((dom.children (some i)).flatMap dom.preorder).Pairwise fun a b => ¬ dom.Encloses b a := by
  refine List.pairwise_flatMap.mpr ⟨fun c hmem => hc c (h.mem_children_iff.mp hmem), ?_⟩
  refine (h.nodup_children i).imp_of_mem fun {c d} hmc hmd hne => ?_
  have hcp := h.mem_children_iff.mp hmc
  have hdp := h.mem_children_iff.mp hmd
  intro a ha b hb hba
  rw [h.mem_preorder_iff (lt_size_of_parent? hcp)] at ha
  rw [h.mem_preorder_iff (lt_size_of_parent? hdp)] at hb
  rcases encloses_or_encloses ha (hb.trans hba) with hcd | hdc
  · exact h.not_encloses_sibling hcp hdp hne hcd
  · exact h.not_encloses_sibling hdp hcp hne.symm hdc

/-- In document order no node comes after one that it encloses. -/
theorem pairwise_preorder (h : dom.WellFormed) (hi : i < dom.size) :
    (dom.preorder i).Pairwise fun a b => ¬ dom.Encloses b a := by
  induction i using h.subtree_induction with
  | step i ih =>
    rw [h.preorder_eq hi, List.pairwise_cons]
    refine ⟨fun b hb hbi => h.acyclic i ?_, ?_⟩
    · exact .trans_left (h.mem_flatMap_preorder_iff.mp hb) hbi
    · exact h.pairwise_flatMap_preorder fun c hc => ih c hc (lt_size_of_parent? hc)

theorem pairwise_below (h : dom.WellFormed) (i : NodeId) :
    ((dom.children (some i)).flatMap dom.preorder).Pairwise fun a b => ¬ dom.Encloses b a :=
  h.pairwise_flatMap_preorder fun _ hc => h.pairwise_preorder (lt_size_of_parent? hc)

theorem nodup_below (h : dom.WellFormed) (i : NodeId) :
    ((dom.children (some i)).flatMap dom.preorder).Nodup :=
  (h.pairwise_below i).imp fun hba => by
    rintro rfl
    exact hba .refl

theorem length_below_le (h : dom.WellFormed) (i : NodeId) :
    ((dom.children (some i)).flatMap dom.preorder).length ≤ dom.size := by
  have hsub : (dom.children (some i)).flatMap dom.preorder ⊆ List.range dom.size :=
    fun j hj => List.mem_range.mpr (h.mem_flatMap_preorder_iff.mp hj).lt_size
  simpa using (h.nodup_below i).length_le_of_subset hsub

end WellFormed

/-! ### The walk along the links -/

/-- Where the walk inside `root` goes on after the subtree of `i`. -/
def after (dom : Dom) (root i : NodeId) : Link :=
  dom.following (some root) (dom.size + 1) (some i)

theorem after_root (dom : Dom) (root : NodeId) : dom.after root root = none := by
  simp [after, following]

theorem walkFrom_none (root : Link) (fuel : Nat) : dom.walkFrom root fuel none = [] := by
  cases fuel <;> rfl

theorem walkFrom_succ (hi : i < dom.size) (fuel : Nat) :
    dom.walkFrom (some root) (fuel + 1) (some i) =
      i :: dom.walkFrom (some root) fuel ((dom.firstChild? (some i)).or (dom.after root i)) := by
  obtain ⟨node, hn⟩ := exists_node hi
  rw [walkFrom, hn]
  cases hc : node.firstChild <;> simp [successor, after, firstChild?, hn, hc]

namespace WellFormed

theorem following_eq (h : dom.WellFormed) {m n : Nat} (hm : dom.depth i < m)
    (hn : dom.depth i < n) :
    dom.following (some root) m (some i) = dom.following (some root) n (some i) := by
  induction m generalizing i n with
  | zero => omega
  | succ m ih =>
    obtain ⟨n, rfl⟩ : ∃ k, n = k + 1 := ⟨n - 1, by omega⟩
    rw [following, following]
    cases hnode : dom.node? (some i) with
    | none => rfl
    | some node =>
      cases hp : node.parent with
      | none => simp [hp]
      | some p =>
        have hdepth := h.depth_lt (i := i) (p := p) (by simp [parent?, hnode, hp])
        simp [ih (i := p) (n := n) (by omega) (by omega), hp]

theorem after_eq (h : dom.WellFormed) (hi : i ≠ root) (hp : dom.parent? (some i) = some p) :
    dom.after root i = (dom.next? (some i)).or (dom.after root p) := by
  obtain ⟨node, hn⟩ := exists_node (lt_size_of_parent? hp)
  have hnp : node.parent = some p := by simpa [parent?, hn] using hp
  have hdepth := h.depth_lt hp
  have hsize := depth_le_size dom i
  rw [after, following, if_neg (by simpa using hi), hn, after,
    h.following_eq (i := p) (m := dom.size + 1) (n := dom.size) (by omega) (by omega)]
  cases hnext : node.next <;> simp [next?, hn, hnext, hnp]

/-- The walk inside `root` lists the subtrees of the last children of `p` and then leaves `p`. -/
theorem walkFrom_eq (h : dom.WellFormed) (hp : p < dom.size) (hroot : dom.Encloses root p)
    {xs ys : List NodeId} (hkids : dom.children (some p) = xs ++ ys) (fuel : Nat) :
    dom.walkFrom (some root) ((ys.flatMap dom.preorder).length + fuel)
        (ys.head?.or (dom.after root p)) =
      ys.flatMap dom.preorder ++ dom.walkFrom (some root) fuel (dom.after root p) := by
  induction p using h.subtree_induction generalizing xs ys fuel with
  | step p ih =>
    induction ys generalizing xs fuel with
    | nil => simp
    | cons c ys ihys =>
      have hl := hkids ▸ h.childList_children hp
      have hcp : dom.parent? (some c) = some p := (hl.mem_iff c).mp (by simp)
      have hc := lt_size_of_parent? hcp
      have hne : c ≠ root := by
        rintro rfl
        exact h.acyclic c (.tail' hroot hcp)
      have hwalk := ih c hcp hc (hroot.tail hcp) (List.nil_append _).symm
        ((ys.flatMap dom.preorder).length + fuel)
      have hrest := ihys (show dom.children (some p) = (xs ++ [c]) ++ ys by simpa using hkids) fuel
      have hlen : ((c :: ys).flatMap dom.preorder).length + fuel =
          ((dom.children (some c)).flatMap dom.preorder).length +
            ((ys.flatMap dom.preorder).length + fuel) + 1 := by
        rw [List.flatMap_cons, h.preorder_eq hc]
        simp only [List.length_append, List.length_cons]
        omega
      rw [hlen, List.head?_cons, Option.some_or, walkFrom_succ hc,
        (h.childList_children hc).first, hwalk, h.after_eq hne hcp, hl.next?_eq, hrest,
        List.flatMap_cons, h.preorder_eq hc]
      simp

/-- The descendants of a node are the subtrees of its children. -/
theorem descendants_eq (h : dom.WellFormed) (hroot : root < dom.size) :
    dom.descendants (some root) = (dom.children (some root)).flatMap dom.preorder := by
  have hlen := h.length_below_le root
  have hwalk := h.walkFrom_eq hroot .refl (List.nil_append _).symm
    (dom.size + 1 - ((dom.children (some root)).flatMap dom.preorder).length)
  rw [after_root, walkFrom_none, Option.or_none, Nat.add_sub_cancel' (by omega),
    List.append_nil] at hwalk
  rw [descendants, (h.childList_children hroot).first, hwalk]

theorem mem_descendants_iff (h : dom.WellFormed) (hroot : root < dom.size) :
    i ∈ dom.descendants (some root) ↔ dom.Above root i := by
  rw [h.descendants_eq hroot, h.mem_flatMap_preorder_iff]

theorem nodup_descendants (h : dom.WellFormed) (hroot : root < dom.size) :
    (dom.descendants (some root)).Nodup := by
  rw [h.descendants_eq hroot]
  exact h.nodup_below root

theorem pairwise_descendants (h : dom.WellFormed) (hroot : root < dom.size) :
    (dom.descendants (some root)).Pairwise fun a b => ¬ dom.Encloses b a := by
  rw [h.descendants_eq hroot]
  exact h.pairwise_below root

/-! ### Subtrees that two arenas share -/

theorem preorder_congr (h : dom.WellFormed) (h' : dom'.WellFormed) (hi : i < dom.size)
    (hi' : i < dom'.size)
    (hkids : ∀ j, dom.Encloses i j → dom'.children (some j) = dom.children (some j)) :
    dom'.preorder i = dom.preorder i := by
  induction i using h.subtree_induction with
  | step i ih =>
    rw [h.preorder_eq hi, h'.preorder_eq hi', hkids i .refl]
    congr 1
    refine List.flatMap_congr fun c hc => ?_
    have hcp := h.mem_children_iff.mp hc
    have hcp' := h'.mem_children_iff.mp (hkids i .refl ▸ hc)
    exact ih c hcp (lt_size_of_parent? hcp) (lt_size_of_parent? hcp') fun j hj => hkids j (hj.head hcp)

theorem descendants_congr (h : dom.WellFormed) (h' : dom'.WellFormed) (hi : i < dom.size)
    (hi' : i < dom'.size)
    (hkids : ∀ j, dom.Encloses i j → dom'.children (some j) = dom.children (some j)) :
    dom'.descendants (some i) = dom.descendants (some i) := by
  have hpre := h.preorder_congr h' hi hi' hkids
  rw [h.preorder_eq hi, h'.preorder_eq hi', List.cons_inj_right] at hpre
  rw [h.descendants_eq hi, h'.descendants_eq hi', hpre]

end WellFormed

/-- The text of a node that is not text is that of the text nodes below it. -/
theorem textOf_of_not_text (hcontent : ∀ text, dom.content? (some i) ≠ some (.text text)) :
    dom.textOf (some i) = String.join ((dom.descendants (some i)).filterMap fun j =>
      match dom.content? (some j) with
      | some (.text text) => some text
      | _ => none) := by
  unfold textOf
  split
  · next text htext => exact absurd htext (hcontent text)
  · rfl

theorem textOf_of_name (hname : (dom.name? (some i)).isSome) :
    dom.textOf (some i) = String.join ((dom.descendants (some i)).filterMap fun j =>
      match dom.content? (some j) with
      | some (.text text) => some text
      | _ => none) :=
  textOf_of_not_text fun text htext => by simp [name?, htext] at hname

theorem WellFormed.textOf_of_only_text (h : dom.WellFormed) (hname : (dom.name? (some i)).isSome)
    {text : String} (hkids : dom.children (some i) = [c])
    (hcontent : dom.content? (some c) = some (.text text)) (hleaf : dom.children (some c) = []) :
    dom.textOf (some i) = text := by
  have hc : c < dom.size := (content?_isSome_iff dom c).mp (by simp [hcontent])
  have hbelow : dom.descendants (some i) = [c] := by
    rw [h.descendants_eq (lt_size_of_name? hname), hkids, List.flatMap_singleton, h.preorder_eq hc,
      hleaf]
    rfl
  rw [textOf_of_name hname, hbelow]
  simp [hcontent, String.join]

end Dom
end Markup
end CrossRef
