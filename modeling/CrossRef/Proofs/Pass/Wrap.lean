import CrossRef.Pass.EquationNumbers
import CrossRef.Proofs.Dom.Order

/-!
Wrapping one equation. Everything but the equation keeps its parent and everything keeps its content;
the display box takes the place of the equation among the children of its old parent.
-/
namespace CrossRef
namespace Pass

open Markup Markup.Dom

variable {dom : Dom} {x p i q : NodeId}

/-- The arena with the three boxes for an equation, not yet linked. -/
def makeBoxes (dom : Dom) : Dom :=
  (((dom.create (divOf displayClass)).1.create (divOf contentClass)).1.create (divOf numberClass)).1

/-- The arena after the equation gave its place to the display box and went into the content box. -/
def moveIntoBox (dom : Dom) (x : NodeId) : Dom :=
  (((makeBoxes dom).insertBefore (some x) (some dom.size)).detach (some x)).append
    (some (dom.size + 1)) (some x)

/-- The arena after the boxes are put into each other. -/
def nestBoxes (dom : Dom) (x : NodeId) : Dom :=
  ((moveIntoBox dom x).append (some dom.size) (some (dom.size + 1))).append (some dom.size)
    (some (dom.size + 2))

theorem wrap_eq (dom : Dom) (x : NodeId) (label : String) :
    wrap dom x label = (nestBoxes dom x).appendText (some (dom.size + 2)) label := by
  simp [wrap, nestBoxes, moveIntoBox, makeBoxes]

@[simp] theorem size_makeBoxes (dom : Dom) : (makeBoxes dom).size = dom.size + 3 := by
  simp [makeBoxes]

@[simp] theorem size_moveIntoBox (dom : Dom) (x : NodeId) :
    (moveIntoBox dom x).size = dom.size + 3 := by
  simp [moveIntoBox]

@[simp] theorem size_nestBoxes (dom : Dom) (x : NodeId) :
    (nestBoxes dom x).size = dom.size + 3 := by
  simp [nestBoxes]

@[simp] theorem parent?_makeBoxes (dom : Dom) (i : NodeId) :
    (makeBoxes dom).parent? (some i) = dom.parent? (some i) := by
  simp [makeBoxes]

theorem parent?_moveIntoBox (hx : x < dom.size) (i : NodeId) :
    (moveIntoBox dom x).parent? (some i) =
      if i = x then some (dom.size + 1)
      else if i = dom.size then dom.parent? (some x) else dom.parent? (some i) := by
  rw [moveIntoBox, parent?_append _ _ _ (by simpa using Nat.lt_add_right 3 hx), parent?_detach,
    parent?_insertBefore _ (by simpa using Nat.lt_add_right 3 hx) (by simp)]
  grind [parent?_makeBoxes]

theorem parent?_nestBoxes (hx : x < dom.size) (i : NodeId) :
    (nestBoxes dom x).parent? (some i) =
      if i = x then some (dom.size + 1)
      else if i = dom.size then dom.parent? (some x)
      else if i = dom.size + 1 ∨ i = dom.size + 2 then some dom.size
      else dom.parent? (some i) := by
  rw [nestBoxes, parent?_append _ _ _ (by simp), parent?_append _ _ _ (by simp),
    parent?_moveIntoBox hx]
  grind

theorem content?_nestBoxes (hx : x < dom.size) (i : NodeId) :
    (nestBoxes dom x).content? (some i) =
      if i = dom.size then some (divOf displayClass)
      else if i = dom.size + 1 then some (divOf contentClass)
      else if i = dom.size + 2 then some (divOf numberClass)
      else dom.content? (some i) := by
  have hlt : x < (makeBoxes dom).size := by simpa using Nat.lt_add_right 3 hx
  simp only [nestBoxes, moveIntoBox, content?_append, content?_detach, content?_insertBefore _ hlt]
  simp only [makeBoxes, content?_create, size_create]
  grind

/-! ### Well-formedness -/

theorem wellFormed_makeBoxes (h : dom.WellFormed) : (makeBoxes dom).WellFormed :=
  ((h.create _).create _).create _

/-- A box that was just made encloses nothing that was there before. -/
theorem not_encloses_box (h : dom.WellFormed) {b : NodeId} (hb : dom.size ≤ b) (hi : i < dom.size) :
    ¬ (makeBoxes dom).Encloses b i := by
  refine not_encloses_of_childless (fun j _ hj => ?_) (hi.trans_le hb).ne
  rw [parent?_makeBoxes] at hj
  exact absurd (h.parent_lt hj) (Nat.not_lt.mpr hb)

theorem wellFormed_placeBox (h : dom.WellFormed) (hx : dom.parent? (some x) = some p) :
    ((makeBoxes dom).insertBefore (some x) (some dom.size)).WellFormed := by
  refine (wellFormed_makeBoxes h).insertBefore (p := p) ?_ (by simp) ?_ ?_
  · simpa using hx
  · simpa using parent?_size dom
  · exact not_encloses_box h le_rfl (lt_size_of_parent? hx)

theorem wellFormed_moveIntoBox (h : dom.WellFormed) (hx : dom.parent? (some x) = some p) :
    (moveIntoBox dom x).WellFormed := by
  have hlt := lt_size_of_parent? hx
  have hlt' : x < (makeBoxes dom).size := by simpa using Nat.lt_add_right 3 hlt
  refine ((wellFormed_placeBox h hx).detach x).append ?_ ?_ ?_ fun henc => ?_
  · simp
  · simpa using hlt'
  · simp [parent?_detach]
  · obtain heq | ⟨q, -, hq⟩ := henc.cases_tail
    · grind
    · have hnone := parent?_of_size_le (Nat.le_add_right dom.size 1)
      rw [parent?_detach, parent?_insertBefore _ hlt' (by simp)] at hq
      grind [parent?_makeBoxes]

/-- Where no parent link changes below `x` only, the way up from a node outside stays. -/
theorem encloses_of_parent?_eq {dom' : Dom} {a : NodeId} (h : dom.WellFormed)
    (hparent : ∀ i < dom.size, i ≠ x → dom'.parent? (some i) = dom.parent? (some i))
    (henc : dom'.Encloses a i) (hi : i < dom.size) (hxi : ¬ dom.Encloses x i) :
    dom.Encloses a i := by
  induction henc with
  | refl => exact .refl
  | tail _ hji ih =>
    have hne : ∀ i, ¬ dom.Encloses x i → i ≠ x := by
      rintro i hxi rfl
      exact hxi .refl
    rw [hparent _ hi (hne _ hxi)] at hji
    exact (ih (h.parent_lt hji) fun hxj => hxi (hxj.tail hji)).tail hji

theorem wellFormed_nestContent (h : dom.WellFormed) (hx : dom.parent? (some x) = some p) :
    ((moveIntoBox dom x).append (some dom.size) (some (dom.size + 1))).WellFormed := by
  have hlt := lt_size_of_parent? hx
  have hparent := parent?_moveIntoBox hlt
  have hxp : ¬ dom.Encloses x p := fun hxp => h.acyclic x (.tail' hxp hx)
  refine (wellFormed_moveIntoBox h hx).append (by simp) (by simp) ?_ fun henc => ?_
  · have hfresh := parent?_of_size_le (Nat.le_add_right dom.size 1)
    grind
  · obtain heq | ⟨q, hq, hqp⟩ := henc.cases_tail
    · exact absurd heq.symm (Nat.succ_ne_self _)
    · rw [hparent, if_neg hlt.ne', if_pos rfl, hx, Option.some_inj] at hqp
      subst hqp
      have hp := h.parent_lt hx
      have hold := encloses_of_parent?_eq h (fun i hi hne => by grind) hq hp hxp
      obtain heq | habove := Relation.reflTransGen_iff_eq_or_transGen.mp hold
      · grind
      · have hbox := h.above_lt habove
        grind

theorem wellFormed_nestBoxes (h : dom.WellFormed) (hx : dom.parent? (some x) = some p) :
    (nestBoxes dom x).WellFormed := by
  have hparent := parent?_moveIntoBox (lt_size_of_parent? hx)
  refine (wellFormed_nestContent h hx).append (by simp) (by simp) ?_ ?_
  · rw [parent?_append _ _ _ (by simp), hparent]
    have hfresh := parent?_of_size_le (Nat.le_add_right dom.size 2)
    grind
  · refine not_encloses_of_childless (fun j _ hj => ?_) (by grind)
    rw [parent?_append _ _ _ (by simp), hparent] at hj
    have hlt := @h.parent_lt
    grind

/-! ### The boxes in place -/

/-- The display box stands where the equation stood. -/
def replaceChild (x box : NodeId) (nodes : List NodeId) : List NodeId :=
  nodes.map fun i => if i = x then box else i

theorem filter_flatMap_eq_replaceChild {x box : NodeId} (hbox : box ≠ x) (nodes : List NodeId) :
    (nodes.flatMap fun i => if i = x then [box, x] else [i]).filter (· ≠ x) =
      replaceChild x box nodes := by
  induction nodes with
  | nil => rfl
  | cons i nodes ih => by_cases hi : i = x <;> simp_all [replaceChild]

theorem children_makeBoxes (h : dom.WellFormed) (q : NodeId) :
    (makeBoxes dom).children (some q) = dom.children (some q) := by
  rw [makeBoxes, ((h.create _).create _).children_create, (h.create _).children_create,
    h.children_create]

theorem children_moveIntoBox (h : dom.WellFormed) (hx : dom.parent? (some x) = some p)
    (q : NodeId) : (moveIntoBox dom x).children (some q) =
      if q = dom.size + 1 then [x] else replaceChild x dom.size (dom.children (some q)) := by
  have hlt := lt_size_of_parent? hx
  have hlt' : x < (makeBoxes dom).size := by simpa using Nat.lt_add_right 3 hlt
  have hplace := wellFormed_placeBox h hx
  have hkids : ∀ q, (((makeBoxes dom).insertBefore (some x) (some dom.size)).detach
      (some x)).children (some q) = replaceChild x dom.size (dom.children (some q)) := by
    intro q
    rw [hplace.children_detach, (wellFormed_makeBoxes h).children_insertBefore hlt' (by simp)
      (by simpa using parent?_size dom), children_makeBoxes h]
    exact filter_flatMap_eq_replaceChild hlt.ne' _
  rw [moveIntoBox, (hplace.detach x).children_append (by simp) (by simpa using hlt')
    (by simp [parent?_detach]), hkids, hkids, children_of_size_le (Nat.le_succ _)]
  rfl

theorem children_nestBoxes (h : dom.WellFormed) (hx : dom.parent? (some x) = some p)
    (q : NodeId) : (nestBoxes dom x).children (some q) =
      if q = dom.size then [dom.size + 1, dom.size + 2]
      else if q = dom.size + 1 then [x] else replaceChild x dom.size (dom.children (some q)) := by
  have hparent := parent?_moveIntoBox (lt_size_of_parent? hx)
  have hfresh := parent?_of_size_le (Nat.le_add_right dom.size 1)
  have hfresh' := parent?_of_size_le (Nat.le_add_right dom.size 2)
  rw [nestBoxes, (wellFormed_nestContent h hx).children_append (by simp) (by simp)
    (by rw [parent?_append _ _ _ (by simp), hparent]; grind)]
  simp only [(wellFormed_moveIntoBox h hx).children_append (p := dom.size) (c := dom.size + 1)
    (by simp) (by simp) (by grind), children_moveIntoBox h hx]
  rw [children_of_size_le le_rfl]
  grind [replaceChild]

/-! ### Wrapping -/

/-- The number box has no children before the number is put into it. -/
theorem wrap_eq_append (h : dom.WellFormed) (hx : dom.parent? (some x) = some p) (label : String) :
    wrap dom x label = ((nestBoxes dom x).create (.text label)).1.append (some (dom.size + 2))
      (some (dom.size + 3)) := by
  have hkids : (nestBoxes dom x).children (some (dom.size + 2)) = [] := by
    rw [children_nestBoxes h hx, children_of_size_le (Nat.le_add_right _ 2)]
    grind [replaceChild]
  rw [wrap_eq, appendText_of_childless (wellFormed_nestBoxes h hx) (by simp) hkids,
    size_nestBoxes]

theorem wellFormed_wrap (h : dom.WellFormed) (hx : dom.parent? (some x) = some p) (label : String) :
    (wrap dom x label).WellFormed := by
  rw [wrap_eq]
  exact (wellFormed_nestBoxes h hx).appendText (by simp) label

theorem size_wrap (h : dom.WellFormed) (hx : dom.parent? (some x) = some p) (label : String) :
    (wrap dom x label).size = dom.size + 4 := by
  simp [wrap_eq_append h hx]

theorem parent?_wrap (h : dom.WellFormed) (hx : dom.parent? (some x) = some p) (label : String)
    (i : NodeId) : (wrap dom x label).parent? (some i) =
      if i = x then some (dom.size + 1)
      else if i = dom.size then some p
      else if i = dom.size + 1 ∨ i = dom.size + 2 then some dom.size
      else if i = dom.size + 3 then some (dom.size + 2)
      else dom.parent? (some i) := by
  have hlt := lt_size_of_parent? hx
  rw [wrap_eq_append h hx, parent?_append _ _ _ (by simp), parent?_create,
    parent?_nestBoxes hlt, hx]
  grind

theorem content?_wrap (h : dom.WellFormed) (hx : dom.parent? (some x) = some p) (label : String)
    (i : NodeId) : (wrap dom x label).content? (some i) =
      if i = dom.size then some (divOf displayClass)
      else if i = dom.size + 1 then some (divOf contentClass)
      else if i = dom.size + 2 then some (divOf numberClass)
      else if i = dom.size + 3 then some (.text label)
      else dom.content? (some i) := by
  rw [wrap_eq_append h hx, content?_append, content?_create, size_nestBoxes,
    content?_nestBoxes (lt_size_of_parent? hx)]
  grind

theorem children_wrap (h : dom.WellFormed) (hx : dom.parent? (some x) = some p) (label : String)
    (q : NodeId) : (wrap dom x label).children (some q) =
      if q = dom.size then [dom.size + 1, dom.size + 2]
      else if q = dom.size + 1 then [x]
      else if q = dom.size + 2 then [dom.size + 3]
      else replaceChild x dom.size (dom.children (some q)) := by
  have hnest := wellFormed_nestBoxes h hx
  have hkids := hnest.children_append_create (.text label) (p := dom.size + 2) (by simp) q
  rw [size_nestBoxes, ← wrap_eq_append h hx, children_nestBoxes h hx, children_nestBoxes h hx,
    children_of_size_le (Nat.le_add_right _ 2)] at hkids
  rw [hkids]
  grind [replaceChild]

end Pass
end CrossRef
