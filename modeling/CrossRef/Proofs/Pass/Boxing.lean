import CrossRef.Proofs.Dom.Tree
import CrossRef.Proofs.Pass.EquationNumbers

/-!
Boxed chapters. After all equations are boxed the tree of the chapter is the old one with a box in the
place of each of them: what is new can be taken out again, and the nodes that were there stand in the
same order.
-/
namespace CrossRef
namespace Pass

open Markup Markup.Dom Index

variable {dom dom' : Dom} {place : NodeId → NodeId} {x p i : NodeId} {n : Nat} {label : String}
  {number : ChapterNumber} {equations : List ScannedEquation}

/-- The equation is boxed with its label, and none of the boxes is among the first `n` nodes. -/
def BoxedAt (dom : Dom) (n : Nat) (x : NodeId) (label : String) (display : NodeId) : Prop :=
  ∃ content number text, n ≤ display ∧ n ≤ content ∧ n ≤ number ∧ n ≤ text ∧
    BoxedIn dom x label display content number text

/-- What boxing equations has made of an arena. In the place of each equation stands its display box,
and nothing else has changed in the nodes that were there. -/
structure Boxing (number : ChapterNumber) (dom dom' : Dom) (equations : List ScannedEquation)
    (place : NodeId → NodeId) : Prop where
  wellFormed : dom'.WellFormed
  size_le : dom.size ≤ dom'.size
  content : ∀ i < dom.size, dom'.content? (some i) = dom.content? (some i)
  children : ∀ i < dom.size, dom'.children (some i) = (dom.children (some i)).map place
  unboxed : ∀ i, i ∉ equations.map (·.node) → place i = i
  boxed : ∀ e ∈ equations, BoxedAt dom' dom.size e.node (shownEquationNumber number e.sequence)
    (place e.node)

namespace Boxing

theorem refl (number : ChapterNumber) (h : dom.WellFormed) : Boxing number dom dom [] id where
  wellFormed := h
  size_le := le_rfl
  content _ _ := rfl
  children _ _ := (List.map_id _).symm
  unboxed _ _ := rfl
  boxed := by simp

/-- The boxes of an equation stay when other equations are boxed. -/
theorem boxedIn (hb : Boxing number dom dom' equations place)
    {display content box text : NodeId} (h : BoxedIn dom x label display content box text)
    (hout : ∀ b ∈ [x, content, box, text], b ∉ equations.map (·.node)) :
    BoxedIn dom' x label display content box text := by
  have hlt : ∀ b c, dom.content? (some b) = some c → b < dom.size := fun b c hb =>
    (content?_isSome_iff dom b).mp (by simp [hb])
  have hx := hb.unboxed x (hout x (by simp))
  have hcontent := hb.unboxed content (hout content (by simp))
  have hbox := hb.unboxed box (hout box (by simp))
  have htext := hb.unboxed text (hout text (by simp))
  constructor
  · rw [hb.content _ (hlt _ _ h.displayBox), h.displayBox]
  · rw [hb.content _ (hlt _ _ h.contentBox), h.contentBox]
  · rw [hb.content _ (hlt _ _ h.numberBox), h.numberBox]
  · rw [hb.content _ (hlt _ _ h.shown), h.shown]
  · simp [hb.children _ (hlt _ _ h.displayBox), h.inDisplay, hcontent, hbox]
  · simp [hb.children _ (hlt _ _ h.contentBox), h.inContent, hx]
  · simp [hb.children _ (hlt _ _ h.numberBox), h.inNumber, htext]
  · simp [hb.children _ (hlt _ _ h.shown), h.inText]

/-- One equation boxed before others. -/
theorem cons (h : dom.WellFormed) {e : ScannedEquation} {rest : List ScannedEquation}
    (hp : dom.parent? (some e.node) = some p) (hmem : e.node ∉ rest.map (·.node))
    (hrest : ∀ x ∈ rest.map (·.node), x < dom.size)
    (hb : Boxing number (wrap dom e.node (shownEquationNumber number e.sequence)) dom' rest place) :
    Boxing number dom dom' (e :: rest) (place ∘ fun i => if i = e.node then dom.size else i) := by
  have hsize := size_wrap h hp (shownEquationNumber number e.sequence)
  have hfresh : ∀ k, dom.size + k ∉ rest.map (·.node) := fun k hk =>
    absurd (hrest _ hk) (by omega)
  have hdisplay : place dom.size = dom.size := hb.unboxed _ (hfresh 0)
  refine ⟨hb.wellFormed, by have := hb.size_le; omega, fun i hi => ?_, fun i hi => ?_, fun i hi => ?_,
    fun e' he' => ?_⟩
  · rw [hb.content i (by omega), content?_wrap h hp]
    grind
  · rw [hb.children i (by omega), children_wrap h hp, ← List.map_map]
    grind [replaceChild]
  · rw [List.map_cons, List.mem_cons, not_or] at hi
    rw [Function.comp_apply, if_neg hi.1, hb.unboxed i hi.2]
  · rcases List.mem_cons.mp he' with rfl | he'
    · rw [Function.comp_apply, if_pos rfl, hdisplay]
      refine ⟨_, _, _, le_rfl, Nat.le_add_right _ 1, Nat.le_add_right _ 2, Nat.le_add_right _ 3,
        hb.boxedIn (boxedIn_wrap h hp _) fun b hbox => ?_⟩
      simp only [List.mem_cons, List.not_mem_nil, or_false] at hbox
      rcases hbox with rfl | rfl | rfl | rfl
      · exact hmem
      · exact hfresh 1
      · exact hfresh 2
      · exact hfresh 3
    · have hne : e'.node ≠ e.node := fun heq => hmem (heq ▸ List.mem_map_of_mem he')
      obtain ⟨content, box, text, h₁, h₂, h₃, h₄, hbox⟩ := hb.boxed e' he'
      rw [Function.comp_apply, if_neg hne]
      exact ⟨content, box, text, by omega, by omega, by omega, by omega, hbox⟩

end Boxing

/-- Annotating boxes the equations that are not wrapped. -/
theorem exists_boxing_wrapAll (number : ChapterNumber) (h : dom.WellFormed)
    (hnodup : (equations.map (·.node)).Nodup)
    (hparent : ∀ e ∈ equations, ∃ p, dom.parent? (some e.node) = some p) :
    ∃ place, Boxing number dom (wrapAll number dom equations).1 (unwrapped dom equations) place := by
  induction equations generalizing dom with
  | nil => exact ⟨id, .refl number h⟩
  | cons e rest ih =>
    obtain ⟨hmem, hnodup⟩ := List.nodup_cons.mp hnodup
    have hrest := fun e' he' => hparent e' (List.mem_cons_of_mem e he')
    rw [wrapAll]
    by_cases hwrapped : isWrapped dom e.node
    · rw [if_pos hwrapped, unwrapped_cons_of_isWrapped hwrapped]
      exact ih h hnodup hrest
    · obtain ⟨p, hp⟩ := hparent e List.mem_cons_self
      have hstep := annotated_wrap h hp (shownEquationNumber number e.sequence)
      obtain ⟨hparents, hsame⟩ := hstep.later h hrest fun e' he' heq =>
        hmem (List.mem_map.mpr ⟨e', he', List.mem_singleton.mp heq⟩)
      obtain ⟨place, hplace⟩ := ih hstep.wellFormed hnodup fun e' he' => by
        rw [hparents e' he']
        exact hrest e' he'
      rw [if_neg hwrapped, unwrapped_cons hwrapped]
      rw [hsame] at hplace
      have hsub : ∀ x ∈ (unwrapped dom rest).map (·.node), ∃ e' ∈ rest, e'.node = x := fun x hx => by
        obtain ⟨e', he', rfl⟩ := List.mem_map.mp hx
        exact ⟨e', (List.mem_filter.mp he').1, rfl⟩
      refine ⟨_, .cons h hp (fun hx => ?_) (fun x hx => ?_) hplace⟩
      · obtain ⟨e', he', heq⟩ := hsub _ hx
        exact hmem (List.mem_map.mpr ⟨e', he', heq⟩)
      · obtain ⟨e', he', rfl⟩ := hsub x hx
        obtain ⟨q, hq⟩ := hrest e' he'
        exact lt_size_of_parent? hq

/-! ### The trees of a boxed chapter -/

/-- A tree in a box, next to a box that shows a label. -/
def boxTree (label : String) (tree : Tree) : Tree :=
  .node (some (divOf displayClass)) [.node (some (divOf contentClass)) [tree],
    .node (some (divOf numberClass)) [.node (some (.text label)) []]]

namespace BoxedIn

variable {display content box text : NodeId}

theorem lt_size (h : BoxedIn dom x label display content box text) :
    display < dom.size ∧ content < dom.size ∧ box < dom.size ∧ text < dom.size := by
  have hlt : ∀ b c, dom.content? (some b) = some c → b < dom.size := fun b c hb =>
    (content?_isSome_iff dom b).mp (by simp [hb])
  exact ⟨hlt _ _ h.displayBox, hlt _ _ h.contentBox, hlt _ _ h.numberBox, hlt _ _ h.shown⟩

theorem tree_display (h : BoxedIn dom x label display content box text) (hwf : dom.WellFormed) :
    dom.tree display = boxTree label (dom.tree x) := by
  obtain ⟨hdisplay, hcontent, hbox, htext⟩ := h.lt_size
  simp only [hwf.tree_eq hdisplay, hwf.tree_eq hcontent, hwf.tree_eq hbox, hwf.tree_eq htext, forest,
    h.displayBox, h.contentBox, h.numberBox, h.shown, h.inDisplay, h.inContent, h.inNumber, h.inText,
    List.map_cons, List.map_nil, boxTree]

/-- When the boxes are taken out the equation is left. -/
theorem treesWithout_display (h : BoxedIn dom x label display content box text)
    (hwf : dom.WellFormed) {out : NodeId → Bool}
    (hout : ∀ b ∈ [display, content, box, text], out b) :
    dom.treesWithout out display = dom.treesWithout out x := by
  obtain ⟨hdisplay, hcontent, hbox, htext⟩ := h.lt_size
  simp [hwf.treesWithout_eq hdisplay, hwf.treesWithout_eq hcontent, hwf.treesWithout_eq hbox,
    hwf.treesWithout_eq htext, forestWithout, hout, h.inDisplay, h.inContent, h.inNumber, h.inText]

theorem preorder_display (h : BoxedIn dom x label display content box text) (hwf : dom.WellFormed) :
    dom.preorder display = display :: content :: (dom.preorder x ++ [box, text]) := by
  obtain ⟨hdisplay, hcontent, hbox, htext⟩ := h.lt_size
  simp [hwf.preorder_eq hdisplay, hwf.preorder_eq hcontent, hwf.preorder_eq hbox,
    hwf.preorder_eq htext, h.inDisplay, h.inContent, h.inNumber, h.inText]

end BoxedIn

namespace Boxing

theorem unboxed_or_boxed (hb : Boxing number dom dom' equations place) (i : NodeId) :
    place i = i ∨ ∃ label, BoxedAt dom' dom.size i label (place i) := by
  by_cases hi : i ∈ equations.map (·.node)
  · obtain ⟨e, he, rfl⟩ := List.mem_map.mp hi
    exact .inr ⟨_, hb.boxed e he⟩
  · exact .inl (hb.unboxed i hi)

theorem forestWithout_of_children (hb : Boxing number dom dom' equations place)
    (h : dom.WellFormed) (hi : i < dom.size)
    (htree : ∀ c, dom.parent? (some c) = some i →
      dom'.treesWithout (dom.size ≤ ·) (place c) = [dom.tree c]) :
    dom'.forestWithout (dom.size ≤ ·) i = dom.forest i := by
  rw [forestWithout, hb.children i hi, List.flatMap_map, forest, List.map_eq_flatMap]
  exact List.flatMap_congr fun c hc => htree c (h.mem_children_iff.mp hc)

/-- Without what is new the tree is the old one. -/
theorem treesWithout_place (hb : Boxing number dom dom' equations place) (h : dom.WellFormed)
    (hi : i < dom.size) : dom'.treesWithout (dom.size ≤ ·) (place i) = [dom.tree i] := by
  induction i using h.subtree_induction with
  | step i ih =>
    have hkids := hb.forestWithout_of_children h hi fun c hci => ih c hci (lt_size_of_parent? hci)
    have hself : dom'.treesWithout (dom.size ≤ ·) i = [dom.tree i] := by
      rw [hb.wellFormed.treesWithout_eq (hi.trans_le hb.size_le), if_neg (by simpa using hi), hkids,
        hb.content i hi, h.tree_eq hi]
    rcases hb.unboxed_or_boxed i with hplace | ⟨label, content, box, text, h₁, h₂, h₃, h₄, hbox⟩
    · rw [hplace, hself]
    · rw [hbox.treesWithout_display hb.wellFormed (by simp [h₁, h₂, h₃, h₄]), hself]

theorem forestWithout_eq (hb : Boxing number dom dom' equations place) (h : dom.WellFormed)
    (hi : i < dom.size) : dom'.forestWithout (dom.size ≤ ·) i = dom.forest i :=
  hb.forestWithout_of_children h hi fun _ hci => hb.treesWithout_place h (lt_size_of_parent? hci)

theorem filter_below_of_children (hb : Boxing number dom dom' equations place)
    (h : dom.WellFormed) (hi : i < dom.size)
    (horder : ∀ c, dom.parent? (some c) = some i →
      (dom'.preorder (place c)).filter (· < dom.size) = dom.preorder c) :
    ((dom'.children (some i)).flatMap dom'.preorder).filter (· < dom.size) =
      (dom.children (some i)).flatMap dom.preorder := by
  rw [hb.children i hi, List.flatMap_map, List.filter_flatMap]
  exact List.flatMap_congr fun c hc => horder c (h.mem_children_iff.mp hc)

/-- The nodes that were there stand in the order in which they stood. -/
theorem filter_preorder_place (hb : Boxing number dom dom' equations place) (h : dom.WellFormed)
    (hi : i < dom.size) : (dom'.preorder (place i)).filter (· < dom.size) = dom.preorder i := by
  induction i using h.subtree_induction with
  | step i ih =>
    have hbelow := hb.filter_below_of_children h hi fun c hci => ih c hci (lt_size_of_parent? hci)
    have hself : (dom'.preorder i).filter (· < dom.size) = dom.preorder i := by
      rw [hb.wellFormed.preorder_eq (hi.trans_le hb.size_le), h.preorder_eq hi,
        List.filter_cons_of_pos (by simpa using hi), hbelow]
    rcases hb.unboxed_or_boxed i with hplace | ⟨label, content, box, text, h₁, h₂, h₃, h₄, hbox⟩
    · rw [hplace, hself]
    · rw [hbox.preorder_display hb.wellFormed]
      simp [Nat.not_lt.mpr h₁, Nat.not_lt.mpr h₂, Nat.not_lt.mpr h₃, Nat.not_lt.mpr h₄, hself]

theorem filter_descendants (hb : Boxing number dom dom' equations place) (h : dom.WellFormed)
    (hi : i < dom.size) :
    (dom'.descendants (some i)).filter (· < dom.size) = dom.descendants (some i) := by
  rw [hb.wellFormed.descendants_eq (hi.trans_le hb.size_le), h.descendants_eq hi]
  exact hb.filter_below_of_children h hi fun _ hci =>
    hb.filter_preorder_place h (lt_size_of_parent? hci)

end Boxing

end Pass
end CrossRef
