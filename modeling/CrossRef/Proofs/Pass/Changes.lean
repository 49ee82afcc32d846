import CrossRef.Pass.Registry
import CrossRef.Proofs.Dom.Tree
import CrossRef.Proofs.Pass.Standalone

/-!
The changes that passes make. A change shows in the trees of the chapter, and no change to another
node takes it back.
-/
namespace CrossRef

open Markup Markup.Dom

namespace Pass

variable {f : Fragment} {dom : Dom} {pass : Pass} {m x i : NodeId} {place : NodeId → NodeId}

/-! ### The changes of a run -/

/-- A change: the pass that made it and the node that it was made at. -/
structure Change where
  pass : Pass
  node : NodeId

/-- Does the pass replace the text of links? -/
def rewords : Pass → Bool
  | .equationRefs | .textRefs => true
  | _ => false

/-- The name of the elements that a pass changes. -/
def subject : Pass → String
  | .equationNumbers => "math"
  | _ => "a"

theorem subject_of_rewords (h : pass.rewords) : pass.subject = "a" := by
  revert h
  cases pass <;> decide

variable {log : List Change}

/-- The node is one whose text was replaced. -/
def Reworded (log : List Change) (i : NodeId) : Prop := ∃ c ∈ log, c.pass.rewords ∧ c.node = i

theorem reworded_append (log : List Change) (c : Change) (i : NodeId) :
    Reworded (log ++ [c]) i ↔ Reworded log i ∨ c.pass.rewords ∧ c.node = i := by
  simp [Reworded, or_and_right, exists_or]

/-- What the changes so far have made of a fragment. A boxed equation gave its place to a box, a
reworded link has a single text that was not its only content before, a retargeted link has other
attributes, and nothing else changes in the nodes that were there. -/
structure Reworked (f : Fragment) (dom : Dom) (log : List Change) (place : NodeId → NodeId) :
    Prop where
  wellFormed : dom.WellFormed
  size_le : f.dom.size ≤ dom.size
  inside : ∀ c ∈ log, f.dom.Above f.root c.node
  subject : ∀ c ∈ log, f.dom.isElement (some c.node) c.pass.subject
  content : ∀ i < f.dom.size, ⟨.linkTargets, i⟩ ∉ log →
    dom.content? (some i) = f.dom.content? (some i)
  retargeted : ∀ m, ⟨.linkTargets, m⟩ ∈ log → dom.content? (some m) ≠ f.dom.content? (some m)
  unboxed : ∀ i, ⟨.equationNumbers, i⟩ ∉ log → place i = i
  boxed : ∀ x, ⟨.equationNumbers, x⟩ ∈ log →
    f.dom.size ≤ place x ∧ dom.isElement (some (place x)) "div"
  children : ∀ i < f.dom.size, ¬ Reworded log i →
    dom.children (some i) = (f.dom.children (some i)).map place
  reworded : ∀ m, Reworded log m → ∃ t text, f.dom.size ≤ t ∧ dom.children (some m) = [t] ∧
    dom.content? (some t) = some (.text text) ∧ dom.children (some t) = [] ∧
    f.dom.forest m ≠ [.node (some (.text text)) []]
  /-- References to equations are told from others by their targets. -/
  equation : ∀ m, ⟨.equationRefs, m⟩ ∈ log →
    ∃ identifier, linkTarget? f.dom m = some (.equation identifier)

/-- What one more change makes of it. The function says where nodes are moved to. -/
structure Change.Made (c : Change) (f : Fragment) (dom dom' : Dom) (move : NodeId → NodeId) :
    Prop where
  wellFormed : dom'.WellFormed
  size_le : dom.size ≤ dom'.size
  inside : f.dom.Above f.root c.node
  subject : f.dom.isElement (some c.node) c.pass.subject
  content : ∀ i < dom.size, c ≠ ⟨.linkTargets, i⟩ →
    dom'.content? (some i) = dom.content? (some i)
  retargeted : c.pass = .linkTargets →
    dom'.content? (some c.node) ≠ f.dom.content? (some c.node)
  unmoved : ∀ i, c ≠ ⟨.equationNumbers, i⟩ → move i = i
  boxed : c.pass = .equationNumbers →
    f.dom.size ≤ move c.node ∧ dom'.isElement (some (move c.node)) "div"
  children : ∀ i < dom.size, ¬ (c.pass.rewords ∧ c.node = i) →
    dom'.children (some i) = (dom.children (some i)).map move
  reworded : c.pass.rewords → ∃ t text, f.dom.size ≤ t ∧ dom'.children (some c.node) = [t] ∧
    dom'.content? (some t) = some (.text text) ∧ dom'.children (some t) = [] ∧
    f.dom.forest c.node ≠ [.node (some (.text text)) []]
  equation : c.pass = .equationRefs →
    ∃ identifier, linkTarget? f.dom c.node = some (.equation identifier)

/-- A node that is new since the start is none that a change is made at. -/
theorem Change.Made.ne_of_size_le {c : Change} {dom' : Dom} {move : NodeId → NodeId}
    (h : c.Made f dom dom' move) (hi : f.dom.size ≤ i) (pass : Pass) : c ≠ ⟨pass, i⟩ := by
  rintro rfl
  exact absurd h.inside.lt_size (Nat.not_lt.mpr hi)

namespace Reworked

theorem refl (h : f.WellFormed) : Reworked f f.dom [] id where
  wellFormed := h.dom
  size_le := le_rfl
  inside := by simp
  subject := by simp
  content _ _ _ := rfl
  retargeted := by simp
  unboxed _ _ := rfl
  boxed := by simp
  children := by simp
  reworded := by simp [Reworded]
  equation := by simp

theorem lt_size (h : Reworked f dom log place) {c : Change} (hc : c ∈ log) :
    c.node < f.dom.size := (h.inside c hc).lt_size

theorem reworded_lt_size (h : Reworked f dom log place) (hm : Reworded log m) : m < f.dom.size := by
  obtain ⟨c, hc, -, rfl⟩ := hm
  exact h.lt_size hc

/-! ### One change -/

/-- A change at one node leaves what the changes before have made: it moves the equation that it boxes
and nothing else, and changes the content of the link that it retargets and of nothing else. -/
theorem extend {dom' : Dom} {c : Change} {move : NodeId → NodeId} (h : Reworked f dom log place)
    (hc : c.Made f dom dom' move) (hnew : c ∉ log) :
    Reworked f dom' (log ++ [c]) (move ∘ place) where
  wellFormed := hc.wellFormed
  size_le := h.size_le.trans hc.size_le
  inside := by simpa [or_imp, forall_and, hc.inside] using h.inside
  subject := by simpa [or_imp, forall_and, hc.subject] using h.subject
  content i hi hlog := by
    simp only [List.mem_append, List.mem_singleton, not_or] at hlog
    rw [hc.content i (hi.trans_le h.size_le) (Ne.symm hlog.2), h.content i hi hlog.1]
  retargeted m hm := by
    rcases List.mem_append.mp hm with hm | hm
    · have hne : c ≠ ⟨.linkTargets, m⟩ := fun heq => hnew (heq ▸ hm)
      rw [hc.content m ((h.lt_size hm).trans_le h.size_le) hne]
      exact h.retargeted m hm
    · obtain rfl := List.mem_singleton.mp hm
      exact hc.retargeted rfl
  unboxed i hi := by
    simp only [List.mem_append, List.mem_singleton, not_or] at hi
    rw [Function.comp_apply, h.unboxed i hi.1, hc.unmoved i (Ne.symm hi.2)]
  boxed x hx := by
    rcases List.mem_append.mp hx with hx | hx
    · obtain ⟨hle, hdiv⟩ := h.boxed x hx
      have hlt : place x < dom.size := lt_size_of_name? (name?_isSome_of_isElement hdiv)
      rw [Function.comp_apply, hc.unmoved _ (hc.ne_of_size_le hle _),
        isElement_congr (hc.content _ hlt (hc.ne_of_size_le hle _))]
      exact ⟨hle, hdiv⟩
    · obtain rfl := List.mem_singleton.mp hx
      rw [Function.comp_apply, h.unboxed x hnew]
      exact hc.boxed rfl
  children i hi hlog := by
    rw [reworded_append, not_or] at hlog
    rw [hc.children i (hi.trans_le h.size_le) hlog.2, h.children i hi hlog.1, List.map_map]
  reworded m hm := by
    by_cases hcm : c.pass.rewords ∧ c.node = m
    · obtain ⟨hpass, rfl⟩ := hcm
      exact hc.reworded hpass
    · have hm' := ((reworded_append log c m).mp hm).resolve_right hcm
      obtain ⟨t, text, ht, hkid, hold, hleaf, hforest⟩ := h.reworded m hm'
      have hlt : t < dom.size := (content?_isSome_iff dom t).mp (by simp [hold])
      have hct : c.node ≠ t := (hc.inside.lt_size.trans_le ht).ne
      refine ⟨t, text, ht, ?_, ?_, ?_, hforest⟩
      · rw [hc.children m ((h.reworded_lt_size hm').trans_le h.size_le) hcm, hkid,
          List.map_singleton, hc.unmoved t (hc.ne_of_size_le ht _)]
      · rw [hc.content t hlt (hc.ne_of_size_le ht _), hold]
      · rw [hc.children t hlt fun heq => hct heq.2, hleaf, List.map_nil]
  equation m hm := by
    rcases List.mem_append.mp hm with hm | hm
    · exact h.equation m hm
    · obtain rfl := List.mem_singleton.mp hm
      exact hc.equation rfl

theorem made_box (h : Reworked f dom log place) (hx : f.dom.Above f.root x)
    (hmath : f.dom.isElement (some x) "math") {p : NodeId} (hp : dom.parent? (some x) = some p)
    (label : String) :
    (⟨.equationNumbers, x⟩ : Change).Made f dom (wrap dom x label)
      fun i => if i = x then dom.size else i where
  wellFormed := wellFormed_wrap h.wellFormed hp label
  size_le := by simp [size_wrap h.wellFormed hp]
  inside := hx
  subject := hmath
  content i hi _ := by
    rw [content?_wrap h.wellFormed hp label]
    grind
  retargeted := by simp
  unmoved i hi := if_neg fun heq => hi (by rw [heq])
  boxed _ := by
    rw [if_pos rfl]
    refine ⟨h.size_le, ?_⟩
    simp [isElement, name?, content?_wrap h.wellFormed hp label, divOf, Name.html]
  children q hq _ := by
    rw [children_wrap h.wellFormed hp]
    grind [replaceChild]
  reworded := by simp [rewords]
  equation := by simp

/-- An equation that was not boxed before gives its place to a box. -/
theorem box (h : Reworked f dom log place) (hx : f.dom.Above f.root x)
    (hmath : f.dom.isElement (some x) "math") (hnew : ⟨.equationNumbers, x⟩ ∉ log) {p : NodeId}
    (hp : dom.parent? (some x) = some p) (label : String) :
    ∃ place', Reworked f (wrap dom x label) (log ++ [⟨.equationNumbers, x⟩]) place' :=
  ⟨_, h.extend (h.made_box hx hmath hp label) hnew⟩

/-- A text that was the only content of a link still is what the link says. -/
theorem forest_ne (h : Reworked f dom log place) (hf : f.WellFormed) (hm : IsLocalLink dom m)
    (hlt : m < f.dom.size) (hnew : ¬ Reworded log m) {text : String}
    (htext : text ≠ dom.textOf (some m)) : f.dom.forest m ≠ [.node (some (.text text)) []] := by
  intro heq
  obtain ⟨c, hc, htree⟩ := List.map_eq_singleton_iff.mp heq
  have hcm : f.dom.parent? (some c) = some m := hf.dom.mem_children_iff.mp (by simp [hc])
  have hclt := lt_size_of_parent? hcm
  rw [hf.dom.tree_eq hclt] at htree
  obtain ⟨hcontent, hforest⟩ := Tree.node.inj htree
  have hleaf : f.dom.children (some c) = [] := List.map_eq_nil_iff.mp hforest
  have hnone : f.dom.name? (some c) = none := by simp [name?, hcontent]
  -- changes are made at elements, and this is a text
  have hout : ∀ d ∈ log, d.node ≠ c := by
    rintro d hd rfl
    have hel := name?_isSome_of_isElement (h.subject d hd)
    simp [hnone] at hel
  have hnot : ¬ Reworded log c := by
    rintro ⟨d, hd, -, hdc⟩
    exact hout d hd hdc
  refine htext (h.wellFormed.textOf_of_only_text hm.name?_isSome (c := c) ?_ ?_ ?_).symm
  · rw [h.children m hlt hnew, hc, List.map_singleton, h.unboxed c fun hd => hout _ hd rfl]
  · rw [h.content c hclt fun hd => hout _ hd rfl, hcontent]
  · rw [h.children c hclt hnot, hleaf, List.map_nil]

/-- A link that was not reworded before gets a text that differs from what it says. -/
theorem reword (h : Reworked f dom log place) (hf : f.WellFormed) (hlink : m ∈ f.localLinks)
    (hm : IsLocalLink dom m) (hnew : ¬ Reworded log m) (hpass : pass.rewords) {text : String}
    (htext : text ≠ dom.textOf (some m))
    (hequation : pass = .equationRefs →
      ∃ identifier, linkTarget? f.dom m = some (.equation identifier)) :
    Reworked f (dom.replaceChildrenWithText (some m) text) (log ++ [⟨pass, m⟩]) place := by
  obtain ⟨hroot, ha, -⟩ := (mem_localLinks_iff hf).mp hlink
  have hkids := h.wellFormed.children_replaceChildrenWithText hm.lt_size text
  have hcontent := content?_replaceChildrenWithText dom m text
  have hmade : (⟨pass, m⟩ : Change).Made f dom (dom.replaceChildrenWithText (some m) text) id :=
    { wellFormed := h.wellFormed.replaceChildrenWithText hm.lt_size text
      size_le := by simp
      inside := hroot
      subject := by rwa [subject_of_rewords hpass]
      content := fun i hi _ => by rw [hcontent, if_neg hi.ne]
      retargeted := by
        rintro rfl
        simp [rewords] at hpass
      unmoved := fun _ _ => rfl
      boxed := by
        rintro rfl
        simp [rewords] at hpass
      children := fun i _ hi => by
        rw [hkids, if_neg fun heq => hi ⟨hpass, heq.symm⟩, List.map_id]
      reworded := fun _ => by
        refine ⟨dom.size, text, h.size_le, ?_, ?_, ?_, h.forest_ne hf hm hroot.lt_size hnew htext⟩
        · rw [hkids, if_pos rfl]
        · rw [hcontent, if_pos rfl]
        · rw [hkids, if_neg hm.lt_size.ne', children_of_size_le le_rfl]
      equation := hequation }
  exact h.extend hmade fun hc => hnew ⟨_, hc, hpass, rfl⟩

/-- A link gets another target. -/
theorem retarget (h : Reworked f dom log place) (hf : f.WellFormed) (hlink : m ∈ f.localLinks)
    (hm : IsLocalLink dom m) (hnew : ⟨.linkTargets, m⟩ ∉ log) {href : String}
    (hhref : dom.attribute? (some m) "href" ≠ some href) :
    Reworked f (dom.setAttribute (some m) "href" href) (log ++ [⟨.linkTargets, m⟩]) place := by
  obtain ⟨hroot, ha, -⟩ := (mem_localLinks_iff hf).mp hlink
  have hlinks := sameLinks_setAttribute dom (some m) "href" href
  have hmade : (⟨.linkTargets, m⟩ : Change).Made f dom (dom.setAttribute (some m) "href" href) id :=
    { wellFormed := hlinks.wellFormed h.wellFormed
      size_le := hlinks.size.ge
      inside := hroot
      subject := ha
      content := fun i _ hi => by
        rw [content?_setAttribute, if_neg]
        rintro rfl
        exact hi rfl
      retargeted := fun _ heq => by
        rw [← h.content m hroot.lt_size hnew] at heq
        refine hhref ?_
        rw [← attribute?_congr heq]
        exact attribute?_setAttribute hm.name?_isSome "href" href
      unmoved := fun _ _ => rfl
      boxed := by simp
      children := fun i _ _ => by rw [hlinks.children_eq h.wellFormed, List.map_id]
      reworded := by simp [rewords]
      equation := by simp }
  exact h.extend hmade hnew

/-! ### Changes show -/

theorem forest_of_reworded (h : Reworked f dom log place) (hm : Reworded log m) :
    dom.forest m ≠ f.dom.forest m := by
  obtain ⟨t, text, -, hkids, htext, hleaf, hforest⟩ := h.reworded m hm
  have ht : t < dom.size := (content?_isSome_iff dom t).mp (by simp [htext])
  rw [forest, hkids, List.map_singleton, h.wellFormed.tree_eq ht, htext, forest, hleaf, List.map_nil]
  exact hforest.symm

/-- A node whose tree is what it was is none that a change was made at. -/
theorem not_changed_of_tree_eq (h : Reworked f dom log place) (hf : f.WellFormed)
    (hi : i < f.dom.size) (hplace : place i < dom.size) (htree : dom.tree (place i) = f.dom.tree i) :
    dom.forest i = f.dom.forest i ∧ ∀ c ∈ log, c.node ≠ i := by
  obtain ⟨hcontent, hforest⟩ := hf.dom.of_tree_eq h.wellFormed hi hplace htree
  have hboxed : ⟨.equationNumbers, i⟩ ∉ log := fun hbox => by
    have hdiv := (isElement_congr hcontent _).symm.trans (h.boxed i hbox).2
    exact absurd (isElement_inj (h.subject _ hbox) hdiv) (by simp [Pass.subject])
  rw [h.unboxed i hboxed] at hcontent hforest
  refine ⟨hforest, ?_⟩
  rintro ⟨pass, m⟩ hc rfl
  cases pass with
  | equationNumbers => exact hboxed hc
  | linkTargets => exact h.retargeted m hc hcontent
  | _ => exact h.forest_of_reworded ⟨_, hc, rfl, rfl⟩ hforest

/-- If the trees are the same, there was no change. -/
theorem log_eq_nil (h : Reworked f dom log place) (hf : f.WellFormed)
    (hsame : dom.forest f.root = f.dom.forest f.root) : log = [] := by
  -- down from the root: below a node that nothing was changed at, each child stands where it stood
  have hbelow : ∀ i, f.dom.Encloses f.root i →
      dom.forest i = f.dom.forest i ∧ ∀ c ∈ log, c.node ≠ i := by
    intro i hi
    induction hi with
    | refl => exact ⟨hsame, fun c hc heq => hf.dom.acyclic _ (heq ▸ h.inside c hc)⟩
    | @tail j i hj hji ih =>
      have hnot : ¬ Reworded log j := by
        rintro ⟨c, hc, -, hcj⟩
        exact ih.2 c hc hcj
      have hkids := h.children j (hf.dom.parent_lt hji) hnot
      have htrees := ih.1
      rw [forest, hkids, List.map_map, forest, List.map_inj_left] at htrees
      have hmem := hf.dom.mem_children_iff.mpr hji
      have hplace : place i ∈ dom.children (some j) := hkids ▸ List.mem_map_of_mem hmem
      exact h.not_changed_of_tree_eq hf (lt_size_of_parent? hji)
        (lt_size_of_parent? (h.wellFormed.mem_children_iff.mp hplace)) (htrees i hmem)
  refine List.eq_nil_iff_forall_not_mem.mpr fun c hc => ?_
  exact (hbelow c.node (h.inside c hc).to_reflTransGen).2 c hc rfl

end Reworked

end Pass
end CrossRef
