import CrossRef.Proofs.Dom.Children

/-!
Edits made of several steps: making nodes, changing content, placing text, replacing and moving all
children of a node. Each keeps the arena well formed.
-/
namespace CrossRef
namespace Markup
namespace Dom

variable {dom dom' : Dom} {p q c i : NodeId}

/-! ### Changes of content -/

/-- The same nodes with the same links; only contents may differ. -/
structure SameLinks (dom dom' : Dom) : Prop where
  size : dom'.size = dom.size
  links : ∀ i, (dom'.node? (some i)).map Node.links = (dom.node? (some i)).map Node.links

namespace SameLinks

theorem field_eq (h : SameLinks dom dom') (field : Node → Link)
    (hfield : ∀ m n : Node, m.links = n.links → field m = field n) (i : NodeId) :
    (dom'.node? (some i)).bind field = (dom.node? (some i)).bind field := by
  have hi := h.links i
  cases hn : dom.node? (some i) <;> cases hm : dom'.node? (some i) <;> simp_all
  exact hfield _ _ hi

theorem parent?_eq (h : SameLinks dom dom') (i : NodeId) :
    dom'.parent? (some i) = dom.parent? (some i) :=
  h.field_eq (·.parent) (fun m n hmn => by simp_all [Node.links]) i

theorem firstChild?_eq (h : SameLinks dom dom') (i : NodeId) :
    dom'.firstChild? (some i) = dom.firstChild? (some i) :=
  h.field_eq (·.firstChild) (fun m n hmn => by simp_all [Node.links]) i

theorem lastChild?_eq (h : SameLinks dom dom') (i : NodeId) :
    dom'.lastChild? (some i) = dom.lastChild? (some i) :=
  h.field_eq (·.lastChild) (fun m n hmn => by simp_all [Node.links]) i

theorem previous?_eq (h : SameLinks dom dom') (i : NodeId) :
    dom'.previous? (some i) = dom.previous? (some i) :=
  h.field_eq (·.previous) (fun m n hmn => by simp_all [Node.links]) i

theorem next?_eq (h : SameLinks dom dom') (i : NodeId) :
    dom'.next? (some i) = dom.next? (some i) :=
  h.field_eq (·.next) (fun m n hmn => by simp_all [Node.links]) i

theorem childList (h : SameLinks dom dom') {l : List NodeId} (hl : dom.ChildList p l) :
    dom'.ChildList p l :=
  hl.congr (h.firstChild?_eq p) (h.lastChild?_eq p) (fun c => by rw [h.parent?_eq])
    fun c _ => ⟨h.previous?_eq c, h.next?_eq c⟩

theorem wellFormed (h : SameLinks dom dom') (hwf : dom.WellFormed) : dom'.WellFormed := by
  refine .of_childLists (fun i p hp => ?_) (fun p hp => ?_) (fun i hi => ?_) fun i hi => ?_
  · rw [h.parent?_eq] at hp
    exact h.size ▸ hwf.parent_lt hp
  · obtain ⟨l, hl⟩ := hwf.childList p (h.size ▸ hp)
    exact ⟨l, h.childList hl⟩
  · rw [h.parent?_eq] at hi
    rw [h.previous?_eq, h.next?_eq]
    exact hwf.alone i hi
  · exact hwf.acyclic i (hi.mono fun i a hia => by rwa [h.parent?_eq] at hia)

theorem children_eq (h : SameLinks dom dom') (hwf : dom.WellFormed) (p : NodeId) :
    dom'.children (some p) = dom.children (some p) := by
  by_cases hp : p < dom.size
  · exact (h.childList (hwf.childList_children hp)).children_eq
  · rw [children_of_size_le (Nat.le_of_not_lt hp),
      children_of_size_le (h.size.symm ▸ Nat.le_of_not_lt hp)]

end SameLinks

theorem sameLinks_modify (l : Link) {f : Node → Node} (hf : ∀ n, (f n).links = n.links) :
    SameLinks dom (dom.modify l f) := by
  refine ⟨size_modify dom l f, fun i => ?_⟩
  rw [node?_modify]
  split_ifs
  · cases dom.node? (some i) <;> simp [hf]
  · rfl

theorem sameLinks_setAttribute (dom : Dom) (l : Link) (label value : String) :
    SameLinks dom (dom.setAttribute l label value) :=
  sameLinks_modify l fun n => by split <;> rfl

theorem sameLinks_addMissingAttributes (dom : Dom) (l : Link) (new : List Attribute) :
    SameLinks dom (dom.addMissingAttributes l new) :=
  sameLinks_modify l fun n => by split <;> rfl

/-! ### New nodes -/

theorem parent?_of_size_le (hi : dom.size ≤ i) : dom.parent? (some i) = none := by
  rw [parent?, (node?_eq_none_iff dom i).mpr hi]
  rfl

theorem parent?_size (dom : Dom) : dom.parent? (some dom.size) = none := parent?_of_size_le le_rfl

/-- A node without children encloses itself alone. -/
theorem not_encloses_of_childless (hc : ∀ i < dom.size, dom.parent? (some i) ≠ some c)
    (hi : i ≠ c) : ¬ dom.Encloses c i := by
  intro h
  rcases h.cases_head with rfl | ⟨j, hj, -⟩
  · exact hi rfl
  · exact hc j (lt_size_of_parent? hj) hj

theorem childList_create (content : Content) {l : List NodeId} (hl : dom.ChildList p l) :
    (dom.create content).1.ChildList p l :=
  hl.congr (by simp) (by simp) (by simp) (by simp)

namespace WellFormed

/-- A new node has no children. -/
theorem childList_size (h : dom.WellFormed) (content : Content) :
    (dom.create content).1.ChildList dom.size [] := by
  have hn := (node?_eq_none_iff dom dom.size).mpr le_rfl
  refine ⟨?_, ?_, by simp, by simp, .nil, .nil, fun c => ?_⟩
  · rw [firstChild?_create, firstChild?, hn]
    rfl
  · rw [lastChild?_create, lastChild?, hn]
    rfl
  · simpa using fun hc => lt_irrefl _ (h.parent_lt hc)

theorem create (h : dom.WellFormed) (content : Content) : (dom.create content).1.WellFormed := by
  refine .of_childLists (fun i p hp => ?_) (fun p hp => ?_) (fun i hi => ?_) fun i hi => ?_
  · rw [parent?_create] at hp
    simpa using Nat.lt_succ_of_lt (h.parent_lt hp)
  · rw [size_create] at hp
    rcases Nat.lt_succ_iff_lt_or_eq.mp hp with hp | rfl
    · obtain ⟨l, hl⟩ := h.childList p hp
      exact ⟨l, childList_create content hl⟩
    · exact ⟨[], h.childList_size content⟩
  · simpa using h.alone i (by simpa using hi)
  · exact h.acyclic i (hi.mono fun i a hia => by simpa using hia)

theorem children_create (h : dom.WellFormed) (content : Content) (p : NodeId) :
    (dom.create content).1.children (some p) = dom.children (some p) := by
  rcases lt_trichotomy p dom.size with hp | rfl | hp
  · exact (childList_create content (h.childList_children hp)).children_eq
  · rw [(h.childList_size content).children_eq, children_of_size_le le_rfl]
  · rw [children_of_size_le hp.le, children_of_size_le (by simpa using Nat.succ_le_of_lt hp)]

/-- The last node of an arena has no children when nothing was linked to it yet. -/
theorem not_encloses_size (h : dom.WellFormed) (content : Content) (hp : p < dom.size) :
    ¬ (dom.create content).1.Encloses dom.size p :=
  not_encloses_of_childless (fun i _ hi => lt_irrefl _ (h.parent_lt (by simpa using hi))) hp.ne

/-- Making a node and appending it at once. -/
theorem append_create (h : dom.WellFormed) (content : Content) (hp : p < dom.size) :
    ((dom.create content).1.append (some p) (some dom.size)).WellFormed :=
  (h.create content).append (by simpa using Nat.lt_succ_of_lt hp) (by simp)
    (by simpa using parent?_size dom) (h.not_encloses_size content hp)

theorem children_append_create (h : dom.WellFormed) (content : Content) (hp : p < dom.size)
    (q : NodeId) :
    ((dom.create content).1.append (some p) (some dom.size)).children (some q) =
      if q = p then dom.children (some p) ++ [dom.size] else dom.children (some q) := by
  rw [(h.create content).children_append (by simpa using Nat.lt_succ_of_lt hp) (by simp)
    (by simpa using parent?_size dom), h.children_create, h.children_create]

end WellFormed

/-! ### Text -/

/-- Appended text extends the last child or becomes a new one. -/
theorem appendText_cases (dom : Dom) (p : NodeId) (text : String) :
    (∃ old, dom.content? (dom.lastChild? (some p)) = some (.text old) ∧
      dom.appendText (some p) text =
        dom.modify (dom.lastChild? (some p)) fun n => { n with content := .text (old ++ text) }) ∨
    dom.appendText (some p) text =
      (dom.create (.text text)).1.append (some p) (some dom.size) := by
  cases hlast : dom.content? (dom.lastChild? (some p)) with
  | none => exact .inr (by simp only [appendText, hlast]; rfl)
  | some content =>
    cases content with
    | text old => exact .inl ⟨old, rfl, by simp only [appendText, hlast]⟩
    | _ => exact .inr (by simp only [appendText, hlast]; rfl)

/-- Text put into a node without children becomes a new one. -/
theorem appendText_of_childless (h : dom.WellFormed) (hp : p < dom.size)
    (hkids : dom.children (some p) = []) (text : String) :
    dom.appendText (some p) text =
      (dom.create (.text text)).1.append (some p) (some dom.size) := by
  have hlast := (h.childList_children hp).last
  rcases appendText_cases dom p text with ⟨old, hold, -⟩ | he
  · simp [hlast, hkids] at hold
  · exact he

theorem WellFormed.appendText (h : dom.WellFormed) (hp : p < dom.size) (text : String) :
    (dom.appendText (some p) text).WellFormed := by
  rcases appendText_cases dom p text with ⟨old, -, he⟩ | he
  · rw [he]
    refine (sameLinks_modify _ ?_).wellFormed h
    exact fun n => rfl
  · exact he ▸ h.append_create (.text text) hp

theorem size_le_size_appendText (dom : Dom) (p : NodeId) (text : String) :
    dom.size ≤ (dom.appendText (some p) text).size := by
  rcases appendText_cases dom p text with ⟨old, -, he⟩ | he <;> simp [he]

/-! ### Replacing and moving all children -/

/-- Detach nodes one after the other. -/
def detachAll (dom : Dom) (nodes : List NodeId) : Dom :=
  nodes.foldl (fun dom child => dom.detach (some child)) dom

@[simp] theorem detachAll_nil (dom : Dom) : dom.detachAll [] = dom := rfl

@[simp] theorem detachAll_cons (dom : Dom) (c : NodeId) (nodes : List NodeId) :
    dom.detachAll (c :: nodes) = (dom.detach (some c)).detachAll nodes := rfl

@[simp] theorem size_detachAll (dom : Dom) (nodes : List NodeId) :
    (dom.detachAll nodes).size = dom.size := by
  induction nodes generalizing dom with
  | nil => rfl
  | cons c nodes ih => simp [ih]

theorem parent?_detachAll (dom : Dom) (nodes : List NodeId) (i : NodeId) :
    (dom.detachAll nodes).parent? (some i) =
      if i ∈ nodes then none else dom.parent? (some i) := by
  induction nodes generalizing dom with
  | nil => simp
  | cons c nodes ih =>
    rw [detachAll_cons, ih, parent?_detach]
    by_cases hc : i = c <;> by_cases hi : i ∈ nodes <;> simp [hc, hi]

@[simp] theorem content?_detachAll (dom : Dom) (nodes : List NodeId) (l : Link) :
    (dom.detachAll nodes).content? l = dom.content? l := by
  induction nodes generalizing dom with
  | nil => rfl
  | cons c nodes ih => simp [ih]

namespace WellFormed

theorem detachAll (h : dom.WellFormed) (nodes : List NodeId) : (dom.detachAll nodes).WellFormed := by
  induction nodes generalizing dom with
  | nil => exact h
  | cons c nodes ih => exact ih (h.detach c)

theorem children_detachAll (h : dom.WellFormed) (nodes : List NodeId) (q : NodeId) :
    (dom.detachAll nodes).children (some q) = (dom.children (some q)).filter (· ∉ nodes) := by
  induction nodes generalizing dom with
  | nil => simp
  | cons c nodes ih =>
    rw [detachAll_cons, ih (h.detach c), h.children_detach, List.filter_filter]
    congr 1
    funext i
    by_cases hc : i = c <;> simp [hc]

end WellFormed

theorem replaceChildrenWithText_eq (dom : Dom) (p : NodeId) (text : String) :
    dom.replaceChildrenWithText (some p) text =
      ((dom.detachAll (dom.children (some p))).create (.text text)).1.append (some p)
        (some dom.size) := by
  rw [← size_detachAll dom (dom.children (some p))]
  rfl

@[simp] theorem size_replaceChildrenWithText (dom : Dom) (p : NodeId) (text : String) :
    (dom.replaceChildrenWithText (some p) text).size = dom.size + 1 := by
  simp [replaceChildrenWithText_eq]

theorem parent?_replaceChildrenWithText (h : dom.WellFormed) (p : NodeId) (text : String)
    (i : NodeId) : (dom.replaceChildrenWithText (some p) text).parent? (some i) =
      if i = dom.size then some p
      else if dom.parent? (some i) = some p then none else dom.parent? (some i) := by
  rw [replaceChildrenWithText_eq, parent?_append _ _ _ (by simp), parent?_create,
    parent?_detachAll]
  simp only [h.mem_children_iff]

theorem content?_replaceChildrenWithText (dom : Dom) (p : NodeId) (text : String) (i : NodeId) :
    (dom.replaceChildrenWithText (some p) text).content? (some i) =
      if i = dom.size then some (.text text) else dom.content? (some i) := by
  rw [replaceChildrenWithText_eq, content?_append, content?_create, size_detachAll,
    content?_detachAll]

theorem WellFormed.replaceChildrenWithText (h : dom.WellFormed) (hp : p < dom.size)
    (text : String) : (dom.replaceChildrenWithText (some p) text).WellFormed := by
  have hwf := (h.detachAll (dom.children (some p))).append_create (.text text) (p := p)
    (by simpa using hp)
  rwa [size_detachAll, ← replaceChildrenWithText_eq] at hwf

/-- Only `p` gets new children; nothing else gains or loses any. -/
theorem WellFormed.children_replaceChildrenWithText (h : dom.WellFormed) (hp : p < dom.size)
    (text : String) (q : NodeId) :
    (dom.replaceChildrenWithText (some p) text).children (some q) =
      if q = p then [dom.size] else dom.children (some q) := by
  have hwf := h.detachAll (dom.children (some p))
  have hkids := hwf.children_append_create (.text text) (p := p) (by simpa using hp) q
  rw [size_detachAll, ← replaceChildrenWithText_eq] at hkids
  rw [hkids, h.children_detachAll, h.children_detachAll]
  split_ifs with hq
  · simp
  · refine List.filter_eq_self.mpr fun c hc => decide_eq_true fun hcp => hq ?_
    exact Option.some_inj.mp ((h.mem_children_iff.mp hc).symm.trans (h.mem_children_iff.mp hcp))

/-- Move nodes one after the other to the end of the children of `target`. -/
def moveAll (dom : Dom) (target : NodeId) (nodes : List NodeId) : Dom :=
  nodes.foldl (fun dom child => (dom.detach (some child)).append (some target) (some child)) dom

@[simp] theorem size_moveAll (dom : Dom) (target : NodeId) (nodes : List NodeId) :
    (dom.moveAll target nodes).size = dom.size := by
  induction nodes generalizing dom with
  | nil => rfl
  | cons c nodes ih => exact (ih _).trans (by simp)

@[simp] theorem content?_moveAll (dom : Dom) (target : NodeId) (nodes : List NodeId) (l : Link) :
    (dom.moveAll target nodes).content? l = dom.content? l := by
  induction nodes generalizing dom with
  | nil => rfl
  | cons c nodes ih => exact (ih _).trans (by simp)

theorem parent?_moveAll {target : NodeId} {nodes : List NodeId} (hnodes : ∀ c ∈ nodes, c < dom.size)
    (i : NodeId) : (dom.moveAll target nodes).parent? (some i) =
      if i ∈ nodes then some target else dom.parent? (some i) := by
  induction nodes generalizing dom with
  | nil => simp [moveAll]
  | cons c nodes ih =>
    have hc : c < (dom.detach (some c)).size := by simpa using hnodes c (by simp)
    refine (ih fun d hd => by simpa using hnodes d (by simp [hd])).trans ?_
    rw [parent?_append _ _ _ hc, parent?_detach]
    by_cases hic : i = c <;> simp [hic]

theorem reparentChildren_eq (dom : Dom) (source target : NodeId) :
    dom.reparentChildren (some source) (some target) =
      dom.moveAll target (dom.children (some source)) := rfl

/-- Moving a node: it leaves its place and becomes the last child of `target`. -/
theorem WellFormed.move (h : dom.WellFormed) {target : NodeId} (ht : target < dom.size)
    (hc : c < dom.size) (hct : ¬ dom.Encloses c target) :
    ((dom.detach (some c)).append (some target) (some c)).WellFormed :=
  (h.detach c).append (by simpa using ht) (by simpa using hc) (by simp [parent?_detach])
    fun henc => hct (henc.mono fun _ _ => parent?_of_detach)

/-- A node that does not enclose the target does not come to enclose it. -/
theorem encloses_of_move {target d : NodeId} (hc : c < dom.size) (hct : ¬ dom.Encloses c target)
    (h : ((dom.detach (some c)).append (some target) (some c)).Encloses d target) :
    dom.Encloses d target := by
  rcases Relation.reflTransGen_iff_eq_or_transGen.mp h with rfl | h
  · exact .refl
  · rcases above_attach (parent?_append _ target c (by simpa using hc)) h with h | h
    · exact (h.mono fun _ _ => parent?_of_detach).to_reflTransGen
    · exact absurd (h.2.mono fun _ _ => parent?_of_detach) hct

theorem WellFormed.moveAll {target : NodeId} {nodes : List NodeId} (h : dom.WellFormed)
    (ht : target < dom.size) (hnodes : ∀ c ∈ nodes, c < dom.size ∧ ¬ dom.Encloses c target) :
    (dom.moveAll target nodes).WellFormed := by
  induction nodes generalizing dom with
  | nil => exact h
  | cons c nodes ih =>
    obtain ⟨hc, hct⟩ := hnodes c (by simp)
    refine ih (h.move ht hc hct) (by simpa using ht) fun d hd => ?_
    obtain ⟨hdlt, hdt⟩ := hnodes d (by simp [hd])
    exact ⟨by simpa using hdlt, fun henc => hdt (encloses_of_move hc hct henc)⟩

theorem WellFormed.reparentChildren {source target : NodeId} (h : dom.WellFormed)
    (ht : target < dom.size) (hst : ¬ dom.Above source target) :
    (dom.reparentChildren (some source) (some target)).WellFormed := by
  rw [reparentChildren_eq]
  refine h.moveAll ht fun c hc => ?_
  have hparent := h.mem_children_iff.mp hc
  exact ⟨lt_size_of_parent? hparent, fun henc => hst (.head' hparent henc)⟩

/-- Moving the children of a node into a new node, and that one below the node. -/
theorem WellFormed.nestChildren (h : dom.WellFormed) (hp : p < dom.size) (content : Content) :
    (((dom.create content).1.reparentChildren (some p) (some dom.size)).append (some p)
      (some dom.size)).WellFormed := by
  have hnew : (dom.create content).1.parent? (some dom.size) = none := by
    simpa using parent?_size dom
  have habove : ¬ (dom.create content).1.Above p dom.size := fun habove => by
    obtain ⟨q, -, hq⟩ := Relation.TransGen.tail'_iff.mp habove
    simp [hnew] at hq
  have hwf := (h.create content).reparentChildren (by simp) habove
  have hkids : ∀ c ∈ (dom.create content).1.children (some p), c < dom.size := fun c hc => by
    have hcp := (h.create content).mem_children_iff.mp hc
    exact lt_size_of_parent? (by simpa using hcp)
  have hparent : ∀ i, ((dom.create content).1.reparentChildren (some p) (some dom.size)).parent?
      (some i) = if dom.parent? (some i) = some p then some dom.size else dom.parent? (some i) := by
    intro i
    rw [reparentChildren_eq, parent?_moveAll fun c hc => by simpa using Nat.lt_succ_of_lt (hkids c hc)]
    simp [(h.create content).mem_children_iff]
  refine hwf.append ?_ ?_ ?_ fun henc => ?_
  · simpa [reparentChildren_eq] using Nat.lt_succ_of_lt hp
  · simp [reparentChildren_eq]
  · simp [hparent, parent?_size]
  · -- what the new node encloses was below the node before
    have hbelow : ∀ i, ((dom.create content).1.reparentChildren (some p) (some dom.size)).Encloses
        dom.size i → i = dom.size ∨ dom.Above p i := by
      intro i hi
      induction hi with
      | refl => exact .inl rfl
      | @tail j i _ hji ih =>
        rw [hparent] at hji
        split_ifs at hji with hip
        · exact .inr (.single hip)
        · rcases ih with rfl | ih
          · exact absurd (h.parent_lt hji) (lt_irrefl _)
          · exact .inr (ih.tail hji)
    rcases hbelow p henc with hps | hpp
    · exact hp.ne hps
    · exact h.acyclic p hpp

end Dom
end Markup
end CrossRef
