import CrossRef.Proofs.Dom.Placement

/-!
Text nodes are leaves. This stays so through every edit that puts what it places into other nodes only.
-/
namespace CrossRef
namespace Markup
namespace Dom

variable {dom dom' dom'' : Dom} {p c i : NodeId} {content : Content}

/-- No text node has children. -/
def TextIsLeaf (dom : Dom) : Prop :=
  ∀ i text, dom.content? (some i) = some (.text text) → dom.children (some i) = []

/-- A node that others may stand in: it exists and is not text. -/
structure CanHold (dom : Dom) (i : NodeId) : Prop where
  lt_size : i < dom.size
  not_text : ∀ text, dom.content? (some i) ≠ some (.text text)

/-- Nodes that can hold others still can, and what has a new parent has one that can. -/
structure KeepsHolders (dom dom' : Dom) : Prop where
  canHold : ∀ i, dom.CanHold i → dom'.CanHold i
  parent : ∀ c p, dom'.parent? (some c) = some p → dom.parent? (some c) = some p ∨ dom'.CanHold p

/-- Every node that has children can hold them. -/
theorem TextIsLeaf.canHold_parent (hleaf : dom.TextIsLeaf) (h : dom.WellFormed)
    (hp : dom.parent? (some c) = some p) : dom.CanHold p where
  lt_size := h.parent_lt hp
  not_text text htext := by
    have hmem := h.mem_children_iff.mpr hp
    simp [hleaf p text htext] at hmem

theorem TextIsLeaf.keep (hleaf : dom.TextIsLeaf) (h : dom.WellFormed) (h' : dom'.WellFormed)
    (hkeeps : KeepsHolders dom dom') : dom'.TextIsLeaf := by
  intro i text htext
  refine List.eq_nil_iff_forall_not_mem.mpr fun c hc => ?_
  have hholds : dom'.CanHold i := by
    rcases hkeeps.parent c i (h'.mem_children_iff.mp hc) with hold | hnew
    · exact hkeeps.canHold i (hleaf.canHold_parent h hold)
    · exact hnew
  exact hholds.not_text text htext

theorem textIsLeaf_empty : empty.TextIsLeaf := by
  intro i text htext
  cases i <;> simp [empty, content?, node?, Node.alone] at htext

theorem CanHold.of_name (hname : (dom.name? (some i)).isSome) : dom.CanHold i where
  lt_size := lt_size_of_name? hname
  not_text text htext := by simp [name?, htext] at hname

theorem canHold_document : empty.CanHold document where
  lt_size := by decide
  not_text text := by simp [empty, content?, node?, Node.alone]

/-- A new node can hold others unless it is text. -/
theorem canHold_size (dom : Dom) (hcontent : ∀ text, content ≠ .text text) :
    (dom.create content).1.CanHold dom.size where
  lt_size := by simp
  not_text text := by
    rw [content?_create, if_pos rfl]
    simpa using hcontent text

namespace KeepsHolders

theorem refl (dom : Dom) : KeepsHolders dom dom :=
  ⟨fun _ hi => hi, fun _ _ hp => .inl hp⟩

theorem trans (h : KeepsHolders dom dom') (h' : KeepsHolders dom' dom'') :
    KeepsHolders dom dom'' where
  canHold i hi := h'.canHold i (h.canHold i hi)
  parent c p hp := by
    rcases h'.parent c p hp with hp | hp
    · exact (h.parent c p hp).imp_right (h'.canHold p)
    · exact .inr hp

theorem create (dom : Dom) (content : Content) : KeepsHolders dom (dom.create content).1 where
  canHold i hi :=
    ⟨by simpa using Nat.lt_succ_of_lt hi.lt_size, fun text => by
      rw [content?_create, if_neg hi.lt_size.ne]
      exact hi.not_text text⟩
  parent c p hp := .inl (by simpa using hp)

theorem append (hp : dom.CanHold p) (hc : c < dom.size) :
    KeepsHolders dom (dom.append (some p) (some c)) := by
  have hkeeps : ∀ i, dom.CanHold i → (dom.append (some p) (some c)).CanHold i := fun i hi =>
    ⟨by simpa using hi.lt_size, by simpa using hi.not_text⟩
  refine ⟨hkeeps, fun d q hq => ?_⟩
  rw [parent?_append _ _ _ hc] at hq
  split_ifs at hq with hdc
  · obtain rfl := Option.some_inj.mp hq
    exact .inr (hkeeps p hp)
  · exact .inl hq

theorem appendCreate (hp : dom.CanHold p) (content : Content) :
    KeepsHolders dom ((dom.create content).1.append (some p) (some dom.size)) :=
  (create dom content).trans (append ((create dom content).canHold p hp) (by simp))

theorem detach (dom : Dom) (c : NodeId) : KeepsHolders dom (dom.detach (some c)) where
  canHold i hi := ⟨by simpa using hi.lt_size, by simpa using hi.not_text⟩
  parent _ _ hp := .inl (parent?_of_detach hp)

theorem move (hp : dom.CanHold p) (hc : c < dom.size) :
    KeepsHolders dom ((dom.detach (some c)).append (some p) (some c)) :=
  (detach dom c).trans (append ((detach dom c).canHold p hp) (by simpa using hc))

theorem moveAll {nodes : List NodeId} (hp : dom.CanHold p) (hnodes : ∀ c ∈ nodes, c < dom.size) :
    KeepsHolders dom (dom.moveAll p nodes) := by
  induction nodes generalizing dom with
  | nil => exact refl dom
  | cons c nodes ih =>
    have hmove := move hp (hnodes c List.mem_cons_self)
    exact hmove.trans (ih (hmove.canHold p hp) fun d hd => by simpa using hnodes d (by simp [hd]))

/-- A new node takes the children of a node and its place below it. -/
theorem nestChildren (h : dom.WellFormed) (hp : dom.CanHold p) (content : Content)
    (hcontent : ∀ text, content ≠ .text text) :
    KeepsHolders (dom.create content).1 (((dom.create content).1.reparentChildren (some p)
      (some dom.size)).append (some p) (some dom.size)) := by
  have hkids : ∀ c ∈ (dom.create content).1.children (some p), c < (dom.create content).1.size :=
    fun c hc => lt_size_of_parent? ((h.create content).mem_children_iff.mp hc)
  have hmoved := moveAll (dom.canHold_size hcontent) hkids
  rw [← reparentChildren_eq] at hmoved
  exact hmoved.trans (append (hmoved.canHold p ((create dom content).canHold p hp)) (by
    simp [reparentChildren_eq]))

/-- An edit of one node that keeps its links and makes no text of what was none. -/
theorem modify {l : Link} {f : Node → Node} (hlinks : ∀ n, (f n).links = n.links)
    (htext : ∀ n, dom.node? l = some n → ∀ text, (f n).content = .text text →
      ∃ old, n.content = .text old) : KeepsHolders dom (dom.modify l f) where
  canHold i hi := by
    refine ⟨by simpa using hi.lt_size, fun text hnew => ?_⟩
    rw [content?, node?_modify] at hnew
    split_ifs at hnew with hl
    · obtain ⟨n, hn⟩ := exists_node hi.lt_size
      rw [hn, Option.map_some, Option.map_some, Option.some_inj] at hnew
      obtain ⟨old, hold⟩ := htext n (hl ▸ hn) text hnew
      exact hi.not_text old (by simp [content?, hn, hold])
    · exact hi.not_text text hnew
  parent c p hp := .inl (((sameLinks_modify l hlinks).parent?_eq c).symm.trans hp)

theorem addMissingAttributes (dom : Dom) (l : Link) (new : List Attribute) :
    KeepsHolders dom (dom.addMissingAttributes l new) := by
  refine modify (fun n => by split <;> rfl) fun n _ text hnew => ?_
  split at hnew
  · simp at hnew
  · exact ⟨text, hnew⟩

theorem appendText (hp : dom.CanHold p) (text : String) :
    KeepsHolders dom (dom.appendText (some p) text) := by
  rcases appendText_cases dom p text with ⟨old, hold, he⟩ | he
  · rw [he]
    refine modify (fun n => rfl) fun n hn _ _ => ⟨old, ?_⟩
    rw [content?, hn] at hold
    exact Option.some_inj.mp hold
  · rw [he]
    exact appendCreate hp (.text text)

theorem place (hp : dom.CanHold p) {material : Material} (hm : dom.Accepts p material) :
    KeepsHolders dom (dom.place (some p) material) := by
  match material, hm with
  | .node (some c), hc => exact append hp hc.lt_size
  | .text text, _ => exact appendText hp text

end KeepsHolders

end Dom
end Markup
end CrossRef
