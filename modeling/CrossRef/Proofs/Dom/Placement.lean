import CrossRef.Proofs.Dom.Composite

/-!
Placement keeps an arena well formed. What is placed is text or a detached node that does not
enclose the node it is placed at.
-/
namespace CrossRef
namespace Markup
namespace Dom

variable {dom : Dom} {p s c i table below : NodeId} {material : Material}

/-- A node that may be linked in below or beside `target`. -/
structure Insertable (dom : Dom) (node target : NodeId) : Prop where
  lt_size : node < dom.size
  detached : dom.parent? (some node) = none
  not_encloses : ¬ dom.Encloses node target

/-- Material that may be placed in or beside `target`. -/
def Accepts (dom : Dom) (target : NodeId) : Material → Prop
  | .node none => False
  | .node (some node) => dom.Insertable node target
  | .text _ => True

/-- The node that material placed outside `element` goes into. -/
def outerNode (dom : Dom) (element fallback : NodeId) : NodeId :=
  (dom.parent? (some element)).getD fallback

/-- A new node may be placed anywhere. -/
theorem WellFormed.insertable_size (h : dom.WellFormed) (content : Content) (hp : p < dom.size) :
    (dom.create content).1.Insertable dom.size p where
  lt_size := by simp
  detached := by simpa using parent?_size dom
  not_encloses := h.not_encloses_size content hp

theorem placeOutside_eq (dom : Dom) (element fallback : NodeId) (material : Material) :
    dom.placeOutside (some element) (some fallback) material =
      dom.place (some (dom.outerNode element fallback)) material := by
  cases hp : dom.parent? (some element) <;> simp [placeOutside, outerNode, hp]

theorem WellFormed.outerNode_lt (h : dom.WellFormed) {element fallback : NodeId}
    (hf : fallback < dom.size) : dom.outerNode element fallback < dom.size := by
  cases hp : dom.parent? (some element) with
  | none => simpa [outerNode, hp] using hf
  | some p => simpa [outerNode, hp] using h.parent_lt hp

theorem size_le_size_place (dom : Dom) (p : NodeId) (material : Material) :
    dom.size ≤ (dom.place (some p) material).size := by
  cases material with
  | node link => simp [place, append]
  | text text => exact size_le_size_appendText dom p text

theorem size_le_size_placeBefore (dom : Dom) (s : NodeId) (material : Material)
    (hm : dom.Accepts s material) : dom.size ≤ (dom.placeBefore (some s) material).size := by
  match material, hm with
  | .node (some c), _ => simp [placeBefore]
  | .text text, _ => simp [placeBefore]

namespace WellFormed

theorem place (h : dom.WellFormed) (hp : p < dom.size) (hm : dom.Accepts p material) :
    (dom.place (some p) material).WellFormed := by
  match material, hm with
  | .node (some c), hc => exact h.append hp hc.lt_size hc.detached hc.not_encloses
  | .text text, _ => exact h.appendText hp text

theorem placeOutside (h : dom.WellFormed) {element fallback : NodeId} (hf : fallback < dom.size)
    (hm : dom.Accepts (dom.outerNode element fallback) material) :
    (dom.placeOutside (some element) (some fallback) material).WellFormed := by
  rw [placeOutside_eq]
  exact h.place (h.outerNode_lt hf) hm

theorem placeBefore (h : dom.WellFormed) (hs : dom.parent? (some s) = some p)
    (hm : dom.Accepts s material) : (dom.placeBefore (some s) material).WellFormed := by
  match material, hm with
  | .node (some c), hc => exact h.insertBefore hs hc.lt_size hc.detached hc.not_encloses
  | .text text, _ =>
    have hnew := h.insertable_size (.text text) (lt_size_of_parent? hs)
    exact (h.create (.text text)).insertBefore (p := p) (by simpa using hs) hnew.lt_size
      hnew.detached hnew.not_encloses

theorem placeDoctype (h : dom.WellFormed) (h0 : 0 < dom.size) (name : String) :
    (dom.placeDoctype name).WellFormed :=
  h.append_create (.doctype name) h0

end WellFormed

end Dom
end Markup
end CrossRef
