import CrossRef.Proofs.Dom.Order
import CrossRef.Proofs.Dom.Placement

/-!
Histories: arenas that come about by any sequence of edits and placements. As long as each operation
is given nodes it may be used on, every arena on the way is well formed.
-/
namespace CrossRef
namespace Markup
namespace Dom

variable {dom : Dom}

/-- The operations of the arena, with the placements that tree building asks for. -/
inductive Operation
  | create (content : Content)
  | append (parent child : NodeId)
  | insertBefore (sibling new : NodeId)
  | appendText (parent : NodeId) (text : String)
  | detach (node : NodeId)
  | setAttribute (node : NodeId) (label value : String)
  | replaceChildrenWithText (node : NodeId) (text : String)
  | reparentChildren (source target : NodeId)
  | place (parent : NodeId) (material : Material)
  | placeOutside (element fallback : NodeId) (material : Material)
  | placeBefore (sibling : NodeId) (material : Material)
  | placeDoctype (name : String)
  | addMissingAttributes (node : NodeId) (new : List Attribute)
  deriving DecidableEq, Repr

namespace Operation

def run (dom : Dom) : Operation → Dom
  | create content => (dom.create content).1
  | append parent child => dom.append (some parent) (some child)
  | insertBefore sibling new => dom.insertBefore (some sibling) (some new)
  | appendText parent text => dom.appendText (some parent) text
  | detach node => dom.detach (some node)
  | setAttribute node label value => dom.setAttribute (some node) label value
  | replaceChildrenWithText node text => dom.replaceChildrenWithText (some node) text
  | reparentChildren source target => dom.reparentChildren (some source) (some target)
  | place parent material => dom.place (some parent) material
  | placeOutside element fallback material =>
    dom.placeOutside (some element) (some fallback) material
  | placeBefore sibling material => dom.placeBefore (some sibling) material
  | placeDoctype name => dom.placeDoctype name
  | addMissingAttributes node new => dom.addMissingAttributes (some node) new

/-- The nodes named exist, what is linked in is detached and does not enclose the target, a sibling
has a parent, and children do not move below one of themselves. -/
def Allowed (dom : Dom) : Operation → Prop
  | create _ | placeDoctype _ => True
  | append parent child => parent < dom.size ∧ dom.Insertable child parent
  | insertBefore sibling new =>
    sibling < dom.size ∧ dom.parent? (some sibling) ≠ none ∧ dom.Insertable new sibling
  | appendText node _ | detach node | setAttribute node _ _ | replaceChildrenWithText node _
  | addMissingAttributes node _ => node < dom.size
  | reparentChildren source target =>
    source < dom.size ∧ target < dom.size ∧ ¬ dom.Above source target
  | place parent material => parent < dom.size ∧ dom.Accepts parent material
  | placeOutside element fallback material =>
    element < dom.size ∧ fallback < dom.size ∧
      dom.Accepts (dom.outerNode element fallback) material
  | placeBefore sibling material =>
    sibling < dom.size ∧ dom.parent? (some sibling) ≠ none ∧ dom.Accepts sibling material

variable {op : Operation}

/-- No operation takes a node away. -/
theorem size_le_size_run (h : op.Allowed dom) : dom.size ≤ (op.run dom).size := by
  cases op with
  | appendText parent text => exact size_le_size_appendText dom parent text
  | place parent material => exact size_le_size_place dom parent material
  | placeOutside element fallback material =>
    rw [run, placeOutside_eq]
    exact size_le_size_place dom _ material
  | placeBefore sibling material => exact size_le_size_placeBefore dom sibling material h.2.2
  | setAttribute node label value => exact (sameLinks_setAttribute dom _ label value).size.ge
  | addMissingAttributes node new => exact (sameLinks_addMissingAttributes dom _ new).size.ge
  | reparentChildren source target => simp [run, reparentChildren_eq]
  | placeDoctype name => simp [run, Dom.placeDoctype]
  | _ => simp [run]

theorem wellFormed_run (h : dom.WellFormed) (h0 : 0 < dom.size) (hop : op.Allowed dom) :
    (op.run dom).WellFormed := by
  cases op with
  | create content => exact h.create content
  | append parent child =>
    obtain ⟨hp, hc⟩ := hop
    exact h.append hp hc.lt_size hc.detached hc.not_encloses
  | insertBefore sibling new =>
    obtain ⟨-, hs, hn⟩ := hop
    obtain ⟨p, hp⟩ := Option.ne_none_iff_exists'.mp hs
    exact h.insertBefore hp hn.lt_size hn.detached hn.not_encloses
  | appendText parent text => exact h.appendText hop text
  | detach node => exact h.detach node
  | setAttribute node label value => exact (sameLinks_setAttribute dom _ label value).wellFormed h
  | replaceChildrenWithText node text => exact h.replaceChildrenWithText hop text
  | reparentChildren source target => exact h.reparentChildren hop.2.1 hop.2.2
  | place parent material => exact h.place hop.1 hop.2
  | placeOutside element fallback material => exact h.placeOutside hop.2.1 hop.2.2
  | placeBefore sibling material =>
    obtain ⟨-, hs, hm⟩ := hop
    obtain ⟨p, hp⟩ := Option.ne_none_iff_exists'.mp hs
    exact h.placeBefore hp hm
  | placeDoctype name => exact h.placeDoctype h0 name
  | addMissingAttributes node new => exact (sameLinks_addMissingAttributes dom _ new).wellFormed h

end Operation

/-- The arenas that a sequence of operations goes through, from the first to the last. -/
def history (dom : Dom) : List Operation → List Dom
  | [] => [dom]
  | op :: ops => dom :: history (op.run dom) ops

/-- Each operation is allowed where its turn comes. -/
def AllAllowed (dom : Dom) : List Operation → Prop
  | [] => True
  | op :: ops => op.Allowed dom ∧ AllAllowed (op.run dom) ops

theorem wellFormed_history {ops : List Operation} (h : dom.WellFormed) (h0 : 0 < dom.size)
    (hops : dom.AllAllowed ops) : ∀ d ∈ dom.history ops, d.WellFormed := by
  induction ops generalizing dom with
  | nil => simpa [history] using h
  | cons op ops ih =>
    obtain ⟨hop, hrest⟩ := hops
    have hsize := Operation.size_le_size_run hop
    intro d hd
    rcases List.mem_cons.mp hd with rfl | hd
    · exact h
    · exact ih (Operation.wellFormed_run h h0 hop) (by omega) hrest d hd

/-- From the lone document, every sequence of allowed operations goes through well-formed arenas
only. -/
theorem wellFormed_of_mem_history {ops : List Operation} (hops : empty.AllAllowed ops) {d : Dom}
    (hd : d ∈ empty.history ops) : d.WellFormed :=
  wellFormed_history wellFormed_empty (by decide) hops d hd

/-- A paragraph with text, and the text moved to a quotation put before it. -/
theorem wellFormed_of_regrouping :
    ∃ d ∈ empty.history [.create (.element (.html "p") []), .append 0 1, .appendText 1 "a",
      .create (.element (.html "q") []), .insertBefore 1 3, .reparentChildren 1 3],
      d.children (some 3) = [2] ∧ d.WellFormed := by
  refine ⟨_, List.getLast_mem (by simp [history]), by decide,
    wellFormed_of_mem_history ?_ (List.getLast_mem (by simp [history]))⟩
  refine ⟨trivial, ?_, ?_, trivial, ?_, ?_, trivial⟩
  · exact ⟨by decide, by decide, by decide, not_encloses_of_childless (by decide) (by decide)⟩
  · exact show 1 < _ by decide
  · exact ⟨by decide, by decide, by decide, by decide,
      not_encloses_of_childless (by decide) (by decide)⟩
  · refine ⟨by decide, by decide, fun habove => ?_⟩
    obtain ⟨p, hp, hencloses⟩ := above_iff_exists_parent.mp habove
    obtain rfl : p = 0 := Option.some_inj.mp (hp.symm.trans (by decide))
    obtain h | ⟨q, -, hq⟩ := hencloses.cases_tail
    · exact absurd h (by decide)
    · exact absurd hq (by decide +revert)

end Dom
end Markup
end CrossRef
