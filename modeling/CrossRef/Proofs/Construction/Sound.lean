import CrossRef.Markup.Html.Construction.Formatting
import CrossRef.Proofs.Dom.Leaf
import CrossRef.Proofs.Dom.Order

/-!
Soundness of tree construction: the arena stays well formed, and what is open can hold what comes next.
Here are the steps that all insertion modes share, and those of formatting elements.
-/
namespace CrossRef
namespace Markup
namespace Html

/-- The arena is well formed, its text nodes are leaves, and the document and the open elements can hold
other nodes. -/
structure Holds (dom : Dom) (opened : List OpenElement) : Prop where
  wellFormed : dom.WellFormed
  leaves : dom.TextIsLeaf
  document : dom.CanHold Dom.document
  opened : ∀ e ∈ opened, dom.CanHold e.node

namespace Holds

variable {dom dom' : Dom} {opened opened' : List OpenElement}

theorem subset (h : Holds dom opened) (hsub : opened' ⊆ opened) : Holds dom opened' :=
  ⟨h.wellFormed, h.leaves, h.document, fun e he => h.opened e (hsub he)⟩

theorem cons (h : Holds dom opened) {node : NodeId} (hn : dom.CanHold node) (name : Name) :
    Holds dom (⟨node, name⟩ :: opened) :=
  ⟨h.wellFormed, h.leaves, h.document, List.forall_mem_cons.mpr ⟨hn, h.opened⟩⟩

theorem grow (h : Holds dom opened) (hwf : dom'.WellFormed) (hkeeps : Dom.KeepsHolders dom dom') :
    Holds dom' opened where
  wellFormed := hwf
  leaves := h.leaves.keep h.wellFormed hwf hkeeps
  document := hkeeps.canHold _ h.document
  opened e he := hkeeps.canHold _ (h.opened e he)

theorem create (h : Holds dom opened) (content : Content) :
    Holds (dom.create content).1 opened :=
  h.grow (h.wellFormed.create content) (.create dom content)

theorem append_create (h : Holds dom opened) {p : NodeId} (hp : dom.CanHold p) (content : Content) :
    Holds ((dom.create content).1.append (some p) (some dom.size)) opened :=
  h.grow (h.wellFormed.append_create content hp.lt_size) (.appendCreate hp content)

end Holds

theorem holds_empty : Holds Dom.empty [] :=
  ⟨Dom.wellFormed_empty, Dom.textIsLeaf_empty, Dom.canHold_document, by simp⟩

namespace Place

/-- The node that a place names can hold others. -/
def Fits (dom : Dom) : Place → Prop
  | inside node => dom.CanHold node
  | outside _ below => dom.CanHold below

/-- The node that material goes into. -/
def target (dom : Dom) : Place → NodeId
  | inside node => node
  | outside table below => dom.outerNode table below

variable {dom : Dom} {place : Place}

theorem target_canHold {opened : List OpenElement} (h : Holds dom opened) (hplace : place.Fits dom) :
    dom.CanHold (place.target dom) := by
  cases place with
  | inside node => exact hplace
  | outside table below =>
    rw [target, Dom.outerNode]
    cases hp : dom.parent? (some table) with
    | none => exact hplace
    | some p => exact h.leaves.canHold_parent h.wellFormed hp

theorem Fits.mono {dom' : Dom} (hplace : place.Fits dom) (hkeeps : Dom.KeepsHolders dom dom') :
    place.Fits dom' := by
  cases place with
  | inside node => exact hkeeps.canHold _ hplace
  | outside table below => exact hkeeps.canHold _ hplace

theorem target_create (content : Content) :
    place.target (dom.create content).1 = place.target dom := by
  cases place <;> simp [target, Dom.outerNode]

end Place

theorem fosterPlace_fits {dom : Dom} {opened : List OpenElement} (h : Holds dom opened) :
    (fosterPlace opened).Fits dom := by
  induction opened with
  | nil => exact h.document
  | cons e opened ih =>
    cases opened with
    | nil => exact h.opened e (by simp)
    | cons below outer =>
      rw [fosterPlace]
      split_ifs
      · exact h.opened e (by simp)
      · exact h.opened below (by simp)
      · exact ih (h.subset (List.subset_cons_self _ _))

namespace Construction

abbrev Sound (c : Construction) : Prop := Holds c.dom c.opened

variable {c : Construction} {place : Place} {node : NodeId}

theorem placeFor_fits (h : c.Sound) {e : OpenElement} (he : c.dom.CanHold e.node) :
    (c.placeFor e).Fits c.dom := by
  unfold placeFor
  split_ifs
  · exact fosterPlace_fits h
  · exact he

theorem currentPlace_fits (h : c.Sound) : c.currentPlace.Fits c.dom := by
  unfold currentPlace
  split
  · next e he => exact placeFor_fits h (h.opened e (List.mem_of_mem_head? he))
  · exact h.document

theorem placeAt_eq (c : Construction) (place : Place) (material : Material) :
    c.placeAt place material =
      { c with dom := c.dom.place (some (place.target c.dom)) material } := by
  cases place <;> simp [placeAt, Place.target, Dom.placeOutside_eq]

theorem moveInto_eq (c : Construction) (place : Place) (node : NodeId) :
    c.moveInto place node =
      if c.dom.contains (some node) (some (place.target c.dom)) then c
      else { c with
        dom := (c.dom.detach (some node)).append (some (place.target c.dom)) (some node) } := by
  cases place with
  | inside parent => rfl
  | outside table below =>
    cases hp : c.dom.parent? (some table) <;> simp [moveInto, Place.target, Dom.outerNode, hp]

@[simp] theorem opened_moveInto (c : Construction) (place : Place) (node : NodeId) :
    (c.moveInto place node).opened = c.opened := by
  rw [moveInto_eq]
  split_ifs <;> rfl

namespace Sound

theorem placeAt (h : c.Sound) (hplace : place.Fits c.dom) {material : Material}
    (hm : c.dom.Accepts (place.target c.dom) material) :
    (c.placeAt place material).Sound ∧ Dom.KeepsHolders c.dom (c.placeAt place material).dom := by
  have htarget := place.target_canHold h hplace
  have hkeeps := Dom.KeepsHolders.place htarget hm
  rw [placeAt_eq]
  exact ⟨h.grow (h.wellFormed.place htarget.lt_size hm) hkeeps, hkeeps⟩

/-- A new node can be placed wherever a place fits. -/
theorem placeAt_create (h : c.Sound) (hplace : place.Fits c.dom) (content : Content) :
    let c' := { c with dom := (c.dom.create content).1 }.placeAt place (.node (some c.dom.size))
    c'.Sound ∧ Dom.KeepsHolders (c.dom.create content).1 c'.dom := by
  have hc : Sound { c with dom := (c.dom.create content).1 } := h.create content
  refine hc.placeAt (hplace.mono (.create _ _)) ?_
  rw [Place.target_create]
  exact h.wellFormed.insertable_size content (place.target_canHold h hplace).lt_size

theorem moveInto (h : c.Sound) (hplace : place.Fits c.dom) (hn : node < c.dom.size) :
    (c.moveInto place node).Sound ∧ Dom.KeepsHolders c.dom (c.moveInto place node).dom := by
  rw [moveInto_eq]
  split_ifs with hin
  · exact ⟨h, .refl c.dom⟩
  · rw [h.wellFormed.contains_iff] at hin
    have htarget := place.target_canHold h hplace
    have hkeeps := Dom.KeepsHolders.move htarget hn
    exact ⟨h.grow (h.wellFormed.move htarget.lt_size hn hin) hkeeps, hkeeps⟩

end Sound

/-- A split under way is sound when what it has moved last exists and what it has kept can hold others. -/
structure Split.Sound (s : Split) : Prop where
  state : s.state.Sound
  last : s.last < s.state.dom.size
  kept : ∀ e ∈ s.kept, s.state.dom.CanHold e.node

/-- The split after a copy of one more formatting element is put around what moved last. -/
def Split.copyAround (s : Split) (e : OpenElement) (tag : Tag) : Split :=
  let c := { s.state with
    dom := (s.state.dom.create (.element (.html tag.label) (tag.attributesIn .html))).1
    formatting := replaceEntry e.node (.element s.state.dom.size tag) s.state.formatting }
  { state := c.moveInto (.inside s.state.dom.size) s.last
    last := s.state.dom.size
    bookmark := s.bookmark.or (some s.state.dom.size)
    kept := s.kept ++ [⟨s.state.dom.size, .html tag.label⟩] }

namespace Split

@[grind ←] theorem opened_copyAround (s : Split) (e : OpenElement) (tag : Tag) :
    (s.copyAround e tag).state.opened = s.state.opened := by
  simp [copyAround]

theorem Sound.copyAround {s : Split} (h : s.Sound) (e : OpenElement) (tag : Tag) :
    (s.copyAround e tag).Sound ∧ Dom.KeepsHolders s.state.dom (s.copyAround e tag).state.dom := by
  have hcreate := h.state.create (.element (.html tag.label) (tag.attributesIn .html))
  have hnew : Place.Fits (s.state.dom.create (.element (.html tag.label) (tag.attributesIn .html))).1
      (.inside s.state.dom.size) := s.state.dom.canHold_size (by simp)
  obtain ⟨hsound, hmove⟩ := Construction.Sound.moveInto
    (c := { s.state with
      dom := (s.state.dom.create (.element (.html tag.label) (tag.attributesIn .html))).1
      formatting := replaceEntry e.node (.element s.state.dom.size tag) s.state.formatting })
    hcreate hnew (by simpa using Nat.lt_succ_of_lt h.last)
  have hkeeps := (Dom.KeepsHolders.create s.state.dom _).trans hmove
  have hcopy := hmove.canHold _ hnew
  refine ⟨⟨hsound, hcopy.lt_size, fun e' he' => ?_⟩, hkeeps⟩
  rcases List.mem_append.mp he' with he' | he'
  · exact hkeeps.canHold _ (h.kept e' he')
  · obtain rfl := List.mem_singleton.mp he'
    exact hcopy

theorem Sound.splitBetween {s : Split} (h : s.Sound) (count : Nat) (between : List OpenElement) :
    (splitBetween s count between).Sound ∧
      (splitBetween s count between).state.opened = s.state.opened ∧
      Dom.KeepsHolders s.state.dom (splitBetween s count between).state.dom := by
  induction between generalizing s count with
  | nil => exact ⟨h, rfl, .refl _⟩
  | cons e outer ih =>
    unfold Construction.splitBetween
    simp only
    split
    · exact ih h _
    · next tag _ =>
      split_ifs
      · refine ih ?_ _
        exact ⟨h.state, h.last, h.kept⟩
      · obtain ⟨hcopy, hcopied⟩ := h.copyAround e tag
        obtain ⟨hsound, hopened, hkeeps⟩ := ih hcopy (count + 1)
        rw [opened_copyAround] at hopened
        exact ⟨hsound, hopened, hcopied.trans hkeeps⟩

end Split

namespace Sound

/-- The place that a split takes the outermost node it moved to. -/
theorem splitGoal_fits (h : c.Sound) {outer : List OpenElement}
    (houter : ∀ e ∈ outer, c.dom.CanHold e.node) :
    Place.Fits c.dom (match outer.head? with
      | some e => c.placeFor e
      | none => .inside Dom.document) := by
  split
  · next e he => exact placeFor_fits h (houter e (List.mem_of_mem_head? he))
  · exact h.document

theorem splitAround (h : c.Sound) (node : NodeId) (tag : Tag)
    {above between outer : List OpenElement} {block : OpenElement} (habove : above ⊆ c.opened)
    (hblock : block ∈ c.opened) (houter : outer ⊆ c.opened) :
    (c.splitAround node tag above block between outer).Sound := by
  have hstart : Split.Sound ⟨c, block.node, none, []⟩ :=
    ⟨h, (h.opened block hblock).lt_size, by simp⟩
  obtain ⟨hs, -, hbetween⟩ := hstart.splitBetween 0 between
  obtain ⟨hmoved, hmove⟩ := hs.state.moveInto
    (splitGoal_fits hs.state fun e he => hbetween.canHold _ (h.opened e (houter he))) hs.last
  have hblockHolds := hmove.canHold _ (hbetween.canHold _ (h.opened block hblock))
  have hnest := Dom.KeepsHolders.nestChildren hmoved.wellFormed hblockHolds
    (.element (.html tag.label) (tag.attributesIn .html)) (by simp)
  have hkeeps := (Dom.KeepsHolders.create _ _).trans hnest
  have hold : ∀ e ∈ c.opened, _ := fun e he =>
    hkeeps.canHold _ (hmove.canHold _ (hbetween.canHold _ (h.opened e he)))
  have hnested := hmoved.grow (hmoved.wellFormed.nestChildren hblockHolds.lt_size _) hkeeps
  refine ⟨hnested.wellFormed, hnested.leaves, hnested.document, fun e he => ?_⟩
  simp only [Construction.splitAround, List.mem_append, List.mem_cons] at he
  rcases he with (he | rfl | rfl | he) | he
  · exact hold e (habove he)
  · exact hnest.canHold _ (Dom.canHold_size _ (by simp))
  · exact hold e hblock
  · exact hkeeps.canHold _ (hmove.canHold _ (hs.kept e he))
  · exact hold e (houter he)

end Sound
end Construction
end Html
end Markup
end CrossRef
