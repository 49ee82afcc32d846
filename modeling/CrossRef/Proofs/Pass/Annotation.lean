import CrossRef.Proofs.Index.Owner
import CrossRef.Proofs.Pass.Wrap

/-!
Annotating a chapter. Wrapping equations one after the other moves these equations only, so what is
known about every other node, and about every box once it is in place, stays true to the end.
-/
namespace CrossRef
namespace Pass

open Markup Markup.Dom Index

variable {dom dom' dom'' : Dom} {x p i q : NodeId} {moved rest : List NodeId}

/-- What wrapping the equations `moved` leaves as it was. -/
structure Annotated (dom dom' : Dom) (moved : List NodeId) : Prop where
  wellFormed : dom'.WellFormed
  size_le : dom.size ≤ dom'.size
  parent : ∀ i < dom.size, i ∉ moved → dom'.parent? (some i) = dom.parent? (some i)
  content : ∀ i < dom.size, dom'.content? (some i) = dom.content? (some i)
  /-- Children change only where an equation is moved away. -/
  children : ∀ q < dom.size, (∀ x ∈ moved, dom.parent? (some x) ≠ some q) →
    dom'.children (some q) = dom.children (some q)
  encloses : ∀ a i, dom.Encloses a i → dom'.Encloses a i
  encloses_old : ∀ a i, a < dom.size → i < dom.size → dom'.Encloses a i → dom.Encloses a i
  /-- Equations can lose their owners and nothing else. -/
  owner : ∀ depth i s, i < dom.size → nearestIdentifier? dom' depth i = some s →
    nearestIdentifier? dom depth i = some s
  /-- New elements are boxes. -/
  fresh : ∀ i label, dom.size ≤ i → dom'.isElement (some i) label → label = "div"

namespace Annotated

theorem refl (h : dom.WellFormed) : Annotated dom dom [] where
  wellFormed := h
  size_le := le_rfl
  parent _ _ _ := rfl
  content _ _ := rfl
  children _ _ _ := rfl
  encloses _ _ h := h
  encloses_old _ _ _ _ h := h
  owner _ _ _ _ h := h
  fresh i label hi hel := by
    simp [isElement, name?, content?, (node?_eq_none_iff dom i).mpr hi] at hel

theorem trans (h : Annotated dom dom' moved) (h' : Annotated dom' dom'' rest)
    (hrest : ∀ x ∈ rest, x < dom.size ∧ x ∉ moved) : Annotated dom dom'' (moved ++ rest) where
  wellFormed := h'.wellFormed
  size_le := h.size_le.trans h'.size_le
  parent i hi hmem := by
    simp only [List.mem_append, not_or] at hmem
    rw [h'.parent i (hi.trans_le h.size_le) hmem.2, h.parent i hi hmem.1]
  content i hi := by rw [h'.content i (hi.trans_le h.size_le), h.content i hi]
  children q hq hmoved := by
    rw [h'.children q (hq.trans_le h.size_le), h.children q hq]
    · exact fun x hx => hmoved x (by simp [hx])
    · intro x hx
      rw [h.parent x (hrest x hx).1 (hrest x hx).2]
      exact hmoved x (by simp [hx])
  encloses a i hai := h'.encloses a i (h.encloses a i hai)
  encloses_old a i ha hi hai := h.encloses_old a i ha hi
    (h'.encloses_old a i (ha.trans_le h.size_le) (hi.trans_le h.size_le) hai)
  owner depth i s hi hs := h.owner depth i s hi (h'.owner depth i s (hi.trans_le h.size_le) hs)
  fresh i label hi hel := by
    by_cases hi' : i < dom'.size
    · rw [isElement_congr (h'.content i hi')] at hel
      exact h.fresh i label hi hel
    · exact h'.fresh i label (Nat.le_of_not_lt hi') hel

theorem above (ha : Annotated dom dom' moved) (h : dom.WellFormed) {a : NodeId}
    (hai : dom.Above a i) : dom'.Above a i := by
  rcases Relation.reflTransGen_iff_eq_or_transGen.mp (ha.encloses a i hai.to_reflTransGen) with
    rfl | habove
  · exact absurd hai (h.acyclic i)
  · exact habove

theorem above_old (ha : Annotated dom dom' moved) {a : NodeId} (hlt : a < dom.size)
    (hi : i < dom.size) (hai : dom'.Above a i) : dom.Above a i := by
  rcases Relation.reflTransGen_iff_eq_or_transGen.mp
    (ha.encloses_old a i hlt hi hai.to_reflTransGen) with rfl | habove
  · exact absurd hai (ha.wellFormed.acyclic i)
  · exact habove

end Annotated

/-! ### One equation -/

theorem replaceChild_of_not_mem {box : NodeId} {nodes : List NodeId} (hx : x ∉ nodes) :
    replaceChild x box nodes = nodes := by
  refine (List.map_congr_left fun i hi => ?_).trans (List.map_id nodes)
  rw [if_neg (by rintro rfl; exact hx hi), id]

theorem encloses_wrap (h : dom.WellFormed) (hx : dom.parent? (some x) = some p) (label : String)
    {a : NodeId} (hai : dom.Encloses a i) : (wrap dom x label).Encloses a i := by
  have hparent := parent?_wrap h hx label
  have hlt := lt_size_of_parent? hx
  induction hai with
  | refl => exact .refl
  | @tail j i _ hji ih =>
    have hi := lt_size_of_parent? hji
    by_cases hix : i = x
    · -- the way from the old parent to the equation goes through the two boxes
      obtain rfl : p = j := Option.some_inj.mp (hx.symm.trans (hix ▸ hji))
      have hdisplay : (wrap dom x label).parent? (some dom.size) = some p := by grind
      have hcontent : (wrap dom x label).parent? (some (dom.size + 1)) = some dom.size := by grind
      have hequation : (wrap dom x label).parent? (some i) = some (dom.size + 1) := by grind
      exact ((ih.tail hdisplay).tail hcontent).tail hequation
    · have hsame : (wrap dom x label).parent? (some i) = some j := by grind
      exact ih.tail hsame

theorem encloses_of_wrap (h : dom.WellFormed) (hx : dom.parent? (some x) = some p) (label : String)
    {a : NodeId} (ha : a < dom.size) (hai : (wrap dom x label).Encloses a i) :
    (i < dom.size → dom.Encloses a i) ∧ (dom.size ≤ i → dom.Encloses a p) := by
  have hparent := parent?_wrap h hx label
  induction hai with
  | refl => exact ⟨fun _ => .refl, fun ha' => absurd ha (Nat.not_lt.mpr ha')⟩
  | @tail j i _ hji ih =>
    have hlt := @h.parent_lt
    have hold := @lt_size_of_parent? dom
    rw [hparent] at hji
    constructor
    · intro hi
      by_cases hix : i = x
      · have hp := ih.2 (by grind)
        exact hix ▸ hp.tail hx
      · have hj : dom.parent? (some i) = some j := by grind
        exact (ih.1 (h.parent_lt hj)).tail hj
    · intro hi
      by_cases hj : j < dom.size
      · obtain rfl : j = p := by grind
        exact ih.1 hj
      · exact ih.2 (Nat.le_of_not_lt hj)

/-- The boxes carry no identifiers, and they put what stood above the equation farther away. -/
theorem owner_wrap (h : dom.WellFormed) (hx : dom.parent? (some x) = some p) (label : String)
    {depth : Nat} {s : String} (hi : i < dom.size)
    (hs : nearestIdentifier? (wrap dom x label) depth i = some s) :
    nearestIdentifier? dom depth i = some s := by
  have hparent := parent?_wrap h hx label
  have hcontent := content?_wrap h hx label
  have hown : ∀ j < dom.size, ownIdentifier? (wrap dom x label) j = ownIdentifier? dom j :=
    fun j hj => ownIdentifier?_congr (attribute?_congr (by rw [hcontent]; grind) _)
  have hbox : ∀ b, b = dom.size ∨ b = dom.size + 1 →
      ownIdentifier? (wrap dom x label) b = none := by
    intro b hb
    rw [ownIdentifier?, attribute?, Dom.attributes, hcontent]
    rcases hb with rfl | rfl <;> simp [divOf, Attribute.plain]
  induction depth using Nat.strong_induction_on generalizing i with
  | h depth ih =>
    rw [nearestIdentifier?_eq_some_iff, hown i hi] at hs
    rw [nearestIdentifier?_eq_some_iff]
    obtain hs | ⟨hnone, d, q, hd, hq, hnear⟩ := hs
    · exact .inl hs
    refine .inr ⟨hnone, ?_⟩
    rw [hparent] at hq
    by_cases hix : i = x
    · subst hix
      rw [if_pos rfl, Option.some_inj] at hq
      -- up through the content box and the display box
      rw [← hq, nearestIdentifier?_eq_some_iff, hbox _ (by simp), hparent] at hnear
      obtain ⟨d₁, q₁, hd₁, hq₁, hnear⟩ := (hnear.resolve_left (by simp)).2
      have hdisplay : q₁ = dom.size := by grind
      rw [hdisplay, nearestIdentifier?_eq_some_iff, hbox _ (by simp), hparent] at hnear
      obtain ⟨d₂, q₂, hd₂, hq₂, hnear⟩ := (hnear.resolve_left (by simp)).2
      have hp₂ : q₂ = p := by grind [lt_size_of_parent? hx]
      refine ⟨d, p, hd, hx, nearestIdentifier?_mono (ih d₂ (by omega) (h.parent_lt hx) ?_) (by omega)⟩
      exact hp₂ ▸ hnear
    · have hq' : dom.parent? (some i) = some q := by grind
      exact ⟨d, q, hd, hq', ih d (by omega) (h.parent_lt hq') hnear⟩

theorem annotated_wrap (h : dom.WellFormed) (hx : dom.parent? (some x) = some p) (label : String) :
    Annotated dom (wrap dom x label) [x] where
  wellFormed := wellFormed_wrap h hx label
  size_le := by simp [size_wrap h hx]
  parent i hi hmem := by
    rw [parent?_wrap h hx]
    grind
  content i hi := by
    rw [content?_wrap h hx]
    grind
  children q hq hmoved := by
    have hxq : x ∉ dom.children (some q) := fun hmem =>
      hmoved x (by simp) (h.mem_children_iff.mp hmem)
    rw [children_wrap h hx, replaceChild_of_not_mem hxq]
    grind
  encloses a i := encloses_wrap h hx label
  encloses_old a i ha hi hai := (encloses_of_wrap h hx label ha hai).1 hi
  owner depth i s hi hs := owner_wrap h hx label hi hs
  fresh i l hi hel := by
    have hnone : dom.content? (some i) = none := by
      simp [content?, (node?_eq_none_iff dom i).mpr hi]
    have hcontent := content?_wrap h hx label i
    rw [hnone] at hcontent
    unfold isElement name? at hel
    rw [hcontent] at hel
    split_ifs at hel <;> simp_all [divOf, Name.html]

/-! ### The boxes around an equation -/

/-- The equation is alone in a content box, which stands before a number box in a display box. -/
structure BoxedIn (dom : Dom) (x : NodeId) (label : String) (display content number text : NodeId) :
    Prop where
  displayBox : dom.content? (some display) = some (divOf displayClass)
  contentBox : dom.content? (some content) = some (divOf contentClass)
  numberBox : dom.content? (some number) = some (divOf numberClass)
  shown : dom.content? (some text) = some (.text label)
  inDisplay : dom.children (some display) = [content, number]
  inContent : dom.children (some content) = [x]
  inNumber : dom.children (some number) = [text]
  inText : dom.children (some text) = []

theorem boxedIn_wrap (h : dom.WellFormed) (hx : dom.parent? (some x) = some p) (label : String) :
    BoxedIn (wrap dom x label) x label dom.size (dom.size + 1) (dom.size + 2) (dom.size + 3) := by
  have hcontent := content?_wrap h hx label
  have hkids := children_wrap h hx label
  constructor
  · simp [hcontent]
  · simp [hcontent]
  · simp [hcontent]
  · simp [hcontent]
  · simp [hkids]
  · simp [hkids]
  · simp [hkids]
  · simp [hkids, replaceChild, children_of_size_le]

namespace BoxedIn

variable {label : String} {display content number text : NodeId}

/-- Boxes stay as long as nothing is moved away from them. -/
theorem annotated (h : BoxedIn dom x label display content number text)
    (ha : Annotated dom dom' moved)
    (hmoved : ∀ b ∈ [display, content, number, text], ∀ z ∈ moved, dom.parent? (some z) ≠ some b) :
    BoxedIn dom' x label display content number text := by
  have hlt : ∀ b c, dom.content? (some b) = some c → b < dom.size := fun b c hb =>
    (content?_isSome_iff dom b).mp (by simp [hb])
  have hdisplay := hlt _ _ h.displayBox
  have hcontent := hlt _ _ h.contentBox
  have hnumber := hlt _ _ h.numberBox
  have htext := hlt _ _ h.shown
  constructor
  · rw [ha.content _ hdisplay, h.displayBox]
  · rw [ha.content _ hcontent, h.contentBox]
  · rw [ha.content _ hnumber, h.numberBox]
  · rw [ha.content _ htext, h.shown]
  · rw [ha.children _ hdisplay (hmoved _ (by simp)), h.inDisplay]
  · rw [ha.children _ hcontent (hmoved _ (by simp)), h.inContent]
  · rw [ha.children _ hnumber (hmoved _ (by simp)), h.inNumber]
  · rw [ha.children _ htext (hmoved _ (by simp)), h.inText]

/-- The number box shows the label. -/
theorem textOf_number (h : BoxedIn dom x label display content number text)
    (hwf : dom.WellFormed) : dom.textOf (some number) = label := by
  refine hwf.textOf_of_only_text ?_ h.inNumber h.shown h.inText
  simp [name?, h.numberBox, divOf]

theorem isWrapped (h : BoxedIn dom x label display content number text) (hwf : dom.WellFormed) :
    isWrapped dom x := by
  have hparent : dom.parent? (some x) = some content :=
    hwf.mem_children_iff.mp (by simp [h.inContent])
  unfold Pass.isWrapped
  rw [hparent]
  simp only [isElement, name?, attribute?, Dom.attributes, h.contentBox]
  decide

end BoxedIn

/-! ### All equations of a chapter -/

theorem isWrapped_congr (hparent : dom'.parent? (some x) = dom.parent? (some x))
    (hcontent : dom'.content? (dom.parent? (some x)) = dom.content? (dom.parent? (some x))) :
    isWrapped dom' x = isWrapped dom x := by
  unfold isWrapped
  rw [hparent]
  simp only [isElement_congr hcontent, attribute?_congr hcontent]

theorem Annotated.isWrapped_eq (ha : Annotated dom dom' moved) (h : dom.WellFormed)
    (hx : dom.parent? (some x) = some p) (hmem : x ∉ moved) :
    isWrapped dom' x = isWrapped dom x := by
  refine isWrapped_congr (ha.parent x (lt_size_of_parent? hx) hmem) ?_
  rw [hx]
  exact ha.content p (h.parent_lt hx)

/-- The equations of a list that are not wrapped yet. -/
def unwrapped (dom : Dom) (equations : List ScannedEquation) : List ScannedEquation :=
  equations.filter fun e => !isWrapped dom e.node

theorem unwrapped_cons_of_isWrapped {e : ScannedEquation} {equations : List ScannedEquation}
    (h : isWrapped dom e.node) : unwrapped dom (e :: equations) = unwrapped dom equations := by
  simp [unwrapped, h]

theorem unwrapped_cons {e : ScannedEquation} {equations : List ScannedEquation}
    (h : ¬ isWrapped dom e.node) :
    unwrapped dom (e :: equations) = e :: unwrapped dom equations := by
  simp [unwrapped, h]

/-- Equations that are not moved keep their parents, and are wrapped if they were before. -/
theorem Annotated.later (ha : Annotated dom dom' moved) (h : dom.WellFormed)
    {equations : List ScannedEquation}
    (hparent : ∀ e ∈ equations, ∃ p, dom.parent? (some e.node) = some p)
    (hmoved : ∀ e ∈ equations, e.node ∉ moved) :
    (∀ e ∈ equations, dom'.parent? (some e.node) = dom.parent? (some e.node)) ∧
      unwrapped dom' equations = unwrapped dom equations := by
  refine ⟨fun e he => ?_, List.filter_congr fun e he => ?_⟩
  · obtain ⟨p, hp⟩ := hparent e he
    exact ha.parent _ (lt_size_of_parent? hp) (hmoved e he)
  · obtain ⟨p, hp⟩ := hparent e he
    rw [ha.isWrapped_eq h hp (hmoved e he)]

/-- The boxes of an equation that was just wrapped stay, as the equations after it have no parents
among them. -/
theorem boxedIn_wrap_later (h : dom.WellFormed) (hx : dom.parent? (some x) = some p)
    (label : String) (ha : Annotated (wrap dom x label) dom' moved)
    (hmoved : ∀ z ∈ moved, ∃ q, (wrap dom x label).parent? (some z) = some q ∧ q < dom.size) :
    BoxedIn dom' x label dom.size (dom.size + 1) (dom.size + 2) (dom.size + 3) := by
  refine (boxedIn_wrap h hx label).annotated ha fun b hb z hz => ?_
  obtain ⟨q, hq, hlt⟩ := hmoved z hz
  rw [hq]
  simp only [List.mem_cons, List.not_mem_nil, or_false] at hb
  grind

/-- Annotating moves the equations that are not wrapped yet, counts them, and puts each into boxes
that show its number. -/
theorem wrapAll_spec (number : ChapterNumber) (h : dom.WellFormed)
    {equations : List ScannedEquation} (hnodup : (equations.map (·.node)).Nodup)
    (hparent : ∀ e ∈ equations, ∃ p, dom.parent? (some e.node) = some p) :
    Annotated dom (wrapAll number dom equations).1 ((unwrapped dom equations).map (·.node)) ∧
      (wrapAll number dom equations).2 = (unwrapped dom equations).length ∧
      ∀ e ∈ unwrapped dom equations, ∃ display content box text,
        BoxedIn (wrapAll number dom equations).1 e.node (shownEquationNumber number e.sequence)
          display content box text := by
  induction equations generalizing dom with
  | nil => exact ⟨.refl h, rfl, by simp [unwrapped]⟩
  | cons e rest ih =>
    obtain ⟨hmem, hnodup⟩ := List.nodup_cons.mp hnodup
    have hrest := fun e' he' => hparent e' (List.mem_cons_of_mem e he')
    rw [wrapAll]
    by_cases hwrapped : isWrapped dom e.node
    · rw [if_pos hwrapped, unwrapped_cons_of_isWrapped hwrapped]
      exact ih h hnodup hrest
    · obtain ⟨p, hp⟩ := hparent e List.mem_cons_self
      have hstep := annotated_wrap h hp (shownEquationNumber number e.sequence)
      have hapart : ∀ e' ∈ rest, e'.node ∉ [e.node] := fun e' he' heq =>
        hmem (List.mem_map.mpr ⟨e', he', List.mem_singleton.mp heq⟩)
      obtain ⟨hparents, hsame⟩ := hstep.later h hrest hapart
      obtain ⟨hann, hcount, hboxes⟩ := ih hstep.wellFormed hnodup fun e' he' => by
        rw [hparents e' he']
        exact hrest e' he'
      rw [if_neg hwrapped, unwrapped_cons hwrapped]
      rw [hsame] at hann hcount hboxes
      have hmoved : ∀ z ∈ (unwrapped dom rest).map (·.node), ∃ e' ∈ rest, e'.node = z := fun z hz => by
        obtain ⟨e', he', rfl⟩ := List.mem_map.mp hz
        exact ⟨e', (List.mem_filter.mp he').1, rfl⟩
      refine ⟨hstep.trans hann fun z hz => ?_, by simp [hcount], fun e' he' => ?_⟩
      · obtain ⟨e', he', rfl⟩ := hmoved z hz
        obtain ⟨q, hq⟩ := hrest e' he'
        exact ⟨lt_size_of_parent? hq, hapart e' he'⟩
      · rcases List.mem_cons.mp he' with rfl | he'
        · refine ⟨_, _, _, _, boxedIn_wrap_later h hp _ hann fun z hz => ?_⟩
          obtain ⟨e'', he'', rfl⟩ := hmoved z hz
          obtain ⟨q, hq⟩ := hrest e'' he''
          exact ⟨q, (hparents e'' he'').trans hq, h.parent_lt hq⟩
        · exact hboxes e' he'

/-- After annotating every equation is wrapped. -/
theorem isWrapped_wrapAll (number : ChapterNumber) (h : dom.WellFormed)
    {equations : List ScannedEquation} (hnodup : (equations.map (·.node)).Nodup)
    (hparent : ∀ e ∈ equations, ∃ p, dom.parent? (some e.node) = some p) {e : ScannedEquation}
    (he : e ∈ equations) : isWrapped (wrapAll number dom equations).1 e.node := by
  obtain ⟨hann, -, hboxes⟩ := wrapAll_spec number h hnodup hparent
  by_cases hwrapped : isWrapped dom e.node
  · obtain ⟨p, hp⟩ := hparent e he
    rw [hann.isWrapped_eq h hp fun hmoved => ?_, hwrapped]
    obtain ⟨e', he', heq⟩ := List.mem_map.mp hmoved
    have hunwrapped := (List.mem_filter.mp he').2
    simp [heq, hwrapped] at hunwrapped
  · obtain ⟨display, content, box, text, hbox⟩ :=
      hboxes e (List.mem_filter.mpr ⟨he, by simp [hwrapped]⟩)
    exact hbox.isWrapped hann.wellFormed

end Pass
end CrossRef
