import CrossRef.Pass.Basic
import CrossRef.Proofs.Construction.Run

/-!
Changing links. A verdict on a link changes the attributes or the children of that link alone, so
links that do not stand inside each other are changed independently.
-/
namespace CrossRef
namespace Pass

open Markup Markup.Dom

variable {dom dom' dom'' : Dom} {a i m : NodeId} {links more : List NodeId}

/-- An element that links into the same document. -/
def IsLocalLink (dom : Dom) (i : NodeId) : Prop :=
  dom.isElement (some i) "a" ∧ (Fragment.localTarget? dom i).isSome

theorem localTarget?_congr (h : dom'.content? (some i) = dom.content? (some i)) :
    Fragment.localTarget? dom' i = Fragment.localTarget? dom i := by
  simp only [Fragment.localTarget?, attribute?_congr h]

theorem href_of_localTarget? {target : String}
    (htarget : Fragment.localTarget? dom i = some target) :
    dom.attribute? (some i) "href" = some ("#" ++ target) := by
  unfold Fragment.localTarget? at htarget
  split at htarget
  · next rest hrest =>
    obtain ⟨href, hhref, hlist⟩ := Option.map_eq_some_iff.mp hrest
    rw [hhref, ← Option.some_inj.mp htarget]
    exact congrArg some (String.toList_inj.mp (by simpa using hlist))
  · simp at htarget

theorem isLocalLink_congr (h : dom'.content? (some i) = dom.content? (some i)) :
    IsLocalLink dom' i ↔ IsLocalLink dom i := by
  rw [IsLocalLink, isElement_congr h, localTarget?_congr h, IsLocalLink]

theorem mem_localLinks_iff {f : Fragment} (h : f.WellFormed) :
    m ∈ f.localLinks ↔ f.dom.Above f.root m ∧ IsLocalLink f.dom m := by
  rw [Fragment.localLinks, Fragment.elements, elementsBelow, List.mem_filter, List.mem_filter,
    h.dom.mem_descendants_iff h.root, and_assoc]
  rfl

theorem nodup_localLinks {f : Fragment} (h : f.WellFormed) : f.localLinks.Nodup :=
  ((h.dom.nodup_descendants h.root).filter _).filter _

/-- What changing the given links leaves as it was. -/
structure ChangedAt (dom dom' : Dom) (links : List NodeId) : Prop where
  wellFormed : dom'.WellFormed
  size_le : dom.size ≤ dom'.size
  content : ∀ i < dom.size, i ∉ links → dom'.content? (some i) = dom.content? (some i)
  children : ∀ i < dom.size, i ∉ links → dom'.children (some i) = dom.children (some i)
  /-- Nothing comes to stand inside a node that it did not stand in before. -/
  parent : ∀ i p, i < dom.size → dom'.parent? (some i) = some p → dom.parent? (some i) = some p
  /-- New nodes are no elements, and old ones keep their names. -/
  name : ∀ i, dom'.name? (some i) = dom.name? (some i)
  otherAttributes : ∀ i < dom.size, ∀ label, label ≠ "href" →
    dom'.attribute? (some i) label = dom.attribute? (some i) label
  /-- Only what is inside a changed link can get lost. -/
  above : ∀ a i, (∀ m ∈ links, ¬ dom.Above m i) → dom.Above a i → dom'.Above a i
  localLinks : ∀ i, IsLocalLink dom' i → IsLocalLink dom i

theorem IsLocalLink.lt_size (h : IsLocalLink dom i) : i < dom.size := by
  rw [← content?_isSome_iff]
  cases hc : dom.content? (some i) with
  | some c => rfl
  | none => simp [IsLocalLink, isElement, name?, hc] at h

namespace ChangedAt

theorem refl (h : dom.WellFormed) (links : List NodeId) : ChangedAt dom dom links where
  wellFormed := h
  size_le := le_rfl
  content _ _ _ := rfl
  children _ _ _ := rfl
  parent _ _ _ h := h
  name _ := rfl
  otherAttributes _ _ _ _ := rfl
  above _ _ _ h := h
  localLinks _ h := h

theorem above_old (h : ChangedAt dom dom' links) (hwf : dom.WellFormed) (hi : i < dom.size)
    (hai : dom'.Above a i) : dom.Above a i := by
  induction hai with
  | single hai => exact .single (h.parent _ _ hi hai)
  | tail _ hji ih =>
    have hji' := h.parent _ _ hi hji
    exact (ih (hwf.parent_lt hji')).tail hji'

theorem trans (h : ChangedAt dom dom' links) (h' : ChangedAt dom' dom'' more)
    (hwf : dom.WellFormed) : ChangedAt dom dom'' (links ++ more) where
  wellFormed := h'.wellFormed
  size_le := h.size_le.trans h'.size_le
  content i hi hmem := by
    simp only [List.mem_append, not_or] at hmem
    rw [h'.content i (hi.trans_le h.size_le) hmem.2, h.content i hi hmem.1]
  children i hi hmem := by
    simp only [List.mem_append, not_or] at hmem
    rw [h'.children i (hi.trans_le h.size_le) hmem.2, h.children i hi hmem.1]
  parent i p hi hp := h.parent i p hi (h'.parent i p (hi.trans_le h.size_le) hp)
  name i := by rw [h'.name i, h.name i]
  otherAttributes i hi label hlabel := by
    rw [h'.otherAttributes i (hi.trans_le h.size_le) label hlabel,
      h.otherAttributes i hi label hlabel]
  above a i hlinks hai := by
    refine h'.above a i (fun m hm hmi => ?_) (h.above a i (fun m hm => hlinks m (by simp [hm])) hai)
    exact hlinks m (by simp [hm]) (h.above_old hwf (Above.lt_size hai) hmi)
  localLinks i hi := h.localLinks i (h'.localLinks i hi)

end ChangedAt

/-! ### One verdict -/

theorem changedAt_replaceChildren (h : dom.WellFormed) (hm : m < dom.size) (text : String) :
    ChangedAt dom (dom.replaceChildrenWithText (some m) text) [m] where
  wellFormed := h.replaceChildrenWithText hm text
  size_le := by simp
  content i hi _ := by
    rw [content?_replaceChildrenWithText, if_neg hi.ne]
  children i _ hmem := by
    rw [h.children_replaceChildrenWithText hm, if_neg (by simpa using hmem)]
  parent i p hi hip := by
    rw [parent?_replaceChildrenWithText h, if_neg hi.ne] at hip
    split_ifs at hip
    exact hip
  name i := by
    rw [name?, content?_replaceChildrenWithText]
    split_ifs with hi
    · simp [hi, name?, content?, (node?_eq_none_iff dom dom.size).mpr le_rfl]
    · rfl
  otherAttributes i hi label _ := by
    refine attribute?_congr ?_ label
    rw [content?_replaceChildrenWithText, if_neg hi.ne]
  above a i hlinks hai := by
    have hparent := parent?_replaceChildrenWithText h m text
    have hkeep : ∀ j p, dom.Encloses j i → dom.parent? (some j) = some p →
        (dom.replaceChildrenWithText (some m) text).parent? (some j) = some p := by
      intro j p hji hjp
      have hpm : p ≠ m := by
        rintro rfl
        exact hlinks p (by simp) (.head' hjp hji)
      rw [hparent, if_neg (lt_size_of_parent? hjp).ne, hjp, if_neg (by simpa using hpm)]
    induction hai using Relation.TransGen.head_induction_on with
    | single hai => exact .single (hkeep i _ .refl hai)
    | head hab hbi ih => exact .head (hkeep _ _ hbi.to_reflTransGen hab) ih
  localLinks i hi := by
    by_cases hnew : i = dom.size
    · subst hnew
      simp [IsLocalLink, isElement, name?, content?_replaceChildrenWithText] at hi
    · refine (isLocalLink_congr ?_).mp hi
      rw [content?_replaceChildrenWithText, if_neg hnew]

theorem content?_setAttribute (dom : Dom) (m : NodeId) (label value : String) (i : NodeId) :
    (dom.setAttribute (some m) label value).content? (some i) =
      if i = m then (dom.content? (some i)).map fun
        | .element name attributes => .element name (updateAttribute label value attributes)
        | other => other
      else dom.content? (some i) := by
  rw [content?, setAttribute, node?_modify]
  by_cases hi : i = m
  · subst hi
    cases hn : dom.node? (some i) with
    | none => simp [content?, hn]
    | some n => cases hc : n.content <;> simp [content?, hn, hc]
  · rw [if_neg (by simpa using Ne.symm hi), if_neg hi]
    rfl

theorem name?_setAttribute (dom : Dom) (m : NodeId) (label value : String) (i : NodeId) :
    (dom.setAttribute (some m) label value).name? (some i) = dom.name? (some i) := by
  rw [name?, content?_setAttribute, name?]
  split_ifs
  · cases hc : dom.content? (some i) with
    | none => rfl
    | some content => cases content <;> rfl
  · rfl

theorem find?_updateAttribute_of_ne {label other : String} (hne : other ≠ label) (value : String)
    (attributes : List Attribute) :
    ((updateAttribute label value attributes).find? (·.name.label == other)).map (·.value) =
      (attributes.find? (·.name.label == other)).map (·.value) := by
  induction attributes with
  | nil => simp [updateAttribute, Attribute.plain, hne.symm]
  | cons a rest ih =>
    by_cases ha : a.name.label = label <;> by_cases ho : a.name.label = other <;>
      simp_all [updateAttribute]

theorem attribute?_setAttribute_of_ne {label other : String} (hne : other ≠ label) (dom : Dom)
    (m : NodeId) (value : String) (i : NodeId) :
    (dom.setAttribute (some m) label value).attribute? (some i) other =
      dom.attribute? (some i) other := by
  rw [attribute?, Dom.attributes, content?_setAttribute, attribute?, Dom.attributes]
  split_ifs
  · cases hc : dom.content? (some i) with
    | none => rfl
    | some content =>
      cases content with
      | element name attributes => exact find?_updateAttribute_of_ne hne value attributes
      | _ => rfl
  · rfl

theorem changedAt_setHref (h : dom.WellFormed) (hm : IsLocalLink dom m) (value : String) :
    ChangedAt dom (dom.setAttribute (some m) "href" value) [m] := by
  have hlinks := sameLinks_setAttribute dom (some m) "href" value
  refine ⟨hlinks.wellFormed h, hlinks.size.ge, fun i _ hmem => ?_, fun i _ _ => ?_,
    fun i p _ hip => ?_, fun i => ?_, fun i _ label hlabel => ?_, fun a i _ hai => ?_,
    fun i hi => ?_⟩
  · rw [content?_setAttribute, if_neg (by simpa using hmem)]
  · exact hlinks.children_eq h i
  · rwa [hlinks.parent?_eq] at hip
  · exact name?_setAttribute dom m "href" value i
  · exact attribute?_setAttribute_of_ne hlabel dom m value i
  · exact hai.mono fun i a hia => by rwa [hlinks.parent?_eq]
  · by_cases him : i = m
    · exact him ▸ hm
    · refine (isLocalLink_congr ?_).mp hi
      rw [content?_setAttribute, if_neg him]

theorem changedAt_carryOut (h : dom.WellFormed) (hm : IsLocalLink dom m) (verdict : Verdict) :
    ChangedAt dom (verdict.carryOut dom m).1 [m] := by
  cases verdict with
  | keep => exact .refl h _
  | unresolved target => exact .refl h _
  | newText text => exact changedAt_replaceChildren h hm.lt_size text
  | newTarget href => exact changedAt_setHref h hm href

/-- A verdict on one link leaves the other links. -/
theorem carryOut_rest (h : dom.WellFormed) (hnodup : (m :: links).Nodup)
    (hlocal : ∀ m' ∈ m :: links, IsLocalLink dom m') (verdict : Verdict) :
    ∀ m' ∈ links, (verdict.carryOut dom m).1.content? (some m') = dom.content? (some m') ∧
      IsLocalLink (verdict.carryOut dom m).1 m' := by
  intro m' hm'
  have hlocal' := hlocal m' (List.mem_cons_of_mem m hm')
  have hne : m' ∉ [m] := fun heq =>
    (List.nodup_cons.mp hnodup).1 (List.mem_singleton.mp heq ▸ hm')
  have hcontent := (changedAt_carryOut h (hlocal m List.mem_cons_self) verdict).content m'
    hlocal'.lt_size hne
  exact ⟨hcontent, (isLocalLink_congr hcontent).mpr hlocal'⟩

/-- Judging links changes these links only. -/
theorem changedAt_judgeLinks (judge : Dom → NodeId → Verdict) (h : dom.WellFormed)
    (hnodup : links.Nodup) (hlocal : ∀ m ∈ links, IsLocalLink dom m) :
    ChangedAt dom (judgeLinks judge dom links).1 links := by
  induction links generalizing dom with
  | nil => exact .refl h _
  | cons m rest ih =>
    have hstep := changedAt_carryOut h (hlocal m (by simp)) (judge dom m)
    have hrest := carryOut_rest h hnodup hlocal (judge dom m)
    exact hstep.trans (ih hstep.wellFormed (List.nodup_cons.mp hnodup).2
      fun m' hm' => (hrest m' hm').2) h

/-- What a link becomes is settled by its own verdict. -/
theorem content?_judgeLinks_of_mem (judge : Dom → NodeId → Verdict) (h : dom.WellFormed)
    (hnodup : links.Nodup) (hlocal : ∀ m ∈ links, IsLocalLink dom m) (hi : i ∈ links) :
    ∃ dom', dom'.content? (some i) = dom.content? (some i) ∧
      (judgeLinks judge dom links).1.content? (some i) =
        ((judge dom' i).carryOut dom' i).1.content? (some i) := by
  induction links generalizing dom with
  | nil => exact absurd hi List.not_mem_nil
  | cons m rest ih =>
    have hstep := changedAt_carryOut h (hlocal m (by simp)) (judge dom m)
    have hrest := carryOut_rest h hnodup hlocal (judge dom m)
    obtain ⟨hmem, hnodup'⟩ := List.nodup_cons.mp hnodup
    rcases List.mem_cons.mp hi with rfl | hi
    · have hlater := changedAt_judgeLinks judge hstep.wellFormed hnodup' fun m' hm' => (hrest m' hm').2
      have hlt := (hlocal i (by simp)).lt_size.trans_le hstep.size_le
      exact ⟨dom, rfl, hlater.content i hlt hmem⟩
    · obtain ⟨dom', hsame, hresult⟩ :=
        ih hstep.wellFormed hnodup' (fun m' hm' => (hrest m' hm').2) hi
      exact ⟨dom', hsame.trans (hrest i hi).1, hresult⟩

theorem changedAt_changeLinks {f : Fragment} (h : f.WellFormed) (judge : Dom → NodeId → Verdict) :
    ChangedAt f.dom (changeLinks judge f).1.dom f.localLinks :=
  changedAt_judgeLinks judge h.dom (nodup_localLinks h) fun _ hm => ((mem_localLinks_iff h).mp hm).2

theorem wellFormed_changeLinks {f : Fragment} (h : f.WellFormed) (judge : Dom → NodeId → Verdict) :
    (changeLinks judge f).1.WellFormed := by
  have hchanged := changedAt_changeLinks h judge
  exact ⟨hchanged.wellFormed, h.root.trans_le hchanged.size_le⟩

end Pass
end CrossRef
