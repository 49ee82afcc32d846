import CrossRef.Proofs.Pass.Annotation
import CrossRef.Proofs.Pass.Links

/-!
Links that stand alone. As long as no local link stands inside another one, a pass does to each link
what its verdict on the tree before the pass says, whatever it does to the others.
-/
namespace CrossRef
namespace Pass

open Markup Markup.Dom

variable {dom dom' dom'' : Dom} {f f' : Fragment} {x m : NodeId} {links moved : List NodeId}

/-! ### What is inside a node -/

/-- What is inside a node is the same in both arenas. -/
structure SameInside (dom dom' : Dom) (x : NodeId) : Prop where
  children : ∀ i, dom.Encloses x i → dom'.children (some i) = dom.children (some i)
  content : ∀ i, dom.Above x i → dom'.content? (some i) = dom.content? (some i)

namespace SameInside

theorem refl (dom : Dom) (x : NodeId) : SameInside dom dom x := ⟨fun _ _ => rfl, fun _ _ => rfl⟩

theorem parent?_iff (h : SameInside dom dom' x) (hwf : dom.WellFormed) (hwf' : dom'.WellFormed)
    {i j : NodeId} (hj : dom.Encloses x j) :
    dom'.parent? (some i) = some j ↔ dom.parent? (some i) = some j := by
  rw [← hwf'.mem_children_iff, h.children j hj, hwf.mem_children_iff]

theorem encloses_iff (h : SameInside dom dom' x) (hwf : dom.WellFormed) (hwf' : dom'.WellFormed)
    {i : NodeId} : dom'.Encloses x i ↔ dom.Encloses x i := by
  constructor <;> intro hi
  · induction hi with
    | refl => exact .refl
    | tail _ hji ih => exact ih.tail ((h.parent?_iff hwf hwf' ih).mp hji)
  · induction hi with
    | refl => exact .refl
    | tail hj hji ih => exact ih.tail ((h.parent?_iff hwf hwf' hj).mpr hji)

theorem above_iff (h : SameInside dom dom' x) (hwf : dom.WellFormed) (hwf' : dom'.WellFormed)
    {i : NodeId} : dom'.Above x i ↔ dom.Above x i := by
  rw [above_iff_exists_parent, above_iff_exists_parent]
  refine exists_congr fun p => ?_
  rw [h.encloses_iff hwf hwf']
  exact and_congr_left fun hp => h.parent?_iff hwf hwf' hp

theorem trans (h : SameInside dom dom' x) (h' : SameInside dom' dom'' x) (hwf : dom.WellFormed)
    (hwf' : dom'.WellFormed) : SameInside dom dom'' x where
  children i hi := by rw [h'.children i ((h.encloses_iff hwf hwf').mpr hi), h.children i hi]
  content i hi := by rw [h'.content i ((h.above_iff hwf hwf').mpr hi), h.content i hi]

/-- The text of an element is the text inside it. -/
theorem textOf_eq (h : SameInside dom dom' x) (hwf : dom.WellFormed) (hwf' : dom'.WellFormed)
    (hname : (dom.name? (some x)).isSome) (hname' : (dom'.name? (some x)).isSome) :
    dom'.textOf (some x) = dom.textOf (some x) := by
  have hx := lt_size_of_name? hname
  rw [textOf_of_name hname, textOf_of_name hname',
    hwf.descendants_congr hwf' hx (lt_size_of_name? hname') h.children]
  congr 1
  refine List.filterMap_congr fun i hi => ?_
  rw [h.content i ((hwf.mem_descendants_iff hx).mp hi)]

end SameInside

theorem ChangedAt.sameInside (h : ChangedAt dom dom' links) (hx : x < dom.size) (hmem : x ∉ links)
    (hbelow : ∀ m ∈ links, ¬ dom.Above x m) : SameInside dom dom' x := by
  refine ⟨fun i hi => h.children i (hi.lt_size hx) fun hil => ?_, fun i hi => ?_⟩
  · rcases Relation.reflTransGen_iff_eq_or_transGen.mp hi with rfl | hi
    · exact hmem hil
    · exact hbelow i hil hi
  · exact h.content i (Above.lt_size hi) fun hil => hbelow i hil hi

theorem Annotated.sameInside (h : Annotated dom dom' moved) (hx : x < dom.size)
    (hbelow : ∀ m ∈ moved, ¬ dom.Above x m) : SameInside dom dom' x := by
  refine ⟨fun i hi => h.children i (hi.lt_size hx) fun m hm hmi => ?_, fun i hi => ?_⟩
  · exact hbelow m hm (.tail' hi hmi)
  · exact h.content i (Above.lt_size hi)

/-! ### One link among others -/

/-- A local link with no other local link around it or inside it. -/
structure StandsAlone (f : Fragment) (x : NodeId) : Prop where
  wellFormed : f.WellFormed
  mem : x ∈ f.localLinks
  not_above : ∀ m ∈ f.localLinks, ¬ f.dom.Above m x
  not_below : ∀ m ∈ f.localLinks, ¬ f.dom.Above x m

namespace StandsAlone

theorem above (h : StandsAlone f x) : f.dom.Above f.root x :=
  ((mem_localLinks_iff h.wellFormed).mp h.mem).1

theorem isLocalLink (h : StandsAlone f x) : IsLocalLink f.dom x :=
  ((mem_localLinks_iff h.wellFormed).mp h.mem).2

theorem lt_size (h : StandsAlone f x) : x < f.dom.size := h.isLocalLink.lt_size

/-- A link stays alone where no new link appears and nothing gets into another node. -/
theorem transfer (h : StandsAlone f x) (hwf : dom.WellFormed) (hsize : f.dom.size ≤ dom.size)
    (hroot : dom.Above f.root x) (hcontent : dom.content? (some x) = f.dom.content? (some x))
    (hold : ∀ a i, a < f.dom.size → i < f.dom.size → dom.Above a i → f.dom.Above a i)
    (hlinks : ∀ i, IsLocalLink dom i → IsLocalLink f.dom i) :
    StandsAlone { f with dom := dom } x := by
  have hfwf : Fragment.WellFormed { f with dom := dom } := ⟨hwf, h.wellFormed.root.trans_le hsize⟩
  have hmem : ∀ m, m ∈ Fragment.localLinks { f with dom := dom } → m ∈ f.localLinks := by
    intro m hm
    obtain ⟨hm, hlocal⟩ := (mem_localLinks_iff hfwf).mp hm
    have hlocal' := hlinks m hlocal
    exact (mem_localLinks_iff h.wellFormed).mpr
      ⟨hold _ m h.wellFormed.root hlocal'.lt_size hm, hlocal'⟩
  have hlt : ∀ m ∈ f.localLinks, m < f.dom.size := fun m hm =>
    ((mem_localLinks_iff h.wellFormed).mp hm).2.lt_size
  refine ⟨hfwf, ?_, fun m hm hmx => ?_, fun m hm hxm => ?_⟩
  · exact (mem_localLinks_iff hfwf).mpr ⟨hroot, (isLocalLink_congr hcontent).mpr h.isLocalLink⟩
  · exact h.not_above m (hmem m hm) (hold m x (hlt m (hmem m hm)) h.lt_size hmx)
  · exact h.not_below m (hmem m hm) (hold x m h.lt_size (hlt m (hmem m hm)) hxm)

end StandsAlone

/-! ### What a verdict does in the end -/

/-- What a verdict on a link comes to between two arenas. -/
def Verdict.Done (verdict : Verdict) (dom dom' : Dom) (x : NodeId) : Prop :=
  match verdict with
  | .keep | .unresolved _ =>
    SameInside dom dom' x ∧ dom'.content? (some x) = dom.content? (some x)
  | .newText text =>
    dom'.textOf (some x) = text ∧ dom'.content? (some x) = dom.content? (some x)
  | .newTarget href =>
    SameInside dom dom' x ∧ dom'.name? (some x) = dom.name? (some x) ∧
      dom'.attribute? (some x) "href" = some href

theorem IsLocalLink.name?_isSome (h : IsLocalLink dom x) : (dom.name? (some x)).isSome :=
  name?_isSome_of_isElement h.1

theorem textOf_replaceChildrenWithText (h : dom.WellFormed)
    (hname : (dom.name? (some x)).isSome) (text : String) :
    (dom.replaceChildrenWithText (some x) text).textOf (some x) = text := by
  have hx := lt_size_of_name? hname
  have hwf := h.replaceChildrenWithText hx text
  have hkids := h.children_replaceChildrenWithText hx text
  have hcontent := content?_replaceChildrenWithText dom x text
  refine hwf.textOf_of_only_text (c := dom.size) ?_ ?_ ?_ ?_
  · rwa [name?, hcontent, if_neg hx.ne]
  · rw [hkids, if_pos rfl]
  · rw [hcontent, if_pos rfl]
  · rw [hkids, if_neg hx.ne', children_of_size_le le_rfl]

theorem find?_updateAttribute (label value : String) (attributes : List Attribute) :
    ((updateAttribute label value attributes).find? (·.name.label == label)).map (·.value) =
      some value := by
  induction attributes with
  | nil => simp [updateAttribute, Attribute.plain]
  | cons a rest ih => by_cases ha : a.name.label = label <;> simp [updateAttribute, ha, ih]

theorem attribute?_setAttribute (hname : (dom.name? (some x)).isSome) (label value : String) :
    (dom.setAttribute (some x) label value).attribute? (some x) label = some value := by
  have hcontent := content?_setAttribute dom x label value x
  rw [if_pos rfl] at hcontent
  unfold name? at hname
  split at hname
  · next name attributes hc =>
    rw [attribute?, Dom.attributes, hcontent, hc]
    exact find?_updateAttribute label value attributes
  · simp at hname

theorem name?_carryOut (hx : IsLocalLink dom x) (verdict : Verdict) :
    (verdict.carryOut dom x).1.name? (some x) = dom.name? (some x) := by
  cases verdict with
  | keep => rfl
  | unresolved target => rfl
  | newText text =>
    rw [Verdict.carryOut, name?, content?_replaceChildrenWithText, if_neg hx.lt_size.ne, name?]
  | newTarget href => exact name?_setAttribute dom x "href" href x

theorem done_carryOut (h : dom.WellFormed) (hx : IsLocalLink dom x) (verdict : Verdict) :
    verdict.Done dom (verdict.carryOut dom x).1 x := by
  cases verdict with
  | keep => exact ⟨.refl dom x, rfl⟩
  | unresolved target => exact ⟨.refl dom x, rfl⟩
  | newText text =>
    refine ⟨textOf_replaceChildrenWithText h hx.name?_isSome text, ?_⟩
    exact (content?_replaceChildrenWithText dom x text x).trans (if_neg hx.lt_size.ne)
  | newTarget href =>
    refine ⟨⟨fun i _ => ?_, fun i hi => ?_⟩, name?_setAttribute dom x "href" href x,
      attribute?_setAttribute hx.name?_isSome "href" href⟩
    · exact (sameLinks_setAttribute dom (some x) "href" href).children_eq h i
    · refine (content?_setAttribute dom x "href" href i).trans (if_neg ?_)
      rintro rfl
      exact h.acyclic i hi

namespace Verdict.Done

variable {verdict : Verdict}

/-- What is done to a link after the tree changed elsewhere. -/
theorem before (h : verdict.Done dom' dom'' x) (hwf : dom.WellFormed) (hwf' : dom'.WellFormed)
    (hsame : SameInside dom dom' x) (hcontent : dom'.content? (some x) = dom.content? (some x)) :
    verdict.Done dom dom'' x := by
  match verdict, h with
  | .keep, ⟨h, hc⟩ | .unresolved _, ⟨h, hc⟩ =>
    exact ⟨hsame.trans h hwf hwf', hc.trans hcontent⟩
  | .newText text, ⟨htext, hc⟩ => exact ⟨htext, hc.trans hcontent⟩
  | .newTarget href, ⟨h, hname, hhref⟩ =>
    exact ⟨hsame.trans h hwf hwf', hname.trans (name?_congr hcontent), hhref⟩

/-- What was done to a link stays done when the tree changes elsewhere. -/
theorem after (h : verdict.Done dom dom' x) (hwf : dom.WellFormed) (hwf' : dom'.WellFormed)
    (hwf'' : dom''.WellFormed) (hname : (dom'.name? (some x)).isSome)
    (hsame : SameInside dom' dom'' x)
    (hcontent : dom''.content? (some x) = dom'.content? (some x)) : verdict.Done dom dom'' x := by
  have hname' : (dom''.name? (some x)).isSome := by rwa [name?_congr hcontent]
  match verdict, h with
  | .keep, ⟨h, hc⟩ | .unresolved _, ⟨h, hc⟩ => exact ⟨h.trans hsame hwf hwf', hcontent.trans hc⟩
  | .newText text, ⟨htext, hc⟩ =>
    exact ⟨(hsame.textOf_eq hwf' hwf'' hname hname').trans htext, hcontent.trans hc⟩
  | .newTarget href, ⟨h, hold, hhref⟩ =>
    exact ⟨h.trans hsame hwf hwf', (name?_congr hcontent).trans hold,
      (attribute?_congr hcontent _).trans hhref⟩

end Verdict.Done

/-! ### One pass over the links -/

/-- Local links other than `x` and not inside it. -/
structure Elsewhere (dom : Dom) (x : NodeId) (links : List NodeId) : Prop where
  nodup : links.Nodup
  isLocalLink : ∀ m ∈ links, IsLocalLink dom m
  not_mem : x ∉ links
  not_below : ∀ m ∈ links, ¬ dom.Above x m

namespace Elsewhere

theorem changedAt_judgeLinks (h : Elsewhere dom x links) (hwf : dom.WellFormed)
    (judge : Dom → NodeId → Verdict) : ChangedAt dom (judgeLinks judge dom links).1 links :=
  Pass.changedAt_judgeLinks judge hwf h.nodup h.isLocalLink

/-- Judging links elsewhere changes nothing at `x`. -/
theorem sameInside (h : Elsewhere dom x links) (hwf : dom.WellFormed) (hx : x < dom.size)
    (judge : Dom → NodeId → Verdict) : SameInside dom (judgeLinks judge dom links).1 x ∧
      (judgeLinks judge dom links).1.content? (some x) = dom.content? (some x) :=
  ⟨(h.changedAt_judgeLinks hwf judge).sameInside hx h.not_mem h.not_below,
    (h.changedAt_judgeLinks hwf judge).content x hx h.not_mem⟩

/-- Links stay elsewhere while others are changed. -/
theorem transfer {changed : List NodeId} (h : Elsewhere dom x links) (hwf : dom.WellFormed)
    (hchanged : ChangedAt dom dom' changed) (hapart : ∀ m ∈ links, m ∉ changed) :
    Elsewhere dom' x links where
  nodup := h.nodup
  isLocalLink m hm := (isLocalLink_congr (hchanged.content m (h.isLocalLink m hm).lt_size
    (hapart m hm))).mpr (h.isLocalLink m hm)
  not_mem := h.not_mem
  not_below m hm hxm := h.not_below m hm (hchanged.above_old hwf (h.isLocalLink m hm).lt_size hxm)

end Elsewhere

namespace StandsAlone

variable {judge : Dom → NodeId → Verdict}

theorem elsewhere (h : StandsAlone f x) (hlinks : links.Sublist f.localLinks) (hmem : x ∉ links) :
    Elsewhere f.dom x links where
  nodup := hlinks.nodup (nodup_localLinks h.wellFormed)
  isLocalLink _ hm := ((mem_localLinks_iff h.wellFormed).mp (hlinks.subset hm)).2
  not_mem := hmem
  not_below m hm := h.not_below m (hlinks.subset hm)

/-- A pass over the links does to this one what its verdict on the tree before says, if the verdict
depends on the attributes and the text of the link only. -/
theorem done_changeLinks (h : StandsAlone f x)
    (hjudge : ∀ dom : Dom, dom.content? (some x) = f.dom.content? (some x) →
      dom.textOf (some x) = f.dom.textOf (some x) → judge dom x = judge f.dom x) :
    (judge f.dom x).Done f.dom (changeLinks judge f).1.dom x := by
  obtain ⟨xs, ys, hsplit⟩ := List.append_of_mem h.mem
  have hwf := h.wellFormed.dom
  have hnodup := nodup_localLinks h.wellFormed
  rw [hsplit] at hnodup
  have hxmem := List.nodup_middle.mp hnodup
  simp only [List.nodup_cons, List.mem_append, not_or] at hxmem
  have hxs : Elsewhere f.dom x xs := h.elsewhere (by simp [hsplit]) hxmem.1.1
  have hys : Elsewhere f.dom x ys := h.elsewhere (by simp [hsplit]) hxmem.1.2
  -- the links before this one
  have hbefore := hxs.changedAt_judgeLinks hwf judge
  obtain ⟨hsame, hcontent⟩ := hxs.sameInside hwf h.lt_size judge
  have hlocal : IsLocalLink (judgeLinks judge f.dom xs).1 x :=
    (isLocalLink_congr hcontent).mpr h.isLocalLink
  have htext := hsame.textOf_eq hwf hbefore.wellFormed h.isLocalLink.name?_isSome hlocal.name?_isSome
  -- the verdict on this one
  have hverdict := hjudge _ hcontent htext
  have hdone := (done_carryOut hbefore.wellFormed hlocal (judge f.dom x)).before hwf
    hbefore.wellFormed hsame hcontent
  have hname : (((judge f.dom x).carryOut (judgeLinks judge f.dom xs).1 x).1.name? (some x)).isSome :=
    name?_carryOut hlocal (judge f.dom x) ▸ hlocal.name?_isSome
  -- the links after it
  have hboth := hbefore.trans (changedAt_carryOut hbefore.wellFormed hlocal (judge f.dom x)) hwf
  have hapart : (xs ++ [x] ++ ys).Nodup := by simpa using hnodup
  have hys' := hys.transfer hwf hboth fun m hm hm' => (List.nodup_append.mp hapart).2.2 m hm' m hm rfl
  have hafter := hys'.changedAt_judgeLinks hboth.wellFormed judge
  obtain ⟨hsame', hcontent'⟩ :=
    hys'.sameInside hboth.wellFormed (h.lt_size.trans_le hboth.size_le) judge
  have hresult : (changeLinks judge f).1.dom =
      (judgeLinks judge ((judge f.dom x).carryOut (judgeLinks judge f.dom xs).1 x).1 ys).1 := by
    simp only [changeLinks, hsplit, judgeLinks_append, judgeLinks, hverdict]
  rw [hresult]
  exact hdone.after hwf hboth.wellFormed hafter.wellFormed hname hsame' hcontent'

/-- A pass that leaves the attributes of the link as they are leaves it standing alone. -/
theorem changeLinks (h : StandsAlone f x) (judge : Dom → NodeId → Verdict)
    (hcontent : (changeLinks judge f).1.dom.content? (some x) = f.dom.content? (some x)) :
    StandsAlone (changeLinks judge f).1 x := by
  have hchanged := changedAt_changeLinks h.wellFormed judge
  exact h.transfer hchanged.wellFormed hchanged.size_le
    (hchanged.above f.root x h.not_above h.above) hcontent
    (fun _ _ _ => hchanged.above_old h.wellFormed.dom) hchanged.localLinks

end StandsAlone

end Pass
end CrossRef
