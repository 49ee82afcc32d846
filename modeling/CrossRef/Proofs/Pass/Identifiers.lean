import CrossRef.Proofs.Pass.Agreement

/-!
Identifiers through the passes. An element keeps its identifiers, and it keeps its place unless it
stands inside a link whose text is replaced.
-/
namespace CrossRef
namespace Pass

open Markup Markup.Dom Index

variable {config : Config} {ctx : Context} {f : Fragment} {dom dom' : Dom} {a m x : NodeId}
  {links : List NodeId} {judge : Dom → NodeId → Verdict} {verdict : Verdict}

/-! ### Identifiers -/

theorem headingIdentifiers_congr {y : NodeId}
    (h : dom'.content? (some y) = dom.content? (some x)) :
    headingIdentifiers dom' y = headingIdentifiers dom x := by
  rw [headingIdentifiers, Dom.attributes, h, headingIdentifiers, Dom.attributes]

/-- An address is no identifier. -/
theorem not_isPrefixOf_href : ¬ "id".toList.isPrefixOf "href".toList = true := by decide +kernel

theorem filter_updateAttribute_href (value : String) (attributes : List Attribute) :
    (updateAttribute "href" value attributes).filter
        (fun a => "id".toList.isPrefixOf a.name.label.toList) =
      attributes.filter fun a => "id".toList.isPrefixOf a.name.label.toList := by
  induction attributes with
  | nil =>
    rw [updateAttribute]
    exact List.filter_cons_of_neg not_isPrefixOf_href
  | cons a rest ih =>
    rw [updateAttribute]
    split_ifs with hhref
    · have hno : ¬ "id".toList.isPrefixOf a.name.label.toList = true := hhref ▸ not_isPrefixOf_href
      rw [List.filter_cons, if_neg hno, List.filter_cons, if_neg hno]
    · rw [List.filter_cons, ih, List.filter_cons]

theorem headingIdentifiers_setHref (dom : Dom) (m : NodeId) (value : String) (x : NodeId) :
    headingIdentifiers (dom.setAttribute (some m) "href" value) x = headingIdentifiers dom x := by
  rw [headingIdentifiers, Dom.attributes, content?_setAttribute, headingIdentifiers, Dom.attributes]
  split_ifs
  · cases hc : dom.content? (some x) with
    | none => rfl
    | some content =>
      cases content with
      | element name attributes =>
        simp only [Option.map_some, filter_updateAttribute_href]
      | _ => rfl
  · rfl

theorem headingIdentifiers_carryOut (hx : x < dom.size) (m : NodeId) (verdict : Verdict) :
    headingIdentifiers (verdict.carryOut dom m).1 x = headingIdentifiers dom x := by
  cases verdict with
  | newText text =>
    refine headingIdentifiers_congr ?_
    rw [Verdict.carryOut, content?_replaceChildrenWithText, if_neg hx.ne]
  | newTarget href => exact headingIdentifiers_setHref dom m href x
  | _ => rfl

/-! ### Replaced links -/

/-- Does the verdict replace what is inside the link? -/
def Verdict.replacesText : Verdict → Bool
  | .newText _ => true
  | _ => false

/-- The links whose children are replaced when links are judged one after the other. -/
def replacedLinks (judge : Dom → NodeId → Verdict) : Dom → List NodeId → List NodeId
  | _, [] => []
  | dom, link :: rest =>
    let verdict := judge dom link
    let later := replacedLinks judge (verdict.carryOut dom link).1 rest
    if verdict.replacesText then link :: later else later

theorem mem_of_mem_replacedLinks (h : m ∈ replacedLinks judge dom links) : m ∈ links := by
  induction links generalizing dom with
  | nil => exact h
  | cons link rest ih =>
    rw [replacedLinks] at h
    split_ifs at h
    · exact (List.mem_cons.mp h).elim (fun heq => heq ▸ List.mem_cons_self)
        fun hlater => List.mem_cons_of_mem link (ih hlater)
    · exact List.mem_cons_of_mem link (ih h)

theorem above_carryOut (hwf : dom.WellFormed) (hm : IsLocalLink dom m)
    (hapart : verdict.replacesText → ¬ dom.Above m x) (ha : dom.Above a x) :
    (verdict.carryOut dom m).1.Above a x := by
  cases verdict with
  | newText text =>
    exact (changedAt_replaceChildren hwf hm.lt_size text).above a x
      (fun m' hm' => List.mem_singleton.mp hm' ▸ hapart rfl) ha
  | newTarget href =>
    have hlinks := sameLinks_setAttribute dom (some m) "href" href
    exact ha.mono fun i p hip => by rwa [Verdict.carryOut, hlinks.parent?_eq]
  | _ => exact ha

/-- What is inside no replaced link stays where it is. -/
theorem above_judgeLinks (hwf : dom.WellFormed) (hnodup : links.Nodup)
    (hlocal : ∀ m ∈ links, IsLocalLink dom m)
    (hapart : ∀ m ∈ replacedLinks judge dom links, ¬ dom.Above m x) (ha : dom.Above a x) :
    (judgeLinks judge dom links).1.Above a x ∧
      headingIdentifiers (judgeLinks judge dom links).1 x = headingIdentifiers dom x := by
  induction links generalizing dom with
  | nil => exact ⟨ha, rfl⟩
  | cons m rest ih =>
    have hstep := changedAt_carryOut hwf (hlocal m (by simp)) (judge dom m)
    have hrest := carryOut_rest hwf hnodup hlocal (judge dom m)
    rw [replacedLinks] at hapart
    have hfirst : (judge dom m).replacesText → ¬ dom.Above m x := fun hreplaces =>
      hapart m (by rw [if_pos hreplaces]; exact List.mem_cons_self)
    have hlater : ∀ m' ∈ replacedLinks judge ((judge dom m).carryOut dom m).1 rest,
        ¬ ((judge dom m).carryOut dom m).1.Above m' x := fun m' hm' habove => by
      refine hapart m' ?_ (hstep.above_old hwf ha.lt_size habove)
      split_ifs
      · exact List.mem_cons_of_mem m hm'
      · exact hm'
    obtain ⟨ha', hids⟩ := ih hstep.wellFormed (List.nodup_cons.mp hnodup).2
      (fun m' hm' => (hrest m' hm').2) hlater
      (above_carryOut hwf (hlocal m (by simp)) hfirst ha)
    exact ⟨ha', hids.trans (headingIdentifiers_carryOut ha.lt_size m (judge dom m))⟩

/-! ### All passes -/

/-- The links whose children a pass replaces. -/
def replacedBy (config : Config) (ctx : Context) (f : Fragment) : Pass → List NodeId
  | .equationNumbers => []
  | .equationRefs => replacedLinks (judgeEquationText ctx) f.dom f.localLinks
  | .textRefs => replacedLinks (judgeSectionText ctx) f.dom f.localLinks
  | .linkTargets => replacedLinks (judgeTarget ctx config.equationTargets) f.dom f.localLinks

/-- The links whose children are replaced when passes run one after the other. -/
def replacedByAll (config : Config) (ctx : Context) : List Pass → Fragment → List NodeId
  | [], _ => []
  | pass :: rest, f =>
    replacedBy config ctx f pass ++ replacedByAll config ctx rest (pass.apply config ctx f).1

theorem mem_localLinks_of_apply (hwf : f.WellFormed) {pass : Pass}
    (hm : m ∈ (pass.apply config ctx f).1.localLinks) : m ∈ f.localLinks := by
  cases pass with
  | equationNumbers => exact (mem_localLinks_of_numberEquations hwf hm).1
  | _ => exact mem_localLinks_of_changeLinks hwf hm

theorem mem_localLinks_of_replacedByAll {passes : List Pass} (hwf : f.WellFormed)
    (hm : m ∈ replacedByAll config ctx passes f) : m ∈ f.localLinks := by
  induction passes generalizing f with
  | nil => simp [replacedByAll] at hm
  | cons pass rest ih =>
    rcases List.mem_append.mp hm with hnow | hlater
    · cases pass with
      | equationNumbers => simp [replacedBy] at hnow
      | _ => exact mem_of_mem_replacedLinks hnow
    · exact mem_localLinks_of_apply hwf (ih (wellFormed_apply hwf pass config ctx) hlater)

theorem root_apply (pass : Pass) (config : Config) (ctx : Context) (f : Fragment) :
    (pass.apply config ctx f).1.root = f.root := by
  cases pass with
  | equationNumbers =>
    rw [Pass.apply, numberEquations]
    split <;> rfl
  | _ => rfl

/-- What is inside no link that a pass replaces the text of stays in its place and keeps its
identifiers, and no link comes to stand around it. -/
theorem keeps_apply (hwf : f.WellFormed) (pass : Pass)
    (hapart : ∀ m ∈ replacedBy config ctx f pass, ¬ f.dom.Above m x) (ha : f.dom.Above a x) :
    (pass.apply config ctx f).1.dom.Above a x ∧
      headingIdentifiers (pass.apply config ctx f).1.dom x = headingIdentifiers f.dom x ∧
      ∀ m < f.dom.size, (pass.apply config ctx f).1.dom.Above m x → f.dom.Above m x := by
  have hlinks : ∀ judge, (∀ m ∈ replacedLinks judge f.dom f.localLinks, ¬ f.dom.Above m x) →
      (changeLinks judge f).1.dom.Above a x ∧
        headingIdentifiers (changeLinks judge f).1.dom x = headingIdentifiers f.dom x ∧
        ∀ m < f.dom.size, (changeLinks judge f).1.dom.Above m x → f.dom.Above m x := by
    intro judge hapart
    obtain ⟨ha', hids⟩ := above_judgeLinks hwf.dom (nodup_localLinks hwf)
      (fun m hm => ((mem_localLinks_iff hwf).mp hm).2) hapart ha
    exact ⟨ha', hids, fun m _ => (changedAt_changeLinks hwf judge).above_old hwf.dom ha.lt_size⟩
  cases pass with
  | equationNumbers =>
    rw [Pass.apply]
    cases hnumber : ctx.chapter?.bind (·.number) with
    | none => simpa [numberEquations, hnumber] using ha
    | some number =>
      have hann := (wrapAll_scanEquations number hwf config.numbering).1
      rw [numberEquations_eq hnumber]
      exact ⟨hann.above hwf.dom ha, headingIdentifiers_congr (hann.content x ha.lt_size),
        fun m hm => hann.above_old hm ha.lt_size⟩
  | equationRefs => exact hlinks _ hapart
  | textRefs => exact hlinks _ hapart
  | linkTargets => exact hlinks _ hapart

theorem wellFormed_applyAll (hwf : f.WellFormed) (passes : List Pass) (config : Config)
    (ctx : Context) : (applyAll config ctx passes f).1.WellFormed := by
  induction passes generalizing f with
  | nil => exact hwf
  | cons pass rest ih => exact ih (wellFormed_apply hwf pass config ctx)

/-- An element inside no replaced link is, with its identifiers, still there after the passes. -/
theorem keeps_applyAll {passes : List Pass} (hwf : f.WellFormed)
    (hapart : ∀ m ∈ replacedByAll config ctx passes f, ¬ f.dom.Above m x)
    (hx : f.dom.Above f.root x) :
    (applyAll config ctx passes f).1.dom.Above (applyAll config ctx passes f).1.root x ∧
      headingIdentifiers (applyAll config ctx passes f).1.dom x = headingIdentifiers f.dom x := by
  induction passes generalizing f with
  | nil => exact ⟨hx, rfl⟩
  | cons pass rest ih =>
    have hwf' := wellFormed_apply hwf pass config ctx
    obtain ⟨hx', hids, hold⟩ := keeps_apply hwf pass
      (fun m hm => hapart m (List.mem_append_left _ hm)) hx
    rw [← root_apply pass config ctx f] at hx'
    have hrest : ∀ m ∈ replacedByAll config ctx rest (pass.apply config ctx f).1,
        ¬ (pass.apply config ctx f).1.dom.Above m x := fun m hm habove => by
      have hlink := mem_localLinks_of_apply hwf (mem_localLinks_of_replacedByAll hwf' hm)
      exact hapart m (List.mem_append_right _ hm) (hold m (lt_size_of_mem_localLinks hwf hlink) habove)
    obtain ⟨hx'', hids'⟩ := ih hwf' hrest hx'
    exact ⟨hx'', hids'.trans hids⟩

end Pass
end CrossRef
