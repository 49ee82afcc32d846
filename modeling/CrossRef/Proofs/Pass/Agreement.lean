import CrossRef.Resolution
import CrossRef.Proofs.Pass.Settled

/-!
What the passes look up. A chapter is read with the targets of its own local links, so two contexts
that agree on these targets lead to the same result.
-/
namespace CrossRef
namespace Pass

open Markup Markup.Dom Index

variable {config : Config} {ctx ctx' : Context} {f : Fragment} {dom : Dom} {i x : NodeId}
  {links : List NodeId} {asked : String → Prop} {judge judge' : Dom → NodeId → Verdict}

/-- Two contexts for the same chapter give the same answers about the targets that may be asked. -/
structure Agree (asked : String → Prop) (ctx ctx' : Context) : Prop where
  chapterId : ctx'.chapterId = ctx.chapterId
  chapter? : ctx'.chapter? = ctx.chapter?
  findByReference? : ∀ reference,
    ctx'.manifest.findByReference? reference = ctx.manifest.findByReference? reference
  findSection? : ∀ target, asked target → ctx'.findSection? target = ctx.findSection? target
  findEquation? : ∀ target, asked target → ctx'.findEquation? target = ctx.findEquation? target

/-- The local links of a fragment have no other targets. -/
def TargetsIn (asked : String → Prop) (f : Fragment) : Prop :=
  ∀ x ∈ f.localLinks, ∀ target, Fragment.localTarget? f.dom x = some target → asked target

/-! ### One link -/

theorem isOther_congr (h : ctx'.chapterId = ctx.chapterId) (owner : String) :
    ctx'.isOther owner = ctx.isOther owner := by
  rw [Context.isOther, h, Context.isOther]

theorem eq_of_classify_equation {target identifier : String}
    (h : classify target = .equation identifier) : identifier = target := by
  rw [classify] at h
  split_ifs at h
  exact (LinkTarget.equation.inj h).symm

theorem eq_of_classify_heading {target identifier : String}
    (h : classify target = .heading identifier) : identifier = target := by
  rw [classify] at h
  split_ifs at h
  exact (LinkTarget.heading.inj h).symm

namespace Agree

theorem judgeEquationText_eq (h : Agree asked ctx ctx')
    (htargets : ∀ target, Fragment.localTarget? dom x = some target → asked target) :
    judgeEquationText ctx' dom x = judgeEquationText ctx dom x := by
  cases htarget : Fragment.localTarget? dom x with
  | none => simp [judgeEquationText, linkTarget?, htarget]
  | some target =>
    simp only [judgeEquationText, linkTarget?_eq htarget]
    cases hclass : classify target with
    | equation identifier =>
      rw [eq_of_classify_equation hclass]
      simp only [h.findEquation? target (htargets target htarget), isOther_congr h.chapterId]
    | _ => rfl

theorem judgeSectionText_eq (h : Agree asked ctx ctx')
    (htargets : ∀ target, Fragment.localTarget? dom x = some target → asked target) :
    judgeSectionText ctx' dom x = judgeSectionText ctx dom x := by
  cases htarget : Fragment.localTarget? dom x with
  | none => simp [judgeSectionText, linkTarget?, htarget]
  | some target =>
    simp only [judgeSectionText, linkTarget?_eq htarget]
    cases hclass : classify target with
    | chapter reference => simp only [h.findByReference? reference]
    | heading identifier =>
      rw [eq_of_classify_heading hclass]
      simp only [h.findSection? target (htargets target htarget), isOther_congr h.chapterId]
    | _ => rfl

theorem judgeTarget_eq (h : Agree asked ctx ctx') (equationTargets : Bool)
    (htargets : ∀ target, Fragment.localTarget? dom x = some target → asked target) :
    judgeTarget ctx' equationTargets dom x = judgeTarget ctx equationTargets dom x := by
  cases htarget : Fragment.localTarget? dom x with
  | none => simp [judgeTarget, htarget]
  | some target =>
    have howner : targetOwner? ctx' equationTargets (classify target) =
        targetOwner? ctx equationTargets (classify target) := by
      cases hclass : classify target with
      | chapter reference => simp only [targetOwner?, h.findByReference? reference]
      | heading identifier =>
        rw [eq_of_classify_heading hclass]
        simp only [targetOwner?, h.findSection? target (htargets target htarget)]
      | equation identifier =>
        rw [eq_of_classify_equation hclass]
        simp only [targetOwner?, h.findEquation? target (htargets target htarget)]
      | excluded => rfl
    simp only [judgeTarget, htarget, howner, isOther_congr h.chapterId]

end Agree

/-! ### All links -/

/-- Each link is judged while it is what it was before, whatever the verdicts on the links before it
have changed. -/
theorem judgeLinks_congr (hwf : dom.WellFormed) (hnodup : links.Nodup)
    (hlocal : ∀ m ∈ links, IsLocalLink dom m)
    (hjudge : ∀ dom', ∀ m ∈ links, dom'.content? (some m) = dom.content? (some m) →
      judge' dom' m = judge dom' m) :
    judgeLinks judge' dom links = judgeLinks judge dom links := by
  induction links generalizing dom with
  | nil => rfl
  | cons m rest ih =>
    have hstep := changedAt_carryOut hwf (hlocal m (by simp)) (judge dom m)
    have hkept := carryOut_rest hwf hnodup hlocal (judge dom m)
    have hrest := ih hstep.wellFormed (List.nodup_cons.mp hnodup).2 (fun m' hm' => (hkept m' hm').2)
      fun dom' m' hm' h => hjudge dom' m' (by simp [hm']) (h.trans (hkept m' hm').1)
    simp only [judgeLinks, hjudge dom m (by simp) rfl, hrest]

theorem changeLinks_congr (hwf : f.WellFormed) (htargets : TargetsIn asked f)
    (hjudge : ∀ dom' m, (∀ target, Fragment.localTarget? dom' m = some target → asked target) →
      judge' dom' m = judge dom' m) :
    changeLinks judge' f = changeLinks judge f := by
  have hlinks : judgeLinks judge' f.dom f.localLinks = judgeLinks judge f.dom f.localLinks := by
    refine judgeLinks_congr hwf.dom (nodup_localLinks hwf)
      (fun m hm => ((mem_localLinks_iff hwf).mp hm).2) fun dom' m hm hcontent =>
        hjudge dom' m fun target htarget => htargets m hm target ?_
    rwa [← localTarget?_congr hcontent]
  rw [changeLinks, hlinks, changeLinks]

/-! ### Text leaves the targets -/

/-- A new target is the only thing that changes what a link is. -/
def Verdict.KeepsContent : Verdict → Prop
  | .newTarget _ => False
  | _ => True

theorem Verdict.KeepsContent.carryOut {verdict : Verdict} (h : verdict.KeepsContent)
    (hi : i < dom.size) : dom.size ≤ (verdict.carryOut dom x).1.size ∧
      (verdict.carryOut dom x).1.content? (some i) = dom.content? (some i) := by
  cases verdict with
  | newTarget href => exact h.elim
  | newText text =>
    refine ⟨by simp [Verdict.carryOut], ?_⟩
    rw [Verdict.carryOut, content?_replaceChildrenWithText, if_neg hi.ne]
  | _ => exact ⟨le_rfl, rfl⟩

theorem Verdict.keepsContent_ofText (old : String) (new? : Option String) :
    (Verdict.ofText old new?).KeepsContent := by
  unfold Verdict.ofText
  split
  · split_ifs <;> trivial
  · trivial

theorem keepsContent_judgeEquationText (ctx : Context) (dom : Dom) (x : NodeId) :
    (judgeEquationText ctx dom x).KeepsContent := by
  unfold judgeEquationText
  split
  · split
    · trivial
    · exact Verdict.keepsContent_ofText _ _
  · trivial

theorem keepsContent_judgeSectionText (ctx : Context) (dom : Dom) (x : NodeId) :
    (judgeSectionText ctx dom x).KeepsContent := by
  unfold judgeSectionText
  dsimp only
  split_ifs
  · trivial
  · split
    · split
      · trivial
      · exact Verdict.keepsContent_ofText _ _
    · split
      · trivial
      · exact Verdict.keepsContent_ofText _ _
    · trivial

theorem content?_judgeLinks (hkeeps : ∀ dom m, (judge dom m).KeepsContent) (hi : i < dom.size) :
    (judgeLinks judge dom links).1.content? (some i) = dom.content? (some i) := by
  induction links generalizing dom with
  | nil => rfl
  | cons m rest ih =>
    obtain ⟨hsize, hcontent⟩ := (hkeeps dom m).carryOut (x := m) hi
    exact (ih (hi.trans_le hsize)).trans hcontent

theorem content?_changeLinks (hkeeps : ∀ dom m, (judge dom m).KeepsContent) (hi : i < f.dom.size) :
    (changeLinks judge f).1.dom.content? (some i) = f.dom.content? (some i) :=
  content?_judgeLinks hkeeps hi

namespace TargetsIn

theorem changeLinks (h : TargetsIn asked f) (hwf : f.WellFormed)
    (hkeeps : ∀ dom m, (judge dom m).KeepsContent) :
    TargetsIn asked (Pass.changeLinks judge f).1 := by
  intro x hx target htarget
  have hold := mem_localLinks_of_changeLinks hwf hx
  rw [localTarget?_congr (content?_changeLinks hkeeps (lt_size_of_mem_localLinks hwf hold))]
    at htarget
  exact h x hold target htarget

theorem numberEquations (h : TargetsIn asked f) (hwf : f.WellFormed) (numbering : Numbering)
    (ctx : Context) : TargetsIn asked (Pass.numberEquations numbering ctx f).1 := by
  intro x hx target htarget
  obtain ⟨hold, hcontent⟩ := mem_localLinks_of_numberEquations hwf hx
  rw [localTarget?_congr hcontent] at htarget
  exact h x hold target htarget

end TargetsIn

/-! ### All passes -/

theorem Agree.numberEquations_eq (h : Agree asked ctx ctx') (numbering : Numbering)
    (f : Fragment) : numberEquations numbering ctx' f = numberEquations numbering ctx f := by
  simp only [numberEquations, h.chapter?]

theorem Agree.apply_eq (h : Agree asked ctx ctx') (hwf : f.WellFormed)
    (htargets : TargetsIn asked f) (pass : Pass) :
    pass.apply config ctx' f = pass.apply config ctx f := by
  cases pass with
  | equationNumbers => exact h.numberEquations_eq config.numbering f
  | equationRefs => exact changeLinks_congr hwf htargets fun _ _ => h.judgeEquationText_eq
  | textRefs => exact changeLinks_congr hwf htargets fun _ _ => h.judgeSectionText_eq
  | linkTargets =>
    exact changeLinks_congr hwf htargets fun _ _ => h.judgeTarget_eq config.equationTargets

theorem wellFormed_apply (hwf : f.WellFormed) (pass : Pass) (config : Config) (ctx : Context) :
    (pass.apply config ctx f).1.WellFormed := by
  cases pass with
  | equationNumbers => exact wellFormed_numberEquations hwf config.numbering ctx
  | _ => exact wellFormed_changeLinks hwf _

/-- All passes but the last one leave the targets. -/
theorem TargetsIn.apply (h : TargetsIn asked f) (hwf : f.WellFormed) {pass : Pass}
    (hpass : pass ≠ .linkTargets) : TargetsIn asked (pass.apply config ctx f).1 := by
  cases pass with
  | equationNumbers => exact h.numberEquations hwf config.numbering ctx
  | equationRefs => exact h.changeLinks hwf (keepsContent_judgeEquationText ctx)
  | textRefs => exact h.changeLinks hwf (keepsContent_judgeSectionText ctx)
  | linkTargets => exact absurd rfl hpass

/-- Targets are changed by the last enabled pass only. -/
theorem pairwise_enabled (config : Config) :
    (enabled config).Pairwise fun pass _ => pass ≠ .linkTargets :=
  List.Pairwise.filter _ (by decide)

theorem Agree.applyAll_eq (h : Agree asked ctx ctx') {passes : List Pass}
    (hlast : passes.Pairwise fun pass _ => pass ≠ .linkTargets) (hwf : f.WellFormed)
    (htargets : TargetsIn asked f) :
    applyAll config ctx' passes f = applyAll config ctx passes f := by
  induction passes generalizing f with
  | nil => rfl
  | cons pass rest ih =>
    obtain ⟨hpass, hlast⟩ := List.pairwise_cons.mp hlast
    simp only [applyAll, h.apply_eq hwf htargets]
    cases rest with
    | nil => rfl
    | cons next rest =>
      rw [ih hlast (wellFormed_apply hwf pass config ctx)
        (htargets.apply hwf (hpass next List.mem_cons_self))]

/-- A chapter is processed the same in two contexts that agree on the targets of its local links. -/
theorem Agree.processChapter_eq (h : Agree asked ctx ctx') (config : Config) {content : String}
    (htargets : TargetsIn asked (Fragment.parse content)) :
    processChapter config ctx' (enabled config) content =
      processChapter config ctx (enabled config) content := by
  simp only [processChapter, h.applyAll_eq (pairwise_enabled config)
    (Fragment.wellFormed_parse content) htargets]

end Pass
end CrossRef
