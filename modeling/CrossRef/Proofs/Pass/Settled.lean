import CrossRef.Proofs.Pass.Pipeline
import CrossRef.Proofs.Pass.Reference

/-!
Settled chapters. A pass that finds nothing to do leaves a chapter as it is, and after all enabled
passes none of them finds anything to do.
-/
namespace CrossRef
namespace Pass

open Markup Markup.Dom Index

variable {config : Config} {ctx : Context} {f g : Fragment} {dom dom' : Dom} {x y : NodeId}
  {links : List NodeId} {judge : Dom → NodeId → Verdict}

/-! ### Nothing to do -/

/-- The verdict changes nothing. -/
def Verdict.Idle : Verdict → Prop
  | .keep | .unresolved _ => True
  | .newText _ | .newTarget _ => False

theorem Verdict.Idle.carryOut {verdict : Verdict} (h : verdict.Idle) (dom : Dom) (x : NodeId) :
    (verdict.carryOut dom x).1 = dom ∧ (verdict.carryOut dom x).2.changed = 0 := by
  cases verdict with
  | keep => exact ⟨rfl, rfl⟩
  | unresolved target => exact ⟨rfl, rfl⟩
  | newText text => exact h.elim
  | newTarget href => exact h.elim

theorem Verdict.idle_ofText {old : String} {new? : Option String}
    (h : ∀ new, new? = some new → new = old) : (Verdict.ofText old new?).Idle := by
  cases new? with
  | none => trivial
  | some new => simp [Verdict.ofText, h new rfl, Verdict.Idle]

theorem judgeLinks_of_idle (h : ∀ x ∈ links, (judge dom x).Idle) :
    (judgeLinks judge dom links).1 = dom ∧ (judgeLinks judge dom links).2.changed = 0 := by
  induction links with
  | nil => exact ⟨rfl, rfl⟩
  | cons x rest ih =>
    obtain ⟨hdom, hreport⟩ := (h x List.mem_cons_self).carryOut dom x
    obtain ⟨hdom', hreport'⟩ := ih fun m hm => h m (List.mem_cons_of_mem x hm)
    simp only [judgeLinks, hdom]
    exact ⟨hdom', by simp [Report.merge, hreport, hreport']⟩

theorem changeLinks_of_idle (h : ∀ x ∈ f.localLinks, (judge f.dom x).Idle) :
    (changeLinks judge f).1 = f ∧ (changeLinks judge f).2.changed = 0 := by
  obtain ⟨hdom, hreport⟩ := judgeLinks_of_idle h
  exact ⟨by simp only [changeLinks, hdom], hreport⟩

theorem wrapAll_of_isWrapped (number : ChapterNumber) {equations : List ScannedEquation}
    (h : ∀ e ∈ equations, isWrapped dom e.node) : wrapAll number dom equations = (dom, 0) := by
  induction equations with
  | nil => rfl
  | cons e rest ih =>
    rw [wrapAll, if_pos (h e List.mem_cons_self)]
    exact ih fun e' he' => h e' (List.mem_cons_of_mem e he')

/-- The pass finds nothing to do. -/
def Idle (config : Config) (ctx : Context) (f : Fragment) : Pass → Prop
  | .equationNumbers => (ctx.chapter?.bind (·.number)).isSome → AllWrapped f config.numbering
  | .equationRefs => ∀ x ∈ f.localLinks, (judgeEquationText ctx f.dom x).Idle
  | .textRefs => ∀ x ∈ f.localLinks, (judgeSectionText ctx f.dom x).Idle
  | .linkTargets => ∀ x ∈ f.localLinks, (judgeTarget ctx config.equationTargets f.dom x).Idle

theorem numberEquations_of_allWrapped {numbering : Numbering}
    (h : (ctx.chapter?.bind (·.number)).isSome → AllWrapped f numbering) :
    numberEquations numbering ctx f = (f, .empty) := by
  cases hnumber : ctx.chapter?.bind (·.number) with
  | none => simp [numberEquations, hnumber]
  | some number =>
    have hall := h (by simp [hnumber])
    have hwrapped : ∀ e ∈ scanEquations f numbering, isWrapped f.dom e.node := fun e he =>
      hall e.node (map_node_scanEquations f numbering ▸ List.mem_map_of_mem he)
    rw [numberEquations_eq hnumber, wrapAll_of_isWrapped number hwrapped]
    rfl

theorem apply_of_idle {pass : Pass} (h : pass.Idle config ctx f) :
    (pass.apply config ctx f).1 = f ∧ (pass.apply config ctx f).2.changed = 0 := by
  cases pass with
  | equationNumbers =>
    rw [apply, numberEquations_of_allWrapped h]
    exact ⟨rfl, rfl⟩
  | equationRefs => exact changeLinks_of_idle h
  | textRefs => exact changeLinks_of_idle h
  | linkTargets => exact changeLinks_of_idle h

/-- No enabled pass finds anything to do. -/
def Settled (config : Config) (ctx : Context) (f : Fragment) : Prop :=
  ∀ pass ∈ enabled config, pass.Idle config ctx f

/-- Passes leave a settled chapter as it is. -/
theorem Settled.applyAll (h : Settled config ctx f) :
    (applyAll config ctx (enabled config) f).1 = f ∧
      (applyAll config ctx (enabled config) f).2.changed = 0 := by
  have hrun : ∀ passes : List Pass, (∀ pass ∈ passes, pass.Idle config ctx f) →
      (Pass.applyAll config ctx passes f).1 = f ∧
        (Pass.applyAll config ctx passes f).2.changed = 0 := by
    intro passes
    induction passes with
    | nil => exact fun _ => ⟨rfl, rfl⟩
    | cons pass rest ih =>
      intro hidle
      obtain ⟨hf, hreport⟩ := apply_of_idle (hidle pass List.mem_cons_self)
      obtain ⟨hf', hreport'⟩ := ih fun p hp => hidle p (List.mem_cons_of_mem pass hp)
      simp only [Pass.applyAll, hf]
      exact ⟨hf', by simp [Report.merge, hreport, hreport']⟩
  exact hrun (enabled config) h

/-! ### Equations after the passes -/

/-- New nodes are no equations, and old ones keep their parents and their boxes. -/
theorem AllWrapped.changeLinks {numbering : Numbering} (hall : AllWrapped f numbering)
    (h : f.WellFormed) (judge : Dom → NodeId → Verdict) :
    AllWrapped (changeLinks judge f).1 numbering := by
  have hchanged := changedAt_changeLinks h judge
  intro x hx
  obtain ⟨habove, hnumbered⟩ := (mem_numberedEquations_iff (wellFormed_changeLinks h judge)).mp hx
  have hmath := (Bool.and_eq_true_iff.mp hnumbered).1
  have hname := name?_isSome_of_isElement (Bool.and_eq_true_iff.mp hmath).1
  rw [hchanged.name] at hname
  have hlt := lt_size_of_name? hname
  have hold : x ∈ numberedEquations f numbering := by
    refine (mem_numberedEquations_iff h).mpr ⟨hchanged.above_old h.dom hlt habove, ?_⟩
    refine isNumbered_of_owner (isDisplayMath_congr (hchanged.name x)
      (hchanged.otherAttributes x hlt _ (by decide))) (fun s => ?_) hnumbered
    exact nearestIdentifier?_of_keeps h.dom
      (fun i hi => hchanged.otherAttributes i hi "id" (by decide)) hchanged.parent hlt
  obtain ⟨p, hp, -⟩ := above_iff_exists_parent.mp habove
  have hp' := hchanged.parent x p hlt hp
  rw [← hall x hold]
  unfold isWrapped
  rw [hp, hp']
  simp only [isElement, hchanged.name,
    hchanged.otherAttributes p (h.dom.parent_lt hp') "class" (by decide)]

/-! ### Links after the passes -/

/-- No local link stands inside another. -/
def LinksApart (f : Fragment) : Prop :=
  ∀ x ∈ f.localLinks, ∀ y ∈ f.localLinks, ¬ f.dom.Above x y

theorem LinksApart.standsAlone (h : LinksApart f) (hwf : f.WellFormed) (hx : x ∈ f.localLinks) :
    StandsAlone f x :=
  ⟨hwf, hx, fun m hm => h m hm x hx, fun m hm => h x hx m hm⟩

theorem LinksApart.transfer (h : LinksApart f) (hlinks : ∀ x ∈ g.localLinks, x ∈ f.localLinks)
    (habove : ∀ x ∈ f.localLinks, ∀ y ∈ f.localLinks, g.dom.Above x y → f.dom.Above x y) :
    LinksApart g :=
  fun x hx y hy hxy => h x (hlinks x hx) y (hlinks y hy)
    (habove x (hlinks x hx) y (hlinks y hy) hxy)

theorem lt_size_of_mem_localLinks (hwf : f.WellFormed) (hx : x ∈ f.localLinks) : x < f.dom.size :=
  ((mem_localLinks_iff hwf).mp hx).2.lt_size

theorem mem_localLinks_of_changeLinks (hwf : f.WellFormed) (hx : x ∈ (changeLinks judge f).1.localLinks) :
    x ∈ f.localLinks := by
  have hchanged := changedAt_changeLinks hwf judge
  obtain ⟨habove, hlocal⟩ := (mem_localLinks_iff (wellFormed_changeLinks hwf judge)).mp hx
  have hold := hchanged.localLinks x hlocal
  exact (mem_localLinks_iff hwf).mpr ⟨hchanged.above_old hwf.dom hold.lt_size habove, hold⟩

theorem LinksApart.changeLinks (h : LinksApart f) (hwf : f.WellFormed)
    (judge : Dom → NodeId → Verdict) : LinksApart (changeLinks judge f).1 :=
  h.transfer (fun _ => mem_localLinks_of_changeLinks hwf) fun _ _ _ hy =>
    (changedAt_changeLinks hwf judge).above_old hwf.dom (lt_size_of_mem_localLinks hwf hy)

theorem wellFormed_numberEquations (hwf : f.WellFormed) (numbering : Numbering) (ctx : Context) :
    (numberEquations numbering ctx f).1.WellFormed := by
  cases hnumber : ctx.chapter?.bind (·.number) with
  | none => simpa [numberEquations, hnumber] using hwf
  | some number =>
    have hann := (wrapAll_scanEquations number hwf numbering).1
    rw [numberEquations_eq hnumber]
    exact ⟨hann.wellFormed, hwf.root.trans_le hann.size_le⟩

theorem mem_localLinks_of_numberEquations (hwf : f.WellFormed) {numbering : Numbering}
    (hx : x ∈ (numberEquations numbering ctx f).1.localLinks) :
    x ∈ f.localLinks ∧ (numberEquations numbering ctx f).1.dom.content? (some x) =
      f.dom.content? (some x) := by
  cases hnumber : ctx.chapter?.bind (·.number) with
  | none => simpa [Pass.numberEquations, hnumber] using hx
  | some number =>
    have hwf' := wellFormed_numberEquations hwf numbering ctx
    have hann := (wrapAll_scanEquations number hwf numbering).1
    rw [numberEquations_eq hnumber] at hwf' hx ⊢
    obtain ⟨habove, hlocal⟩ := (mem_localLinks_iff hwf').mp hx
    have hold := hann.isLocalLink hlocal
    have habove' := hann.above_old hwf.root hold.lt_size habove
    exact ⟨(mem_localLinks_iff hwf).mpr ⟨habove', hold⟩, hann.content x hold.lt_size⟩

theorem LinksApart.numberEquations (h : LinksApart f) (hwf : f.WellFormed) (numbering : Numbering)
    (ctx : Context) : LinksApart (numberEquations numbering ctx f).1 := by
  refine h.transfer (fun x hx => (mem_localLinks_of_numberEquations hwf hx).1) fun x hx y hy => ?_
  cases hnumber : ctx.chapter?.bind (·.number) with
  | none => simp [Pass.numberEquations, hnumber]
  | some number =>
    have hann := (wrapAll_scanEquations number hwf numbering).1
    rw [numberEquations_eq hnumber]
    exact hann.above_old (lt_size_of_mem_localLinks hwf hx) (lt_size_of_mem_localLinks hwf hy)

/-! ### Texts after the passes -/

/-- The rule gives the text no other text. -/
def SettledBy (rule : String → Option String) (text : String) : Prop :=
  ∀ new, rule text = some new → new = text

theorem settledBy_getD {rule : String → Option String} {text : String}
    (h : ∀ new, rule text = some new → SettledBy rule new) :
    SettledBy rule ((rule text).getD text) := by
  cases hrule : rule text with
  | none => simp [SettledBy, hrule]
  | some new => exact h new hrule

theorem Verdict.idle_withoutNote {verdict : Verdict} : verdict.withoutNote.Idle ↔ verdict.Idle := by
  cases verdict <;> rfl

theorem idle_judgeEquationText {target : String}
    (htarget : Fragment.localTarget? dom x = some target)
    (h : SettledBy (equationText? ctx target) (dom.textOf (some x))) :
    (judgeEquationText ctx dom x).Idle := by
  rw [← Verdict.idle_withoutNote, withoutNote_judgeEquationText htarget]
  exact Verdict.idle_ofText h

theorem idle_judgeSectionText {target : String}
    (htarget : Fragment.localTarget? dom x = some target)
    (h : SettledBy (sectionText? ctx (isContentsEntry dom x) target) (dom.textOf (some x))) :
    (judgeSectionText ctx dom x).Idle := by
  rw [← Verdict.idle_withoutNote, withoutNote_judgeSectionText htarget]
  exact Verdict.idle_ofText h

theorem settledBy_equationText? {target text new : String}
    (h : equationText? ctx target text = some new) : SettledBy (equationText? ctx target) new := by
  intro again hagain
  unfold equationText? at h hagain
  split at h
  · next identifier hclass =>
    simp only [hclass] at hagain
    obtain ⟨entry, hentry, rfl⟩ := Option.map_eq_some_iff.mp h
    rw [hentry, Option.map_some, equationText_equationText, Option.some_inj] at hagain
    exact hagain.symm
  · simp at h

/-- The text that a link to a chapter is given does not name the chapter again. -/
def NamesOnce (ctx : Context) (f : Fragment) : Prop :=
  ∀ x ∈ f.localLinks, ∀ reference chapter,
    linkTarget? f.dom x = some (.chapter reference) →
    ctx.manifest.findByReference? reference = some chapter →
    ∀ new, chapterText (f.dom.textOf (some x)) reference chapter = some new →
      SettledBy (chapterText · reference chapter) new

theorem NamesOnce.settledBy (h : NamesOnce ctx f) {target : String} (hx : x ∈ f.localLinks)
    (htarget : Fragment.localTarget? f.dom x = some target) (isEntry : Bool) {new : String}
    (hnew : sectionText? ctx isEntry target (f.dom.textOf (some x)) = some new) :
    SettledBy (sectionText? ctx isEntry target) new := by
  intro again hagain
  unfold sectionText? at hnew hagain
  split at hnew
  · simp at hnew
  · next hentry =>
    rw [if_neg hentry] at hagain
    split at hnew
    · next reference hclass =>
      simp only [hclass] at hagain
      obtain ⟨chapter, hchapter, hnew⟩ := Option.bind_eq_some_iff.mp hnew
      rw [hchapter, Option.bind_some] at hagain
      exact h x hx reference chapter ((linkTarget?_eq htarget).trans (by rw [hclass])) hchapter new
        hnew again hagain
    · next identifier hclass =>
      simp only [hclass] at hagain
      exact Option.some_inj.mp (hagain.symm.trans hnew)
    · simp at hnew

theorem TextDone.textOf_eq {new? : Option String} (h : TextDone new? dom dom' x)
    (hwf : dom.WellFormed) (hwf' : dom'.WellFormed) (hname : (dom.name? (some x)).isSome) :
    dom'.textOf (some x) = new?.getD (dom.textOf (some x)) := by
  cases new? with
  | some new => exact h.text new rfl
  | none =>
    have hname' : (dom'.name? (some x)).isSome := by rwa [name?_congr h.content]
    exact (h.same rfl).textOf_eq hwf hwf' hname hname'

/-- After both passes over the texts neither has another text for the link. -/
theorem StandsAlone.settledTexts (h : StandsAlone f x) {target : String}
    (htarget : Fragment.localTarget? f.dom x = some target)
    (hnames : NamesOnce ctx f) (config : Config) :
    let f' := runEnabled config ctx .textRefs (runEnabled config ctx .equationRefs f)
    StandsAlone f' x ∧ f'.dom.content? (some x) = f.dom.content? (some x) ∧
      (config.disables "equation-refs" = false →
        SettledBy (equationText? ctx target) (f'.dom.textOf (some x))) ∧
      (config.disables "text-refs" = false →
        SettledBy (sectionText? ctx (isContentsEntry f'.dom x) target) (f'.dom.textOf (some x))) := by
  intro f'
  obtain ⟨h₁, hdone₁⟩ := h.runEquationRefs htarget config ctx
  obtain ⟨h₂, hdone₂⟩ := h₁.runTextRefs ((localTarget?_congr hdone₁.content).trans htarget) config ctx
  have hcontent := hdone₂.content.trans hdone₁.content
  have htext₁ := hdone₁.textOf_eq h.wellFormed.dom h₁.wellFormed.dom h.isLocalLink.name?_isSome
  have htext₂ := hdone₂.textOf_eq h₁.wellFormed.dom h₂.wellFormed.dom h₁.isLocalLink.name?_isSome
  rw [isContentsEntry_congr hdone₁.content] at htext₂
  refine ⟨h₂, hcontent, fun henabled => ?_, fun henabled => ?_⟩
  · by_cases heq : startsWith equationMark target
    · rw [sectionText?_eq_none heq, ite_self, Option.getD_none] at htext₂
      rw [htext₂, htext₁, henabled]
      exact settledBy_getD fun _ => settledBy_equationText?
    · simp [SettledBy, equationText?_eq_none (by simpa using heq)]
  · by_cases heq : startsWith equationMark target
    · simp [SettledBy, sectionText?_eq_none heq]
    · rw [equationText?_eq_none (by simpa using heq), ite_self, Option.getD_none] at htext₁
      rw [isContentsEntry_congr hcontent, htext₂, htext₁, henabled]
      exact settledBy_getD fun _ => hnames.settledBy h.mem htarget _

/-! ### Targets after the passes -/

/-- The chapters that links are led to have file names that are not taken for local targets. -/
def OwnersAway (config : Config) (ctx : Context) : Prop :=
  ∀ target owner, newOwner? ctx config.equationTargets target = some owner →
    startsWith ['#'] owner = false

theorem localTarget?_addressIn {owner target : String} (howner : startsWith ['#'] owner = false)
    (hhref : dom.attribute? (some x) "href" = some (addressIn owner target)) :
    Fragment.localTarget? dom x = none := by
  have hlist : (addressIn owner target).toList =
      owner.toList ++ '.' :: ("html#".toList ++ target.toList) := by simp [addressIn]
  have hhead : (addressIn owner target).toList.head? ≠ some '#' := by
    rw [hlist]
    cases howner' : owner.toList with
    | nil => simp
    | cons c rest =>
      have hc : ¬ '#' = c := by simpa [startsWith, howner', List.isPrefixOf] using howner
      simpa using Ne.symm hc
  rw [Fragment.localTarget?, hhref]
  split
  · next rest hrest =>
    rw [Option.map_some, Option.some_inj] at hrest
    simp [hrest] at hhead
  · rfl

/-- A link that is still local was not led anywhere, and will not be. -/
theorem StandsAlone.idle_target (h : StandsAlone f x) (howners : OwnersAway config ctx)
    (hx : x ∈ (runEnabled config ctx .linkTargets f).localLinks) :
    let f' := runEnabled config ctx .linkTargets f
    f'.dom.content? (some x) = f.dom.content? (some x) ∧
      f'.dom.textOf (some x) = f.dom.textOf (some x) ∧
      (config.disables "link-targets" = false →
        (judgeTarget ctx config.equationTargets f'.dom x).Idle) := by
  intro f'
  by_cases hdisabled : config.disables "link-targets"
  · have hrun : f' = f := if_pos hdisabled
    rw [hrun]
    exact ⟨rfl, rfl, by simp [hdisabled]⟩
  have hrun : f' = (Pass.changeLinks (judgeTarget ctx config.equationTargets) f).1 := if_neg hdisabled
  change x ∈ f'.localLinks at hx
  rw [hrun] at hx ⊢
  have hlocal := ((mem_localLinks_iff (wellFormed_changeLinks h.wellFormed _)).mp hx).2
  obtain ⟨target, htarget⟩ := Option.isSome_iff_exists.mp h.isLocalLink.2
  have hdone : (judgeTarget ctx config.equationTargets f.dom x).Done f.dom
      (Pass.changeLinks (judgeTarget ctx config.equationTargets) f).1.dom x :=
    h.done_changeLinks fun _ hcontent _ => judgeTarget_congr hcontent
  cases howner : newOwner? ctx config.equationTargets target with
  | some owner =>
    have hverdict : judgeTarget ctx config.equationTargets f.dom x =
        .newTarget (addressIn owner target) := by rw [judgeTarget_eq htarget, howner]
    rw [hverdict] at hdone
    have hnone := localTarget?_addressIn (howners target owner howner) hdone.2.2
    exact absurd hlocal.2 (by simp [hnone])
  | none =>
    have hverdict : judgeTarget ctx config.equationTargets f.dom x = .keep := by
      rw [judgeTarget_eq htarget, howner]
    rw [hverdict] at hdone
    refine ⟨hdone.2, ?_, fun _ => ?_⟩
    · exact hdone.1.textOf_eq h.wellFormed.dom (wellFormed_changeLinks h.wellFormed _).dom
        h.isLocalLink.name?_isSome hlocal.name?_isSome
    · rw [judgeTarget_congr hdone.2, hverdict]
      trivial

/-! ### All passes -/

/-- A pass over the links changes links, or it is left out. -/
theorem runEnabled_cases (config : Config) (ctx : Context) (f : Fragment) {pass : Pass}
    (h : pass ≠ .equationNumbers) : runEnabled config ctx pass f = f ∨
      ∃ judge, runEnabled config ctx pass f = (changeLinks judge f).1 := by
  unfold runEnabled
  split_ifs
  · exact .inl rfl
  · cases pass with
    | equationNumbers => exact absurd rfl h
    | equationRefs => exact .inr ⟨_, rfl⟩
    | textRefs => exact .inr ⟨_, rfl⟩
    | linkTargets => exact .inr ⟨_, rfl⟩

/-- What every step of the passes keeps. -/
structure Steady (config : Config) (ctx : Context) (f : Fragment) : Prop where
  wellFormed : f.WellFormed
  apart : LinksApart f
  wrapped : config.disables "equation-numbers" = false →
    (ctx.chapter?.bind (·.number)).isSome → AllWrapped f config.numbering

theorem steady_runEquationNumbers (hwf : f.WellFormed) (hapart : LinksApart f) :
    Steady config ctx (runEnabled config ctx .equationNumbers f) := by
  unfold runEnabled label
  split_ifs with hdisabled
  · exact ⟨hwf, hapart, by simp [hdisabled]⟩
  · refine ⟨wellFormed_numberEquations hwf config.numbering ctx,
      hapart.numberEquations hwf config.numbering ctx, fun _ hnumber => ?_⟩
    obtain ⟨number, hnumber⟩ := Option.isSome_iff_exists.mp hnumber
    exact allWrapped_numberEquations hnumber hwf config.numbering

theorem Steady.run (h : Steady config ctx f) (pass : Pass) (hpass : pass ≠ .equationNumbers) :
    Steady config ctx (runEnabled config ctx pass f) ∧
      ∀ x ∈ (runEnabled config ctx pass f).localLinks, x ∈ f.localLinks := by
  rcases runEnabled_cases config ctx f hpass with heq | ⟨judge, heq⟩
  · rw [heq]
    exact ⟨h, fun _ hx => hx⟩
  · rw [heq]
    exact ⟨⟨wellFormed_changeLinks h.wellFormed judge, h.apart.changeLinks h.wellFormed judge,
      fun henabled hnumber => (h.wrapped henabled hnumber).changeLinks h.wellFormed judge⟩,
      fun _ => mem_localLinks_of_changeLinks h.wellFormed⟩

/-- The passes over the links find nothing to do at a link that is local after them. -/
theorem Steady.idle_of_mem (h : Steady config ctx f) (howners : OwnersAway config ctx)
    (hnames : NamesOnce ctx f) :
    let f' := runEnabled config ctx .linkTargets (runEnabled config ctx .textRefs
      (runEnabled config ctx .equationRefs f))
    ∀ x ∈ f'.localLinks,
      (config.disables "equation-refs" = false → (judgeEquationText ctx f'.dom x).Idle) ∧
      (config.disables "text-refs" = false → (judgeSectionText ctx f'.dom x).Idle) ∧
      (config.disables "link-targets" = false →
        (judgeTarget ctx config.equationTargets f'.dom x).Idle) := by
  intro f' x hx
  obtain ⟨h₁, hmem₁⟩ := h.run .equationRefs (by simp)
  obtain ⟨h₂, hmem₂⟩ := h₁.run .textRefs (by simp)
  obtain ⟨-, hmem₃⟩ := h₂.run .linkTargets (by simp)
  -- the link was local all the time
  have halone := h.apart.standsAlone h.wellFormed (hmem₁ x (hmem₂ x (hmem₃ x hx)))
  obtain ⟨target, htarget⟩ := Option.isSome_iff_exists.mp halone.isLocalLink.2
  obtain ⟨halone₂, hcontent₂, hequation, hsection⟩ := halone.settledTexts htarget hnames config
  obtain ⟨hcontent₃, htext₃, hidle⟩ := halone₂.idle_target howners hx
  have htarget₃ := ((localTarget?_congr hcontent₃).trans (localTarget?_congr hcontent₂)).trans htarget
  refine ⟨fun henabled => idle_judgeEquationText htarget₃ ?_,
    fun henabled => idle_judgeSectionText htarget₃ ?_, hidle⟩
  · rw [htext₃]
    exact hequation henabled
  · rw [htext₃, isContentsEntry_congr hcontent₃]
    exact hsection henabled

/-- After all enabled passes none of them finds anything to do. -/
theorem settled_applyAll (hwf : f.WellFormed) (hapart : LinksApart f)
    (howners : OwnersAway config ctx)
    (hnames : NamesOnce ctx (runEnabled config ctx .equationNumbers f)) :
    Settled config ctx (applyAll config ctx (enabled config) f).1 := by
  have hsteady : Steady config ctx (runEnabled config ctx .equationNumbers f) :=
    steady_runEquationNumbers hwf hapart
  obtain ⟨h₁, -⟩ := hsteady.run .equationRefs (by simp)
  obtain ⟨h₂, -⟩ := h₁.run .textRefs (by simp)
  obtain ⟨h₃, -⟩ := h₂.run .linkTargets (by simp)
  have hlink := hsteady.idle_of_mem howners hnames
  rw [applyAll_enabled]
  intro pass hpass
  have henabled : config.disables pass.label = false := by
    simpa using (List.mem_filter.mp hpass).2
  cases pass with
  | equationNumbers => exact h₃.wrapped henabled
  | equationRefs => exact fun x hx => (hlink x hx).1 henabled
  | textRefs => exact fun x hx => (hlink x hx).2.1 henabled
  | linkTargets => exact fun x hx => (hlink x hx).2.2 henabled

end Pass
end CrossRef
