import CrossRef.Pass.Registry
import CrossRef.Proofs.Pass.EquationNumbers
import CrossRef.Proofs.Pass.Reference
import CrossRef.Proofs.Pass.Standalone

/-!
The passes together. What all enabled passes do to a link that stands alone is settled by its target,
its text and its own identifier, whatever else is in the chapter.
-/
namespace CrossRef
namespace Pass

open Markup Markup.Dom Index

variable {config : Config} {ctx : Context} {f f' : Fragment} {dom dom' dom'' : Dom} {x : NodeId}
  {target : String} {new? : Option String}

/-! ### Numbers next to equations -/

theorem Annotated.isLocalLink {moved : List NodeId} (h : Annotated dom dom' moved) {i : NodeId}
    (hi : IsLocalLink dom' i) : IsLocalLink dom i := by
  by_cases hlt : i < dom.size
  · exact (isLocalLink_congr (h.content i hlt)).mp hi
  · exact absurd (h.fresh i "a" (Nat.le_of_not_lt hlt) hi.1) (by decide)

/-- A link with no display equation inside is left alone. -/
theorem StandsAlone.numberEquations (h : StandsAlone f x)
    (hmath : ∀ m, isDisplayMath f.dom m → ¬ f.dom.Above x m) (numbering : Numbering)
    (ctx : Context) :
    StandsAlone (numberEquations numbering ctx f).1 x ∧
      SameInside f.dom (numberEquations numbering ctx f).1.dom x ∧
      (numberEquations numbering ctx f).1.dom.content? (some x) = f.dom.content? (some x) := by
  cases hnumber : ctx.chapter?.bind (·.number) with
  | none => simpa [Pass.numberEquations, hnumber] using ⟨h, SameInside.refl f.dom x⟩
  | some number =>
    obtain ⟨hann, -, -⟩ := wrapAll_scanEquations number h.wellFormed numbering
    rw [numberEquations_eq hnumber]
    have hcontent := hann.content x h.lt_size
    refine ⟨h.transfer hann.wellFormed hann.size_le (hann.above h.wellFormed.dom h.above) hcontent
      (fun a i => hann.above_old) fun i => hann.isLocalLink, ?_, hcontent⟩
    refine hann.sameInside h.lt_size fun m hm => hmath m ?_
    have hnumbered := (List.mem_filter.mp (List.mem_filter.mp hm).1).2
    exact (Bool.and_eq_true_iff.mp hnumbered).1

/-! ### Text -/

/-- The attributes of an element stay; its text is new, or nothing inside it changes. -/
structure TextDone (new? : Option String) (dom dom' : Dom) (x : NodeId) : Prop where
  content : dom'.content? (some x) = dom.content? (some x)
  text : ∀ new, new? = some new → dom'.textOf (some x) = new
  same : new? = none → SameInside dom dom' x

theorem TextDone.of_ofText (hwf : dom.WellFormed) (hwf' : dom'.WellFormed)
    (hname : (dom.name? (some x)).isSome)
    (h : (Verdict.ofText (dom.textOf (some x)) new?).Done dom dom' x) :
    TextDone new? dom dom' x := by
  cases new? with
  | none => exact ⟨h.2, by simp, fun _ => h.1⟩
  | some new =>
    rw [Verdict.ofText] at h
    split_ifs at h with hold
    · obtain ⟨hsame, hcontent⟩ := h
      refine ⟨hcontent, fun s hs => ?_, by simp⟩
      rw [← Option.some_inj.mp hs, hold]
      exact hsame.textOf_eq hwf hwf' hname (by rwa [name?, hcontent])
    · exact ⟨h.2, fun s hs => Option.some_inj.mp hs ▸ h.1, by simp⟩

theorem localTarget?_eq (hhref : dom.attribute? (some x) "href" = some ("#" ++ target)) :
    Fragment.localTarget? dom x = some target := by
  simp [Fragment.localTarget?, hhref]

theorem linkTarget?_eq (htarget : Fragment.localTarget? dom x = some target) :
    linkTarget? dom x = some (classify target) := by
  simp [linkTarget?, htarget]

theorem isContentsEntry_congr (h : dom'.content? (some x) = dom.content? (some x)) :
    isContentsEntry dom' x = isContentsEntry dom x := by
  rw [isContentsEntry, attribute?_congr h, isContentsEntry]

/-- The text of a link by the equation that it leads to. -/
def equationText? (ctx : Context) (target text : String) : Option String :=
  match classify target with
  | .equation identifier => (ctx.findEquation? identifier).map fun entry =>
      equationText text identifier entry (ctx.isOther entry.chapterId)
  | _ => none

/-- The text of a link by the chapter or heading that it leads to. -/
def sectionText? (ctx : Context) (isEntry : Bool) (target text : String) : Option String :=
  if isEntry then none
  else match classify target with
    | .chapter reference => (ctx.manifest.findByReference? reference).bind (chapterText text reference)
    | .heading identifier => (ctx.findSection? identifier).map fun entry =>
        sectionText entry (ctx.isOther entry.chapterId)
    | _ => none

/-- The verdict without the note that a target leads nowhere. -/
def Verdict.withoutNote : Verdict → Verdict
  | .unresolved _ => .keep
  | verdict => verdict

theorem Verdict.done_withoutNote {verdict : Verdict} :
    verdict.withoutNote.Done dom dom' x ↔ verdict.Done dom dom' x := by
  cases verdict <;> rfl

theorem Verdict.withoutNote_ofText (old : String) (new? : Option String) :
    (Verdict.ofText old new?).withoutNote = .ofText old new? := by
  cases new? with
  | none => rfl
  | some new =>
    rw [Verdict.ofText]
    split_ifs <;> rfl

theorem withoutNote_judgeEquationText (htarget : Fragment.localTarget? dom x = some target) :
    (judgeEquationText ctx dom x).withoutNote =
      .ofText (dom.textOf (some x)) (equationText? ctx target (dom.textOf (some x))) := by
  rw [judgeEquationText, linkTarget?_eq htarget, equationText?]
  cases hclass : classify target with
  | equation identifier =>
    cases hentry : ctx.findEquation? identifier with
    | none => simp only [hentry]; rfl
    | some entry => simp only [hentry]; exact Verdict.withoutNote_ofText _ _
  | _ => rfl

theorem withoutNote_judgeSectionText (htarget : Fragment.localTarget? dom x = some target) :
    (judgeSectionText ctx dom x).withoutNote = .ofText (dom.textOf (some x))
      (sectionText? ctx (isContentsEntry dom x) target (dom.textOf (some x))) := by
  rw [judgeSectionText, linkTarget?_eq htarget, sectionText?]
  cases hentry : isContentsEntry dom x with
  | true => rfl
  | false =>
    simp only [Bool.false_eq_true, ↓reduceIte]
    cases hclass : classify target with
    | chapter reference =>
      cases hchapter : ctx.manifest.findByReference? reference with
      | none => simp only [hchapter]; rfl
      | some chapter => simp only [hchapter]; exact Verdict.withoutNote_ofText _ _
    | heading identifier =>
      cases hsection : ctx.findSection? identifier with
      | none => simp only [hsection]; rfl
      | some entry => simp only [hsection]; exact Verdict.withoutNote_ofText _ _
    | _ => rfl

theorem judgeEquationText_congr (hcontent : dom'.content? (some x) = dom.content? (some x))
    (htext : dom'.textOf (some x) = dom.textOf (some x)) :
    judgeEquationText ctx dom' x = judgeEquationText ctx dom x := by
  simp only [judgeEquationText, linkTarget?, localTarget?_congr hcontent, htext]

theorem judgeSectionText_congr (hcontent : dom'.content? (some x) = dom.content? (some x))
    (htext : dom'.textOf (some x) = dom.textOf (some x)) :
    judgeSectionText ctx dom' x = judgeSectionText ctx dom x := by
  simp only [judgeSectionText, isContentsEntry_congr hcontent, linkTarget?,
    localTarget?_congr hcontent, htext]

namespace StandsAlone

theorem textDone_changeLinks (h : StandsAlone f x) {judge : Dom → NodeId → Verdict}
    (hdone : (Verdict.ofText (f.dom.textOf (some x)) new?).Done f.dom (Pass.changeLinks judge f).1.dom x) :
    StandsAlone (Pass.changeLinks judge f).1 x ∧ TextDone new? f.dom (Pass.changeLinks judge f).1.dom x := by
  have htext := TextDone.of_ofText h.wellFormed.dom (changedAt_changeLinks h.wellFormed judge).wellFormed
    h.isLocalLink.name?_isSome hdone
  exact ⟨h.changeLinks judge htext.content, htext⟩

theorem renderEquationRefs (h : StandsAlone f x)
    (htarget : Fragment.localTarget? f.dom x = some target) (ctx : Context) :
    StandsAlone (Pass.renderEquationRefs ctx f).1 x ∧
      TextDone (equationText? ctx target (f.dom.textOf (some x))) f.dom
        (Pass.renderEquationRefs ctx f).1.dom x :=
  h.textDone_changeLinks <| withoutNote_judgeEquationText htarget ▸ Verdict.done_withoutNote.mpr
    (h.done_changeLinks fun _ => judgeEquationText_congr)

theorem renderTextRefs (h : StandsAlone f x)
    (htarget : Fragment.localTarget? f.dom x = some target) (ctx : Context) :
    StandsAlone (Pass.renderTextRefs ctx f).1 x ∧
      TextDone (sectionText? ctx (isContentsEntry f.dom x) target (f.dom.textOf (some x))) f.dom
        (Pass.renderTextRefs ctx f).1.dom x :=
  h.textDone_changeLinks <| withoutNote_judgeSectionText htarget ▸ Verdict.done_withoutNote.mpr
    (h.done_changeLinks fun _ => judgeSectionText_congr)

end StandsAlone

namespace TextDone

theorem refl (dom : Dom) (x : NodeId) : TextDone none dom dom x :=
  ⟨rfl, by simp, fun _ => .refl dom x⟩

/-- Of two steps only the second gives a text. -/
theorem trans_right (h : TextDone none dom dom' x) (h' : TextDone new? dom' dom'' x)
    (hwf : dom.WellFormed) (hwf' : dom'.WellFormed) : TextDone new? dom dom'' x :=
  ⟨h'.content.trans h.content, h'.text, fun hnone => (h.same rfl).trans (h'.same hnone) hwf hwf'⟩

/-- Of two steps only the first gives a text. -/
theorem trans_left (h : TextDone new? dom dom' x) (h' : TextDone none dom' dom'' x)
    (hwf : dom.WellFormed) (hwf' : dom'.WellFormed) (hwf'' : dom''.WellFormed)
    (hname : (dom.name? (some x)).isSome) : TextDone new? dom dom'' x := by
  have hname' : (dom'.name? (some x)).isSome := by rwa [name?_congr h.content]
  have hname'' : (dom''.name? (some x)).isSome := by rwa [name?_congr h'.content]
  refine ⟨h'.content.trans h.content, fun new hnew => ?_, fun hnone => ?_⟩
  · rw [(h'.same rfl).textOf_eq hwf' hwf'' hname' hname'', h.text new hnew]
  · exact (h.same hnone).trans (h'.same rfl) hwf hwf'

end TextDone

/-! ### Targets -/

theorem judgeTarget_congr {equationTargets : Bool}
    (hcontent : dom'.content? (some x) = dom.content? (some x)) :
    judgeTarget ctx equationTargets dom' x = judgeTarget ctx equationTargets dom x := by
  simp only [judgeTarget, localTarget?_congr hcontent]

/-- The chapter to whose file a link is led. -/
def newOwner? (ctx : Context) (equationTargets : Bool) (target : String) : Option String :=
  if startsWith contentsMark target then none
  else (targetOwner? ctx equationTargets (classify target)).filter ctx.isOther

theorem judgeTarget_eq {equationTargets : Bool}
    (htarget : Fragment.localTarget? dom x = some target) :
    judgeTarget ctx equationTargets dom x =
      match newOwner? ctx equationTargets target with
      | some owner => .newTarget (addressIn owner target)
      | none => .keep := by
  simp only [judgeTarget, htarget, newOwner?]
  split_ifs
  · rfl
  · cases howner : targetOwner? ctx equationTargets (classify target) with
    | none => rfl
    | some owner => cases hother : ctx.isOther owner <;> simp [Option.filter, hother]

/-- The address of every local link after the pass, wherever the link stands. -/
theorem href_retargetLinks (hwf : f.WellFormed) (hx : x ∈ f.localLinks)
    (hhref : f.dom.attribute? (some x) "href" = some ("#" ++ target)) (equationTargets : Bool)
    (ctx : Context) :
    (retargetLinks equationTargets ctx f).1.dom.attribute? (some x) "href" =
      some (match newOwner? ctx equationTargets target with
        | some owner => addressIn owner target
        | none => "#" ++ target) := by
  obtain ⟨dom', hsame, hresult⟩ := content?_judgeLinks_of_mem (judgeTarget ctx equationTargets)
    hwf.dom (nodup_localLinks hwf) (fun m hm => ((mem_localLinks_iff hwf).mp hm).2) hx
  have hhref' : dom'.attribute? (some x) "href" = some ("#" ++ target) :=
    (attribute?_congr hsame "href").trans hhref
  have hname : (dom'.name? (some x)).isSome := by
    rw [name?_congr hsame]
    exact ((mem_localLinks_iff hwf).mp hx).2.name?_isSome
  refine (attribute?_congr hresult "href").trans ?_
  rw [judgeTarget_eq (localTarget?_eq hhref')]
  cases newOwner? ctx equationTargets target with
  | none => exact hhref'
  | some owner => exact attribute?_setAttribute hname "href" _

theorem StandsAlone.retargetLinks (h : StandsAlone f x)
    (hhref : f.dom.attribute? (some x) "href" = some ("#" ++ target)) (equationTargets : Bool)
    (ctx : Context) :
    let f' := (retargetLinks equationTargets ctx f).1
    f'.dom.WellFormed ∧ x ∈ f'.elements "a" ∧ SameInside f.dom f'.dom x ∧
      f'.dom.attribute? (some x) "href" =
        some (match newOwner? ctx equationTargets target with
          | some owner => addressIn owner target
          | none => "#" ++ target) := by
  intro f'
  have hchanged := changedAt_changeLinks h.wellFormed (judgeTarget ctx equationTargets)
  have hdone : (judgeTarget ctx equationTargets f.dom x).Done f.dom f'.dom x :=
    h.done_changeLinks fun _ hcontent _ => judgeTarget_congr hcontent
  rw [judgeTarget_eq (localTarget?_eq hhref)] at hdone
  have habove := hchanged.above f.root x h.not_above h.above
  have hmem : f'.dom.name? (some x) = f.dom.name? (some x) → x ∈ f'.elements "a" := by
    intro hname
    have hroot := h.wellFormed.root.trans_le hchanged.size_le
    refine List.mem_filter.mpr ⟨(hchanged.wellFormed.mem_descendants_iff hroot).mpr habove, ?_⟩
    rw [isElement, hname]
    exact h.isLocalLink.1
  cases howner : newOwner? ctx equationTargets target with
  | none =>
    rw [howner] at hdone
    exact ⟨hchanged.wellFormed, hmem (name?_congr hdone.2), hdone.1, (attribute?_congr hdone.2 _).trans hhref⟩
  | some owner =>
    rw [howner] at hdone
    exact ⟨hchanged.wellFormed, hmem hdone.2.1, hdone.1, hdone.2.2⟩

/-! ### All passes -/

/-- Run a pass unless the settings leave it out. -/
def runEnabled (config : Config) (ctx : Context) (pass : Pass) (f : Fragment) : Fragment :=
  if config.disables pass.label then f else (pass.apply config ctx f).1

theorem applyAll_enabled (config : Config) (ctx : Context) (f : Fragment) :
    (applyAll config ctx (enabled config) f).1 =
      runEnabled config ctx .linkTargets (runEnabled config ctx .textRefs
        (runEnabled config ctx .equationRefs (runEnabled config ctx .equationNumbers f))) := by
  have hfilter : ∀ (passes : List Pass) (f : Fragment),
      (applyAll config ctx (passes.filter fun pass => !config.disables pass.label) f).1 =
        passes.foldl (fun f pass => runEnabled config ctx pass f) f := by
    intro passes
    induction passes with
    | nil => exact fun f => rfl
    | cons pass rest ih =>
      intro f
      by_cases hdisabled : config.disables pass.label
      · simpa [hdisabled, runEnabled] using ih f
      · simpa [hdisabled, runEnabled, applyAll] using ih _
  exact hfilter all f

/-- Targets of notes, sources and figures, and the empty target. -/
def isExcluded (target : String) : Bool :=
  target = "" || excludedMarks.any (startsWith · target)

/-- What comes after the mark of a chapter. -/
def chapterReference (target : String) : String :=
  String.ofList (target.toList.drop chapterMark.length)

/-- The text that a link ends with by its target, its own text and whether it is an entry of a table
of contents, or nothing if its text is left alone. -/
def settledText? (config : Config) (ctx : Context) (isEntry : Bool) (target text : String) :
    Option String :=
  if isExcluded target then none
  else if startsWith equationMark target then
    if config.disables "equation-refs" then none
    else (ctx.findEquation? target).map fun entry =>
      equationText text target entry (ctx.isOther entry.chapterId)
  else if config.disables "text-refs" || isEntry then none
  else if startsWith chapterMark target then
    (ctx.manifest.findByReference? (chapterReference target)).bind
      (chapterText text (chapterReference target))
  else (ctx.findSection? target).map fun entry =>
    sectionText entry (ctx.isOther entry.chapterId)

/-- The chapter that a target is in, by the same look-ups. -/
def settledOwner? (config : Config) (ctx : Context) (target : String) : Option String :=
  if isExcluded target then none
  else if startsWith equationMark target then
    if config.equationTargets then (ctx.findEquation? target).map (·.chapterId) else none
  else if startsWith chapterMark target then
    (ctx.manifest.findByReference? (chapterReference target)).map (·.id)
  else (ctx.findSection? target).map (·.chapterId)

/-- The address that a link ends with. -/
def settledHref (config : Config) (ctx : Context) (target : String) : String :=
  match settledOwner? config ctx target with
  | none => "#" ++ target
  | some owner =>
    if config.disables "link-targets" || startsWith contentsMark target || owner = ctx.chapterId then
      "#" ++ target
    else owner ++ ".html#" ++ target

/-- No target names both an equation and a chapter. -/
theorem not_chapterMark_of_equationMark (h : startsWith equationMark target) :
    startsWith chapterMark target = false := by
  cases htarget : target.toList with
  | nil => simp [startsWith, htarget, equationMark] at h
  | cons c rest =>
    simp only [startsWith, htarget, equationMark, String.reduceToList, List.isPrefixOf,
      Bool.and_eq_true, beq_iff_eq] at h
    rw [startsWith, htarget, ← h.1]
    rfl

theorem classify_eq (target : String) : classify target =
    if isExcluded target then .excluded
    else if startsWith equationMark target then .equation target
    else if startsWith chapterMark target then .chapter (chapterReference target)
    else .heading target := by
  have hequation : isEquationIdentifier target = startsWith equationMark target := rfl
  rw [classify, hequation]
  by_cases heq : startsWith equationMark target
  · simp [isExcluded, heq, not_chapterMark_of_equationMark heq]
  · simp [isExcluded, heq, chapterReference]

theorem settledText?_eq (config : Config) (ctx : Context) (isEntry : Bool) (target text : String) :
    settledText? config ctx isEntry target text =
      if startsWith equationMark target then
        if config.disables "equation-refs" then none else equationText? ctx target text
      else if config.disables "text-refs" then none
      else sectionText? ctx isEntry target text := by
  simp only [settledText?, equationText?, sectionText?, classify_eq]
  by_cases hexcluded : isExcluded target <;> by_cases heq : startsWith equationMark target <;>
    by_cases hch : startsWith chapterMark target <;> cases isEntry <;> simp [hexcluded, heq, hch]

theorem equationText?_eq_none (h : startsWith equationMark target = false) (ctx : Context)
    (text : String) : equationText? ctx target text = none := by
  simp only [equationText?, classify_eq, h]
  by_cases hexcluded : isExcluded target <;> by_cases hch : startsWith chapterMark target <;>
    simp [hexcluded, hch]

theorem sectionText?_eq_none (h : startsWith equationMark target) (ctx : Context) (isEntry : Bool)
    (text : String) : sectionText? ctx isEntry target text = none := by
  simp only [sectionText?, classify_eq, h]
  by_cases hexcluded : isExcluded target <;> simp [hexcluded]

theorem settledHref_eq (config : Config) (ctx : Context) (target : String) :
    settledHref config ctx target =
      if config.disables "link-targets" then "#" ++ target
      else match newOwner? ctx config.equationTargets target with
        | some owner => addressIn owner target
        | none => "#" ++ target := by
  have howner : settledOwner? config ctx target =
      targetOwner? ctx config.equationTargets (classify target) := by
    simp only [settledOwner?, classify_eq]
    by_cases hexcluded : isExcluded target <;> by_cases heq : startsWith equationMark target <;>
      by_cases hch : startsWith chapterMark target <;> simp [hexcluded, heq, hch, targetOwner?]
  rw [settledHref, howner, newOwner?]
  cases targetOwner? ctx config.equationTargets (classify target) with
  | none => simp
  | some owner =>
    by_cases hdisabled : config.disables "link-targets" <;>
      by_cases htoc : startsWith contentsMark target <;> by_cases hother : owner = ctx.chapterId <;>
      simp [hdisabled, htoc, hother, Context.isOther, Option.filter, addressIn, eq_comm]

/-! ### A link through all passes -/

namespace StandsAlone

theorem runEquationNumbers (h : StandsAlone f x)
    (hmath : ∀ m, isDisplayMath f.dom m → ¬ f.dom.Above x m) (config : Config) (ctx : Context) :
    StandsAlone (runEnabled config ctx .equationNumbers f) x ∧
      TextDone none f.dom (runEnabled config ctx .equationNumbers f).dom x := by
  unfold runEnabled
  split_ifs
  · exact ⟨h, .refl f.dom x⟩
  · obtain ⟨halone, hsame, hcontent⟩ := h.numberEquations hmath config.numbering ctx
    exact ⟨halone, hcontent, by simp, fun _ => hsame⟩

theorem runEquationRefs (h : StandsAlone f x)
    (htarget : Fragment.localTarget? f.dom x = some target) (config : Config) (ctx : Context) :
    StandsAlone (runEnabled config ctx .equationRefs f) x ∧
      TextDone (if config.disables "equation-refs" then none
        else equationText? ctx target (f.dom.textOf (some x))) f.dom
        (runEnabled config ctx .equationRefs f).dom x := by
  unfold runEnabled label
  split_ifs
  · exact ⟨h, .refl f.dom x⟩
  · exact h.renderEquationRefs htarget ctx

theorem runTextRefs (h : StandsAlone f x)
    (htarget : Fragment.localTarget? f.dom x = some target) (config : Config) (ctx : Context) :
    StandsAlone (runEnabled config ctx .textRefs f) x ∧
      TextDone (if config.disables "text-refs" then none
        else sectionText? ctx (isContentsEntry f.dom x) target (f.dom.textOf (some x))) f.dom
        (runEnabled config ctx .textRefs f).dom x := by
  unfold runEnabled label
  split_ifs
  · exact ⟨h, .refl f.dom x⟩
  · exact h.renderTextRefs htarget ctx

theorem runLinkTargets (h : StandsAlone f x)
    (hhref : f.dom.attribute? (some x) "href" = some ("#" ++ target)) (config : Config)
    (ctx : Context) :
    (runEnabled config ctx .linkTargets f).dom.WellFormed ∧
      x ∈ (runEnabled config ctx .linkTargets f).elements "a" ∧
      SameInside f.dom (runEnabled config ctx .linkTargets f).dom x ∧
      (runEnabled config ctx .linkTargets f).dom.attribute? (some x) "href" =
        some (settledHref config ctx target) := by
  rw [settledHref_eq]
  unfold runEnabled label
  split_ifs
  · exact ⟨h.wellFormed.dom, (List.mem_filter.mp h.mem).1, .refl f.dom x, hhref⟩
  · exact h.retargetLinks hhref config.equationTargets ctx

/-- The three passes before the last settle the text. -/
theorem runTexts (h : StandsAlone f x) (hmath : ∀ m, isDisplayMath f.dom m → ¬ f.dom.Above x m)
    (htarget : Fragment.localTarget? f.dom x = some target) (config : Config) (ctx : Context) :
    let f' := runEnabled config ctx .textRefs (runEnabled config ctx .equationRefs
      (runEnabled config ctx .equationNumbers f))
    StandsAlone f' x ∧ TextDone (settledText? config ctx (isContentsEntry f.dom x) target
      (f.dom.textOf (some x))) f.dom f'.dom x := by
  intro f'
  obtain ⟨h₁, hdone₁⟩ := h.runEquationNumbers hmath config ctx
  obtain ⟨h₂, hdone₂⟩ := h₁.runEquationRefs ((localTarget?_congr hdone₁.content).trans htarget)
    config ctx
  have hcontent := hdone₂.content.trans hdone₁.content
  obtain ⟨h₃, hdone₃⟩ := h₂.runTextRefs ((localTarget?_congr hcontent).trans htarget) config ctx
  have htext₁ := (hdone₁.same rfl).textOf_eq h.wellFormed.dom h₁.wellFormed.dom
    h.isLocalLink.name?_isSome h₁.isLocalLink.name?_isSome
  refine ⟨h₃, ?_⟩
  rw [settledText?_eq]
  rw [htext₁] at hdone₂
  rw [isContentsEntry_congr hcontent] at hdone₃
  have hboth := hdone₁.trans_right hdone₂ h.wellFormed.dom h₁.wellFormed.dom
  by_cases heq : startsWith equationMark target
  · rw [sectionText?_eq_none heq, ite_self] at hdone₃
    rw [if_pos heq]
    exact hboth.trans_left hdone₃ h.wellFormed.dom h₂.wellFormed.dom h₃.wellFormed.dom
      h.isLocalLink.name?_isSome
  · rw [equationText?_eq_none (by simpa using heq), ite_self] at hboth
    have htext₂ := (hboth.same rfl).textOf_eq h.wellFormed.dom h₂.wellFormed.dom
      h.isLocalLink.name?_isSome h₂.isLocalLink.name?_isSome
    rw [htext₂] at hdone₃
    rw [if_neg heq]
    exact hboth.trans_right hdone₃ h.wellFormed.dom h₂.wellFormed.dom

end StandsAlone

/-- Take any link `#target` of a chapter that has no local link around it or inside it and no display
equation inside it. Whatever else the chapter holds and whichever passes are left out, the link is
still there after the passes, its text is the settled one or nothing inside it has changed, and its
address is the settled one. -/
theorem link_through_passes (config : Config) (ctx : Context) (content : String) {x : NodeId}
    {target : String} (hx : x ∈ (Fragment.parse content).elements "a")
    (hhref : (Fragment.parse content).dom.attribute? (some x) "href" = some ("#" ++ target))
    (habove : ∀ m ∈ (Fragment.parse content).localLinks, ¬ (Fragment.parse content).dom.Above m x)
    (hbelow : ∀ m ∈ (Fragment.parse content).localLinks, ¬ (Fragment.parse content).dom.Above x m)
    (hmath : ∀ m, isDisplayMath (Fragment.parse content).dom m →
      ¬ (Fragment.parse content).dom.Above x m) :
    let f := Fragment.parse content
    let f' := (applyAll config ctx (enabled config) f).1
    x ∈ f'.elements "a" ∧
      (match settledText? config ctx (isContentsEntry f.dom x) target (f.dom.textOf (some x)) with
        | some new => f'.dom.textOf (some x) = new
        | none => SameInside f.dom f'.dom x) ∧
      f'.dom.attribute? (some x) "href" = some (settledHref config ctx target) := by
  intro f f'
  have htarget := localTarget?_eq hhref
  have h : StandsAlone f x := ⟨Fragment.wellFormed_parse content,
    List.mem_filter.mpr ⟨hx, by simp [f, htarget]⟩, habove, hbelow⟩
  obtain ⟨halone, hdone⟩ := h.runTexts hmath htarget config ctx
  obtain ⟨hwf', hmem, hsame, hhref'⟩ := halone.runLinkTargets
    ((attribute?_congr hdone.content _).trans hhref) config ctx
  rw [← applyAll_enabled] at hwf' hmem hsame hhref'
  refine ⟨hmem, ?_, hhref'⟩
  split
  · next new hnew =>
    have hname' := name?_isSome_of_isElement (List.mem_filter.mp hmem).2
    rw [hsame.textOf_eq halone.wellFormed.dom hwf' halone.isLocalLink.name?_isSome hname']
    exact hdone.text new hnew
  · next hnone => exact (hdone.same hnone).trans hsame h.wellFormed.dom halone.wellFormed.dom

/-- A link from another chapter to chapter 2 ends with the number and the file of that chapter. -/
theorem link_to_numbered_chapter :
    let ctx : Context := ⟨⟨[⟨"d", some (.ordinal 2), "T", none, .chapters⟩]⟩, .empty, "c"⟩
    let f' := (applyAll .default ctx (enabled .default)
      (Fragment.parse "<a href=\"#ch:d\">d</a>")).1
    ∃ x ∈ f'.elements "a", f'.dom.textOf (some x) = "2" ∧
      f'.dom.attribute? (some x) "href" = some "d.html#ch:d" := by
  intro ctx f'
  have hwf := (Fragment.wellFormed_parse "<a href=\"#ch:d\">d</a>").dom
  have hlink : (5 : NodeId) ∈ (Fragment.parse "<a href=\"#ch:d\">d</a>").elements "a" := by
    decide +kernel
  have hhref : (Fragment.parse "<a href=\"#ch:d\">d</a>").dom.attribute? (some 5) "href" =
      some ("#" ++ "ch:d") := by decide +kernel
  have honly : ∀ m ∈ (Fragment.parse "<a href=\"#ch:d\">d</a>").localLinks, m = 5 := by
    decide +kernel
  have hmath : ∀ m < (Fragment.parse "<a href=\"#ch:d\">d</a>").dom.size,
      isDisplayMath (Fragment.parse "<a href=\"#ch:d\">d</a>").dom m = false := by
    decide +kernel
  obtain ⟨hmem, htext, haddress⟩ := link_through_passes .default ctx _ hlink hhref
    (fun m hm => honly m hm ▸ hwf.acyclic 5) (fun m hm => honly m hm ▸ hwf.acyclic 5)
    fun m hm habove => by simp [hmath m (Above.lt_size habove)] at hm
  refine ⟨5, hmem, ?_, haddress.trans (by decide +kernel)⟩
  have hold : (Fragment.parse "<a href=\"#ch:d\">d</a>").dom.textOf (some 5) = "d" := by
    decide +kernel
  have hentry : isContentsEntry (Fragment.parse "<a href=\"#ch:d\">d</a>").dom 5 = false := by
    decide +kernel
  have hnew : settledText? .default ctx false "ch:d" "d" = some "2" := by
    have hnames : chapterNames "d" ⟨"d", some (.ordinal 2), "T", none, .chapters⟩ = ["d"] :=
      chapterNames_id ⟨"d", some (.ordinal 2), "T", none, .chapters⟩ (by decide) rfl
    have hchapter : ctx.manifest.findByReference? (chapterReference "ch:d") =
      some ⟨"d", some (.ordinal 2), "T", none, .chapters⟩ := by decide +kernel
    rw [settledText?, if_neg (by decide +kernel), if_neg (by decide +kernel),
      if_neg (by decide +kernel), if_pos (by decide +kernel), hchapter, Option.bind_some,
      show chapterReference "ch:d" = "d" by decide +kernel, chapterText, hnames]
    decide +kernel
  simp only [hold, hentry, hnew] at htext
  exact htext

end Pass
end CrossRef
