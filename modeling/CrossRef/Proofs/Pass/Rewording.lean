import CrossRef.Proofs.Pass.Agreement
import CrossRef.Proofs.Pass.Changes

/-!
New texts for links. A link that gets a text loses the links inside it while they still wait for their
turn. No link comes after one that it stands in, so each is judged by what it was and said before the
first of them was changed.
-/
namespace CrossRef
namespace Pass

open Markup Markup.Dom Index

variable {ctx : Context} {pass : Pass} {f : Fragment} {dom dom' dom'' : Dom} {i m x : NodeId}
  {links more : List NodeId} {judge : Dom → NodeId → Verdict} {verdict : NodeId → Verdict}
  {new? : NodeId → Option String}

/-! ### Judged at the start -/

/-- The verdict on a link depends on what the link is and says. -/
def ReadsLink (judge : Dom → NodeId → Verdict) : Prop :=
  ∀ (dom dom' : Dom) (x : NodeId), dom'.content? (some x) = dom.content? (some x) →
    dom'.textOf (some x) = dom.textOf (some x) → judge dom' x = judge dom x

theorem pairwise_localLinks (h : f.WellFormed) :
    f.localLinks.Pairwise fun a b => ¬ f.dom.Encloses b a :=
  ((h.dom.pairwise_descendants h.root).filter _).filter _

theorem ChangedAt.encloses_old (h : ChangedAt dom dom' links) (hwf : dom.WellFormed)
    (hi : i < dom.size) (hxi : dom'.Encloses x i) : dom.Encloses x i := by
  rcases Relation.reflTransGen_iff_eq_or_transGen.mp hxi with rfl | hxi
  · exact .refl
  · exact (h.above_old hwf hi hxi).to_reflTransGen

/-- A link that does not enclose the changed one is and says what it did before. -/
theorem carryOut_elsewhere (h : dom.WellFormed) (hm : IsLocalLink dom m) (hx : IsLocalLink dom x)
    (hxm : ¬ dom.Encloses x m) (verdict : Verdict) :
    (verdict.carryOut dom m).1.content? (some x) = dom.content? (some x) ∧
      (verdict.carryOut dom m).1.textOf (some x) = dom.textOf (some x) := by
  have hchanged := changedAt_carryOut h hm verdict
  have hmem : x ∉ [m] := fun hmem => hxm (List.mem_singleton.mp hmem ▸ .refl)
  have hcontent := hchanged.content x hx.lt_size hmem
  have hsame := hchanged.sameInside hx.lt_size hmem fun m' hm' hxm' =>
    hxm (List.mem_singleton.mp hm' ▸ hxm'.to_reflTransGen)
  exact ⟨hcontent, hsame.textOf_eq h hchanged.wellFormed hx.name?_isSome
    (name?_congr hcontent ▸ hx.name?_isSome)⟩

/-- Judging links one after the other is judging all of them before the first one is changed. -/
theorem judgeLinks_eq_at_start (hjudge : ReadsLink judge) (h : dom.WellFormed)
    (hlocal : ∀ m ∈ links, IsLocalLink dom m)
    (horder : links.Pairwise fun a b => ¬ dom.Encloses b a) :
    judgeLinks judge dom links = judgeLinks (fun _ => judge dom) dom links := by
  induction links generalizing dom with
  | nil => rfl
  | cons m rest ih =>
    obtain ⟨hfirst, horder⟩ := List.pairwise_cons.mp horder
    have hm := hlocal m List.mem_cons_self
    have hchanged := changedAt_carryOut h hm (judge dom m)
    have hlater := fun x hx => carryOut_elsewhere h hm (hlocal x (List.mem_cons_of_mem m hx))
      (hfirst x hx) (judge dom m)
    have hlocal' : ∀ x ∈ rest, IsLocalLink ((judge dom m).carryOut dom m).1 x := fun x hx =>
      (isLocalLink_congr (hlater x hx).1).mpr (hlocal x (List.mem_cons_of_mem m hx))
    have horder' := horder.imp_of_mem fun {a b} ha _ hba hba' => hba
      (hchanged.encloses_old h (hlocal a (List.mem_cons_of_mem m ha)).lt_size hba')
    -- what is judged after the first change is judged as before it
    have hcongr : judgeLinks (fun _ => judge dom) ((judge dom m).carryOut dom m).1 rest =
        judgeLinks (fun _ => judge ((judge dom m).carryOut dom m).1)
          ((judge dom m).carryOut dom m).1 rest :=
      judgeLinks_congr hchanged.wellFormed
        (horder'.imp fun hba => by rintro rfl; exact hba .refl) hlocal'
        fun _ x hx _ => (hjudge dom _ x (hlater x hx).1 (hlater x hx).2).symm
    simp only [judgeLinks, hcongr, ih hchanged.wellFormed hlocal' horder']

/-! ### New texts -/

/-- Each link with a new text has a node with that text as its only child, and everything else is what
it was. -/
structure NewTexts (new? : NodeId → Option String) (dom dom' : Dom) (links : List NodeId) :
    Prop where
  wellFormed : dom'.WellFormed
  size : dom'.size = dom.size + (links.filterMap new?).length
  content : ∀ i < dom.size, dom'.content? (some i) = dom.content? (some i)
  children : ∀ i < dom.size, (i ∈ links → new? i = none) →
    dom'.children (some i) = dom.children (some i)
  text : ∀ m ∈ links, ∀ text, new? m = some text → ∃ t, dom.size ≤ t ∧
    dom'.children (some m) = [t] ∧ dom'.content? (some t) = some (.text text) ∧
    dom'.children (some t) = []

namespace NewTexts

theorem size_le (h : NewTexts new? dom dom' links) : dom.size ≤ dom'.size := by
  rw [h.size]
  exact Nat.le_add_right _ _

/-- The texts of other links are put in after these. -/
theorem trans (h : NewTexts new? dom dom' links) (h' : NewTexts new? dom' dom'' more)
    (hlt : ∀ m ∈ links ++ more, m < dom.size) (hnodup : (links ++ more).Nodup) :
    NewTexts new? dom dom'' (links ++ more) where
  wellFormed := h'.wellFormed
  size := by
    rw [h'.size, h.size, List.filterMap_append, List.length_append, Nat.add_assoc]
  content i hi := by rw [h'.content i (hi.trans_le h.size_le), h.content i hi]
  children i hi hnone := by
    rw [h'.children i (hi.trans_le h.size_le) fun hmem => hnone (List.mem_append_right links hmem),
      h.children i hi fun hmem => hnone (List.mem_append_left more hmem)]
  text m hm text hnew := by
    rcases List.mem_append.mp hm with hmem | hmem
    · obtain ⟨t, ht, hkids, hcontent, hleaf⟩ := h.text m hmem text hnew
      have htlt : t < dom'.size := (content?_isSome_iff dom' t).mp (by simp [hcontent])
      have hmlt := (hlt m hm).trans_le h.size_le
      have hapart : m ∉ more := fun hmore => (List.nodup_append.mp hnodup).2.2 m hmem m hmore rfl
      have hfresh : t ∉ more := fun hmore =>
        Nat.not_lt.mpr ht (hlt t (List.mem_append_right links hmore))
      refine ⟨t, ht, ?_, ?_, ?_⟩
      · rw [h'.children m hmlt fun hmore => absurd hmore hapart, hkids]
      · rw [h'.content t htlt, hcontent]
      · rw [h'.children t htlt fun hmore => absurd hmore hfresh, hleaf]
    · obtain ⟨t, ht, htext⟩ := h'.text m hmem text hnew
      exact ⟨t, h.size_le.trans ht, htext⟩

end NewTexts

theorem newTexts_of_no_text (h : dom.WellFormed) (hnone : ∀ m ∈ links, new? m = none) :
    NewTexts new? dom dom links where
  wellFormed := h
  size := by rw [List.filterMap_eq_nil_iff.mpr hnone, List.length_nil, Nat.add_zero]
  content _ _ := rfl
  children _ _ _ := rfl
  text m hm text hnew := by simp [hnone m hm] at hnew

theorem newTexts_replaceChildrenWithText (h : dom.WellFormed) (hm : m < dom.size) {text : String}
    (hnew : new? m = some text) :
    NewTexts new? dom (dom.replaceChildrenWithText (some m) text) [m] := by
  have hkids := h.children_replaceChildrenWithText hm text
  have hcontent := content?_replaceChildrenWithText dom m text
  refine ⟨h.replaceChildrenWithText hm text, by simp [hnew], fun i hi => ?_, fun i _ hnone => ?_,
    fun x hx other hother => ⟨dom.size, le_rfl, ?_, ?_, ?_⟩⟩
  · rw [hcontent, if_neg hi.ne]
  · have him : i ≠ m := by
      rintro rfl
      simp [hnew] at hnone
    rw [hkids, if_neg him]
  · rw [List.mem_singleton.mp hx, hkids, if_pos rfl]
  · rw [List.mem_singleton.mp hx, hnew, Option.some_inj] at hother
    rw [hcontent, if_pos rfl, hother]
  · rw [hkids, if_neg hm.ne', children_of_size_le le_rfl]

/-- The text that a verdict gives. -/
def Verdict.newText? : Verdict → Option String
  | .newText text => some text
  | _ => none

/-- The target that a verdict notes as leading nowhere. -/
def Verdict.lost? : Verdict → Option String
  | .unresolved target => some target
  | _ => none

theorem newTexts_carryOut (h : dom.WellFormed) (hm : m < dom.size)
    (hkeeps : (verdict m).KeepsContent) :
    NewTexts (fun x => (verdict x).newText?) dom ((verdict m).carryOut dom m).1 [m] := by
  cases hv : verdict m with
  | newText text => exact newTexts_replaceChildrenWithText h hm (by rw [hv]; rfl)
  | newTarget href =>
    rw [hv] at hkeeps
    exact hkeeps.elim
  | _ => exact newTexts_of_no_text h (by simp [hv, Verdict.newText?])

theorem newTexts_judgeLinks (h : dom.WellFormed) (hnodup : links.Nodup)
    (hlt : ∀ m ∈ links, m < dom.size) (hkeeps : ∀ m, (verdict m).KeepsContent) :
    NewTexts (fun x => (verdict x).newText?) dom (judgeLinks (fun _ => verdict) dom links).1
      links := by
  induction links generalizing dom with
  | nil => exact newTexts_of_no_text h (by simp)
  | cons m rest ih =>
    have hstep := newTexts_carryOut h (hlt m List.mem_cons_self) (hkeeps m)
    have hrest := ih hstep.wellFormed (List.nodup_cons.mp hnodup).2
      fun x hx => (hlt x (List.mem_cons_of_mem m hx)).trans_le hstep.size_le
    exact hstep.trans hrest hlt hnodup

theorem Verdict.KeepsContent.report_carryOut {verdict : Verdict} (h : verdict.KeepsContent)
    (dom : Dom) (m : NodeId) : (verdict.carryOut dom m).2 =
      ⟨verdict.newText?.toList.length, verdict.lost?.toList⟩ := by
  cases verdict with
  | newTarget href => exact h.elim
  | _ => rfl

/-- Texts are counted and lost targets are noted link by link. -/
theorem report_judgeLinks (hkeeps : ∀ m, (verdict m).KeepsContent) (dom : Dom)
    (links : List NodeId) : (judgeLinks (fun _ => verdict) dom links).2 =
      ⟨(links.filterMap fun x => (verdict x).newText?).length,
        links.filterMap fun x => (verdict x).lost?⟩ := by
  induction links generalizing dom with
  | nil => rfl
  | cons m rest ih =>
    simp only [judgeLinks, ih, (hkeeps m).report_carryOut, Report.merge, List.filterMap_cons]
    cases (verdict m).newText? <;> cases (verdict m).lost? <;> simp [Nat.add_comm]

/-! ### The readings of a link -/

/-- The text that a pass has for a link, by its target and by what it says. -/
def linkText? (ctx : Context) (pass : Pass) (dom : Dom) (link : NodeId) : Option String :=
  (Fragment.localTarget? dom link).bind fun target =>
    match pass with
    | .equationRefs => equationText? ctx target (dom.textOf (some link))
    | .textRefs => sectionText? ctx (isContentsEntry dom link) target (dom.textOf (some link))
    | _ => none

/-- The text that a pass has for a link if the link says something else. -/
def newText? (ctx : Context) (pass : Pass) (dom : Dom) (link : NodeId) : Option String :=
  (linkText? ctx pass dom link).filter fun text => text ≠ dom.textOf (some link)

/-- The name that a pass looks up in vain for a link. -/
def lostName? (ctx : Context) (pass : Pass) (dom : Dom) (link : NodeId) : Option String :=
  match pass, linkTarget? dom link with
  | .equationRefs, some (.equation identifier) =>
    if (ctx.findEquation? identifier).isSome then none else some identifier
  | .textRefs, some (.chapter reference) =>
    if isContentsEntry dom link || (ctx.manifest.findByReference? reference).isSome then none
    else some (String.ofList (chapterMark ++ reference.toList))
  | .textRefs, some (.heading identifier) =>
    if isContentsEntry dom link || (ctx.findSection? identifier).isSome then none
    else some identifier
  | _, _ => none

theorem Verdict.newText?_ofText (old : String) (text? : Option String) :
    (Verdict.ofText old text?).newText? = text?.filter fun text => text ≠ old := by
  cases text? with
  | none => rfl
  | some text =>
    rw [Verdict.ofText]
    split_ifs with h <;> simp [Verdict.newText?, Option.filter, h]

@[simp] theorem Verdict.lost?_ofText (old : String) (text? : Option String) :
    (Verdict.ofText old text?).lost? = none := by
  cases text? with
  | none => rfl
  | some text =>
    rw [Verdict.ofText]
    split_ifs <;> rfl

@[simp] theorem Verdict.newText?_withoutNote (verdict : Verdict) :
    verdict.withoutNote.newText? = verdict.newText? := by
  cases verdict <;> rfl

theorem newText?_judgeEquationText (ctx : Context) (dom : Dom) (x : NodeId) :
    (judgeEquationText ctx dom x).newText? = newText? ctx .equationRefs dom x := by
  cases htarget : Fragment.localTarget? dom x with
  | none => simp [judgeEquationText, linkTarget?, newText?, linkText?, htarget, Verdict.newText?]
  | some target =>
    rw [← Verdict.newText?_withoutNote, withoutNote_judgeEquationText htarget,
      Verdict.newText?_ofText, newText?, linkText?, htarget, Option.bind_some]

theorem newText?_judgeSectionText (ctx : Context) (dom : Dom) (x : NodeId) :
    (judgeSectionText ctx dom x).newText? = newText? ctx .textRefs dom x := by
  cases htarget : Fragment.localTarget? dom x with
  | none =>
    have hkeep : judgeSectionText ctx dom x = .keep := by
      simp [judgeSectionText, linkTarget?, htarget]
    simp [hkeep, newText?, linkText?, htarget, Verdict.newText?]
  | some target =>
    rw [← Verdict.newText?_withoutNote, withoutNote_judgeSectionText htarget,
      Verdict.newText?_ofText, newText?, linkText?, htarget, Option.bind_some]

theorem lost?_judgeEquationText (ctx : Context) (dom : Dom) (x : NodeId) :
    (judgeEquationText ctx dom x).lost? = lostName? ctx .equationRefs dom x := by
  unfold judgeEquationText lostName?
  cases htarget : linkTarget? dom x with
  | none => rfl
  | some target =>
    cases target with
    | equation identifier =>
      cases hentry : ctx.findEquation? identifier with
      | none => simp [hentry, Verdict.lost?]
      | some entry => simp [hentry]
    | _ => rfl

theorem lost?_judgeSectionText (ctx : Context) (dom : Dom) (x : NodeId) :
    (judgeSectionText ctx dom x).lost? = lostName? ctx .textRefs dom x := by
  unfold judgeSectionText lostName?
  cases hentry : isContentsEntry dom x with
  | true => cases linkTarget? dom x with
    | none => rfl
    | some target => cases target <;> rfl
  | false =>
    cases htarget : linkTarget? dom x with
    | none => rfl
    | some target =>
      cases target with
      | chapter reference =>
        cases hchapter : ctx.manifest.findByReference? reference with
        | none => simp [hchapter, Verdict.lost?]
        | some chapter => simp [hchapter]
      | heading identifier =>
        cases hsection : ctx.findSection? identifier with
        | none => simp [hsection, Verdict.lost?]
        | some entry => simp [hsection]
      | _ => rfl

/-- The verdicts of a pass over texts: they depend on what a link is and says, and give the texts and
note the names that the pass has for it. -/
structure Rewords (ctx : Context) (pass : Pass) (judge : Dom → NodeId → Verdict) : Prop where
  readsLink : ReadsLink judge
  keepsContent : ∀ dom x, (judge dom x).KeepsContent
  newText : ∀ dom x, (judge dom x).newText? = newText? ctx pass dom x
  lost : ∀ dom x, (judge dom x).lost? = lostName? ctx pass dom x

theorem rewords_judgeEquationText (ctx : Context) :
    Rewords ctx .equationRefs (judgeEquationText ctx) where
  readsLink _ _ _ := judgeEquationText_congr
  keepsContent := keepsContent_judgeEquationText ctx
  newText := newText?_judgeEquationText ctx
  lost := lost?_judgeEquationText ctx

theorem rewords_judgeSectionText (ctx : Context) :
    Rewords ctx .textRefs (judgeSectionText ctx) where
  readsLink _ _ _ := judgeSectionText_congr
  keepsContent := keepsContent_judgeSectionText ctx
  newText := newText?_judgeSectionText ctx
  lost := lost?_judgeSectionText ctx

/-- The links get the texts that they had at the start. -/
theorem Rewords.changeLinks (h : Rewords ctx pass judge) (hf : f.WellFormed) :
    NewTexts (newText? ctx pass f.dom) f.dom (Pass.changeLinks judge f).1.dom f.localLinks ∧
      (Pass.changeLinks judge f).2 = ⟨(f.localLinks.filterMap (newText? ctx pass f.dom)).length,
        f.localLinks.filterMap (lostName? ctx pass f.dom)⟩ := by
  have hlocal : ∀ m ∈ f.localLinks, IsLocalLink f.dom m := fun m hm =>
    ((mem_localLinks_iff hf).mp hm).2
  have htexts := newTexts_judgeLinks hf.dom (nodup_localLinks hf)
    (fun m hm => (hlocal m hm).lt_size) (h.keepsContent f.dom)
  have hreport := report_judgeLinks (h.keepsContent f.dom) f.dom f.localLinks
  simp only [h.newText, h.lost] at htexts hreport
  rw [Pass.changeLinks,
    judgeLinks_eq_at_start h.readsLink hf.dom hlocal (pairwise_localLinks hf)]
  exact ⟨htexts, hreport⟩

/-- What a pass over texts does is settled by what the links are and say before it: a link whose text is
new has a node with that text as its only child, every other node keeps its content and its children,
and what is counted and noted is counted and noted link by link. -/
theorem texts_given_as_at_start (hf : f.WellFormed) (hpass : pass.rewords) (config : Config)
    (ctx : Context) :
    let result := (pass.apply config ctx f).1
    let report := (pass.apply config ctx f).2
    result.root = f.root ∧
      NewTexts (newText? ctx pass f.dom) f.dom result.dom f.localLinks ∧
      report.changed = (f.localLinks.filterMap (newText? ctx pass f.dom)).length ∧
      report.unresolved = f.localLinks.filterMap (lostName? ctx pass f.dom) := by
  intro result report
  have hjudge : ∃ judge, Rewords ctx pass judge ∧ pass.apply config ctx f = changeLinks judge f := by
    cases pass with
    | equationRefs => exact ⟨_, rewords_judgeEquationText ctx, rfl⟩
    | textRefs => exact ⟨_, rewords_judgeSectionText ctx, rfl⟩
    | equationNumbers => simp [rewords] at hpass
    | linkTargets => simp [rewords] at hpass
  obtain ⟨judge, hjudge, happly⟩ := hjudge
  obtain ⟨htexts, hreport⟩ := hjudge.changeLinks hf
  rw [← happly] at htexts hreport
  exact ⟨congrArg (·.1.root) happly, htexts, congrArg Report.changed hreport,
    congrArg Report.unresolved hreport⟩

/-- Links inside each other: both texts are those of the start, and a link that was lost with the text
around it is looked up all the same. -/
theorem texts_given_to_nested_links :
    let made (dom : Dom) (content : Content) (p : NodeId) :=
      (dom.create content).1.append (some p) (some dom.size)
    let linkTo (href : String) : Content := .element (.html "a") [.plain "href" href]
    let dom := made (made (made (made (made empty (linkTo "#eq:a") 0) (.text "see ") 1)
      (linkTo "#eq:b") 1) (.text "[eq:b]") 3) (linkTo "#eq:c") 3
    let equations : List EquationEntry := [⟨"eq:a", "2.1", "d", "2"⟩, ⟨"eq:b", "2.2", "d", "2"⟩]
    let ctx : Context := ⟨⟨[]⟩, ⟨[⟨"d", .empty, ⟨equations, 2⟩⟩]⟩, "d"⟩
    let f : Fragment := ⟨dom, 0⟩
    let result := (Pass.equationRefs.apply .default ctx f).1
    let report := (Pass.equationRefs.apply .default ctx f).2
    f.localLinks = [1, 3, 5] ∧
      f.localLinks.map (newText? ctx .equationRefs f.dom) = [some "Eq. 2.1", some "[Eq. 2.2]", none] ∧
      NewTexts (newText? ctx .equationRefs f.dom) f.dom result.dom f.localLinks ∧
      result.localLinks = [1] ∧ report = ⟨2, ["eq:c"]⟩ := by
  intro made linkTo dom equations ctx f result report
  have hwf : f.WellFormed :=
    ⟨((((wellFormed_empty.append_create _ (p := 0) (by decide)).append_create _ (p := 1)
      (by decide)).append_create _ (p := 1) (by decide)).append_create _ (p := 3)
      (by decide)).append_create _ (p := 3) (by decide), by decide⟩
  obtain ⟨-, htexts, -, -⟩ := texts_given_as_at_start hwf (by decide : Pass.equationRefs.rewords)
    .default ctx
  exact ⟨by decide +kernel, by decide +kernel, htexts, by decide +kernel, by decide +kernel⟩

end Pass
end CrossRef
