import CrossRef.Proofs.Destination
import CrossRef.Proofs.Pass.Changes
import CrossRef.Proofs.Pass.Contents

/-!
What the passes count. Every change is counted, and what is counted is a change: so nothing is counted
exactly if the trees of the chapter are the same.
-/
namespace CrossRef

open Markup Markup.Dom Index

/-- The trees below the root of a fragment. -/
def Markup.Fragment.forest (f : Fragment) : List Tree := f.dom.forest f.root

namespace Pass

variable {config : Config} {ctx : Context} {f g : Fragment} {dom : Dom} {pass : Pass} {m : NodeId}
  {place : NodeId → NodeId} {links : List NodeId} {log : List Change}

/-! ### Verdicts -/

/-- A verdict that changes something asks for something that is not there yet, and only on the links
that the pass is for. -/
def Verdict.Suits (pass : Pass) (dom : Dom) (m : NodeId) : Verdict → Prop
  | .newText text => text ≠ dom.textOf (some m) ∧
    ((pass = .equationRefs ∧ ∃ identifier, linkTarget? dom m = some (.equation identifier)) ∨
      (pass = .textRefs ∧ ∀ identifier, linkTarget? dom m ≠ some (.equation identifier)))
  | .newTarget href => pass = .linkTargets ∧ dom.attribute? (some m) "href" ≠ some href
  | _ => True

theorem Verdict.suits_ofText {new? : Option String}
    (h : (pass = .equationRefs ∧ ∃ identifier, linkTarget? dom m = some (.equation identifier)) ∨
      (pass = .textRefs ∧ ∀ identifier, linkTarget? dom m ≠ some (.equation identifier))) :
    (Verdict.ofText (dom.textOf (some m)) new?).Suits pass dom m := by
  unfold Verdict.ofText
  split
  · split_ifs with hsame
    · trivial
    · exact ⟨hsame, h⟩
  · trivial

theorem suits_judgeEquationText (ctx : Context) (dom : Dom) (m : NodeId) :
    (judgeEquationText ctx dom m).Suits .equationRefs dom m := by
  unfold judgeEquationText
  split
  · next identifier htarget =>
    split
    · trivial
    · exact Verdict.suits_ofText (.inl ⟨rfl, identifier, htarget⟩)
  · trivial

theorem suits_judgeSectionText (ctx : Context) (dom : Dom) (m : NodeId) :
    (judgeSectionText ctx dom m).Suits .textRefs dom m := by
  unfold judgeSectionText
  dsimp only
  split_ifs
  · trivial
  · split
    · next reference htarget =>
      split
      · trivial
      · exact Verdict.suits_ofText (.inr ⟨rfl, by simp [htarget]⟩)
    · next identifier htarget =>
      split
      · trivial
      · exact Verdict.suits_ofText (.inr ⟨rfl, by simp [htarget]⟩)
    · trivial

theorem suits_judgeTarget (ctx : Context) (equationTargets : Bool) (dom : Dom) (m : NodeId) :
    (judgeTarget ctx equationTargets dom m).Suits .linkTargets dom m := by
  unfold judgeTarget
  split
  · trivial
  · next target htarget =>
    split_ifs
    · trivial
    · split
      · trivial
      · split_ifs
        · refine ⟨rfl, fun hsame => ?_⟩
          rw [href_of_localTarget? htarget] at hsame
          exact addressIn_ne_local _ _ (Option.some_inj.mp hsame).symm
        · trivial

/-! ### All changes of a pass -/

/-- The pass runs before the other one. -/
def Before (pass other : Pass) : Prop := all.idxOf pass < all.idxOf other

instance (pass other : Pass) : Decidable (Before pass other) :=
  inferInstanceAs (Decidable (all.idxOf pass < all.idxOf other))

theorem not_before_equationNumbers (pass : Pass) : ¬ Before pass .equationNumbers := by
  cases pass <;> decide

theorem not_before_of_linkTargets (pass : Pass) : ¬ Before .linkTargets pass := by
  cases pass <;> decide

theorem not_rewords_of_before (h : Before pass .equationRefs) : ¬ pass.rewords := by
  revert h
  cases pass <;> decide

theorem eq_of_before_textRefs (h : Before pass .textRefs) (hrewords : pass.rewords) :
    pass = .equationRefs := by
  revert h hrewords
  cases pass <;> decide

namespace Reworked

theorem linkTarget?_eq (h : Reworked f dom log place) (hm : m < f.dom.size)
    (hnew : ⟨.linkTargets, m⟩ ∉ log) : linkTarget? dom m = linkTarget? f.dom m := by
  rw [linkTarget?, localTarget?_congr (h.content m hm hnew), linkTarget?]

theorem carryOut (h : Reworked f dom log place) (hf : f.WellFormed) (hlink : m ∈ f.localLinks)
    (hm : IsLocalLink dom m) (hlog : ∀ c ∈ log, c.node = m → Before c.pass pass) {verdict : Verdict}
    (hverdict : verdict.Suits pass dom m) :
    ∃ more, Reworked f (verdict.carryOut dom m).1 (log ++ more) place ∧
      (verdict.carryOut dom m).2.changed = more.length ∧ ∀ c ∈ more, c = ⟨pass, m⟩ := by
  cases verdict with
  | keep => exact ⟨[], by simpa [Verdict.carryOut] using h, rfl, by simp⟩
  | unresolved target => exact ⟨[], by simpa [Verdict.carryOut] using h, rfl, by simp⟩
  | newText text =>
    obtain ⟨htext, hkind⟩ := hverdict
    have hlt := ((mem_localLinks_iff hf).mp hlink).1.lt_size
    have htarget : linkTarget? dom m = linkTarget? f.dom m :=
      h.linkTarget?_eq hlt fun hc => not_before_of_linkTargets pass (hlog _ hc rfl)
    rw [htarget] at hkind
    refine ⟨[⟨pass, m⟩], h.reword hf hlink hm ?_ ?_ htext ?_, rfl, by simp⟩
    · rintro ⟨⟨earlier, m⟩, hc, hrewords, rfl⟩
      have hbefore := hlog _ hc rfl
      rcases hkind with ⟨rfl, -⟩ | ⟨rfl, hother⟩
      · exact not_rewords_of_before hbefore hrewords
      · obtain rfl : earlier = .equationRefs := eq_of_before_textRefs hbefore hrewords
        obtain ⟨identifier, hequation⟩ := h.equation m hc
        exact hother identifier hequation
    · rcases hkind with ⟨rfl, -⟩ | ⟨rfl, -⟩ <;> rfl
    · rintro rfl
      exact (hkind.resolve_right (by simp)).2
  | newTarget href =>
    obtain ⟨rfl, hhref⟩ := hverdict
    refine ⟨[⟨.linkTargets, m⟩], h.retarget hf hlink hm (fun hc => ?_) hhref, rfl, by simp⟩
    exact not_before_of_linkTargets _ (hlog _ hc rfl)

theorem judgeLinks (h : Reworked f dom log place) (hf : f.WellFormed)
    {judge : Dom → NodeId → Verdict} (hsuits : ∀ dom m, (judge dom m).Suits pass dom m)
    (hnodup : links.Nodup) (hlinks : ∀ m ∈ links, m ∈ f.localLinks)
    (hlocal : ∀ m ∈ links, IsLocalLink dom m)
    (hlog : ∀ c ∈ log, c.node ∈ links → Before c.pass pass) :
    ∃ more, Reworked f (Pass.judgeLinks judge dom links).1 (log ++ more) place ∧
      (Pass.judgeLinks judge dom links).2.changed = more.length ∧ ∀ c ∈ more, c.pass = pass := by
  induction links generalizing dom log with
  | nil => exact ⟨[], by simpa [Pass.judgeLinks] using h, rfl, by simp⟩
  | cons m rest ih =>
    have hrest := carryOut_rest h.wellFormed hnodup hlocal (judge dom m)
    obtain ⟨hmem, hnodup'⟩ := List.nodup_cons.mp hnodup
    obtain ⟨now, hnow, hcount, hmade⟩ := h.carryOut hf (hlinks m (by simp)) (hlocal m (by simp))
      (fun c hc heq => hlog c hc (by simp [heq])) (hsuits dom m)
    obtain ⟨later, hlater, hcount', hmade'⟩ := ih hnow hnodup'
      (fun m' hm' => hlinks m' (by simp [hm'])) (fun m' hm' => (hrest m' hm').2) fun c hc hcrest => by
        rcases List.mem_append.mp hc with hc | hc
        · exact hlog c hc (by simp [hcrest])
        · rw [hmade c hc] at hcrest
          exact absurd hcrest hmem
    refine ⟨now ++ later, by simpa [Pass.judgeLinks] using hlater, ?_, fun c hc => ?_⟩
    · simp [Pass.judgeLinks, Report.merge, hcount, hcount']
    · exact (List.mem_append.mp hc).elim (fun hc => by rw [hmade c hc]) (hmade' c)

theorem wrapAll (h : Reworked f dom log place) (number : ChapterNumber)
    {equations : List ScannedEquation} (hnodup : (equations.map (·.node)).Nodup)
    (hinside : ∀ e ∈ equations, f.dom.Above f.root e.node ∧ f.dom.isElement (some e.node) "math")
    (hparent : ∀ e ∈ equations, ∃ p, dom.parent? (some e.node) = some p)
    (hlog : ∀ e ∈ equations, ⟨.equationNumbers, e.node⟩ ∉ log) :
    ∃ more place', Reworked f (Pass.wrapAll number dom equations).1 (log ++ more) place' ∧
      (Pass.wrapAll number dom equations).2 = more.length ∧
      ∀ c ∈ more, c.pass = .equationNumbers := by
  induction equations generalizing dom log place with
  | nil => exact ⟨[], place, by simpa [Pass.wrapAll] using h, rfl, by simp⟩
  | cons e rest ih =>
    obtain ⟨hmem, hnodup⟩ := List.nodup_cons.mp hnodup
    have hapart : ∀ e' ∈ rest, e'.node ≠ e.node := fun e' he' heq =>
      hmem (List.mem_map.mpr ⟨e', he', heq⟩)
    rw [Pass.wrapAll]
    split_ifs with hwrapped
    · exact ih h hnodup (fun e' he' => hinside e' (by simp [he']))
        (fun e' he' => hparent e' (by simp [he'])) fun e' he' => hlog e' (by simp [he'])
    · obtain ⟨p, hp⟩ := hparent e (by simp)
      obtain ⟨habove, hmath⟩ := hinside e (by simp)
      obtain ⟨place', hstep⟩ := h.box habove hmath (hlog e (by simp)) hp
        (shownEquationNumber number e.sequence)
      obtain ⟨hparents, -⟩ := (annotated_wrap h.wellFormed hp
        (shownEquationNumber number e.sequence)).later h.wellFormed
        (fun e' he' => hparent e' (List.mem_cons_of_mem e he'))
        fun e' he' => by simpa using hapart e' he'
      obtain ⟨more, place', hmore, hcount, hmade⟩ := ih hstep hnodup
        (fun e' he' => hinside e' (by simp [he']))
        (fun e' he' => by rw [hparents e' he']; exact hparent e' (by simp [he']))
        fun e' he' => by simpa [hapart e' he'] using hlog e' (by simp [he'])
      refine ⟨⟨.equationNumbers, e.node⟩ :: more, place', by simpa using hmore, ?_, ?_⟩
      · simp [hcount]
      · simpa using hmade

/-- A pass over the links of what changes have made. -/
theorem changeLinks {g : Fragment} (h : Reworked f g.dom log place) (hf : f.WellFormed)
    (hg : g.WellFormed) (hlinks : ∀ m ∈ g.localLinks, m ∈ f.localLinks)
    {judge : Dom → NodeId → Verdict} (hsuits : ∀ dom m, (judge dom m).Suits pass dom m)
    (hlog : ∀ c ∈ log, Before c.pass pass) :
    ∃ more place', Reworked f (Pass.changeLinks judge g).1.dom (log ++ more) place' ∧
      (Pass.changeLinks judge g).2.changed = more.length ∧ ∀ c ∈ more, c.pass = pass := by
  obtain ⟨more, hmore, hcount, hmade⟩ := h.judgeLinks hf hsuits (nodup_localLinks hg) hlinks
    (fun m hm => ((mem_localLinks_iff hg).mp hm).2) fun c hc _ => hlog c hc
  exact ⟨more, place, hmore, hcount, hmade⟩

/-- The numbering of equations, where nothing was changed before. -/
theorem numberEquations (h : Reworked f f.dom [] place) (hf : f.WellFormed)
    (numbering : Numbering) (ctx : Context) :
    ∃ more place', Reworked f (Pass.numberEquations numbering ctx f).1.dom more place' ∧
      (Pass.numberEquations numbering ctx f).2.changed = more.length ∧
      ∀ c ∈ more, c.pass = .equationNumbers := by
  cases hnumber : ctx.chapter?.bind (·.number) with
  | none =>
    refine ⟨[], place, ?_, ?_, by simp⟩
    · simpa [Pass.numberEquations, hnumber] using h
    · simp [Pass.numberEquations, hnumber, Report.empty]
  | some number =>
    have hinside : ∀ e ∈ scanEquations f numbering,
        f.dom.Above f.root e.node ∧ f.dom.isElement (some e.node) "math" := fun e he => by
      have hmem : e.node ∈ (scanEquations f numbering).map (·.node) :=
        List.mem_map.mpr ⟨e, he, rfl⟩
      rw [map_node_scanEquations] at hmem
      obtain ⟨habove, hnumbered⟩ := (mem_numberedEquations_iff hf).mp hmem
      exact ⟨habove, (Bool.and_eq_true_iff.mp (Bool.and_eq_true_iff.mp hnumbered).1).1⟩
    rw [numberEquations_eq hnumber]
    exact h.wrapAll number (nodup_scanEquations hf numbering) hinside
      (fun e he => exists_parent_of_mem_scanEquations hf he) (by simp)

end Reworked

/-! ### All passes -/

theorem eq_of_judgeLinks_unchanged {judge : Dom → NodeId → Verdict}
    (h : (judgeLinks judge dom links).2.changed = 0) : (judgeLinks judge dom links).1 = dom := by
  induction links generalizing dom with
  | nil => rfl
  | cons m rest ih =>
    obtain ⟨hnow, hlater⟩ := Nat.add_eq_zero_iff.mp h
    have hsame : ((judge dom m).carryOut dom m).1 = dom := by
      revert hnow
      cases judge dom m <;> simp [Verdict.carryOut]
    exact (ih hlater).trans hsame

theorem eq_of_wrapAll_unchanged {number : ChapterNumber} {equations : List ScannedEquation}
    (h : (wrapAll number dom equations).2 = 0) : (wrapAll number dom equations).1 = dom := by
  induction equations with
  | nil => rfl
  | cons e rest ih =>
    rw [wrapAll] at h ⊢
    split_ifs at h ⊢
    exact ih h

/-- A pass that counts nothing leaves the whole arena as it was. -/
theorem eq_of_apply_unchanged (h : (pass.apply config ctx g).2.changed = 0) :
    (pass.apply config ctx g).1 = g := by
  have hlinks : ∀ judge, (changeLinks judge g).2.changed = 0 → (changeLinks judge g).1 = g :=
    fun judge h => by
      rw [changeLinks]
      exact congrArg (fun dom => { g with dom := dom }) (eq_of_judgeLinks_unchanged h)
  cases pass with
  | equationNumbers =>
    rw [Pass.apply] at h ⊢
    cases hnumber : ctx.chapter?.bind (·.number) with
    | none => simp [numberEquations, hnumber]
    | some number =>
      rw [numberEquations_eq hnumber] at h ⊢
      exact congrArg (fun dom => { g with dom := dom }) (eq_of_wrapAll_unchanged h)
  | _ => exact hlinks _ h

theorem eq_of_applyAll_unchanged {passes : List Pass}
    (h : (applyAll config ctx passes g).2.changed = 0) : (applyAll config ctx passes g).1 = g := by
  induction passes generalizing g with
  | nil => rfl
  | cons pass rest ih =>
    obtain ⟨hnow, hlater⟩ := Nat.add_eq_zero_iff.mp h
    exact (ih hlater).trans (eq_of_apply_unchanged hnow)

/-- What passes have made of a fragment with the changes that they count. -/
structure Recorded (f g : Fragment) (log : List Change) : Prop where
  reworked : ∃ place, Reworked f g.dom log place
  root : g.root = f.root
  localLinks : ∀ m ∈ g.localLinks, m ∈ f.localLinks
  same : log = [] → g = f

namespace Recorded

theorem refl (h : f.WellFormed) : Recorded f f [] :=
  ⟨⟨id, .refl h⟩, rfl, fun _ hm => hm, fun _ => rfl⟩

theorem wellFormed (h : Recorded f g log) (hf : f.WellFormed) : g.WellFormed := by
  obtain ⟨place, hreworked⟩ := h.reworked
  exact ⟨hreworked.wellFormed, h.root ▸ hf.root.trans_le hreworked.size_le⟩

/-- A pass makes as many changes as it counts. -/
theorem apply (h : Recorded f g log) (hf : f.WellFormed) (pass : Pass) (config : Config)
    (ctx : Context) (hlog : ∀ c ∈ log, Before c.pass pass) :
    ∃ more, Recorded f (pass.apply config ctx g).1 (log ++ more) ∧
      (pass.apply config ctx g).2.changed = more.length ∧ ∀ c ∈ more, c.pass = pass := by
  have hg := h.wellFormed hf
  obtain ⟨place, hreworked⟩ := h.reworked
  have hlinks := fun (judge : Dom → NodeId → Verdict)
    (hsuits : ∀ dom m, (judge dom m).Suits pass dom m) =>
      hreworked.changeLinks hf hg h.localLinks hsuits hlog
  have hmore : ∃ more place', Reworked f (pass.apply config ctx g).1.dom (log ++ more) place' ∧
      (pass.apply config ctx g).2.changed = more.length ∧ ∀ c ∈ more, c.pass = pass := by
    cases pass with
    | equationNumbers =>
      have hnil : log = [] :=
        List.eq_nil_iff_forall_not_mem.mpr fun c hc => not_before_equationNumbers _ (hlog c hc)
      subst hnil
      obtain rfl := h.same rfl
      exact hreworked.numberEquations hf config.numbering ctx
    | equationRefs => exact hlinks _ (suits_judgeEquationText ctx)
    | textRefs => exact hlinks _ (suits_judgeSectionText ctx)
    | linkTargets => exact hlinks _ (suits_judgeTarget ctx config.equationTargets)
  obtain ⟨more, place', hreworked', hcount, hmade⟩ := hmore
  refine ⟨more, ⟨⟨place', hreworked'⟩, (root_apply pass config ctx g).trans h.root,
    fun m hm => h.localLinks m (mem_localLinks_of_apply hg hm), fun hnil => ?_⟩, hcount, hmade⟩
  obtain ⟨hlog, rfl⟩ := List.append_eq_nil_iff.mp hnil
  exact (eq_of_apply_unchanged hcount).trans (h.same hlog)

/-- Passes in their order make as many changes as they count. -/
theorem applyAll (h : Recorded f g log) (hf : f.WellFormed) (config : Config) (ctx : Context)
    {passes : List Pass} (horder : passes.Pairwise Before)
    (hlog : ∀ c ∈ log, ∀ pass ∈ passes, Before c.pass pass) :
    ∃ more, Recorded f (Pass.applyAll config ctx passes g).1 (log ++ more) ∧
      (Pass.applyAll config ctx passes g).2.changed = more.length := by
  induction passes generalizing g log with
  | nil => exact ⟨[], by simpa [Pass.applyAll] using h, rfl⟩
  | cons pass rest ih =>
    obtain ⟨hfirst, horder⟩ := List.pairwise_cons.mp horder
    obtain ⟨now, hnow, hcount, hmade⟩ :=
      h.apply hf pass config ctx fun c hc => hlog c hc pass (by simp)
    obtain ⟨later, hlater, hcount'⟩ := ih hnow horder fun c hc pass' hpass' => by
      rcases List.mem_append.mp hc with hc | hc
      · exact hlog c hc pass' (by simp [hpass'])
      · rw [hmade c hc]
        exact hfirst pass' hpass'
    refine ⟨now ++ later, by simpa [Pass.applyAll] using hlater, ?_⟩
    simp [Pass.applyAll, Report.merge, hcount, hcount']

end Recorded

/-! ### The shortcut -/

/-- Whatever passes are run, in their order: nothing is counted exactly if the trees of the chapter are
the same as before. Then no pass has changed a node of the arena and the text is the one that was
given, and otherwise the text is that of the changed trees. -/
theorem changed_eq_zero_iff_same_trees (config : Config) (ctx : Context) (keep : Pass → Bool)
    (content : String) :
    let passes := all.filter keep
    let f := Fragment.parse content
    let result := (applyAll config ctx passes f).1
    let processed := processChapter config ctx passes content
    (processed.report.changed = 0 ↔ result.forest = f.forest) ∧
    (processed.report.changed = 0 →
      (∀ before after, passes = before ++ after → (applyAll config ctx before f).1 = f) ∧
        processed.html = content) ∧
    (processed.report.changed ≠ 0 → processed.html = result.html) := by
  intro passes f result processed
  have hf : f.WellFormed := Fragment.wellFormed_parse content
  have horder : passes.Pairwise Before := List.Pairwise.filter _ (by decide)
  obtain ⟨log, hrecorded, hcount⟩ :=
    (Recorded.refl hf).applyAll hf config ctx horder (by simp)
  refine ⟨⟨fun h => ?_, fun h => ?_⟩, fun h => ⟨fun before after hsplit => ?_, if_pos h⟩,
    fun h => if_neg h⟩
  · exact congrArg Fragment.forest (eq_of_applyAll_unchanged h : result = f)
  · obtain ⟨place, hreworked⟩ := hrecorded.reworked
    have hroot : result.root = f.root := hrecorded.root
    rw [Fragment.forest, hroot] at h
    have hnil := hreworked.log_eq_nil hf h
    exact hcount.trans (List.length_eq_zero_iff.mpr hnil)
  · have hsum : (applyAll config ctx (before ++ after) f).2.changed = 0 := hsplit ▸ h
    rw [applyAll_append] at hsum
    exact eq_of_applyAll_unchanged (Nat.add_eq_zero_iff.mp hsum).1

end Pass
end CrossRef
