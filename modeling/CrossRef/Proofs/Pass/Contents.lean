import CrossRef.Proofs.Pass.Agreement
import CrossRef.Proofs.Pass.Pipeline
import CrossRef.Proofs.Resolution

/-!
Entries of a table of contents. Of all passes only the one for references to equations changes the
text of an entry, and it changes that of entries that lead to an equation.
-/
namespace CrossRef
namespace Pass

open Markup Markup.Dom Index

variable {config : Config} {ctx : Context} {f : Fragment} {x : NodeId} {target : String}

theorem mem_elements_iff (h : f.WellFormed) {label : String} :
    x ∈ f.elements label ↔ f.dom.Above f.root x ∧ f.dom.isElement (some x) label := by
  rw [Fragment.elements, elementsBelow, List.mem_filter, h.dom.mem_descendants_iff h.root]

/-! ### Links that no pass looks at -/

/-- A link to another document, with no local link around it or inside it and no display equation
inside it. -/
structure Unseen (f : Fragment) (x : NodeId) : Prop where
  wellFormed : f.WellFormed
  mem : x ∈ f.elements "a"
  localTarget? : Fragment.localTarget? f.dom x = none
  not_above : ∀ m ∈ f.localLinks, ¬ f.dom.Above m x
  not_below : ∀ m ∈ f.localLinks, ¬ f.dom.Above x m
  no_equation : ∀ m, isDisplayMath f.dom m → ¬ f.dom.Above x m

namespace Unseen

theorem above (h : Unseen f x) : f.dom.Above f.root x := ((mem_elements_iff h.wellFormed).mp h.mem).1

theorem name?_isSome (h : Unseen f x) : (f.dom.name? (some x)).isSome :=
  name?_isSome_of_isElement ((mem_elements_iff h.wellFormed).mp h.mem).2

theorem lt_size (h : Unseen f x) : x < f.dom.size := lt_size_of_name? h.name?_isSome

theorem not_mem_localLinks (h : Unseen f x) : x ∉ f.localLinks := fun hx => by
  simpa [h.localTarget?] using (List.mem_filter.mp hx).2

/-- A link stays unseen as long as nothing changes at it or inside it and no new link appears. -/
theorem transfer (h : Unseen f x) {dom : Dom} (hwf : dom.WellFormed) (hsize : f.dom.size ≤ dom.size)
    (hsame : SameInside f.dom dom x) (hcontent : dom.content? (some x) = f.dom.content? (some x))
    (hroot : dom.Above f.root x)
    (hold : ∀ a i, a < f.dom.size → i < f.dom.size → dom.Above a i → f.dom.Above a i)
    (hlinks : ∀ m, IsLocalLink dom m → IsLocalLink f.dom m) : Unseen { f with dom := dom } x := by
  have hwf' : Fragment.WellFormed { f with dom := dom } := ⟨hwf, h.wellFormed.root.trans_le hsize⟩
  have helement := ((mem_elements_iff h.wellFormed).mp h.mem).2
  have hmem : ∀ m ∈ Fragment.localLinks { f with dom := dom }, m < f.dom.size ∧ m ∈ f.localLinks := by
    intro m hm
    obtain ⟨hm, hlocal⟩ := (mem_localLinks_iff hwf').mp hm
    have hlocal' := hlinks m hlocal
    exact ⟨hlocal'.lt_size, (mem_localLinks_iff h.wellFormed).mpr
      ⟨hold _ m h.wellFormed.root hlocal'.lt_size hm, hlocal'⟩⟩
  refine ⟨hwf', (mem_elements_iff hwf').mpr ⟨hroot, ?_⟩, ?_, fun m hm hmx => ?_, fun m hm hxm => ?_,
    fun m hm hxm => ?_⟩
  · rwa [isElement_congr hcontent]
  · rw [localTarget?_congr hcontent, h.localTarget?]
  · exact h.not_above m (hmem m hm).2 (hold m x (hmem m hm).1 h.lt_size hmx)
  · exact h.not_below m (hmem m hm).2 (hold x m h.lt_size (hmem m hm).1 hxm)
  · have hbelow := (hsame.above_iff h.wellFormed.dom hwf).mp hxm
    have hcontent' := hsame.content m hbelow
    rw [isDisplayMath_congr (name?_congr hcontent') (attribute?_congr hcontent' _)] at hm
    exact h.no_equation m hm hbelow

theorem changeLinks (h : Unseen f x) (judge : Dom → NodeId → Verdict) :
    SameInside f.dom (changeLinks judge f).1.dom x ∧ Unseen (Pass.changeLinks judge f).1 x := by
  have hchanged := changedAt_changeLinks h.wellFormed judge
  have hsame := hchanged.sameInside h.lt_size h.not_mem_localLinks h.not_below
  exact ⟨hsame, h.transfer hchanged.wellFormed hchanged.size_le hsame
    (hchanged.content x h.lt_size h.not_mem_localLinks)
    (hchanged.above f.root x h.not_above h.above)
    (fun _ _ _ => hchanged.above_old h.wellFormed.dom) hchanged.localLinks⟩

theorem numberEquations (h : Unseen f x) (numbering : Numbering) (ctx : Context) :
    SameInside f.dom (numberEquations numbering ctx f).1.dom x ∧
      Unseen (Pass.numberEquations numbering ctx f).1 x := by
  cases hnumber : ctx.chapter?.bind (·.number) with
  | none => simpa [Pass.numberEquations, hnumber] using ⟨SameInside.refl f.dom x, h⟩
  | some number =>
    obtain ⟨hann, -, -⟩ := wrapAll_scanEquations number h.wellFormed numbering
    rw [numberEquations_eq hnumber]
    have hsame := hann.sameInside h.lt_size fun m hm => by
      have hnumbered := (List.mem_filter.mp (List.mem_filter.mp hm).1).2
      exact h.no_equation m (Bool.and_eq_true_iff.mp hnumbered).1
    exact ⟨hsame, h.transfer hann.wellFormed hann.size_le hsame (hann.content x h.lt_size)
      (hann.above h.wellFormed.dom h.above) (fun _ _ => hann.above_old) fun _ => hann.isLocalLink⟩

/-- Whatever passes run, the link stays in the tree and nothing changes inside it. -/
theorem applyAll (h : Unseen f x) (config : Config) (ctx : Context) (passes : List Pass) :
    SameInside f.dom (applyAll config ctx passes f).1.dom x ∧
      Unseen (Pass.applyAll config ctx passes f).1 x := by
  induction passes generalizing f with
  | nil => exact ⟨.refl f.dom x, h⟩
  | cons pass rest ih =>
    obtain ⟨hsame, hunseen⟩ : SameInside f.dom (pass.apply config ctx f).1.dom x ∧
        Unseen (pass.apply config ctx f).1 x := by
      cases pass with
      | equationNumbers => exact h.numberEquations config.numbering ctx
      | _ => exact h.changeLinks _
    obtain ⟨hrest, hunseen'⟩ := ih hunseen
    exact ⟨hsame.trans hrest h.wellFormed.dom hunseen.wellFormed.dom, hunseen'⟩

end Unseen

/-! ### Entries -/

/-- What the passes do to the text of a link that stands alone. -/
theorem StandsAlone.textOf_applyAll (h : StandsAlone f x)
    (hmath : ∀ m, isDisplayMath f.dom m → ¬ f.dom.Above x m)
    (htarget : Fragment.localTarget? f.dom x = some target) (config : Config) (ctx : Context) :
    let f' := (applyAll config ctx (enabled config) f).1
    x ∈ f'.elements "a" ∧ f'.dom.textOf (some x) =
      (settledText? config ctx (isContentsEntry f.dom x) target (f.dom.textOf (some x))).getD
        (f.dom.textOf (some x)) := by
  intro f'
  obtain ⟨h', hdone⟩ := h.runTexts hmath htarget config ctx
  have hhref := (attribute?_congr hdone.content _).trans (href_of_localTarget? htarget)
  obtain ⟨hwf', hmem, hsame, -⟩ := h'.runLinkTargets hhref config ctx
  rw [← applyAll_enabled] at hwf' hmem hsame
  refine ⟨hmem, ?_⟩
  have hname := h'.isLocalLink.name?_isSome
  rw [hsame.textOf_eq h'.wellFormed.dom hwf' hname
    (name?_isSome_of_isElement (List.mem_filter.mp hmem).2)]
  cases hnew : settledText? config ctx (isContentsEntry f.dom x) target (f.dom.textOf (some x)) with
  | none =>
    exact (hdone.same hnew).textOf_eq h.wellFormed.dom h'.wellFormed.dom
      h.isLocalLink.name?_isSome hname
  | some new => exact hdone.text new hnew

/-- The text that the passes give an entry of a table of contents, if they give it one: the number
of the equation that it leads to. -/
def contentsText? (config : Config) (ctx : Context) (dom : Dom) (x : NodeId) : Option String :=
  if config.disables "equation-refs" then none
  else (Fragment.localTarget? dom x).bind fun target =>
    equationText? ctx target (dom.textOf (some x))

theorem settledText?_of_entry (config : Config) (ctx : Context) (target text : String) :
    settledText? config ctx true target text =
      if config.disables "equation-refs" then none else equationText? ctx target text := by
  rw [settledText?_eq]
  by_cases hequation : startsWith equationMark target
  · rw [if_pos hequation]
  · rw [if_neg hequation, equationText?_eq_none (by simpa using hequation), ite_self]
    simp [sectionText?]

/-- Take any link of a chapter whose own identifier marks it as an entry of a table of contents, with
no other local link around it or inside it and no display equation inside it. After the passes it is
still there with its text, unless it leads to an equation that the index knows and references to
equations are shown: then it shows the number of the equation. -/
theorem text_of_contents_entry (config : Config) (ctx : Context) (content : String) {x : NodeId}
    (hx : x ∈ (Fragment.parse content).elements "a")
    (hentry : isContentsEntry (Fragment.parse content).dom x)
    (habove : ∀ m ∈ (Fragment.parse content).localLinks, ¬ (Fragment.parse content).dom.Above m x)
    (hbelow : ∀ m ∈ (Fragment.parse content).localLinks, ¬ (Fragment.parse content).dom.Above x m)
    (hmath : ∀ m, isDisplayMath (Fragment.parse content).dom m →
      ¬ (Fragment.parse content).dom.Above x m) :
    let f := Fragment.parse content
    let f' := (applyAll config ctx (enabled config) f).1
    x ∈ f'.elements "a" ∧
      f'.dom.textOf (some x) = (contentsText? config ctx f.dom x).getD (f.dom.textOf (some x)) := by
  intro f f'
  have hwf : f.WellFormed := Fragment.wellFormed_parse content
  cases htarget : Fragment.localTarget? f.dom x with
  | none =>
    have hunseen : Unseen f x := ⟨hwf, hx, htarget, habove, hbelow, hmath⟩
    obtain ⟨hsame, hunseen'⟩ := hunseen.applyAll config ctx (enabled config)
    refine ⟨hunseen'.mem, ?_⟩
    rw [hsame.textOf_eq hwf.dom hunseen'.wellFormed.dom hunseen.name?_isSome hunseen'.name?_isSome]
    simp [contentsText?, htarget]
  | some target =>
    have halone : StandsAlone f x :=
      ⟨hwf, List.mem_filter.mpr ⟨hx, by simp [htarget]⟩, habove, hbelow⟩
    obtain ⟨hmem, htext⟩ := halone.textOf_applyAll hmath htarget config ctx
    refine ⟨hmem, ?_⟩
    rw [htext, hentry, settledText?_of_entry, contentsText?, htarget, Option.bind_some]

/-- An entry that leads to another chapter gets the address of its file and keeps its text. -/
theorem text_of_entry_of_chapter :
    let content := "<a id=toc-d href=#ch:d>d</a>"
    let ctx : Context := ⟨⟨[secondChapter]⟩, .empty, "c"⟩
    let f' := (applyAll .default ctx (enabled .default) (Fragment.parse content)).1
    ∃ x ∈ f'.elements "a", f'.dom.textOf (some x) = "d" := by
  intro content ctx f'
  have hwf := (Fragment.wellFormed_parse content).dom
  have hentry : (5 : NodeId) ∈ (Fragment.parse content).elements "a" ∧
      isContentsEntry (Fragment.parse content).dom 5 = true := by decide +kernel
  have honly : ∀ m ∈ (Fragment.parse content).localLinks, m = 5 := by decide +kernel
  have hmath : ∀ m < (Fragment.parse content).dom.size,
      isDisplayMath (Fragment.parse content).dom m = false := by decide +kernel
  obtain ⟨hmem, htext⟩ := text_of_contents_entry .default ctx content hentry.1 hentry.2
    (fun m hm => honly m hm ▸ hwf.acyclic 5) (fun m hm => honly m hm ▸ hwf.acyclic 5)
    fun m hm habove => by simp [hmath m (Above.lt_size habove)] at hm
  refine ⟨5, hmem, htext.trans ?_⟩
  decide +kernel

/-- An entry that leads to an equation loses its text to the number of the equation. -/
theorem entry_shows_equation :
    let content := "<a id=toc-a href=#eq:a>Rates</a>"
    let manifest : Manifest := ⟨[secondChapter, ⟨"c", some (.ordinal 3), "C", none, .chapters⟩]⟩
    let sources := sourcesOf [("d", "<math id=eq:a display=block></math>"), ("c", content)]
    let ctx : Context := ⟨manifest, buildIndex manifest sources .allDisplay, "c"⟩
    let f := Fragment.parse content
    let f' := (applyAll .default ctx (enabled .default) f).1
    Manifest.repeatedId? [] manifest.chapters = none ∧
      ∃ x ∈ f.elements "a", isContentsEntry f.dom x ∧ (∀ m ∈ f.localLinks, m = x) ∧
        (∀ m < f.dom.size, isDisplayMath f.dom m = false) ∧ f.dom.textOf (some x) = "Rates" ∧
        f'.dom.textOf (some x) = "Eq. 2.1 (Ch. 2)" := by
  intro content manifest sources ctx f f'
  exact ⟨by decide, 5, by decide +kernel, by decide +kernel, by decide +kernel, by decide +kernel,
    by decide +kernel, by decide +kernel⟩

end Pass
end CrossRef
