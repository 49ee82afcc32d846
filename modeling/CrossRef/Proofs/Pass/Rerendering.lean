import CrossRef.Proofs.Pass.Rewording

/-!
Rendering references again. A reference to an equation that was rendered stays as it is, and the same
links are found and looked up the second time, if no link stands inside another.
-/
namespace CrossRef
namespace Pass

open Markup Markup.Dom Index

variable {ctx : Context} {pass : Pass} {f : Fragment} {dom dom' : Dom} {i x : NodeId}
  {links : List NodeId} {judge : Dom → NodeId → Verdict} {new? : NodeId → Option String}
  {keep keep' : NodeId → Bool}

/-! ### The links of a reworded chapter -/

/-- Where nothing of interest is new or stands inside the links, what is of interest stands in the order
in which it stood. -/
theorem NewTexts.filter_preorder (h : NewTexts new? dom dom' links) (hwf : dom.WellFormed)
    (hold : ∀ j < dom.size, keep' j = keep j) (hfresh : ∀ j, dom.size ≤ j → keep' j = false)
    (hbelow : ∀ m ∈ links, ∀ j, dom.Above m j → keep j = false) (hi : i < dom.size) :
    (dom'.preorder i).filter keep' = (dom.preorder i).filter keep := by
  induction i using hwf.subtree_induction with
  | step i ih =>
    have hkids : ((dom'.children (some i)).flatMap dom'.preorder).filter keep' =
        ((dom.children (some i)).flatMap dom.preorder).filter keep := by
      by_cases hnone : i ∈ links → new? i = none
      · rw [h.children i hi hnone, List.filter_flatMap, List.filter_flatMap]
        refine List.flatMap_congr fun c hc => ?_
        have hci := hwf.mem_children_iff.mp hc
        exact ih c hci (lt_size_of_parent? hci)
      · obtain ⟨hmem, hsome⟩ := Classical.not_imp.mp hnone
        obtain ⟨text, htext⟩ := Option.ne_none_iff_exists'.mp hsome
        obtain ⟨t, ht, hkids, hcontent, hleaf⟩ := h.text i hmem text htext
        have hlt : t < dom'.size := (content?_isSome_iff dom' t).mp (by simp [hcontent])
        have hgone : ((dom.children (some i)).flatMap dom.preorder).filter keep = [] :=
          List.filter_eq_nil_iff.mpr fun j hj => by
            simp [hbelow i hmem j (hwf.mem_flatMap_preorder_iff.mp hj)]
        rw [hgone, hkids, List.flatMap_singleton, h.wellFormed.preorder_eq hlt, hleaf]
        simp [hfresh t ht]
    rw [hwf.preorder_eq hi, h.wellFormed.preorder_eq (hi.trans_le h.size_le), List.filter_cons,
      List.filter_cons, hold i hi, hkids]

/-- Is the node a link into the same document? -/
def isLocalLink (dom : Dom) (i : NodeId) : Bool :=
  (Fragment.localTarget? dom i).isSome && dom.isElement (some i) "a"

theorem isLocalLink_iff : isLocalLink dom i ↔ IsLocalLink dom i := by
  rw [isLocalLink, Bool.and_comm, Bool.and_eq_true_iff, IsLocalLink]

theorem localLinks_eq_filter (f : Fragment) :
    f.localLinks = (f.dom.descendants (some f.root)).filter (isLocalLink f.dom) :=
  List.filter_filter

/-- The same links stand in the same order. -/
theorem Rewords.localLinks_changeLinks (h : Rewords ctx pass judge) (hf : f.WellFormed)
    (hapart : LinksApart f) : (Pass.changeLinks judge f).1.localLinks = f.localLinks := by
  have htexts := (h.changeLinks hf).1
  have hchanged := changedAt_changeLinks hf judge
  have hroot : f.root ∉ f.localLinks := fun hmem =>
    hf.dom.acyclic _ ((mem_localLinks_iff hf).mp hmem).1
  have hold : ∀ j < f.dom.size,
      isLocalLink (Pass.changeLinks judge f).1.dom j = isLocalLink f.dom j := fun j hj => by
    rw [isLocalLink, localTarget?_congr (htexts.content j hj), isElement_congr (htexts.content j hj),
      isLocalLink]
  have hfresh : ∀ j, f.dom.size ≤ j → isLocalLink (Pass.changeLinks judge f).1.dom j = false :=
    fun j hj => by
      by_contra hlink
      rw [Bool.not_eq_false, isLocalLink_iff] at hlink
      exact Nat.not_lt.mpr hj (hchanged.localLinks j hlink).lt_size
  have hbelow : ∀ m ∈ f.localLinks, ∀ j, f.dom.Above m j → isLocalLink f.dom j = false :=
    fun m hm j hmj => by
      by_contra hlink
      rw [Bool.not_eq_false, isLocalLink_iff] at hlink
      have habove := ((mem_localLinks_iff hf).mp hm).1
      exact hapart m hm j ((mem_localLinks_iff hf).mpr ⟨habove.trans hmj, hlink⟩) hmj
  have hroot' : (Pass.changeLinks judge f).1.root = f.root := rfl
  rw [localLinks_eq_filter, localLinks_eq_filter, hroot', hf.dom.descendants_eq hf.root,
    htexts.wellFormed.descendants_eq (hf.root.trans_le htexts.size_le),
    htexts.children _ hf.root fun hmem => absurd hmem hroot, List.filter_flatMap,
    List.filter_flatMap]
  refine List.flatMap_congr fun c hc => ?_
  exact htexts.filter_preorder hf.dom hold hfresh hbelow
    (lt_size_of_parent? (hf.dom.mem_children_iff.mp hc))

theorem lostName?_congr (h : dom'.content? (some x) = dom.content? (some x)) :
    lostName? ctx pass dom' x = lostName? ctx pass dom x := by
  simp only [lostName?, linkTarget?, localTarget?_congr h, isContentsEntry_congr h]

/-- Where the verdicts of a pass over texts are idle after it, the pass run again changes nothing and
looks up the same names in vain. -/
theorem Rewords.changeLinks_twice (h : Rewords ctx pass judge) (hf : f.WellFormed)
    (hapart : LinksApart f) (hidle : ∀ x ∈ (Pass.changeLinks judge f).1.localLinks,
      (judge (Pass.changeLinks judge f).1.dom x).Idle) :
    Pass.changeLinks judge (Pass.changeLinks judge f).1 =
      ((Pass.changeLinks judge f).1, ⟨0, (Pass.changeLinks judge f).2.unresolved⟩) := by
  obtain ⟨hsame, hcount⟩ := changeLinks_of_idle hidle
  obtain ⟨htexts, hreport⟩ := h.changeLinks hf
  obtain ⟨-, hagain⟩ := h.changeLinks (wellFormed_changeLinks hf judge)
  rw [h.localLinks_changeLinks hf hapart] at hagain
  have hnames : f.localLinks.filterMap (lostName? ctx pass (Pass.changeLinks judge f).1.dom) =
      f.localLinks.filterMap (lostName? ctx pass f.dom) :=
    List.filterMap_congr fun x hx =>
      lostName?_congr (htexts.content x (lt_size_of_mem_localLinks hf hx))
  have hnone : (f.localLinks.filterMap
      (newText? ctx pass (Pass.changeLinks judge f).1.dom)).length = 0 := by
    rw [hagain] at hcount
    exact hcount
  refine Prod.ext hsame ?_
  rw [hagain, hreport, hnames, hnone]

/-! ### References to equations -/

theorem idle_renderEquationRefs (hf : f.WellFormed) (hapart : LinksApart f) (ctx : Context) :
    ∀ x ∈ (renderEquationRefs ctx f).1.localLinks,
      (judgeEquationText ctx (renderEquationRefs ctx f).1.dom x).Idle := by
  intro x hx
  have halone := hapart.standsAlone hf (mem_localLinks_of_changeLinks hf hx)
  obtain ⟨target, htarget⟩ := Option.isSome_iff_exists.mp halone.isLocalLink.2
  obtain ⟨halone', hdone⟩ := halone.renderEquationRefs htarget ctx
  have htext := hdone.textOf_eq hf.dom halone'.wellFormed.dom halone.isLocalLink.name?_isSome
  refine idle_judgeEquationText ((localTarget?_congr hdone.content).trans htarget) ?_
  rw [htext]
  exact settledBy_getD fun _ => settledBy_equationText?

/-- Rendering the references to equations again changes nothing and notes the same names, where no link
stands inside another: the text of a reference is the text of that text. -/
theorem renderEquationRefs_twice (hf : f.WellFormed) (hapart : LinksApart f) (ctx : Context) :
    renderEquationRefs ctx (renderEquationRefs ctx f).1 =
      ((renderEquationRefs ctx f).1, ⟨0, (renderEquationRefs ctx f).2.unresolved⟩) ∧
    ∀ text identifier entry otherChapter,
      equationText (equationText text identifier entry otherChapter) identifier entry otherChapter =
        equationText text identifier entry otherChapter :=
  ⟨(rewords_judgeEquationText ctx).changeLinks_twice hf hapart
    (idle_renderEquationRefs hf hapart ctx), equationText_equationText⟩

/-- A link in brackets, a link with a text of its own and a link that leads nowhere. -/
theorem renderEquationRefs_twice_three_links :
    let made (dom : Dom) (content : Content) (p : NodeId) :=
      (dom.create content).1.append (some p) (some dom.size)
    let linkTo (href : String) : Content := .element (.html "a") [.plain "href" href]
    let dom := made (made (made (made (made empty (linkTo "#eq:a") 0) (.text "[eq:a]") 1)
      (linkTo "#eq:b") 0) (.text "the sum") 3) (linkTo "#eq:c") 0
    let equations : List EquationEntry := [⟨"eq:a", "2.1", "d", "2"⟩, ⟨"eq:b", "2.2", "d", "2"⟩]
    let ctx : Context := ⟨⟨[]⟩, ⟨[⟨"d", .empty, ⟨equations, 2⟩⟩]⟩, "d"⟩
    let f : Fragment := ⟨dom, 0⟩
    (renderEquationRefs ctx f).2 = ⟨2, ["eq:c"]⟩ ∧
      [1, 3].map (fun x => (renderEquationRefs ctx f).1.dom.textOf (some x)) =
        ["[Eq. 2.1]", "Eq. 2.2"] ∧
      renderEquationRefs ctx (renderEquationRefs ctx f).1 =
        ((renderEquationRefs ctx f).1, ⟨0, (renderEquationRefs ctx f).2.unresolved⟩) := by
  intro made linkTo dom equations ctx f
  have hwf : f.WellFormed :=
    ⟨((((wellFormed_empty.append_create _ (p := 0) (by decide)).append_create _ (p := 1)
      (by decide)).append_create _ (p := 0) (by decide)).append_create _ (p := 3)
      (by decide)).append_create _ (p := 0) (by decide), by decide⟩
  have hroot : f.dom.parent? (some 0) = none := by decide +kernel
  have hparent : ∀ x ∈ f.localLinks, f.dom.parent? (some x) = some 0 := by decide +kernel
  have hapart : LinksApart f := fun x hx y hy hxy => by
    -- only the root stands above a link, and the root has no parent
    obtain ⟨p, hp, hxp⟩ := above_iff_exists_parent.mp hxy
    rw [hparent y hy, Option.some_inj] at hp
    rcases hxp.cases_tail with heq | ⟨q, -, hq⟩
    · have hx' := hparent x hx
      rw [← heq, ← hp, hroot] at hx'
      simp at hx'
    · rw [← hp, hroot] at hq
      simp at hq
  exact ⟨by decide +kernel, by decide +kernel, (renderEquationRefs_twice hwf hapart ctx).1⟩

end Pass
end CrossRef
