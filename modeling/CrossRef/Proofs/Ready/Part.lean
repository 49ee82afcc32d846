import CrossRef.Proofs.Ready.Table

/-!
Tokens inside the parts of tables: captions, column groups, row groups, rows and cells. Each mode is left where
its part is closed, and is kept where a template stands between.
-/
namespace CrossRef
namespace Markup
namespace Html
namespace Construction

/-- The start tags that close the part of a table that they are met in. -/
theorem isDroppable_of_mem {label : String}
    (h : label ∈ ["caption", "col", "colgroup", "tbody", "td", "tfoot", "th", "thead", "tr"]) : isDroppable label := by
  have hall : ∀ label ∈ ["caption", "col", "colgroup", "tbody", "td", "tfoot", "th", "thead", "tr"],
      isDroppable label := by decide
  exact hall label h

theorem isHtmlAmong_eq_false {labels : List String} (hordinary : ∀ label ∈ labels, isOrdinary (.html label) = false)
    (htemplate : "template" ∉ labels) (name : Name) (h : isOrdinary name ∨ name = .html "template") :
    isHtmlAmong labels name = false := by
  by_contra hamong
  obtain ⟨label, hlabel, rfl⟩ := eq_html_of_isHtmlAmong (Bool.of_not_eq_false hamong)
  rcases h with h | h
  · simp [hordinary label hlabel] at h
  · obtain rfl : label = "template" := congrArg Name.label h
    exact htemplate hlabel

theorem isHtmlNamed_eq_false {label : String} (hordinary : isOrdinary (.html label) = false)
    (htemplate : label ≠ "template") (name : Name) (h : isOrdinary name ∨ name = .html "template") :
    isHtmlNamed label name = false := by
  by_contra hnamed
  obtain rfl := eq_html_of_isHtmlNamed (Bool.of_not_eq_false hnamed)
  rcases h with h | h
  · simp [hordinary] at h
  · exact htemplate (congrArg Name.label h)

namespace Ready

variable {σ : Setting} {modes : List InsertionMode} {mode : InsertionMode} {c : Construction} {tag : Tag}
  {bound : Nat} {token : Token} {next : Next}

/-! ### Captions -/

theorem leaveCaption (h : c.Ready σ modes .inCaption)
    (hleft : ∀ c' : Construction, c'.Ready σ modes .inTable → Comes σ bound token (c', next))
    (hkept : Comes σ bound token (c, .done)) : Comes σ bound token (c.leaveCaption next) := by
  unfold Construction.leaveCaption
  split_ifs with hscope
  · obtain ⟨before, e, after, rule, heq, hbefore, hrule, hinner⟩ := h.exists_part (by decide) (by decide) hscope
      (isHtmlNamed_eq_false (by decide) (by decide))
    rcases partRule?_cases hrule with ⟨hname, rfl⟩ | ⟨-, rfl⟩ | ⟨-, rfl⟩ | ⟨-, rfl⟩ | ⟨-, rfl⟩
    · exact hleft _ (h.leaveImplied heq hbefore hrule (p := isHtmlNamed "caption") (by rw [hname]; rfl)
        fun name hname => isHtmlNamed_eq_false (by decide) (by decide) name (.inl hname))
    all_goals cases hinner
  · exact hkept

theorem inCaption (h : c.Ready σ modes .inCaption) (hlawful : σ.Lawful) (hfits : σ.FitsToken token) :
    Comes σ bound token (c.inCaption token) := by
  unfold Construction.inCaption
  split
  · next tag =>
    split_ifs with hpart
    · have hdrop := isDroppable_of_mem (List.contains_iff_mem.mp hpart)
      exact h.leaveCaption (fun c' h' => h'.comes_again (not_insists_of_isDroppable hdrop)) (h.drops (.inl hdrop))
    · exact h.inBody hlawful (by decide) hfits (.inr (by simp))
  · next tag =>
    have hpasses : ∀ {mode : InsertionMode} {c' : Construction}, tag.label ≠ "template" → c'.Ready σ modes mode →
        Comes σ bound (.closing tag) (c', .done) := fun hne h' => h'.passes (by simp) (after_closing hne)
    split_ifs with hcaption htable hpart
    · exact h.leaveCaption (fun c' h' => hpasses (by rw [hcaption]; decide) h') (hpasses (by rw [hcaption]; decide) h)
    · refine h.leaveCaption (fun c' h' => h'.comes_again fun hinsists => ?_) (hpasses (by rw [htable]; decide) h)
      exact absurd (htable.symm.trans hinsists) (by decide)
    · refine hpasses (fun heq => ?_) h
      rw [heq] at hpart
      exact absurd hpart (by decide)
    · refine h.inBody hlawful (by decide) hfits (.inr fun tag' htag => ?_)
      cases htag
      simp_all
  · next hopening hclosing =>
    exact h.inBody hlawful (by decide) hfits (.inr fun tag htag => absurd htag (hclosing tag))

/-! ### Column groups -/

theorem leaveColumnGroup (h : c.Ready σ modes .inColumnGroup)
    (hleft : ∀ c' : Construction, c'.Ready σ modes .inTable → c'.rank < c.rank → Comes σ bound token (c', next))
    (hkept : (∃ e ∈ c.opened, e.name = .html "template") → Comes σ bound token (c, .done)) :
    Comes σ bound token (c.leaveColumnGroup next) := by
  unfold Construction.leaveColumnGroup
  split_ifs with hcurrent
  · obtain ⟨e, outer, heq, -⟩ := h.exists_current
    have hname : e.name = .html "colgroup" :=
      eq_html_of_isHtmlNamed (by simpa [currentIs, current?, heq] using hcurrent)
    have hleave := h.leavePart (show c.opened = [] ++ e :: outer from heq) (by simp)
      (by rw [hname]; rfl)
    have hready : Ready σ modes .inTable { c.pop with mode := .inTable } :=
      hleave.congr rfl (by simp [Construction.pop, heq]) rfl rfl rfl rfl
    refine hleft _ hready ?_
    have hopened : c.pop.opened = outer := by simp [Construction.pop, heq]
    rw [hready.rank_eq, h.rank_eq, if_pos rfl, hopened, heq, List.countP_cons_of_neg (by rw [hname]; decide)]
    exact Nat.lt_succ_self _
  · refine hkept ?_
    obtain ⟨inner, heq, hnests⟩ := h.nested
    rcases hnests.column_or_template with hhead | htemplate
    · refine absurd ?_ hcurrent
      cases inner with
      | nil => simp at hhead
      | cons e inner =>
        have hname : e.name = .html "colgroup" := by simpa using hhead
        simp [currentIs, current?, heq, hname, isHtmlNamed, Name.html]
    · obtain ⟨e, he, hname⟩ := List.mem_map.mp htemplate
      exact ⟨e, by simp [heq, he], hname⟩

theorem insertBlank (h : c.Ready σ modes mode) (hlawful : σ.Lawful) (b : Bool) (chars : List Char) :
    (if b then c else c.insertText chars).Ready σ modes mode := by
  split_ifs
  · exact h
  · exact h.insertText hlawful chars

theorem inBody_root (c : Construction) (hlabel : tag.label = "html") :
    c.inBody (.opening tag) = (c.mergeAttributes c.opened.getLast? tag, .done) := by
  simp [Construction.inBody, Construction.openInBody, hlabel, isMetadata]

theorem inColumnGroup (h : c.Ready σ modes .inColumnGroup) (hlawful : σ.Lawful) (hfits : σ.FitsToken token) :
    Comes σ c.rank token (c.inColumnGroup token) := by
  unfold Construction.inColumnGroup
  split
  · next chars =>
    dsimp only
    split
    · exact (h.insertBlank hlawful _ _).passes (by simp) rfl
    · exact (h.insertBlank hlawful _ _).leaveColumnGroup
        (fun c' h' _ => .again (.inr ⟨_, _, rfl, rfl⟩) h'.orderly h'.mode_ne_text fun hinsists => absurd hinsists id)
        fun _ => (h.insertBlank hlawful _ _).passes (by simp) rfl
  · exact (h.insertComment hfits).passes (by simp) rfl
  · next tag =>
    split
    · rw [inBody_root c ‹_›]
      exact (h.mergeAttributes hlawful hfits h.root_html).drops (.inl (by rw [‹tag.label = _›]; rfl))
    · exact Makes.comes (h.insertVoid hfits (by rw [‹tag.label = _›]; decide))
    · exact h.openMetadata (by rw [‹tag.label = _›]; rfl) (.inr ‹_›) hfits
    · exact h.leaveColumnGroup (fun c' h' hrank => .again (.inl rfl) h'.orderly h'.mode_ne_text fun _ => hrank)
        fun htemplate => h.drops (.inr (h.depth_pos htemplate))
  · next tag =>
    split
    · have hafter : σ.after (.closing tag) = σ := after_closing (by rw [‹tag.label = _›]; decide)
      exact h.leaveColumnGroup (fun c' h' _ => h'.passes (by simp) hafter) fun _ => h.passes (by simp) hafter
    · exact h.passes (by simp) (after_closing (by rw [‹tag.label = _›]; decide))
    · exact h.comes_closeTemplate ‹_›
    · have hne : tag.label ≠ "template" := ‹tag.label = "template" → False›
      exact h.leaveColumnGroup (fun c' h' _ => h'.comes_again hne) fun _ => h.passes (by simp) (after_closing hne)
  · next htext hcomment hopening hclosing =>
    have hafter : σ.after token = σ := by
      cases token with
      | opening tag => exact absurd rfl (hopening tag)
      | closing tag => exact absurd rfl (hclosing tag)
      | _ => rfl
    have hnot : ¬ Insists σ token := by
      cases token with
      | opening tag => exact absurd rfl (hopening tag)
      | closing tag => exact absurd rfl (hclosing tag)
      | _ => exact id
    exact h.leaveColumnGroup (fun c' h' _ => h'.comes_again hnot) fun _ => h.passes hopening hafter

/-! ### Row groups and rows -/

theorem isHtmlAmong_of_isOrdinary (labels : List String) (hlabels : ∀ label ∈ labels, isOrdinary (.html label) = false)
    (name : Name) (h : isOrdinary name) : isHtmlAmong labels name = false := by
  by_contra hamong
  obtain ⟨label, hlabel, rfl⟩ := eq_html_of_isHtmlAmong (Bool.of_not_eq_false hamong)
  simp [hlabels label hlabel] at h

theorem leaveGroup (h : c.Ready σ modes .inTableBody) {p : Name → Bool}
    (hscope : inScope endsTableScope (fun e => p e.name) c.opened)
    (hp : ∀ name, isOrdinary name ∨ name = .html "template" → p name = false) :
    Ready σ modes .inTable { (c.popTo isTableBodyContext).pop with mode := .inTable } := by
  obtain ⟨before, e, after, rule, heq, hbefore, hrule, hinner⟩ := h.exists_part (by decide) (by decide) hscope hp
  have hclasses := isHtmlAmong_of_isOrdinary ["tbody", "tfoot", "thead", "template", "html"] (by decide)
  rcases partRule?_cases hrule with ⟨-, rfl⟩ | ⟨-, rfl⟩ | ⟨hname | hname | hname, rfl⟩ | ⟨-, rfl⟩ | ⟨-, rfl⟩
  · cases hinner
  · cases hinner
  · exact h.leaveThrough heq hbefore hrule (p := isTableBodyContext) (by rw [hname]; rfl) hclasses
  · exact h.leaveThrough heq hbefore hrule (p := isTableBodyContext) (by rw [hname]; rfl) hclasses
  · exact h.leaveThrough heq hbefore hrule (p := isTableBodyContext) (by rw [hname]; rfl) hclasses
  · cases hinner
  · cases hinner

theorem leaveTableBody (h : c.Ready σ modes .inTableBody)
    (hleft : ∀ c' : Construction, c'.Ready σ modes .inTable → Comes σ bound token (c', .again token))
    (hkept : Comes σ bound token (c, .done)) : Comes σ bound token (c.leaveTableBody token) := by
  unfold Construction.leaveTableBody
  split_ifs with hscope
  · exact hleft _ (h.leaveGroup (p := isHtmlAmong ["table", "tbody", "tfoot"]) hscope
      (isHtmlAmong_eq_false (by decide) (by decide)))
  · exact hkept

theorem closeGroup (h : c.Ready σ modes .inTableBody) {label : String} (hlabel : label ∈ ["tbody", "tfoot", "thead"])
    (hscope : c.hasInScopeOf endsTableScope label) :
    Ready σ modes .inTable { (c.popTo isTableBodyContext).pop with mode := .inTable } := by
  have hall : ∀ label ∈ ["tbody", "tfoot", "thead"], isOrdinary (.html label) = false ∧ label ≠ "template" := by decide
  exact h.leaveGroup (p := isHtmlNamed label) hscope (isHtmlNamed_eq_false (hall label hlabel).1 (hall label hlabel).2)

theorem inTableBody (h : c.Ready σ modes .inTableBody) (hlawful : σ.Lawful) (hfits : σ.FitsToken token) :
    Comes σ c.rank token (c.inTableBody token) := by
  unfold Construction.inTableBody
  split
  · next tag =>
    have hleave : isDroppable tag.label → Comes σ c.rank (.opening tag) (c.leaveTableBody (.opening tag)) :=
      fun hdrop => h.leaveTableBody (fun c' h' => h'.comes_again (not_insists_of_isDroppable hdrop))
        (h.drops (.inl hdrop))
    split
    · have hrule : partRule? (.html tag.label) = some ⟨isTableBodyContext, .inTableBody, .inRow⟩ := by
        rw [‹tag.label = _›]
        rfl
      exact (h.openPart hrule rfl hfits).comes
    iterate 2
      have hopened := h.openBarePart hlawful "tr" (by decide) rfl rfl
      exact hopened.comes_again (not_insists_of_isDroppable (by rw [‹tag.label = _›]; rfl))
    iterate 6 exact hleave (by rw [‹tag.label = _›]; rfl)
    · refine h.inTable hlawful (by simp) hfits (.inr fun tag' htag => ?_)
      cases htag
      simp_all
  · next tag =>
    split
    iterate 3
      have hafter : σ.after (.closing tag) = σ := after_closing (by rw [‹tag.label = _›]; decide)
      split_ifs with hscope
      · exact (h.closeGroup (by simp [*]) hscope).passes (by simp) hafter
      · exact h.passes (by simp) hafter
    · have hne : tag.label ≠ "template" := by rw [‹tag.label = _›]; decide
      exact h.leaveTableBody (fun c' h' => h'.comes_again hne) (h.passes (by simp) (after_closing hne))
    iterate 8 exact h.passes (by simp) (after_closing (by rw [‹tag.label = _›]; decide))
    · exact h.inTable hlawful (by simp) hfits (.inr (by simp))
  · next hopening hclosing =>
    exact h.inTable hlawful (by simp) hfits (.inr fun tag htag => absurd htag (hopening tag))

theorem leaveRow (h : c.Ready σ modes .inRow)
    (hleft : ∀ c' : Construction, c'.Ready σ modes .inTableBody → Comes σ bound token (c', next))
    (hkept : Comes σ bound token (c, .done)) : Comes σ bound token (c.leaveRow next) := by
  unfold Construction.leaveRow
  split_ifs with hscope
  · obtain ⟨before, e, after, rule, heq, hbefore, hrule, hinner⟩ := h.exists_part (by decide) (by decide) hscope
      (isHtmlNamed_eq_false (by decide) (by decide))
    rcases partRule?_cases hrule with ⟨-, rfl⟩ | ⟨-, rfl⟩ | ⟨-, rfl⟩ | ⟨hname, rfl⟩ | ⟨-, rfl⟩
    iterate 3 cases hinner
    · exact hleft _ (h.leaveThrough heq hbefore hrule (p := isTableRowContext) (by rw [hname]; rfl)
        (isHtmlAmong_of_isOrdinary _ (by decide)))
    · cases hinner
  · exact hkept

theorem inRow (h : c.Ready σ modes .inRow) (hlawful : σ.Lawful) (hfits : σ.FitsToken token) :
    Comes σ c.rank token (c.inRow token) := by
  unfold Construction.inRow
  split
  · next tag =>
    have hleave : isDroppable tag.label → Comes σ c.rank (.opening tag) (c.leaveRow (.again (.opening tag))) :=
      fun hdrop => h.leaveRow (fun c' h' => h'.comes_again (not_insists_of_isDroppable hdrop))
        (h.drops (.inl hdrop))
    split
    iterate 2
      have hrule : partRule? (.html tag.label) = some ⟨isTableRowContext, .inRow, .inCell⟩ := by
        rw [‹tag.label = _›]
        rfl
      obtain ⟨i, hready⟩ := h.openPart hrule rfl hfits
      exact Makes.comes ⟨i, hready.pushMarker⟩
    iterate 7 exact hleave (by rw [‹tag.label = _›]; rfl)
    · refine h.inTable hlawful (by simp) hfits (.inr fun tag' htag => ?_)
      cases htag
      simp_all
  · next tag =>
    have hpasses : ∀ {mode : InsertionMode} {c' : Construction}, tag.label ≠ "template" → c'.Ready σ modes mode →
        Comes σ c.rank (.closing tag) (c', .done) := fun hne h' => h'.passes (by simp) (after_closing hne)
    have hleave : tag.label ≠ "template" → Comes σ c.rank (.closing tag) (c.leaveRow (.again (.closing tag))) :=
      fun hne => h.leaveRow (fun c' h' => h'.comes_again hne) (hpasses hne h)
    split
    · have hne : tag.label ≠ "template" := by rw [‹tag.label = _›]; decide
      exact h.leaveRow (fun c' h' => hpasses hne h') (hpasses hne h)
    · exact hleave (by rw [‹tag.label = _›]; decide)
    iterate 3
      split_ifs
      · exact hleave (by rw [‹tag.label = _›]; decide)
      · exact hpasses (by rw [‹tag.label = _›]; decide) h
    iterate 7 exact hpasses (by rw [‹tag.label = _›]; decide) h
    · exact h.inTable hlawful (by simp) hfits (.inr (by simp))
  · next hopening hclosing =>
    exact h.inTable hlawful (by simp) hfits (.inr fun tag htag => absurd htag (hopening tag))

/-! ### Cells -/

theorem leaveCell (h : c.Ready σ modes .inCell) {p : Name → Bool}
    (hscope : inScope endsTableScope (fun e => p e.name) c.opened)
    (hp : ∀ name, isOrdinary name ∨ name = .html "template" → p name = false) :
    Ready σ modes .inRow { (c.closeImplied.popThrough isCell).clearFormatting with mode := .inRow } := by
  obtain ⟨before, e, after, rule, heq, hbefore, hrule, hinner⟩ := h.exists_part (by decide) (by decide) hscope hp
  have hclasses := isHtmlAmong_of_isOrdinary ["td", "th"] (by decide)
  rcases partRule?_cases hrule with ⟨-, rfl⟩ | ⟨-, rfl⟩ | ⟨-, rfl⟩ | ⟨-, rfl⟩ | ⟨hname | hname, rfl⟩
  iterate 4 cases hinner
  · exact h.leaveImplied heq hbefore hrule (p := isCell) (by rw [hname]; rfl) hclasses
  · exact h.leaveImplied heq hbefore hrule (p := isCell) (by rw [hname]; rfl) hclasses

theorem closeCell (h : c.Ready σ modes .inCell) {label : String} (hlabel : label ∈ ["td", "th"])
    (hscope : c.hasInScopeOf endsTableScope label) :
    Ready σ modes .inRow { (c.closeImplied.popThroughNamed label).clearFormatting with mode := .inRow } := by
  have hall : ∀ label ∈ ["td", "th"], isOrdinary (.html label) = false ∧ label ≠ "template" ∧
      label ∉ ["html", "table", "template", "tbody", "tfoot", "thead", "tr"] := by decide
  obtain ⟨hordinary, htemplate, hnot⟩ := hall label hlabel
  obtain ⟨before, e, after, rule, heq, hbefore, hrule, hinner⟩ := h.exists_part (by decide) (by decide) hscope
    (isHtmlNamed_eq_false hordinary htemplate)
  have hname := h.eq_of_inScope heq hbefore hrule hscope hordinary hnot
  rcases partRule?_cases hrule with ⟨-, rfl⟩ | ⟨-, rfl⟩ | ⟨-, rfl⟩ | ⟨-, rfl⟩ | ⟨-, rfl⟩
  iterate 4 cases hinner
  exact h.leaveImplied heq hbefore hrule (p := isHtmlNamed label) (by rw [hname]; simp [isHtmlNamed])
    fun name hname => isHtmlNamed_eq_false hordinary htemplate name (.inl hname)

theorem inCell (h : c.Ready σ modes .inCell) (hlawful : σ.Lawful) (hfits : σ.FitsToken token) :
    Comes σ bound token (c.inCell token) := by
  have hagain : ∀ {p : Name → Bool}, inScope endsTableScope (fun e => p e.name) c.opened →
      (∀ name, isOrdinary name ∨ name = .html "template" → p name = false) → ¬ Insists σ token →
        Comes σ bound token (c.leaveCell token) := fun hscope hp hnot => (h.leaveCell hscope hp).comes_again hnot
  unfold Construction.inCell
  split
  · next tag =>
    split_ifs with hpart hscope
    · exact hagain (p := isCell) hscope (isHtmlAmong_eq_false (by decide) (by decide))
        (not_insists_of_isDroppable (isDroppable_of_mem (List.contains_iff_mem.mp hpart)))
    · exact h.drops (.inl (isDroppable_of_mem (List.contains_iff_mem.mp hpart)))
    · exact h.inBody hlawful (by decide) hfits (.inr (by simp))
  · next tag =>
    have hpasses : ∀ {mode : InsertionMode} {c' : Construction}, tag.label ≠ "template" → c'.Ready σ modes mode →
        Comes σ bound (.closing tag) (c', .done) := fun hne h' => h'.passes (by simp) (after_closing hne)
    split
    iterate 2
      split_ifs with hscope
      · exact hpasses (by rw [‹tag.label = _›]; decide) (h.closeCell (by simp [*]) hscope)
      · exact hpasses (by rw [‹tag.label = _›]; decide) h
    iterate 5 exact hpasses (by rw [‹tag.label = _›]; decide) h
    iterate 5
      split_ifs with hscope
      · exact hagain (p := isHtmlNamed tag.label) hscope
          (isHtmlNamed_eq_false (by rw [‹tag.label = _›]; decide) (by rw [‹tag.label = _›]; decide))
          (show ¬ tag.label = "template" by rw [‹tag.label = _›]; decide)
      · exact hpasses (by rw [‹tag.label = _›]; decide) h
    · refine h.inBody hlawful (by decide) hfits (.inr fun tag' htag => ?_)
      cases htag
      simp_all
  · next hopening hclosing =>
    exact h.inBody hlawful (by decide) hfits (.inr fun tag htag => absurd htag (hclosing tag))

end Ready
end Construction
end Html
end Markup
end CrossRef
