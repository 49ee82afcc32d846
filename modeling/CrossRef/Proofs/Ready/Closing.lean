import CrossRef.Proofs.Ready.Basic

/-!
Closing elements. Where an end tag is looked up among the open elements, no part of a table is closed on the
way to an ordinary element.
-/
namespace CrossRef
namespace Markup
namespace Html

/-- What is open inside of elements above the body. -/
theorem exists_inner {σ : Setting} {inner before rest : List OpenElement}
    (heq : inner ++ σ.outermost = before ++ rest)
    (hbefore : ∀ e ∈ before, isHtmlAmong ["html", "body"] e.name = false) :
    ∃ between, inner = before ++ between ∧ rest = between ++ σ.outermost := by
  rcases List.append_eq_append_iff.mp heq with ⟨more, rfl, hrest⟩ | h
  · cases more with
    | nil => exact ⟨[], by simp, by simpa using hrest.symm⟩
    | cons e more =>
      obtain ⟨rfl, -⟩ := List.cons_eq_cons.mp hrest
      exact absurd (hbefore ⟨σ.body, .html "body"⟩ (by simp)) (by simp [isHtmlAmong])
  · exact h

/-- An element above the body with what is open inside of it. -/
theorem exists_before {σ : Setting} {inner before after : List OpenElement} {e : OpenElement}
    (heq : inner ++ σ.outermost = before ++ e :: after) (he : isHtmlAmong ["html", "body"] e.name = false) :
    ∃ between, inner = before ++ e :: between := by
  have hnot : e ∉ σ.outermost := fun hmem => by
    rcases List.mem_pair.mp hmem with rfl | rfl <;> simp [isHtmlAmong] at he
  rcases List.append_eq_append_iff.mp heq with ⟨more, -, hrest⟩ | ⟨more, rfl, hrest⟩
  · exact absurd (by simp [hrest]) hnot
  · cases more with
    | nil =>
      rw [List.nil_append] at hrest
      exact absurd (hrest ▸ List.mem_cons_self) hnot
    | cons e' more =>
      obtain ⟨rfl, -⟩ := List.cons_eq_cons.mp hrest
      exact ⟨more, rfl⟩

theorem not_outermost_of_isOrdinary {name : Name} (h : isOrdinary name) :
    isHtmlAmong ["html", "body"] name = false := by
  simp only [isOrdinary, Bool.and_eq_true, Bool.not_eq_true'] at h
  exact h.1.2

/-- Where a look outward meets its target. -/
theorem exists_of_inScope {ends : Name → Bool} {target : OpenElement → Bool} {opened : List OpenElement}
    (h : inScope ends target opened) : ∃ before e after, opened = before ++ e :: after ∧ target e ∧
      ∀ x ∈ before, target x = false ∧ ends x.name = false := by
  induction opened with
  | nil => simp [inScope] at h
  | cons e opened ih =>
    cases htarget : target e with
    | true => exact ⟨[], e, opened, rfl, htarget, by simp⟩
    | false =>
      simp only [inScope, htarget, Bool.false_or, Bool.and_eq_true, Bool.not_eq_true'] at h
      obtain ⟨before, found, after, rfl, hfound, hbefore⟩ := ih h.2
      exact ⟨e :: before, found, after, rfl, hfound, List.forall_mem_cons.mpr ⟨⟨htarget, h.1⟩, hbefore⟩⟩

/-- Nothing on the way to the target ends the scope. -/
theorem not_ends_of_inScope {ends : Name → Bool} {target : OpenElement → Bool} {before after : List OpenElement}
    {e : OpenElement} (h : inScope ends target (before ++ e :: after)) (hbefore : ∀ x ∈ before, target x = false) :
    ∀ x ∈ before, ends x.name = false := by
  induction before with
  | nil => simp
  | cons x before ih =>
    obtain ⟨hx, hrest⟩ := List.forall_mem_cons.mp hbefore
    simp only [List.cons_append, inScope, hx, Bool.false_or, Bool.and_eq_true, Bool.not_eq_true'] at h
    exact List.forall_mem_cons.mpr ⟨h.1, ih h.2 hrest⟩

theorem inScope_of_split {ends : Name → Bool} {target : OpenElement → Bool} {before after : List OpenElement}
    {e : OpenElement} (he : target e) (hbefore : ∀ x ∈ before, ends x.name = false) :
    inScope ends target (before ++ e :: after) := by
  induction before with
  | nil => simp [inScope, he]
  | cons x before ih =>
    obtain ⟨hx, hrest⟩ := List.forall_mem_cons.mp hbefore
    simp [inScope, hx, ih hrest]

/-- Elements that are not the target are closed. -/
theorem inScope_dropWhile {ends : Name → Bool} {target p : OpenElement → Bool} {opened : List OpenElement}
    (h : inScope ends target opened) (hp : ∀ e, p e → target e = false) :
    inScope ends target (opened.dropWhile p) := by
  induction opened with
  | nil => exact h
  | cons e opened ih =>
    cases hpe : p e with
    | false => rwa [List.dropWhile_cons_of_neg (by simp [hpe])]
    | true =>
      rw [List.dropWhile_cons_of_pos hpe]
      simp only [inScope, hp e hpe, Bool.false_or, Bool.and_eq_true] at h
      exact ih h.2

theorem dropWhile_dropWhile {α : Type} {p q : α → Bool} (h : ∀ x, q x → p x) (l : List α) :
    (l.dropWhile q).dropWhile p = l.dropWhile p := by
  induction l with
  | nil => rfl
  | cons x l ih =>
    cases hq : q x with
    | true => rw [List.dropWhile_cons_of_pos hq, List.dropWhile_cons_of_pos (h x hq), ih]
    | false => rw [List.dropWhile_cons_of_neg (by simp [hq])]

/-- The first element with a property. -/
theorem exists_first {p : OpenElement → Bool} {opened : List OpenElement} (h : opened.any p) :
    ∃ before e after, opened = before ++ e :: after ∧ p e ∧ ∀ x ∈ before, p x = false := by
  have hscope : inScope (fun _ => false) p opened := by
    induction opened with
    | nil => exact h
    | cons e opened ih =>
      simp only [List.any_cons, Bool.or_eq_true] at h
      simpa [inScope] using h.imp_right ih
  obtain ⟨before, e, after, heq, he, hbefore⟩ := exists_of_inScope hscope
  exact ⟨before, e, after, heq, he, fun x hx => (hbefore x hx).1⟩

theorem split_of_dropWhile {α : Type} {p : α → Bool} {l after : List α} {e : α} (h : l.dropWhile p = e :: after) :
    l = l.takeWhile p ++ e :: after := by
  rw [← h, List.takeWhile_append_dropWhile]

theorem tail_dropWhile_of_split {α : Type} {p : α → Bool} {before after : List α} {e : α}
    (hbefore : ∀ x ∈ before, p x) (he : p e = false) :
    ((before ++ e :: after).dropWhile p).tail = after := by
  rw [List.dropWhile_append_of_pos hbefore, List.dropWhile_cons_of_neg (by simp [he]), List.tail_cons]

/-- Every kind of scope ends at tables and templates. -/
theorem not_endsFostering (ends : Name → Bool) (hends : ∀ label ∈ ["table", "template"], ends (.html label))
    (name : Name) (h : ends name = false) : endsFostering name = false := by
  by_contra hnot
  obtain ⟨label, hlabel, rfl⟩ := eq_html_of_isHtmlAmong (Bool.of_not_eq_false hnot)
  exact absurd (hends label hlabel) (by simp [h])

theorem not_isContextual_of_not_isSpecial {name : Name} (h : isSpecial name = false) : isContextual name = false := by
  by_contra hnot
  obtain ⟨label, hlabel, rfl⟩ := eq_html_of_isHtmlAmong (isHtmlAmong_of_isContextual (Bool.of_not_eq_false hnot))
  have hall : ∀ label ∈ ["table", "tbody", "tfoot", "thead", "tr", "td", "th", "caption", "colgroup", "template"],
      isSpecial (.html label) := by decide
  exact absurd (hall label hlabel) (by simp [h])

namespace Construction
namespace Ready

variable {σ : Setting} {modes : List InsertionMode} {mode : InsertionMode} {c : Construction}
  {before rest after : List OpenElement} {e : OpenElement} {p : Name → Bool} {ends : Name → Bool} {label : String}

/-- Some elements are closed. -/
theorem narrow (h : c.Ready σ modes mode) (hsub : rest.Sublist c.opened)
    (hnested : ∃ inner, rest = inner ++ σ.outermost ∧ Nests modes (inner.map (·.name)) mode) :
    Ready σ modes mode { c with opened := rest } :=
  ⟨h.held.sublist hsub, hnested, h.listed, h.form, h.templateModes, h.mode,
    (templateDepth_le_of_sublist (hsub.map _)).trans h.depth⟩

/-- The innermost elements are closed. -/
theorem closeInner (h : c.Ready σ modes mode) (heq : c.opened = before ++ rest)
    (hbefore : ∀ e ∈ before, isOrdinary e.name) : Ready σ modes mode { c with opened := rest } := by
  obtain ⟨inner, hinner, hnests⟩ := h.nested
  obtain ⟨between, rfl, rfl⟩ := exists_inner (hinner.symm.trans heq)
    fun e he => not_outermost_of_isOrdinary (hbefore e he)
  refine h.narrow (heq ▸ List.sublist_append_right _ _) ⟨between, rfl, ?_⟩
  rw [List.map_append] at hnests
  exact hnests.drop fun name hname => by
    obtain ⟨e, he, rfl⟩ := List.mem_map.mp hname
    exact hbefore e he

/-- What stands inside of an ordinary element is ordinary, up to tables and templates. -/
theorem ordinary_before (h : c.Ready σ modes mode) (heq : c.opened = before ++ e :: after)
    (he : isOrdinary e.name) (hbefore : ∀ x ∈ before, endsFostering x.name = false) :
    ∀ x ∈ before, isOrdinary x.name := by
  obtain ⟨inner, hinner, hnests⟩ := h.nested
  obtain ⟨between, rfl⟩ := exists_before (hinner.symm.trans heq) (not_outermost_of_isOrdinary he)
  rw [List.map_append, List.map_cons] at hnests
  have hall := hnests.ordinary_before he fun other hother => by
    obtain ⟨x, hx, rfl⟩ := List.mem_map.mp hother
    exact hbefore x hx
  exact fun x hx => hall x.name (List.mem_map_of_mem hx)

theorem popWhile (h : c.Ready σ modes mode) (hp : ∀ name, p name → isOrdinary name) :
    (c.popWhile p).Ready σ modes mode :=
  h.closeInner (List.takeWhile_append_dropWhile).symm fun e he =>
    hp e.name (List.mem_takeWhile_imp (p := fun e : OpenElement => p e.name) he)

theorem popThrough (h : c.Ready σ modes mode) (hscope : inScope ends (fun e => p e.name) c.opened)
    (hends : ∀ name, ends name = false → endsFostering name = false) (hp : ∀ name, p name → isOrdinary name) :
    (c.popThrough p).Ready σ modes mode := by
  obtain ⟨before, e, after, heq, he, hbefore⟩ := exists_of_inScope hscope
  have hordinary := h.ordinary_before heq (hp e.name he) fun x hx =>
    hends _ (hbefore x hx).2
  have hpop : c.popThrough p = { c with opened := after } := by
    rw [Construction.popThrough, Construction.popWhile, Construction.pop]
    congr 1
    rw [heq]
    exact tail_dropWhile_of_split (fun x hx => by simp [(hbefore x hx).1]) (by simp [he])
  rw [hpop]
  exact h.closeInner (show c.opened = (before ++ [e]) ++ after by simp [heq]) fun x hx => by
    rcases List.mem_append.mp hx with hx | hx
    · exact hordinary x hx
    · rw [List.mem_singleton.mp hx]
      exact hp e.name he

theorem isOrdinary_of_hasImpliedEnd {name : Name} (h : hasImpliedEnd name) : isOrdinary name := by
  obtain ⟨label, hlabel, rfl⟩ := eq_html_of_isHtmlAmong h
  have hall : ∀ label ∈ ["dd", "dt", "li", "option", "optgroup", "p", "rb", "rp", "rt", "rtc"],
      isOrdinary (.html label) := by decide
  exact hall label hlabel

theorem isOrdinary_of_isHtmlNamed (hlabel : isOrdinary (.html label)) {name : Name} (h : isHtmlNamed label name) :
    isOrdinary name := eq_html_of_isHtmlNamed h ▸ hlabel

theorem closeImplied (h : c.Ready σ modes mode) : c.closeImplied.Ready σ modes mode :=
  h.popWhile fun _ => isOrdinary_of_hasImpliedEnd

theorem closeImpliedExcept (h : c.Ready σ modes mode) (label : String) :
    (c.closeImpliedExcept label).Ready σ modes mode :=
  h.popWhile fun _ hname => isOrdinary_of_hasImpliedEnd (by simp only [Bool.and_eq_true] at hname; exact hname.1)

theorem popThroughNamed (h : c.Ready σ modes mode) (hscope : c.hasInScopeOf ends label)
    (hends : ∀ name, ends name = false → endsFostering name = false) (hlabel : isOrdinary (.html label)) :
    (c.popThroughNamed label).Ready σ modes mode :=
  h.popThrough hscope hends fun _ => isOrdinary_of_isHtmlNamed hlabel

theorem hasInScopeOf_closeImpliedExcept (h : c.hasInScopeOf ends label) :
    (c.closeImpliedExcept label).hasInScopeOf ends label :=
  inScope_dropWhile h fun e he => by simp at he; exact he.2

theorem hasInScopeOf_closeImplied (h : c.hasInScopeOf ends label) (hlabel : hasImpliedEnd (.html label) = false) :
    c.closeImplied.hasInScopeOf ends label :=
  inScope_dropWhile h fun e he => Bool.eq_false_iff.mpr fun hnamed => by
    rw [eq_html_of_isHtmlNamed hnamed, hlabel] at he
    exact Bool.false_ne_true he

/-- The elements inside of an open element are closed, and then it. -/
theorem closeExcept (h : c.Ready σ modes mode) (hscope : c.hasInScopeOf ends label)
    (hends : ∀ name, ends name = false → endsFostering name = false) (hlabel : isOrdinary (.html label)) :
    ((c.closeImpliedExcept label).popThroughNamed label).Ready σ modes mode :=
  (h.closeImpliedExcept label).popThroughNamed (hasInScopeOf_closeImpliedExcept hscope) hends hlabel

theorem closeParagraph (h : c.Ready σ modes mode) (hscope : c.hasInScopeOf endsButtonScope "p") :
    c.closeParagraph.Ready σ modes mode :=
  h.closeExcept hscope (not_endsFostering _ (by decide)) (by decide)

@[grind ←] theorem closeParagraphInScope (h : c.Ready σ modes mode) :
    c.closeParagraphInScope.Ready σ modes mode := by
  unfold Construction.closeParagraphInScope
  split_ifs with hscope
  · exact h.closeParagraph hscope
  · exact h

theorem closeThrough (h : c.Ready σ modes mode) (hscope : c.hasInScope label)
    (hlabel : isOrdinary (.html label)) (himplied : hasImpliedEnd (.html label) = false) :
    (c.closeImplied.popThroughNamed label).Ready σ modes mode :=
  h.closeImplied.popThroughNamed (hasInScopeOf_closeImplied hscope himplied)
    (not_endsFostering _ (by decide)) hlabel

theorem closeNamed (h : c.Ready σ modes mode) (hlabel : isOrdinary (.html label))
    (himplied : hasImpliedEnd (.html label) = false) : (c.closeNamed label).Ready σ modes mode := by
  unfold Construction.closeNamed
  split_ifs with hscope
  · exact h.closeThrough hscope hlabel himplied
  · exact h

/-- The innermost element is closed. -/
theorem pop (h : c.Ready σ modes mode) (hcurrent : ∀ e ∈ c.opened.head?, isOrdinary e.name) :
    c.pop.Ready σ modes mode := by
  cases hopened : c.opened with
  | nil =>
    obtain ⟨inner, heq, -⟩ := h.nested
    simp [hopened, Setting.outermost] at heq
  | cons e outer =>
    have hpop : c.pop = { c with opened := outer } := by rw [Construction.pop, hopened, List.tail_cons]
    rw [hpop]
    exact h.closeInner (show c.opened = [e] ++ outer from hopened) (by simpa [hopened] using hcurrent)

theorem pop_of_currentIs (h : c.Ready σ modes mode) (hcurrent : c.currentIs p)
    (hp : ∀ name, p name → isOrdinary name) : c.pop.Ready σ modes mode :=
  h.pop fun e he => hp e.name (by simpa [currentIs, current?, Option.mem_def.mp he] using hcurrent)

theorem closeItem (h : c.Ready σ modes mode) {labels : List String}
    (hlabels : ∀ label ∈ labels, isOrdinary (.html label)) : (c.closeItem labels).Ready σ modes mode := by
  unfold Construction.closeItem
  dsimp only
  rw [drop_length_takeWhile]
  split
  · next e hhead =>
    split_ifs with hitem
    · obtain ⟨label, hlabel, hname⟩ := eq_html_of_isHtmlAmong hitem
      obtain ⟨outer, hdrop⟩ := List.head?_eq_some_iff.mp hhead
      have hsplit := split_of_dropWhile hdrop
      refine h.closeExcept ?_ (not_endsFostering endsItemSearch (by decide))
        (by rw [hname]; exact hlabels label hlabel)
      rw [hasInScopeOf, hsplit]
      refine inScope_of_split (by simp [hname, isHtmlNamed]) fun x hx => ?_
      have hpassed := List.mem_takeWhile_imp hx
      simp only [Bool.and_eq_true, Bool.not_eq_true'] at hpassed
      exact hpassed.2
    · exact h
  · exact h

theorem removeOpen (h : c.Ready σ modes mode) {node : NodeId}
    (hnode : ∀ e ∈ c.opened, e.node = node → isOrdinary e.name) : (c.removeOpen node).Ready σ modes mode := by
  obtain ⟨inner, heq, hnests⟩ := h.nested
  have houter : σ.outermost.filter (fun e => e.node ≠ node) = σ.outermost := by
    refine List.filter_eq_self.mpr fun e he => ?_
    by_contra hnot
    have hordinary := hnode e (by simp [heq, he]) (by simpa using hnot)
    have hname := not_outermost_of_isOrdinary hordinary
    rcases List.mem_pair.mp he with rfl | rfl <;> simp [isHtmlAmong] at hname
  refine h.narrow List.filter_sublist ⟨inner.filter fun e => e.node ≠ node, ?_, hnests.filter fun e he hp => ?_⟩
  · rw [heq, List.filter_append, houter]
  · exact hnode e (by simp [heq, he]) (by simpa using hp)

/-- The end tag of an element without rules of its own. -/
theorem closeOrdinary (h : c.Ready σ modes mode) (houter : isHtmlAmong ["html", "body"] (.html label) = false)
    (hpart : isContextual (.html label) → mode = .inBody ∧ label ≠ "template") :
    (c.closeOrdinary label).Ready σ modes mode := by
  unfold Construction.closeOrdinary
  dsimp only
  rw [drop_length_takeWhile]
  split
  · exact h
  · next e outer hdrop =>
    split_ifs with hnamed
    · have hsplit := split_of_dropWhile hdrop
      have hname := eq_html_of_isHtmlNamed hnamed
      obtain ⟨inner, hinner, hnests⟩ := h.nested
      obtain ⟨between, rfl⟩ := exists_before (hinner.symm.trans hsplit) (by rwa [hname])
      rw [List.map_append, List.map_cons] at hnests
      -- what is inside of it is not special and so ordinary
      have hbefore : ∀ x ∈ c.opened.takeWhile (fun e => !isHtmlNamed label e.name && !isSpecial e.name),
          isOrdinary x.name := fun x hx => by
        have hpassed := List.mem_takeWhile_imp hx
        simp only [Bool.and_eq_true, Bool.not_eq_true'] at hpassed
        exact hnests.isOrdinary_of_mem (List.mem_append_left _ (List.mem_map_of_mem hx))
          (not_isContextual_of_not_isSpecial hpassed.2)
      have he : isOrdinary e.name := by
        by_cases hcontextual : isContextual e.name
        · obtain ⟨rfl, hlabel⟩ := hpart (hname ▸ hcontextual)
          have hrest := hnests.drop fun name hmem => by
            obtain ⟨x, hx, rfl⟩ := List.mem_map.mp hmem
            exact hbefore x hx
          have htemplate := hrest.eq_template_of_inBody hcontextual
          rw [hname] at htemplate
          exact absurd (congrArg Name.label htemplate) hlabel
        · exact hnests.isOrdinary_of_mem (by simp) (by simpa using hcontextual)
      exact h.closeInner ((List.append_assoc _ [e] _).symm ▸ hsplit) fun x hx => by
        rcases List.mem_append.mp hx with hx | hx
        · exact hbefore x hx
        · exact List.mem_singleton.mp hx ▸ he
    · exact h

theorem closeForm (h : c.Ready σ modes mode) : c.closeForm.Ready σ modes mode := by
  unfold Construction.closeForm
  split_ifs
  · exact h.closeNamed (by decide) (by decide)
  · split
    · exact h
    · next node hform =>
      have hnone : Ready σ modes mode { c with form := none } := { h with form := by simp }
      dsimp only
      split_ifs
      · refine hnone.closeImplied.removeOpen fun e he heq => ?_
        have hnamed := hnone.closeImplied.held.named e he
        have hname : c.dom.name? (some node) = some (.html "form") := h.form node hform
        rw [heq] at hnamed
        rw [Option.some_inj.mp (hnamed.symm.trans hname)]
        decide
      · exact hnone

end Ready
end Construction
end Html
end Markup
end CrossRef
