import CrossRef.Proofs.Ready.Body

/-!
Tokens inside tables keep a construction in order. The innermost part of a table or template tells what is
closed where a mode is left.
-/
namespace CrossRef
namespace Markup
namespace Html

/-! ### What a mode tells of the open elements -/

namespace Nests

variable {modes : List InsertionMode} {names : List Name} {mode : InsertionMode} {name : Name} {rule : PartRule}

/-- Between a part of a table and the table or template around it there are groups and rows only. -/
theorem exists_endsTableScope (h : Nests modes (name :: names) mode) (hpart : (partRule? name).isSome) :
    ∃ between e outer, names = between ++ e :: outer ∧ endsTableScope e ∧
      ∀ x ∈ between, isHtmlAmong ["tbody", "tfoot", "thead", "tr"] x := by
  generalize hall : name :: names = all at h
  induction h generalizing name names with
  | body => cases hall
  | ordinary hname =>
    obtain ⟨rfl, rfl⟩ := List.cons_eq_cons.mp hall
    obtain ⟨rule, hrule⟩ := Option.isSome_iff_exists.mp hpart
    exact absurd hname (by simp [(classes_of_partRule? hrule).2.2])
  | table heq =>
    obtain ⟨rfl, rfl⟩ := List.cons_eq_cons.mp hall
    exact absurd hpart (by rw [heq]; decide)
  | part hrule hholder h ih =>
    obtain ⟨rfl, rfl⟩ := List.cons_eq_cons.mp hall
    obtain ⟨holder, hmem, hholds⟩ := hholder
    obtain ⟨outer, rfl⟩ := List.head?_eq_some_iff.mp (Option.mem_def.mp hmem)
    by_cases hends : endsTableScope holder
    · exact ⟨[], holder, outer, rfl, hends, by simp⟩
    · have hlisted : ∀ label ∈ ["html", "table", "template", "tbody", "tfoot", "thead", "tr"],
          endsTableScope (.html label) = false →
            isHtmlAmong ["tbody", "tfoot", "thead", "tr"] (.html label) ∧ (partRule? (.html label)).isSome := by decide
      obtain ⟨label, hlabel, rfl⟩ := eq_html_of_isHtmlAmong (isHtmlAmong_of_holds hrule hholds)
      obtain ⟨hamong, hsome⟩ := hlisted label hlabel (by simpa using hends)
      obtain ⟨between, e, outer, rfl, he, hbetween⟩ := ih hsome rfl
      exact ⟨.html label :: between, e, outer, rfl, he, List.forall_mem_cons.mpr ⟨hamong, hbetween⟩⟩
  | template heq =>
    obtain ⟨rfl, rfl⟩ := List.cons_eq_cons.mp hall
    exact absurd hpart (by rw [heq]; decide)

/-- In the mode of column groups one is innermost, or a template is open. -/
theorem column_or_template (h : Nests modes names .inColumnGroup) :
    names.head? = some (.html "colgroup") ∨ .html "template" ∈ names := by
  generalize hmode : InsertionMode.inColumnGroup = mode at h
  induction h with
  | body => cases hmode
  | @ordinary modes names mode name _ hcontext _ ih =>
    refine .inr (List.mem_cons_of_mem _ ((ih hmode).resolve_left fun hhead => hcontext ?_))
    obtain ⟨outer, rfl⟩ := List.head?_eq_some_iff.mp hhead
    rfl
  | table => cases hmode
  | part hrule =>
    rcases partRule?_cases hrule with ⟨-, heq⟩ | ⟨rfl, -⟩ | ⟨-, heq⟩ | ⟨-, heq⟩ | ⟨-, heq⟩
    · cases heq; cases hmode
    · exact .inl rfl
    · cases heq; cases hmode
    · cases heq; cases hmode
    · cases heq; cases hmode
  | template heq => exact .inr (heq ▸ List.mem_cons_self)

end Nests

namespace Construction
namespace Ready

variable {σ : Setting} {modes : List InsertionMode} {mode : InsertionMode} {c : Construction} {tag : Tag}
  {bound : Nat} {rule : PartRule}

/-- Where templates may not be open there are no modes of templates. -/
theorem not_template (h : c.Ready σ modes mode) (hdepth : σ.depth = 0) : ∀ e ∈ c.opened, e.name ≠ .html "template" := by
  have hzero := Nat.le_zero.mp (hdepth ▸ h.depth)
  exact fun e he => not_template_of_templateDepth hzero e.name (List.mem_map_of_mem he)

/-- The innermost part or template. -/
theorem exists_context (h : c.Ready σ modes mode) (hmode : mode ≠ .inBody) :
    ∃ before e after, c.opened = before ++ e :: after ∧ (∀ x ∈ before, isOrdinary x.name) ∧
      (e.name = .html "template" ∨ e.name = .html "table" ∧ mode = .inTable ∨
        ∃ rule, partRule? e.name = some rule ∧ mode = rule.inner) := by
  obtain ⟨inner, heq, hnests⟩ := h.nested
  obtain ⟨before, name, rest, hnames, hbefore, hname⟩ := hnests.exists_context hmode
  obtain ⟨front, back, rfl, rfl, hback⟩ := List.map_eq_append_iff.mp hnames
  obtain ⟨e, after, rfl, rfl, -⟩ := List.map_eq_cons_iff.mp hback
  exact ⟨front, e, after ++ σ.outermost, by simp [heq],
    fun x hx => hbefore x.name (List.mem_map_of_mem hx), hname⟩

/-- What an element above the body stands in. -/
theorem nested_cons (h : c.Ready σ modes mode) {e : OpenElement} {outer : List OpenElement} (heq : c.opened = e :: outer)
    (hne : isHtmlAmong ["html", "body"] e.name = false) :
    ∃ inner, outer = inner ++ σ.outermost ∧ Nests modes (e.name :: inner.map (·.name)) mode := by
  obtain ⟨inner, hinner, hnests⟩ := h.nested
  obtain ⟨between, rfl, hrest⟩ := exists_inner (hinner.symm.trans (heq.trans List.singleton_append.symm))
    fun x hx => by rwa [List.mem_singleton.mp hx]
  exact ⟨between, hrest, by simpa using hnests⟩

theorem not_outermost_of_isContextual {name : Name} (h : isContextual name) :
    isHtmlAmong ["html", "body"] name = false := by
  have hall : ∀ label ∈ ["table", "tbody", "tfoot", "thead", "tr", "td", "th", "caption", "colgroup", "template"],
      isHtmlAmong ["html", "body"] (.html label) = false := by decide
  obtain ⟨label, hlabel, rfl⟩ := eq_html_of_isHtmlAmong (isHtmlAmong_of_isContextual h)
  exact hall label hlabel

/-- Everything is closed up to and with a part of a table. -/
theorem leavePart (h : c.Ready σ modes mode) {before after : List OpenElement} {e : OpenElement}
    (heq : c.opened = before ++ e :: after) (hbefore : ∀ x ∈ before, isOrdinary x.name)
    (hrule : partRule? e.name = some rule) :
    Ready σ modes rule.outer { c with opened := after, mode := rule.outer } := by
  have hclosed := h.closeInner heq hbefore
  obtain ⟨inner, rfl, hnests⟩ := hclosed.nested_cons rfl
    (not_outermost_of_isContextual (classes_of_partRule? hrule).1)
  obtain ⟨-, houter, -⟩ := hnests.of_part hrule
  have hsub : (inner ++ σ.outermost).Sublist c.opened := by
    rw [heq]
    exact (List.sublist_cons_self e _).trans (List.sublist_append_right _ _)
  exact ⟨h.held.sublist hsub, ⟨inner, rfl, houter⟩, h.listed, h.form, h.templateModes, rfl,
    (templateDepth_le_of_sublist (hsub.map _)).trans h.depth⟩

theorem not_endsTableScope_of_isOrdinary {name : Name} (h : isOrdinary name) : endsTableScope name = false := by
  by_contra hends
  obtain ⟨label, hlabel, rfl⟩ := eq_html_of_isHtmlAmong (Bool.of_not_eq_false hends)
  have hall : ∀ label ∈ ["html", "table", "template"], isOrdinary (.html label) = false := by decide
  exact absurd h (by simp [hall label hlabel])

theorem inScope_of_append {ends : Name → Bool} {target : OpenElement → Bool} {before rest : List OpenElement}
    (h : inScope ends target (before ++ rest)) (hbefore : ∀ x ∈ before, target x = false) :
    inScope ends target rest := by
  induction before with
  | nil => exact h
  | cons x before ih =>
    obtain ⟨hx, hrest⟩ := List.forall_mem_cons.mp hbefore
    simp only [List.cons_append, inScope, hx, Bool.false_or, Bool.and_eq_true] at h
    exact ih h.2 hrest

/-- Where a part of a table is in scope, the innermost one is no template. -/
theorem exists_part (h : c.Ready σ modes mode) (hmode : mode ≠ .inBody) (hmode' : mode ≠ .inTable) {p : Name → Bool}
    (hscope : inScope endsTableScope (fun e => p e.name) c.opened)
    (hp : ∀ name, isOrdinary name ∨ name = .html "template" → p name = false) :
    ∃ before e after rule, c.opened = before ++ e :: after ∧ (∀ x ∈ before, isOrdinary x.name) ∧
      partRule? e.name = some rule ∧ mode = rule.inner := by
  obtain ⟨before, e, after, heq, hbefore, htemplate | ⟨-, htable⟩ | ⟨rule, hrule, hinner⟩⟩ := h.exists_context hmode
  · rw [heq] at hscope
    have hrest := inScope_of_append hscope fun x hx => hp x.name (.inl (hbefore x hx))
    rw [inScope, hp e.name (.inr htemplate), htemplate] at hrest
    exact absurd hrest (by simp [show endsTableScope (.html "template") = true by decide])
  · exact absurd htable hmode'
  · exact ⟨before, e, after, rule, heq, hbefore, hrule, hinner⟩

/-- A cell, caption or column group in scope is the innermost part. -/
theorem eq_of_inScope (h : c.Ready σ modes mode) {before after : List OpenElement} {e : OpenElement}
    (heq : c.opened = before ++ e :: after) (hbefore : ∀ x ∈ before, isOrdinary x.name)
    (hrule : partRule? e.name = some rule) {label : String} (hscope : c.hasInScopeOf endsTableScope label)
    (hlabel : isOrdinary (.html label) = false)
    (hnot : label ∉ ["html", "table", "template", "tbody", "tfoot", "thead", "tr"]) : e.name = .html label := by
  by_contra hne
  have hnamed : ∀ {name : Name}, name ≠ .html label → isHtmlNamed label name = false := fun hname =>
    Bool.eq_false_iff.mpr fun h => hname (eq_html_of_isHtmlNamed h)
  have hamong : ∀ {name : Name} {labels : List String}, label ∉ labels → isHtmlAmong labels name → name ≠ .html label := by
    rintro name labels hlabels h rfl
    obtain ⟨other, hother, heq⟩ := eq_html_of_isHtmlAmong h
    obtain rfl : label = other := congrArg Name.label heq
    exact hlabels hother
  obtain ⟨inner, rfl, hnests⟩ := (h.closeInner heq hbefore).nested_cons rfl
    (not_outermost_of_isContextual (classes_of_partRule? hrule).1)
  obtain ⟨between, x, outer, hnames, hx, hbetween⟩ := hnests.exists_endsTableScope (by simp [hrule])
  obtain ⟨front, back, rfl, rfl, hback⟩ := List.map_eq_append_iff.mp hnames
  obtain ⟨x, rest, rfl, rfl, -⟩ := List.map_eq_cons_iff.mp hback
  simp only [List.mem_cons, List.not_mem_nil, or_false, not_or] at hnot
  rw [hasInScopeOf, heq] at hscope
  have hinner := inScope_of_append hscope fun y hy => hnamed fun hy' => by
    simp [hy' ▸ hbefore y hy] at hlabel
  rw [inScope, hnamed hne, Bool.false_or, Bool.and_eq_true] at hinner
  rw [List.append_assoc] at hinner
  have hlast := inScope_of_append hinner.2 fun y hy =>
    hnamed (hamong (by simp [hnot]) (hbetween y.name (List.mem_map_of_mem hy)))
  rw [List.cons_append, inScope, hnamed (hamong (by simp [hnot]) hx), hx] at hlast
  simp at hlast

theorem popThrough_opened {p : Name → Bool} {before after : List OpenElement} {e : OpenElement}
    (heq : c.opened = before ++ e :: after) (hbefore : ∀ x ∈ before, p x.name = false) (he : p e.name) :
    (c.popThrough p).opened = after := by
  simp only [Construction.popThrough, Construction.popWhile, Construction.pop, heq]
  exact tail_dropWhile_of_split (fun x hx => by simp [hbefore x hx]) (by simp [he])

theorem popThrough_closeImplied {p : Name → Bool} (hp : ∀ name, hasImpliedEnd name → p name = false) :
    (c.closeImplied.popThrough p).opened = (c.popThrough p).opened := by
  simp only [Construction.closeImplied, Construction.popThrough, Construction.popWhile, Construction.pop]
  rw [dropWhile_dropWhile]
  exact fun x hx => by simp [hp x.name hx]

/-- The part of a table that is innermost is left. -/
theorem leaveThrough (h : c.Ready σ modes mode) {before after : List OpenElement} {e : OpenElement}
    (heq : c.opened = before ++ e :: after) (hbefore : ∀ x ∈ before, isOrdinary x.name)
    (hrule : partRule? e.name = some rule) {p : Name → Bool} (he : p e.name)
    (hp : ∀ name, isOrdinary name → p name = false) :
    Ready σ modes rule.outer { c.popThrough p with mode := rule.outer } :=
  (h.leavePart heq hbefore hrule).congr rfl (popThrough_opened heq (fun x hx => hp x.name (hbefore x hx)) he) rfl rfl
    rfl rfl

/-- The same where end tags may be left out, with the formatting elements inside of the part forgotten. -/
theorem leaveImplied (h : c.Ready σ modes mode) {before after : List OpenElement} {e : OpenElement}
    (heq : c.opened = before ++ e :: after) (hbefore : ∀ x ∈ before, isOrdinary x.name)
    (hrule : partRule? e.name = some rule) {p : Name → Bool} (he : p e.name)
    (hp : ∀ name, isOrdinary name → p name = false) :
    Ready σ modes rule.outer { (c.closeImplied.popThrough p).clearFormatting with mode := rule.outer } :=
  (h.leaveThrough heq hbefore hrule he hp).clearFormatting.congr rfl
    (popThrough_closeImplied fun name hname => hp name (isOrdinary_of_hasImpliedEnd hname)) rfl rfl rfl rfl

/-! ### Opening parts -/

/-- The innermost part or template of the mode that opens a part can hold it. -/
theorem holds_of_context {part name : Name} (hrule : partRule? part = some rule)
    (h : name = .html "template" ∨ name = .html "table" ∧ rule.outer = .inTable ∨
      ∃ rule', partRule? name = some rule' ∧ rule.outer = rule'.inner) : rule.holds name := by
  rcases h with rfl | ⟨rfl, htable⟩ | ⟨rule', hrule', hinner⟩
  · rcases partRule?_cases hrule with ⟨-, rfl⟩ | ⟨-, rfl⟩ | ⟨-, rfl⟩ | ⟨-, rfl⟩ | ⟨-, rfl⟩ <;> rfl
  · rcases partRule?_cases hrule with ⟨-, rfl⟩ | ⟨-, rfl⟩ | ⟨-, rfl⟩ | ⟨-, rfl⟩ | ⟨-, rfl⟩ <;>
      first | rfl | cases htable
  · rcases partRule?_cases hrule with ⟨-, rfl⟩ | ⟨-, rfl⟩ | ⟨-, rfl⟩ | ⟨-, rfl⟩ | ⟨-, rfl⟩ <;>
      rcases partRule?_cases hrule' with ⟨rfl, rfl⟩ | ⟨rfl, rfl⟩ | ⟨rfl | rfl | rfl, rfl⟩ | ⟨rfl, rfl⟩ |
        ⟨rfl | rfl, rfl⟩ <;> first | rfl | cases hinner

theorem outer_ne_inBody {part : Name} (hrule : partRule? part = some rule) :
    rule.outer ≠ .inBody ∧ rule.outer ≠ .inColumnGroup := by
  rcases partRule?_cases hrule with ⟨-, rfl⟩ | ⟨-, rfl⟩ | ⟨-, rfl⟩ | ⟨-, rfl⟩ | ⟨-, rfl⟩ <;> decide

/-- Everything is closed that stands inside of what holds a part. -/
theorem clearTo (h : c.Ready σ modes mode) {part : Name} (hrule : partRule? part = some rule)
    (hmode : mode = rule.outer) : (c.popTo rule.holds).Ready σ modes mode ∧
      ∃ e after, (c.popTo rule.holds).opened = e :: after ∧ rule.holds e.name ∧ isContextual e.name := by
  obtain ⟨before, e, after, heq, hbefore, hcontext⟩ := h.exists_context (hmode ▸ (outer_ne_inBody hrule).1)
  have hholds := holds_of_context hrule (hmode ▸ hcontext)
  have hpopped : (c.popTo rule.holds).opened = e :: after := by
    simp only [Construction.popTo, Construction.popWhile, heq]
    rw [List.dropWhile_append_of_pos, List.dropWhile_cons_of_neg (by simp [hholds])]
    intro x hx
    rw [Bool.not_eq_true', ← Bool.not_eq_true]
    exact fun hx' => absurd (hbefore x hx) (by simp [Nests.not_isOrdinary_of_holds hrule hx'])
  refine ⟨?_, e, after, hpopped, hholds, ?_⟩
  · exact (h.closeInner heq hbefore).congr rfl hpopped rfl rfl rfl rfl
  · rcases hcontext with hname | ⟨hname, -⟩ | ⟨rule', hrule', -⟩
    · rw [hname]; decide
    · rw [hname]; decide
    · exact (classes_of_partRule? hrule').1

theorem ne_body_of_partRule? {label : String} (hrule : partRule? (.html label) = some rule) : label ≠ "body" := by
  rintro rfl
  exact absurd (classes_of_partRule? hrule).1 (by decide)

/-- The start tag of a part of a table where it belongs. -/
theorem openPart (h : c.Ready σ modes mode) (hrule : partRule? (.html tag.label) = some rule)
    (hmode : mode = rule.outer) (hfits : σ.FitsTag tag) :
    Makes (σ.inside (.html tag.label)) (tag.attributesIn .html) modes rule.inner
      { (c.popTo rule.holds).openTag tag with mode := rule.inner } := by
  obtain ⟨hready, e, after, hopened, hholds, hcontextual⟩ := h.clearTo hrule hmode
  obtain ⟨holds, outer, inner⟩ := rule
  obtain rfl : mode = outer := hmode
  obtain ⟨i, hmade⟩ := hready.insertNested (hfits.html (ne_body_of_partRule? hrule)) fun names hnests hnames => by
    refine .part hrule ⟨e.name, ?_, hholds⟩ hnests
    rw [hopened, List.map_cons] at hnames
    cases names with
    | nil =>
      have hbody : e.name = .html "body" := (List.cons_eq_cons.mp hnames).1
      exact absurd hcontextual (by rw [hbody]; decide)
    | cons name names => simpa using (List.cons_eq_cons.mp hnames).1.symm
  refine ⟨i, hmade.congr rfl rfl rfl rfl ?_ rfl⟩
  rw [Construction.openTag, insertOpen_eq_push]
  exact h.templateModes

/-! ### Handling again -/

theorem comes_again (h : c.Ready σ modes mode) {token : Token} (hnot : ¬ Insists σ token) :
    Comes σ bound token (c, .again token) :=
  .again (.inl rfl) h.orderly h.mode_ne_text fun hinsists => absurd hinsists hnot

theorem not_insists_of_isDroppable (h : isDroppable tag.label) : ¬ Insists σ (.opening tag) := by
  simp [Insists, h]

theorem rank_eq (h : c.Ready σ modes mode) : c.rank =
    2 * (c.opened.countP fun e => isHtmlNamed "table" e.name) + if mode = .inColumnGroup then 1 else 0 := by
  obtain ⟨inner, -, hnests⟩ := h.nested
  have hsettled := hnests.isSettled
  rw [rank, h.mode]
  revert hsettled
  cases mode <;> simp [InsertionMode.isSettled]

/-- The end of the innermost table in scope. -/
theorem closeTable (h : c.Ready σ modes mode) (hscope : c.hasInScopeOf endsTableScope "table") :
    ∃ mode', (c.popThroughNamed "table").resetMode.Ready σ modes mode' ∧
      (c.popThroughNamed "table").resetMode.rank < c.rank := by
  obtain ⟨before, e, after, heq, he, hbefore⟩ := exists_of_inScope hscope
  have hname := eq_html_of_isHtmlNamed he
  obtain ⟨mode', hready⟩ := h.closeOutward heq (fun x hx hx' => by
    have hnot := (hbefore x hx).2
    rw [hx'] at hnot
    exact absurd hnot (by decide)) (by rw [hname]; decide) fun hnests => by
      rw [hname] at hnests
      cases hnests with
      | ordinary hordinary => exact absurd hordinary (by decide)
      | table _ _ h => exact ⟨_, h⟩
      | part hrule => exact absurd (classes_of_partRule? hrule).2.1 (by decide)
      | template heq => exact absurd heq (by decide)
  have hopened : (c.popThroughNamed "table").opened = after :=
    popThrough_opened heq (fun x hx => (hbefore x hx).1) he
  have hreset : (c.popThroughNamed "table").resetMode.Ready σ modes mode' :=
    resetMode (hready.congr rfl hopened rfl rfl h.templateModes rfl)
  refine ⟨mode', hreset, ?_⟩
  have hresetOpened : (c.popThroughNamed "table").resetMode.opened = after := hopened
  rw [hreset.rank_eq, h.rank_eq, hresetOpened, heq]
  simp only [List.countP_append, List.countP_cons, he, if_true]
  split_ifs <;> omega

/-- From the modes of a table there is a table in scope, or a template is open. -/
theorem table_or_template (h : c.Ready σ modes mode) (hmode : mode ∈ [.inTable, .inTableBody, .inRow]) :
    c.hasInScopeOf endsTableScope "table" ∨ ∃ e ∈ c.opened, e.name = .html "template" := by
  have hne : mode ≠ .inBody := by rintro rfl; simp at hmode
  obtain ⟨before, e, after, heq, hbefore, htemplate | ⟨htable, -⟩ | ⟨rule, hrule, hinner⟩⟩ := h.exists_context hne
  · exact .inr ⟨e, by simp [heq], htemplate⟩
  · refine .inl ?_
    rw [hasInScopeOf, heq]
    exact inScope_of_split (by rw [htable]; rfl) fun x hx => not_endsTableScope_of_isOrdinary (hbefore x hx)
  · obtain ⟨inner, rfl, hnests⟩ := (h.closeInner heq hbefore).nested_cons rfl
      (not_outermost_of_isContextual (classes_of_partRule? hrule).1)
    obtain ⟨between, x, outer, hnames, hx, hbetween⟩ := hnests.exists_endsTableScope (by simp [hrule])
    obtain ⟨front, back, rfl, rfl, hback⟩ := List.map_eq_append_iff.mp hnames
    obtain ⟨x, rest, rfl, rfl, -⟩ := List.map_eq_cons_iff.mp hback
    obtain ⟨label, hlabel, hname⟩ := eq_html_of_isHtmlAmong hx
    have hhtml := (hnests.ne_of_mem (List.mem_cons_of_mem _ (List.mem_map_of_mem (List.mem_append_right _
      List.mem_cons_self)))).1
    simp only [List.mem_cons, List.not_mem_nil, or_false] at hlabel
    rcases hlabel with rfl | rfl | rfl
    · rw [hname] at hhtml
      exact absurd hhtml (by decide)
    · refine .inl ?_
      have hsplit : c.opened = (before ++ e :: front) ++ x :: (rest ++ σ.outermost) := by simp [heq]
      rw [hasInScopeOf, hsplit]
      refine inScope_of_split (by rw [hname]; rfl) fun y hy => ?_
      rcases List.mem_append.mp hy with hy | hy
      · exact not_endsTableScope_of_isOrdinary (hbefore y hy)
      rcases List.mem_cons.mp hy with rfl | hy
      · exact (classes_of_partRule? hrule).2.1
      · obtain ⟨label, hlabel, hname⟩ := eq_html_of_isHtmlAmong (hbetween y.name (List.mem_map_of_mem hy))
        have hall : ∀ label ∈ ["tbody", "tfoot", "thead", "tr"], endsTableScope (.html label) = false := by decide
        rw [hname]
        exact hall label hlabel
    · exact .inr ⟨x, by simp [heq], hname⟩

theorem depth_pos (h : c.Ready σ modes mode) (htemplate : ∃ e ∈ c.opened, e.name = .html "template") : 0 < σ.depth := by
  obtain ⟨e, he, hname⟩ := htemplate
  exact Nat.pos_of_ne_zero fun hzero => h.not_template hzero e he hname

/-! ### Tokens in tables -/

/-- The content that is placed outside of tables is read as in the body. -/
theorem setFostering (h : c.Ready σ modes mode) (b : Bool) : Ready σ modes mode { c with isFostering := b } :=
  h.congr rfl rfl rfl rfl rfl rfl

end Ready

theorem Awaits.congr {c c' : Construction} {mode : InsertionMode} (h : c.Awaits mode) (hopened : c'.opened = c.opened)
    (hmode : c'.mode = c.mode) (hreturn : c'.returnMode = c.returnMode) : c'.Awaits mode := by
  cases h with
  | settled => exact hmode ▸ .settled
  | text htext hholder => exact hreturn ▸ .text (hmode.trans htext) (by rwa [hopened])
  | tableText htext hne => exact hreturn ▸ .tableText (hmode.trans htext) (by rwa [hreturn])
  | after hafter => exact .after (by rwa [hmode])

theorem Orderly.congr {σ : Setting} {c c' : Construction} (h : c.Orderly σ) (hdom : c'.dom = c.dom)
    (hopened : c'.opened = c.opened) (hformatting : c'.formatting = c.formatting) (hform : c'.form = c.form)
    (htemplateModes : c'.templateModes = c.templateModes) (hmode : c'.mode = c.mode)
    (hreturn : c'.returnMode = c.returnMode) : c'.Orderly σ := by
  obtain ⟨modes, mode, hawaits, hready⟩ := h
  exact ⟨modes, mode, hawaits.congr hopened hmode hreturn,
    hready.congr hdom hopened hformatting hform htemplateModes rfl⟩

theorem Watches.congr {σ : Setting} {attributes : List Attribute} {c c' : Construction} (h : c.Watches σ attributes)
    (hdom : c'.dom = c.dom) (hopened : c'.opened = c.opened) (hformatting : c'.formatting = c.formatting)
    (hform : c'.form = c.form) (htemplateModes : c'.templateModes = c.templateModes) (hmode : c'.mode = c.mode)
    (hreturn : c'.returnMode = c.returnMode) : c'.Watches σ attributes := by
  obtain ⟨i, horderly⟩ := h
  exact ⟨i, horderly.congr hdom hopened hformatting hform htemplateModes hmode hreturn⟩

theorem Comes.setFostering {σ : Setting} {bound : Nat} {token : Token} {c : Construction} {next : Next}
    (h : Comes σ bound token (c, next)) (b : Bool) : Comes σ bound token ({ c with isFostering := b }, next) := by
  cases h with
  | made htoken h hmode => exact .made htoken (h.congr rfl rfl rfl rfl rfl rfl rfl) hmode
  | passed htoken h hmode => exact .passed htoken (h.congr rfl rfl rfl rfl rfl rfl rfl) hmode
  | plaintext htoken hlabel h hmode => exact .plaintext htoken hlabel (h.congr rfl rfl rfl rfl rfl rfl rfl) hmode
  | text htoken hlabel hreading h hmode =>
    exact .text htoken hlabel hreading (h.congr rfl rfl rfl rfl rfl rfl rfl) hmode
  | again hnext h hmode hrank => exact .again hnext (h.congr rfl rfl rfl rfl rfl rfl rfl) hmode hrank

namespace Ready

variable {σ : Setting} {modes : List InsertionMode} {mode : InsertionMode} {c : Construction} {tag : Tag}
  {bound : Nat} {token : Token}

theorem fosterInBody (h : c.Ready σ modes mode) (hlawful : σ.Lawful) (hmode : mode ≠ .inColumnGroup)
    (hfits : σ.FitsToken token) (hlabel : ∀ tag, token = .closing tag → tag.label ∉ ["body", "caption", "col",
      "colgroup", "html", "table", "tbody", "td", "tfoot", "th", "thead", "tr"]) :
    Comes σ bound token (c.fosterInBody token) :=
  ((h.setFostering true).inBody hlawful hmode hfits (.inr hlabel)).setFostering false

theorem textInTable (h : c.Ready σ modes mode) (hlawful : σ.Lawful) (hmode : mode ≠ .inColumnGroup)
    (hnot : ¬ Insists σ token) (hfits : σ.FitsToken token) (hlabel : ∀ tag, token ≠ .closing tag) :
    Comes σ bound token (c.textInTable token) := by
  unfold Construction.textInTable
  split_ifs
  · refine .again (.inl rfl) ⟨modes, c.mode, .tableText rfl (h.mode ▸ hmode), ?_⟩ (by simp)
      fun hinsists => absurd hinsists hnot
    rw [h.mode]
    exact h.congr rfl rfl rfl rfl rfl h.mode.symm
  · exact h.fosterInBody hlawful hmode hfits fun tag htag => absurd htag (hlabel tag)

/-- A part that is left out is opened before the tag is handled again. -/
theorem openBarePart (h : c.Ready σ modes mode) (hlawful : σ.Lawful) (label : String) {rule : PartRule}
    (hlabel : label ∈ ["br", "colgroup", "p", "tbody", "tr"]) (hrule : partRule? (.html label) = some rule)
    (hmode : mode = rule.outer) :
    Ready σ modes rule.inner { (c.popTo rule.holds).openBare label with mode := rule.inner } := by
  have hmade := (h.openPart hrule hmode (hlawful.bare label hlabel)).ready
  have hall : ∀ label ∈ ["br", "colgroup", "p", "tbody", "tr"], isTemplate (.html label) = false := by decide
  rwa [Setting.inside_eq (hall label hlabel)] at hmade

/-- The start tag of a form in a table makes an element without content. -/
theorem insertForm (h : c.Ready σ modes mode) (hfits : σ.FitsTag tag) (hlabel : tag.label = "form") :
    Ready σ modes mode { (c.insertClosed (.html tag.label) (tag.attributesIn .html)).1 with
      form := some (c.insertClosed (.html tag.label) (tag.attributesIn .html)).2 } := by
  have hready := (h.insertClosed (hfits.html (by rw [hlabel]; decide))).ready
  simp only [insertClosed_eq] at hready ⊢
  refine { hready with form := fun node hnode => ?_ }
  obtain rfl := Option.some_inj.mp hnode
  show (c.inserted _).name? _ = _
  rw [Dom.name?, content?_inserted, hlabel]

theorem openInTable (h : c.Ready σ modes mode) (hlawful : σ.Lawful) (hmode : mode ∈ [.inTable, .inTableBody, .inRow])
    (hfits : σ.FitsTag tag) (hlabel : mode = .inTable ∨ tag.label ∉ ["caption", "col", "colgroup", "tbody", "tfoot",
      "thead", "td", "th", "tr"]) : Comes σ c.rank (.opening tag) (c.openInTable tag) := by
  have hcolumn : mode ≠ .inColumnGroup := by rintro rfl; simp at hmode
  have hpart : tag.label ∈ ["caption", "col", "colgroup", "tbody", "tfoot", "thead", "td", "th", "tr"] →
      mode = .inTable := fun hmem => hlabel.resolve_right fun hnot => hnot hmem
  unfold Construction.openInTable
  dsimp only
  split
  · have hrule : partRule? (.html tag.label) = some ⟨endsTableScope, .inTable, .inCaption⟩ := by
      rw [‹tag.label = _›]
      rfl
    exact (h.pushMarker.openPart hrule (hpart (by simp [*])) hfits).comes
  · have hrule : partRule? (.html tag.label) = some ⟨endsTableScope, .inTable, .inColumnGroup⟩ := by
      rw [‹tag.label = _›]
      rfl
    exact (h.openPart hrule (hpart (by simp [*])) hfits).comes
  · have hopened := h.openBarePart hlawful "colgroup" (by decide) rfl (hpart (by simp [*]))
    exact hopened.comes_again (not_insists_of_isDroppable (by rw [‹tag.label = _›]; rfl))
  iterate 3
    have hrule : partRule? (.html tag.label) = some ⟨endsTableScope, .inTable, .inTableBody⟩ := by
      rw [‹tag.label = _›]
      rfl
    exact (h.openPart hrule (hpart (by simp [*])) hfits).comes
  iterate 3
    have hopened := h.openBarePart hlawful "tbody" (by decide) rfl (hpart (by simp [*]))
    exact hopened.comes_again (not_insists_of_isDroppable (by rw [‹tag.label = _›]; rfl))
  · split_ifs with hscope
    · obtain ⟨mode', hready, hrank⟩ := h.closeTable hscope
      exact .again (.inl rfl) hready.orderly hready.mode_ne_text fun _ => hrank
    · exact h.drops (.inr (h.depth_pos ((h.table_or_template hmode).resolve_left hscope)))
  iterate 3 exact h.openMetadata (by rw [‹tag.label = _›]; rfl) (.inl hcolumn) hfits
  · split_ifs
    · exact Makes.comes (h.insertVoid hfits (by rw [‹tag.label = _›]; decide))
    · exact h.fosterInBody hlawful hcolumn hfits (by simp)
  · have hdrop : isDroppable tag.label := by rw [‹tag.label = _›]; rfl
    split_ifs
    · exact h.drops (.inl hdrop)
    · exact (h.insertForm hfits ‹_›).drops (.inl hdrop)
  · exact h.fosterInBody hlawful hcolumn hfits (by simp)

theorem closeInTable (h : c.Ready σ modes mode) (hlawful : σ.Lawful) (hmode : mode ≠ .inColumnGroup) :
    Comes σ c.rank (.closing tag) (c.closeInTable tag) := by
  unfold Construction.closeInTable
  split
  · have hafter : σ.after (.closing tag) = σ := after_closing (by rw [‹tag.label = _›]; decide)
    split_ifs with hscope
    · obtain ⟨mode', hready, -⟩ := h.closeTable hscope
      exact hready.passes (by simp) hafter
    · exact h.passes (by simp) hafter
  iterate 11 exact h.passes (by simp) (after_closing (by rw [‹tag.label = _›]; decide))
  · exact h.comes_closeTemplate ‹_›
  · refine h.fosterInBody hlawful hmode trivial fun tag' htag => ?_
    cases htag
    simp_all

theorem inTable (h : c.Ready σ modes mode) (hlawful : σ.Lawful) (hmode : mode ∈ [.inTable, .inTableBody, .inRow])
    (hfits : σ.FitsToken token) (hlabel : mode = .inTable ∨ ∀ tag, token = .opening tag → tag.label ∉ ["caption",
      "col", "colgroup", "tbody", "tfoot", "thead", "td", "th", "tr"]) : Comes σ c.rank token (c.inTable token) := by
  have hcolumn : mode ≠ .inColumnGroup := by rintro rfl; simp at hmode
  cases token with
  | opening tag => exact h.openInTable hlawful hmode hfits (hlabel.imp_right fun hall => hall tag rfl)
  | closing tag => exact h.closeInTable hlawful hcolumn
  | comment text => exact (h.insertComment hfits).passes (by simp) rfl
  | text chars => exact h.textInTable hlawful hcolumn id trivial (by simp)
  | null => exact h.textInTable hlawful hcolumn id trivial (by simp)
  | doctype => exact h.passes (by simp) rfl

/-! ### Text in tables -/

/-- Only formatting elements are opened again. -/
theorem countP_reopen {p : OpenElement → Bool}
    (hp : ∀ node label, isFormatting label → p ⟨node, .html label⟩ = false) {entries : List FormattingEntry}
    (hentries : ∀ node tag, .element node tag ∈ entries → isFormatting tag.label) (c : Construction)
    (before : List FormattingEntry) : (c.reopen before entries).opened.countP p = c.opened.countP p := by
  induction entries generalizing c before with
  | nil => rfl
  | cons entry rest ih =>
    have hrest := fun node tag hmem => hentries node tag (List.mem_cons_of_mem entry hmem)
    cases entry with
    | marker => exact ih hrest c _
    | element node tag =>
      rw [Construction.reopen, insertOpen_eq_push]
      dsimp only
      rw [ih hrest, List.countP_cons_of_neg (by simp [hp _ _ (hentries node tag List.mem_cons_self)])]

theorem countP_reconstruct (h : c.Ready σ modes mode) {p : OpenElement → Bool}
    (hp : ∀ node label, isFormatting label → p ⟨node, .html label⟩ = false) :
    c.reconstruct.opened.countP p = c.opened.countP p :=
  countP_reopen hp (fun node tag hmem => (h.listed node tag ((List.takeWhile_sublist _).subset
    (List.mem_reverse.mp hmem))).1) c _

theorem placeTableText (h : Ready σ modes mode { c with mode := mode }) (hlawful : σ.Lawful)
    (hreturn : c.returnMode = mode) (hmode : mode ≠ .inColumnGroup) : c.placeTableText.Ready σ modes mode ∧
      c.placeTableText.opened.countP (fun e => isHtmlNamed "table" e.name) =
        c.opened.countP fun e => isHtmlNamed "table" e.name := by
  have hback : Ready σ modes mode { c with tableText := [], mode := c.returnMode } :=
    h.congr rfl rfl rfl rfl rfl hreturn
  have hreopened := (hback.setFostering true).reconstruct hmode
  unfold Construction.placeTableText
  dsimp only
  split_ifs
  · exact ⟨hback, rfl⟩
  · refine ⟨hback.insertText hlawful _, ?_⟩
    rw [insertText_eq]
  · refine ⟨(hreopened.insertText hlawful _).setFostering false, ?_⟩
    simp only [Construction.fosterInBody, Construction.inBody, insertText_eq]
    refine (hback.setFostering true).countP_reconstruct fun node label hlabel => Bool.eq_false_iff.mpr fun hnamed => ?_
    rw [show label = "table" from congrArg Name.label (eq_html_of_isHtmlNamed hnamed)] at hlabel
    exact absurd hlabel (by decide)

theorem inTableText (h : Ready σ modes mode { c with mode := mode }) (hlawful : σ.Lawful)
    (hreturn : c.returnMode = mode) (hmode : mode ≠ .inColumnGroup) (htext : c.mode = .inTableText)
    (hfits : σ.FitsToken token) : Comes σ c.rank token (c.inTableText token) := by
  subst hreturn
  obtain ⟨hplaced, hcount⟩ := h.placeTableText hlawful rfl hmode
  have hagain : Comes σ c.rank token (c.placeTableText, .again token) := by
    refine .again (.inl rfl) hplaced.orderly hplaced.mode_ne_text fun _ => ?_
    rw [hplaced.rank_eq, hcount, rank, htext, if_neg hmode]
    exact Nat.lt_add_of_pos_right (by decide)
  have hcollects : ∀ text, Orderly σ { c with tableText := text } := fun text =>
    ⟨modes, c.returnMode, .tableText htext hmode, h.congr rfl rfl rfl rfl rfl rfl⟩
  cases token with
  | text chars =>
    exact .passed (by simp) (hcollects _) (by rw [htext]; decide)
  | null => exact .passed (by simp) (hcollects c.tableText) (by rw [htext]; decide)
  | _ => exact hagain

end Ready
end Construction
end Html
end Markup
end CrossRef
