import CrossRef.Markup.Html.Construction.Basic
import CrossRef.Markup.Html.Writer
import CrossRef.Proofs.Token.Plain
import CrossRef.Text.Digit
import Mathlib.Tactic.SplitIfs
import Mathlib.Tactic.Tauto

/-!
How open elements stand in each other. The parts of a table stand directly in the part that they belong to or
in a template, and everything else stands anywhere but in a column group. The mode follows from the innermost
part of a table or template.
-/
namespace CrossRef
namespace Markup
namespace Html

/-- The elements that decide on the mode. -/
def isContextual (name : Name) : Bool := isTablePart name || isHtmlNamed "template" name

/-- A mode that is left for another one only when elements are opened or closed. -/
def InsertionMode.isSettled : InsertionMode → Bool
  | .text | .inTableText | .afterBody | .afterAfterBody => false
  | _ => true

/-- An element that has no end tag and holds nothing. -/
def isVoidElement (name : Name) : Bool := name.vocabulary = .html && isVoid name.label

/-- An element that can be open anywhere but in a column group. -/
def isOrdinary (name : Name) : Bool :=
  !isContextual name && !isHtmlAmong ["html", "body"] name && !isVoidElement name

/-- The element that decides on the mode. -/
def context? (names : List Name) : Option Name := names.find? isContextual

/-- What a part of a table stands in, the mode that opens it and the mode inside it. -/
structure PartRule where
  holds : Name → Bool
  outer : InsertionMode
  inner : InsertionMode

/-- The rule for the parts that stand in a table. -/
def partRule? (name : Name) : Option PartRule :=
  if name = .html "caption" then some ⟨endsTableScope, .inTable, .inCaption⟩
  else if name = .html "colgroup" then some ⟨endsTableScope, .inTable, .inColumnGroup⟩
  else if isHtmlAmong ["tbody", "tfoot", "thead"] name then some ⟨endsTableScope, .inTable, .inTableBody⟩
  else if name = .html "tr" then some ⟨isTableBodyContext, .inTableBody, .inRow⟩
  else if isCell name then some ⟨isTableRowContext, .inRow, .inCell⟩
  else none

/-- The open elements above the body, innermost first, with the modes of their templates, stand in each other,
and the mode is the one that they call for. -/
inductive Nests : List InsertionMode → List Name → InsertionMode → Prop
  | body : Nests [] [] .inBody
  | ordinary {modes names mode name} (hname : isOrdinary name)
      (hcontext : context? names ≠ some (.html "colgroup")) (h : Nests modes names mode) :
      Nests modes (name :: names) mode
  | table {modes names mode name} (hname : name = .html "table")
      (hcontext : context? names ≠ some (.html "colgroup")) (h : Nests modes names mode) :
      Nests modes (name :: names) .inTable
  | part {modes holds outer mode names name} (hrule : partRule? name = some ⟨holds, outer, mode⟩)
      (hholder : ∃ holder ∈ names.head?, holds holder) (h : Nests modes names outer) : Nests modes (name :: names) mode
  | template {modes names mode inner name} (hname : name = .html "template")
      (hinner : modes.head? = some inner) (hsettled : inner.isSettled) (h : Nests modes.tail names mode) :
      Nests modes (name :: names) inner

variable {modes : List InsertionMode} {names before : List Name} {mode : InsertionMode}
  {name holder : Name} {rule : PartRule} {holds : Name → Bool}

/-! ### Names -/

theorem not_isContextual_of_isOrdinary (h : isOrdinary name) : isContextual name = false := by
  simp [isOrdinary] at h
  exact h.1.1

theorem eq_html_of_isHtmlAmong {labels : List String} (h : isHtmlAmong labels name) :
    ∃ label ∈ labels, name = .html label := by
  obtain ⟨vocabulary, label⟩ := name
  simp only [isHtmlAmong, Bool.and_eq_true, decide_eq_true_eq, List.contains_iff_mem] at h
  exact ⟨label, h.2, by rw [h.1]⟩

theorem eq_html_of_isHtmlNamed {label : String} (h : isHtmlNamed label name) : name = .html label := by
  obtain ⟨vocabulary, other⟩ := name
  simp only [isHtmlNamed, Bool.and_eq_true, decide_eq_true_eq] at h
  obtain ⟨rfl, rfl⟩ := h
  rfl

/-- The names of the elements that decide on the mode. -/
theorem isHtmlAmong_of_isContextual (h : isContextual name) : isHtmlAmong ["table", "tbody", "tfoot", "thead", "tr",
    "td", "th", "caption", "colgroup", "template"] name := by
  have hlisted : ∀ labels, isHtmlAmong labels name → (∀ label ∈ labels, label ∈ ["table", "tbody", "tfoot", "thead",
      "tr", "td", "th", "caption", "colgroup", "template"]) → isHtmlAmong ["table", "tbody", "tfoot", "thead", "tr",
        "td", "th", "caption", "colgroup", "template"] name := by
    intro labels hlabels hsub
    obtain ⟨label, hlabel, rfl⟩ := eq_html_of_isHtmlAmong hlabels
    simpa [isHtmlAmong] using hsub label hlabel
  simp only [isContextual, isTablePart, isTableFrame, isCell, Bool.or_eq_true] at h
  rcases h with ((hframe | hcell) | hpart) | htemplate
  · exact hlisted _ hframe (by decide)
  · exact hlisted _ hcell (by decide)
  · exact hlisted _ hpart (by decide)
  · exact eq_html_of_isHtmlNamed htemplate ▸ rfl

theorem partRule?_cases (h : partRule? name = some rule) :
    (name = .html "caption" ∧ rule = ⟨endsTableScope, .inTable, .inCaption⟩) ∨
    (name = .html "colgroup" ∧ rule = ⟨endsTableScope, .inTable, .inColumnGroup⟩) ∨
    ((name = .html "tbody" ∨ name = .html "tfoot" ∨ name = .html "thead") ∧
      rule = ⟨endsTableScope, .inTable, .inTableBody⟩) ∨
    (name = .html "tr" ∧ rule = ⟨isTableBodyContext, .inTableBody, .inRow⟩) ∨
    ((name = .html "td" ∨ name = .html "th") ∧ rule = ⟨isTableRowContext, .inRow, .inCell⟩) := by
  unfold partRule? at h
  split_ifs at h with hcaption hcolumn hgroup hrow hcell
  · exact .inl ⟨hcaption, (Option.some_inj.mp h).symm⟩
  · exact .inr (.inl ⟨hcolumn, (Option.some_inj.mp h).symm⟩)
  · obtain ⟨label, hlabel, rfl⟩ := eq_html_of_isHtmlAmong hgroup
    exact .inr (.inr (.inl ⟨by simpa using hlabel, (Option.some_inj.mp h).symm⟩))
  · exact .inr (.inr (.inr (.inl ⟨hrow, (Option.some_inj.mp h).symm⟩)))
  · obtain ⟨label, hlabel, rfl⟩ := eq_html_of_isHtmlAmong hcell
    exact .inr (.inr (.inr (.inr ⟨by simpa using hlabel, (Option.some_inj.mp h).symm⟩)))

/-- A part of a table is no table. -/
theorem classes_of_partRule? (h : partRule? name = some rule) :
    isContextual name ∧ endsTableScope name = false ∧ isOrdinary name = false := by
  rcases partRule?_cases h with ⟨rfl, -⟩ | ⟨rfl, -⟩ | ⟨rfl | rfl | rfl, -⟩ | ⟨rfl, -⟩ | ⟨rfl | rfl, -⟩ <;>
    decide

/-! ### Closing elements -/

namespace Nests

theorem of_ordinary (h : Nests modes (name :: names) mode) (hname : isOrdinary name) :
    Nests modes names mode ∧ context? names ≠ some (.html "colgroup") := by
  cases h with
  | ordinary _ hcontext h => exact ⟨h, hcontext⟩
  | table heq => exact absurd (heq ▸ hname) (by decide)
  | part hrule => exact absurd hname (by simp [(classes_of_partRule? hrule).2.2])
  | template heq => exact absurd (heq ▸ hname) (by decide)

theorem drop (h : Nests modes (before ++ names) mode) (hbefore : ∀ name ∈ before, isOrdinary name) :
    Nests modes names mode := by
  induction before with
  | nil => exact h
  | cons name before ih =>
    obtain ⟨hname, hrest⟩ := List.forall_mem_cons.mp hbefore
    exact ih (h.of_ordinary hname).1 hrest

/-- What a part stands in. -/
theorem of_part (h : Nests modes (name :: names) mode) (hrule : partRule? name = some rule) :
    mode = rule.inner ∧ Nests modes names rule.outer ∧ ∃ holder ∈ names.head?, rule.holds holder := by
  obtain ⟨-, hends, hordinary⟩ := classes_of_partRule? hrule
  cases h with
  | ordinary hname => simp [hname] at hordinary
  | table heq => exact absurd (heq ▸ hends) (by decide)
  | part hrule' hholder h =>
    obtain rfl := Option.some_inj.mp (hrule'.symm.trans hrule)
    exact ⟨rfl, h, hholder⟩
  | template heq => exact absurd (heq ▸ hends) (by decide)

theorem of_template (h : Nests modes (.html "template" :: names) mode) :
    modes.head? = some mode ∧ ∃ outer, Nests modes.tail names outer := by
  cases h with
  | ordinary hname => exact absurd hname (by decide)
  | table heq => exact absurd heq (by decide)
  | part hrule => exact absurd (classes_of_partRule? hrule).2.1 (by decide)
  | template _ hinner _ h => exact ⟨hinner, _, h⟩

/-- What stands outside of elements that are no templates. -/
theorem drop_of_ne_template (h : Nests modes (before ++ names) mode)
    (hbefore : ∀ name ∈ before, name ≠ .html "template") : ∃ outer, Nests modes names outer := by
  induction before generalizing mode with
  | nil => exact ⟨mode, h⟩
  | cons name before ih =>
    obtain ⟨hname, hrest⟩ := List.forall_mem_cons.mp hbefore
    cases h with
    | ordinary _ _ h => exact ih h hrest
    | table _ _ h => exact ih h hrest
    | part _ _ h => exact ih h hrest
    | template heq => exact absurd heq hname

/-- What can hold a part. -/
theorem isHtmlAmong_of_holds (hrule : partRule? name = some rule) (hholder : rule.holds holder) :
    isHtmlAmong ["html", "table", "template", "tbody", "tfoot", "thead", "tr"] holder := by
  have hlisted : ∀ labels, isHtmlAmong labels holder → (∀ label ∈ labels, label ∈ ["html", "table", "template",
      "tbody", "tfoot", "thead", "tr"]) →
        isHtmlAmong ["html", "table", "template", "tbody", "tfoot", "thead", "tr"] holder := by
    intro labels hlabels hsub
    obtain ⟨label, hlabel, rfl⟩ := eq_html_of_isHtmlAmong hlabels
    simpa [isHtmlAmong] using hsub label hlabel
  rcases partRule?_cases hrule with ⟨-, rfl⟩ | ⟨-, rfl⟩ | ⟨-, rfl⟩ | ⟨-, rfl⟩ | ⟨-, rfl⟩ <;>
    exact hlisted _ hholder (by decide)

/-- What holds a part is not ordinary. -/
theorem not_isOrdinary_of_holds (hrule : partRule? name = some rule) (hholder : rule.holds holder) :
    isOrdinary holder = false := by
  obtain ⟨label, hlabel, rfl⟩ := eq_html_of_isHtmlAmong (isHtmlAmong_of_holds hrule hholder)
  have hall : ∀ label ∈ ["html", "table", "template", "tbody", "tfoot", "thead", "tr"],
      isOrdinary (.html label) = false := by decide
  exact hall label hlabel

/-- Up to an ordinary element there are ordinary elements only, if no table or template is between. -/
theorem ordinary_before (h : Nests modes (before ++ name :: names) mode) (hname : isOrdinary name)
    (hbefore : ∀ other ∈ before, isHtmlAmong ["table", "template"] other = false) :
    ∀ other ∈ before, isOrdinary other := by
  induction before generalizing mode with
  | nil => simp
  | cons other before ih =>
    obtain ⟨hother, hrest⟩ := List.forall_mem_cons.mp hbefore
    cases h with
    | ordinary hordinary _ h => exact List.forall_mem_cons.mpr ⟨hordinary, ih h hrest⟩
    | table heq => exact absurd (heq ▸ hother) (by decide)
    | part hrule hholder h =>
      -- the element next to it holds it, but is ordinary
      have hall := ih h hrest
      have hnext : ∀ next ∈ (before ++ name :: names).head?, isOrdinary next := by
        cases before with
        | nil => simpa using hname
        | cons next before => simpa using hall next List.mem_cons_self
      obtain ⟨next, hmem, hholds⟩ := hholder
      exact absurd (hnext next hmem) (by simp [not_isOrdinary_of_holds hrule hholds])
    | template heq => exact absurd (heq ▸ hother) (by decide)

theorem isSettled (h : Nests modes names mode) : mode.isSettled := by
  induction h with
  | body | table => rfl
  | ordinary _ _ _ ih => exact ih
  | part hrule =>
    rcases partRule?_cases hrule with ⟨-, heq⟩ | ⟨-, heq⟩ | ⟨-, heq⟩ | ⟨-, heq⟩ | ⟨-, heq⟩ <;> cases heq <;> rfl
  | template _ _ hsettled => exact hsettled

/-- An element that is no part of a table and no template is ordinary. -/
theorem isOrdinary_of_mem (h : Nests modes names mode) (hmem : name ∈ names)
    (hname : isContextual name = false) : isOrdinary name := by
  induction h with
  | body => simp at hmem
  | ordinary hordinary _ _ ih =>
    rcases List.mem_cons.mp hmem with rfl | hmem
    · exact hordinary
    · exact ih hmem
  | table heq _ _ ih =>
    rcases List.mem_cons.mp hmem with rfl | hmem
    · exact absurd (heq ▸ hname) (by decide)
    · exact ih hmem
  | part hrule _ _ ih =>
    rcases List.mem_cons.mp hmem with rfl | hmem
    · exact absurd hname (by simp [(classes_of_partRule? hrule).1])
    · exact ih hmem
  | template heq _ _ _ ih =>
    rcases List.mem_cons.mp hmem with rfl | hmem
    · exact absurd (heq ▸ hname) (by decide)
    · exact ih hmem

/-- Neither the body nor the root is among the elements above the body. -/
theorem ne_of_mem (h : Nests modes names mode) (hmem : name ∈ names) :
    isHtmlAmong ["html", "body"] name = false ∧ isVoidElement name = false := by
  by_cases hcontextual : isContextual name
  · have hall : ∀ label ∈ ["table", "tbody", "tfoot", "thead", "tr", "td", "th", "caption", "colgroup", "template"],
        isHtmlAmong ["html", "body"] (.html label) = false ∧ isVoidElement (.html label) = false := by decide
    obtain ⟨label, hlabel, rfl⟩ := eq_html_of_isHtmlAmong (isHtmlAmong_of_isContextual hcontextual)
    exact hall label hlabel
  · have hordinary := h.isOrdinary_of_mem hmem (by simpa using hcontextual)
    simp only [isOrdinary, Bool.and_eq_true, Bool.not_eq_true'] at hordinary
    exact ⟨hordinary.1.2, hordinary.2⟩

/-- In a column group nothing can be opened, so the mode says where one is. -/
theorem context_ne (h : Nests modes names mode) (hmode : mode ≠ .inColumnGroup) :
    context? names ≠ some (.html "colgroup") := by
  induction h with
  | body => simp [context?]
  | ordinary hname _ _ ih =>
    rw [context?, List.find?_cons_of_neg (by simp [not_isContextual_of_isOrdinary hname])]
    exact ih hmode
  | table heq => simp [context?, heq, show isContextual (.html "table") by decide, Name.html]
  | part hrule =>
    rw [context?, List.find?_cons_of_pos (classes_of_partRule? hrule).1]
    rintro heq
    obtain rfl := Option.some_inj.mp heq
    rw [show partRule? (.html "colgroup") = some ⟨endsTableScope, .inTable, .inColumnGroup⟩ from rfl] at hrule
    cases hrule
    exact hmode rfl
  | template heq => simp [context?, heq, show isContextual (.html "template") by decide, Name.html]

/-- In the mode of the body no table is the innermost one that decides on it. -/
theorem eq_template_of_inBody (h : Nests modes (name :: names) .inBody) (hname : isContextual name) :
    name = .html "template" := by
  cases h with
  | ordinary hordinary => exact absurd hname (by simp [not_isContextual_of_isOrdinary hordinary])
  | part hrule =>
    rcases partRule?_cases hrule with ⟨-, heq⟩ | ⟨-, heq⟩ | ⟨-, heq⟩ | ⟨-, heq⟩ | ⟨-, heq⟩ <;> cases heq
  | template heq => exact heq

/-- Ordinary elements are opened. -/
theorem push (h : Nests modes names mode) (hcontext : context? names ≠ some (.html "colgroup"))
    (hbefore : ∀ name ∈ before, isOrdinary name) : Nests modes (before ++ names) mode := by
  suffices h : Nests modes (before ++ names) mode ∧
      context? (before ++ names) ≠ some (.html "colgroup") from h.1
  induction before with
  | nil => exact ⟨h, hcontext⟩
  | cons name before ih =>
    obtain ⟨hname, hrest⟩ := List.forall_mem_cons.mp hbefore
    obtain ⟨hnests, hcontext⟩ := ih hrest
    refine ⟨.ordinary hname hcontext hnests, ?_⟩
    rwa [List.cons_append, context?, List.find?_cons_of_neg (by simp [not_isContextual_of_isOrdinary hname])]

/-- Ordinary elements are open instead of others. -/
theorem replace {inner inner' rest : List OpenElement} (h : Nests modes ((inner ++ rest).map (·.name)) mode)
    (hne : inner ≠ []) (hinner : ∀ e ∈ inner, isOrdinary e.name) (hinner' : ∀ e ∈ inner', isOrdinary e.name) :
    Nests modes ((inner' ++ rest).map (·.name)) mode := by
  obtain ⟨before, e, rfl⟩ : ∃ before e, inner = before ++ [e] := by
    rcases List.eq_nil_or_concat inner with hnil | ⟨before, e, heq⟩
    · exact absurd hnil hne
    · exact ⟨before, e, by simpa using heq⟩
  have hmap : ∀ {l : List OpenElement}, (∀ e ∈ l, isOrdinary e.name) → ∀ name ∈ l.map (·.name), isOrdinary name := by
    intro l hl name hname
    obtain ⟨e, he, rfl⟩ := List.mem_map.mp hname
    exact hl e he
  rw [List.append_assoc, List.singleton_append, List.map_append, List.map_cons] at h
  obtain ⟨hrest, hcontext⟩ := (h.drop (hmap fun e he => hinner e (List.mem_append_left _ he))).of_ordinary
    (hinner e (by simp))
  rw [List.map_append]
  exact hrest.push hcontext (hmap hinner')

theorem context?_cons_of_ordinary (h : isOrdinary name) : context? (name :: names) = context? names :=
  List.find?_cons_of_neg (by simp [not_isContextual_of_isOrdinary h])

theorem context?_filter {inner : List OpenElement} {p : OpenElement → Bool}
    (hp : ∀ e ∈ inner, p e = false → isOrdinary e.name) :
    context? ((inner.filter p).map (·.name)) = context? (inner.map (·.name)) := by
  induction inner with
  | nil => rfl
  | cons e inner ih =>
    obtain ⟨he, hrest⟩ := List.forall_mem_cons.mp hp
    cases hpe : p e with
    | false => rw [List.filter_cons_of_neg (by simp [hpe]), ih hrest, List.map_cons, context?_cons_of_ordinary (he hpe)]
    | true =>
      rw [List.filter_cons_of_pos hpe, List.map_cons, List.map_cons, context?, context?, List.find?_cons,
        List.find?_cons]
      cases isContextual e.name with
      | true => rfl
      | false => exact ih hrest

/-- Ordinary elements are taken out. -/
theorem filter {inner : List OpenElement} (h : Nests modes (inner.map (·.name)) mode) {p : OpenElement → Bool}
    (hp : ∀ e ∈ inner, p e = false → isOrdinary e.name) : Nests modes ((inner.filter p).map (·.name)) mode := by
  induction inner generalizing modes mode with
  | nil => exact h
  | cons e inner ih =>
    obtain ⟨he, hrest⟩ := List.forall_mem_cons.mp hp
    cases hpe : p e with
    | false =>
      rw [List.filter_cons_of_neg (by simp [hpe])]
      exact ih (h.of_ordinary (he hpe)).1 hrest
    | true =>
      rw [List.filter_cons_of_pos hpe, List.map_cons]
      rw [List.map_cons] at h
      cases h with
      | ordinary hname hcontext h => exact .ordinary hname (by rwa [context?_filter hrest]) (ih h hrest)
      | table heq hcontext h => exact .table heq (by rwa [context?_filter hrest]) (ih h hrest)
      | part hrule hholder h =>
        refine .part hrule ?_ (ih h hrest)
        -- what holds a part is not ordinary and so stays
        obtain ⟨holder, hmem, hholds⟩ := hholder
        cases inner with
        | nil => simp at hmem
        | cons next inner =>
          obtain rfl : next.name = holder := by simpa using hmem
          have hkept : p next = true := by
            by_contra hnot
            have hordinary := hrest next List.mem_cons_self (by simpa using hnot)
            simp [not_isOrdinary_of_holds hrule hholds] at hordinary
          exact ⟨next.name, by simp [hkept], hholds⟩
      | template heq hinner hsettled h => exact .template heq hinner hsettled (ih h hrest)

/-- The content of the innermost template is found to be of another kind. -/
theorem retemplate (h : Nests modes names .inTemplate) {inner : InsertionMode} (hinner : inner.isSettled) :
    Nests (inner :: modes.tail) names inner := by
  generalize hmode : InsertionMode.inTemplate = mode at h
  induction h with
  | body => cases hmode
  | ordinary hname hcontext _ ih => exact .ordinary hname hcontext (ih hmode)
  | table => cases hmode
  | part hrule =>
    rcases partRule?_cases hrule with ⟨-, heq⟩ | ⟨-, heq⟩ | ⟨-, heq⟩ | ⟨-, heq⟩ | ⟨-, heq⟩ <;> cases heq <;>
      cases hmode
  | template heq _ _ h _ => exact .template heq rfl hinner h

/-- Each template has its mode. -/
theorem not_template_of_nil (h : Nests [] names mode) : ∀ name ∈ names, name ≠ .html "template" := by
  generalize hmodes : ([] : List InsertionMode) = modes at h
  induction h with
  | body => simp
  | ordinary hname _ _ ih =>
    exact List.forall_mem_cons.mpr ⟨fun heq => absurd (heq ▸ hname) (by decide), ih hmodes⟩
  | table heq _ _ ih => exact List.forall_mem_cons.mpr ⟨fun h => absurd (heq.symm.trans h) (by decide), ih hmodes⟩
  | part hrule _ _ ih =>
    exact List.forall_mem_cons.mpr
      ⟨fun h => absurd (classes_of_partRule? hrule).2.1 (by rw [h]; decide), ih hmodes⟩
  | template _ hinner => simp [← hmodes] at hinner

/-- The innermost part or template. -/
theorem exists_context (h : Nests modes names mode) (hmode : mode ≠ .inBody) :
    ∃ before name rest, names = before ++ name :: rest ∧ (∀ other ∈ before, isOrdinary other) ∧
      (name = .html "template" ∨ name = .html "table" ∧ mode = .inTable ∨
        ∃ rule, partRule? name = some rule ∧ mode = rule.inner) := by
  induction h with
  | body => exact absurd rfl hmode
  | ordinary hname _ _ ih =>
    obtain ⟨before, inner, rest, rfl, hbefore, hinner⟩ := ih hmode
    exact ⟨_ :: before, inner, rest, rfl, List.forall_mem_cons.mpr ⟨hname, hbefore⟩, hinner⟩
  | table heq _ _ _ => exact ⟨[], _, _, rfl, by simp, .inr (.inl ⟨heq, rfl⟩)⟩
  | part hrule _ _ _ => exact ⟨[], _, _, rfl, by simp, .inr (.inr ⟨_, hrule, rfl⟩)⟩
  | template heq _ _ _ _ => exact ⟨[], _, _, rfl, by simp, .inl heq⟩

/-- The mode is the one that fits the open elements. -/
theorem fittingMode_eq (h : Nests modes names mode) {opened : List OpenElement}
    (hopened : opened.map (·.name) = names ++ [.html "body", .html "html"]) :
    Construction.fittingMode modes opened = mode := by
  induction h generalizing opened with
  | body =>
    obtain ⟨body, outer, rfl, hname, -⟩ := List.map_eq_cons_iff.mp hopened
    simp [Construction.fittingMode, hname]
  | ordinary hordinary _ _ ih =>
    obtain ⟨e, outer, rfl, rfl, hrest⟩ := List.map_eq_cons_iff.mp hopened
    rw [Construction.fittingMode, ih hrest]
    split_ifs with hhtml
    · rfl
    · obtain ⟨node, vocabulary, label⟩ := e
      obtain rfl : vocabulary = .html := by simpa using hhtml
      have hne : ∀ other ∈ ["td", "th", "tr", "tbody", "thead", "tfoot", "caption", "colgroup", "table",
          "template", "body"], label ≠ other := by
        intro other hother heq
        have hnone : ∀ other ∈ ["td", "th", "tr", "tbody", "thead", "tfoot", "caption", "colgroup", "table",
            "template", "body"], isOrdinary (.html other) = false := by decide
        exact absurd hordinary (by simp [heq, hnone other hother])
      split <;> simp_all
  | table heq _ _ _ =>
    obtain ⟨e, outer, rfl, hname, -⟩ := List.map_eq_cons_iff.mp hopened
    simp [Construction.fittingMode, hname, heq]
  | part hrule _ _ _ =>
    obtain ⟨e, outer, rfl, rfl, -⟩ := List.map_eq_cons_iff.mp hopened
    rcases partRule?_cases hrule with ⟨heq, hrule⟩ | ⟨heq, hrule⟩ | ⟨heq | heq | heq, hrule⟩ |
      ⟨heq, hrule⟩ | ⟨heq | heq, hrule⟩ <;> cases hrule <;> simp [Construction.fittingMode, heq]
  | template heq hinner _ _ _ =>
    obtain ⟨e, outer, rfl, hname, -⟩ := List.map_eq_cons_iff.mp hopened
    simp [Construction.fittingMode, hname, heq, List.headD_eq_head?_getD, hinner]

/-- Without a template there are no modes of templates. -/
theorem nil_of_not_template (h : Nests modes names mode) (hnames : ∀ name ∈ names, name ≠ .html "template") :
    modes = [] := by
  induction h with
  | body => rfl
  | ordinary _ _ _ ih | table _ _ _ ih | part _ _ _ ih =>
    exact ih fun name hname => hnames name (List.mem_cons_of_mem _ hname)
  | template heq => exact absurd heq (hnames _ List.mem_cons_self)

end Nests

/-! ### Templates -/

/-- A template in any vocabulary. -/
def isTemplate (name : Name) : Bool := Text.asciiLowercase name.label = "template"

/-- How many templates are open inside of the outermost HTML template, which counts too. An end tag closes none
that is open outside of it. -/
def templateDepth : List Name → Nat
  | [] => 0
  | name :: outer =>
    templateDepth outer + if isHtmlNamed "template" name || isTemplate name && 0 < templateDepth outer then 1 else 0

theorem isTemplate_of_isHtmlNamed (h : isHtmlNamed "template" name) : isTemplate name :=
  eq_html_of_isHtmlNamed h ▸ by decide

theorem templateDepth_cons_of_not (h : isTemplate name = false) (names : List Name) :
    templateDepth (name :: names) = templateDepth names := by
  have hnamed : isHtmlNamed "template" name = false :=
    Bool.eq_false_iff.mpr fun hnamed => by simp [isTemplate_of_isHtmlNamed hnamed] at h
  simp [templateDepth, h, hnamed]

theorem templateDepth_cons_le (name : Name) (names : List Name) :
    templateDepth (name :: names) ≤ templateDepth names + if isTemplate name then 1 else 0 := by
  cases h : isTemplate name with
  | false => simp [templateDepth_cons_of_not h]
  | true =>
    rw [templateDepth, if_pos rfl]
    split_ifs <;> omega

theorem templateDepth_filter (names : List Name) :
    templateDepth (names.filter isTemplate) = templateDepth names := by
  induction names with
  | nil => rfl
  | cons name names ih =>
    cases h : isTemplate name with
    | false => rw [List.filter_cons_of_neg (by simp [h]), ih, templateDepth_cons_of_not h]
    | true => rw [List.filter_cons_of_pos h, templateDepth, templateDepth, ih]

theorem templateDepth_le_of_sublist {names' : List Name} (h : names'.Sublist names) :
    templateDepth names' ≤ templateDepth names := by
  induction h with
  | slnil => exact le_rfl
  | cons name _ ih => exact ih.trans (by rw [templateDepth]; omega)
  | @cons_cons names' names name _ ih =>
    rw [templateDepth, templateDepth]
    by_cases hnew : (isHtmlNamed "template" name || isTemplate name && 0 < templateDepth names') = true
    · have hold : (isHtmlNamed "template" name || isTemplate name && 0 < templateDepth names) = true := by
        simp only [Bool.or_eq_true, Bool.and_eq_true, decide_eq_true_eq] at hnew ⊢
        exact hnew.imp_right fun h => ⟨h.1, h.2.trans_le ih⟩
      rw [if_pos hnew, if_pos hold]
      omega
    · rw [if_neg hnew]
      omega

/-- Only templates count. -/
theorem templateDepth_le_of_filter {names' : List Name}
    (h : (names'.filter isTemplate).Sublist (names.filter isTemplate)) : templateDepth names' ≤ templateDepth names := by
  rw [← templateDepth_filter names', ← templateDepth_filter names]
  exact templateDepth_le_of_sublist h

theorem not_template_of_templateDepth (h : templateDepth names = 0) : ∀ name ∈ names, name ≠ .html "template" := by
  induction names with
  | nil => simp
  | cons name names ih =>
    rw [templateDepth] at h
    refine List.forall_mem_cons.mpr ⟨fun heq => ?_, ih (by omega)⟩
    rw [heq, show isHtmlNamed "template" (.html "template") = true from rfl, Bool.true_or, if_pos rfl] at h
    omega

theorem templateDepth_eq_zero (h : ∀ name ∈ names, name ≠ .html "template") : templateDepth names = 0 := by
  induction names with
  | nil => rfl
  | cons name names ih =>
    obtain ⟨hname, hrest⟩ := List.forall_mem_cons.mp h
    have hnamed : isHtmlNamed "template" name = false :=
      Bool.eq_false_iff.mpr fun hnamed => hname (eq_html_of_isHtmlNamed hnamed)
    simp [templateDepth, ih hrest, hnamed]

/-- Everything is closed up to and with a template. -/
theorem templateDepth_close (h : isTemplate name) :
    templateDepth names ≤ templateDepth (before ++ name :: names) - 1 := by
  have hle := templateDepth_le_of_sublist (List.sublist_append_right before (name :: names))
  by_cases hpos : 0 < templateDepth names
  · have hcons : templateDepth (name :: names) = templateDepth names + 1 := by simp [templateDepth, h, hpos]
    omega
  · omega

end Html
end Markup
end CrossRef
