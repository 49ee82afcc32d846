import CrossRef.Proofs.Ready.Mode
import CrossRef.Proofs.Construction.Reading

/-!
Reading a text to its end. The construction stays in order whatever the text is, so all that was put below the
body once is there at the end.
-/
namespace CrossRef
namespace Markup
namespace Html

open Dom

/-- The setting at the start of a text, for contents with some property. -/
def Setting.atStart (fits : Content → Prop) : Setting := ⟨4, 2, fits, [], 0⟩

/-- The contents of a document without a text fit. -/
structure FitsEmpty (fits : Content → Prop) : Prop where
  document : fits .document
  doctype : fits (.doctype "html")
  bare : ∀ label ∈ ["html", "head", "body"], fits (.element (.html label) [])

theorem Setting.Lawful.setDepth {σ : Setting} (h : σ.Lawful) (depth : Nat) :
    Setting.Lawful { σ with depth := depth } :=
  ⟨h.text, h.bare, h.image, h.merge⟩

namespace Construction

variable {fits : Content → Prop} {σ : Setting} {c : Construction} {token : Token} {depth : Nat}

/-! ### The start -/

theorem content?_start : ∀ i < 5, ∃ content ∈ [Content.document, .doctype "html", .element (.html "html") [],
    .element (.html "head") [], .element (.html "body") []],
      start.dom.content? (some i) = some content ∧ (content.isBody → i = 4) := by
  decide

theorem parent?_start : ∀ i < 5, ∀ p ∈ start.dom.parent? (some i),
    p = Dom.document ∨ p = 2 := by
  decide

theorem notVoid_document_start : NotVoid start.dom Dom.document where
  lt_size := by decide
  name name hname := by
    have hnone : start.dom.name? (some Dom.document) = none := by decide
    simp [hnone] at hname
  kind := .inl (by decide)

theorem keeps_start (h : FitsEmpty fits) : (Setting.atStart fits).Keeps start.dom where
  document := notVoid_document_start
  rooted := .tail (.single (b := 2) (by decide)) (by show start.dom.parent? (some 4) = some 2; decide)
  contents i content hi := by
    obtain ⟨other, hmem, hother, hbody⟩ := content?_start i ((content?_isSome_iff start.dom i).mp (by simp [hi]))
    obtain rfl : other = content := Option.some_inj.mp (hother.symm.trans hi)
    refine ⟨?_, hbody⟩
    simp only [List.mem_cons, List.not_mem_nil, or_false] at hmem
    rcases hmem with rfl | rfl | rfl | rfl | rfl
    · exact h.document
    · exact h.doctype
    all_goals exact h.bare _ (by decide)
  parents i p hp := by
    rcases parent?_start i (lt_size_of_parent? hp) p hp with rfl | rfl
    · exact notVoid_document_start
    · have hnamed : start.dom.name? (some 2) = some (.html "html") := by decide
      exact .of_name hnamed (by decide)
  watched := by simp [Setting.atStart]

theorem ready_start (h : FitsEmpty fits) : start.Ready (.atStart fits) [] .inBody where
  held :=
    { sound := start_sound
      keeps := keeps_start h
      named := by decide
      hosts := by
        intro e he hname
        have hbody : ∀ e ∈ start.opened, e.name ≠ .html "html" → e.node = 4 := by decide
        have hnot : isVoidElement (.html "body") = false := by decide
        have hnamed : start.dom.name? (some 4) = some (.html "body") := by decide
        rw [hbody e he hname]
        exact ⟨.of_name hnamed hnot, .refl⟩
      ordered := by
        refine List.pairwise_pair.mpr fun henc => ?_
        have hcontains : start.dom.contains (some 4) (some 2) = false := by decide
        exact absurd (start_sound.wellFormed.contains_iff.mpr henc) (ne_true_of_eq_false hcontains) }
  nested := ⟨[], rfl, .body⟩
  listed := by simp [Listed, start]
  form := by simp [start]
  templateModes := rfl
  mode := rfl
  depth := Nat.le_refl 0

/-! ### The whole text -/

/-- Reading keeps the construction in order as long as it gives what fits. -/
theorem Orderly.readAll (hlawful : σ.Lawful) {p : List Char → Prop}
    (hscan : ∀ mode inForeign cs, cs ≠ [] → p cs →
      p (scan mode inForeign cs).rest ∧ ∀ token ∈ (scan mode inForeign cs).token, σ.FitsToken token)
    (h : c.Orderly { σ with depth := depth }) (fuel : Nat) (mode : ReadingMode) {cs : List Char} (hcs : p cs) :
    ∃ depth, (Construction.readAll fuel c mode cs).Orderly { σ with depth := depth } := by
  induction fuel generalizing c depth mode cs with
  | zero => exact ⟨depth, h⟩
  | succ fuel ih =>
    cases cs with
    | nil => exact ⟨depth, h⟩
    | cons x rest =>
      obtain ⟨hrest, htoken⟩ := hscan mode c.isInForeign (x :: rest) (by simp) hcs
      rw [Construction.readAll]
      cases hfirst : (scan mode c.isInForeign (x :: rest)).token with
      | none =>
        exact ih (c := { c with skipsNewline := false }) (h.congr rfl rfl rfl rfl rfl rfl rfl) _ hrest
      | some token =>
        obtain ⟨depth', hfed⟩ := h.feed_any (hlawful.setDepth depth) (htoken token hfirst)
        exact ih hfed _ hrest

theorem Orderly.finish (h : c.Orderly σ) (hlawful : σ.Lawful) :
    σ.Keeps c.finish.dom ∧ c.finish.dom.name? (some σ.body) = some (.html "body") := by
  obtain ⟨modes, mode, hawaits, hready⟩ := h
  have hends : ∀ {c : Construction}, c.Ready σ modes mode →
      σ.Keeps c.dom ∧ c.dom.name? (some σ.body) = some (.html "body") := fun hready =>
    ⟨hready.held.keeps, hready.held.named _ hready.body_mem⟩
  unfold Construction.finish
  split
  · next hmode =>
    cases hawaits with
    | settled =>
      obtain ⟨inner, -, hnests⟩ := hready.nested
      have hsettled := hnests.isSettled
      rw [hmode] at hsettled
      exact absurd hsettled (by decide)
    | tableText _ hreturn => exact hends (hready.placeTableText hlawful rfl hreturn).1
    | text htext => exact absurd (htext.symm.trans hmode) (by decide)
    | after hafter => rcases hafter with hafter | hafter <;> exact absurd (hafter.symm.trans hmode) (by decide)
  · exact hends (c := { c with mode := mode }) hready

end Construction

theorem exists_content_of_name? {dom : Dom} {i : NodeId} {name : Name} (h : dom.name? (some i) = some name) :
    ∃ attributes, dom.content? (some i) = some (.element name attributes) := by
  unfold Dom.name? at h
  split at h
  · next hcontent => exact ⟨_, Option.some_inj.mp h ▸ hcontent⟩
  · exact absurd h nofun

theorem exists_content_of_isElement {dom : Dom} {i : NodeId} {label : String} (h : dom.isElement (some i) label) :
    ∃ name attributes, dom.content? (some i) = some (.element name attributes) ∧ name.label = label := by
  unfold Dom.isElement at h
  split at h
  · next name hname =>
    obtain ⟨attributes, hcontent⟩ := exists_content_of_name? hname
    exact ⟨name, attributes, hcontent, of_decide_eq_true h⟩
  · exact absurd h Bool.false_ne_true

/-- The root of a fragment is the one body that is ever made. -/
theorem Setting.Keeps.root_eq {σ : Setting} {dom : Dom} (h : σ.Keeps dom) (hwf : dom.WellFormed)
    (hbody : dom.name? (some σ.body) = some (.html "body")) :
    ((dom.elementsBelow (some Dom.document) "body").head?).getD Dom.document = σ.body := by
  have hall : ∀ i ∈ dom.elementsBelow (some Dom.document) "body", i = σ.body := by
    intro i hi
    obtain ⟨name, attributes, hcontent, hlabel⟩ := exists_content_of_isElement (List.mem_filter.mp hi).2
    exact (h.contents i _ hcontent).2 (by simpa [Content.isBody] using hlabel)
  have hmem : σ.body ∈ dom.elementsBelow (some Dom.document) "body" := by
    refine List.mem_filter.mpr ⟨(hwf.mem_descendants_iff h.document.lt_size).mpr h.rooted, ?_⟩
    simp [Dom.isElement, hbody]
  obtain ⟨i, rest, heq⟩ := List.exists_cons_of_ne_nil (List.ne_nil_of_mem hmem)
  rw [heq] at hall ⊢
  exact hall i List.mem_cons_self

namespace Construction

/-- What is known of a fragment that is read. -/
theorem keeps_parse (h : FitsEmpty fits) (hlawful : (Setting.atStart fits).Lawful) {p : List Char → Prop}
    (hscan : ∀ mode inForeign cs, cs ≠ [] → p cs → p (scan mode inForeign cs).rest ∧
      ∀ token ∈ (scan mode inForeign cs).token, (Setting.atStart fits).FitsToken token)
    {text : String} (hp : p (normalizeLines (text ++ "</body></html>").toList)) :
    (Setting.atStart fits).Keeps (Fragment.parse text).dom ∧
      (Fragment.parse text).root = (Setting.atStart fits).body := by
  obtain ⟨depth, horderly⟩ := (ready_start h).orderly.readAll hlawful hscan
    ((normalizeLines (text ++ "</body></html>").toList).length + 1) .markup hp
  obtain ⟨hkeeps, hbody⟩ := horderly.finish (hlawful.setDepth depth)
  have hroot := hkeeps.root_eq (run_sound text).wellFormed hbody
  exact ⟨⟨hkeeps.document, hkeeps.rooted, hkeeps.contents, hkeeps.parents, hkeeps.watched⟩, hroot⟩

end Construction
end Html
end Markup
end CrossRef
