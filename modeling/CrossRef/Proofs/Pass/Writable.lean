import CrossRef.Proofs.Pass.Identifiers
import CrossRef.Proofs.Ready.Source

/-!
What the passes leave can be written. They put new text into links, change addresses and put boxes around
equations, and what they put in has names that can be read.
-/
namespace CrossRef
namespace Pass

open Markup Markup.Dom Markup.Html Index

variable {config : Config} {ctx : Context} {f : Fragment} {dom dom' : Dom} {m p x : NodeId} {links : List NodeId}
  {judge : Dom → NodeId → Verdict} {name : Name} {attributes : List Attribute}

/-! ### Single edits -/

theorem map_name_updateAttribute {label : String} (value : String) (h : ∃ a ∈ attributes, a.name.label = label) :
    (updateAttribute label value attributes).map (·.name) = attributes.map (·.name) := by
  induction attributes with
  | nil => simp at h
  | cons a rest ih =>
    rw [updateAttribute]
    split_ifs with hlabel
    · rfl
    · rw [List.map_cons, List.map_cons, ih]
      obtain ⟨b, hb, hbl⟩ := h
      exact ⟨b, (List.mem_cons.mp hb).resolve_left fun heq => hlabel (heq ▸ hbl), hbl⟩

/-- A new address changes no name and no identifier. -/
theorem legibleTag_updateAttribute (h : LegibleTag name attributes) (value : String)
    (hhref : ∃ a ∈ attributes, a.name.label = "href") : LegibleTag name (updateAttribute "href" value attributes) := by
  have hnames := map_name_updateAttribute value hhref
  have hold : ∀ a ∈ updateAttribute "href" value attributes, ∃ b ∈ attributes, b.name = a.name := fun a ha => by
    have hmem : a.name ∈ attributes.map (·.name) := hnames ▸ List.mem_map_of_mem ha
    exact List.mem_map.mp hmem
  refine ⟨h.tagName, fun a ha => ?_, fun hhtml a ha => ?_, ?_, fun a ha hid => ?_⟩
  · obtain ⟨b, hb, heq⟩ := hold a ha
    exact heq ▸ h.attributeNames b hb
  · obtain ⟨b, hb, heq⟩ := hold a ha
    exact heq ▸ h.plain hhtml b hb
  · have hlabels : ∀ l : List Attribute, l.map (fun a => Text.asciiLowercase (attributeLabel a.name)) =
        (l.map (·.name)).map fun name => Text.asciiLowercase (attributeLabel name) := fun l => by simp
    rw [hlabels, hnames, ← hlabels]
    exact h.distinct
  · have hmem : a ∈ (updateAttribute "href" value attributes).filter fun a => "id".toList.isPrefixOf a.name.label.toList :=
      List.mem_filter.mpr ⟨ha, hid⟩
    rw [filter_updateAttribute_href] at hmem
    exact h.identifiers a (List.mem_filter.mp hmem).1 hid

/-- A local link is an element with an address. -/
theorem exists_href (h : IsLocalLink dom m) : ∃ name attributes, dom.content? (some m) = some (.element name attributes) ∧
    name.label = "a" ∧ ∃ a ∈ attributes, a.name.label = "href" := by
  obtain ⟨helement, htarget⟩ := h
  obtain ⟨target, htarget⟩ := Option.isSome_iff_exists.mp htarget
  obtain ⟨name, attributes, hcontent, hlabel⟩ := exists_content_of_isElement helement
  refine ⟨name, attributes, hcontent, hlabel, ?_⟩
  have hhref := href_of_localTarget? htarget
  rw [attribute?, Dom.attributes, hcontent] at hhref
  obtain ⟨a, ha, -⟩ := Option.map_eq_some_iff.mp hhref
  exact ⟨a, List.mem_of_find?_eq_some ha, by simpa using List.find?_some ha⟩

/-- A node that can have others below it still can if its content stays or gets another address. -/
theorem writable_setHref (hw : Writable dom) (hm : IsLocalLink dom m) (href : String) :
    Writable (dom.setAttribute (some m) "href" href) := by
  obtain ⟨name, attributes, hcontent, -, hhref⟩ := exists_href hm
  have hlinks := sameLinks_setAttribute dom (some m) "href" href
  have hname : ∀ i, (dom.setAttribute (some m) "href" href).name? (some i) = dom.name? (some i) :=
    (changedAt_carryOut hw.wellFormed hm (.newTarget href)).name
  refine ⟨(changedAt_carryOut hw.wellFormed hm (.newTarget href)).wellFormed, fun i content hi => ?_, fun i q hq => ?_⟩
  · rw [content?_setAttribute] at hi
    split_ifs at hi with him
    · subst him
      rw [hcontent] at hi
      obtain rfl := Option.some_inj.mp hi
      exact legibleTag_updateAttribute (hw.legible i _ hcontent) href hhref
    · exact hw.legible i content hi
  · rw [hlinks.parent?_eq] at hq
    obtain ⟨hlt, hvoid, hkind⟩ := hw.parents i q hq
    refine ⟨by rwa [hlinks.size], fun name hname' => hvoid name (by rwa [← hname]), ?_⟩
    rw [hname]
    refine hkind.imp_left fun hdocument => ?_
    rw [content?_setAttribute, hdocument]
    split_ifs <;> rfl

theorem notVoid_of_content_eq {i : NodeId} (h : NotVoid dom i)
    (hcontent : ∀ j < dom.size, dom'.content? (some j) = dom.content? (some j)) : NotVoid dom' i :=
  h.of_content fun j old hold => (hcontent j ((content?_isSome_iff dom j).mp (by simp [hold]))).trans hold

theorem writable_replaceText (hw : Writable dom) (hm : IsLocalLink dom m) (text : String) :
    Writable (dom.replaceChildrenWithText (some m) text) := by
  obtain ⟨name, attributes, hcontent, hlabel, -⟩ := exists_href hm
  have hvoid : isVoidElement name = false := by
    have ha : isVoid "a" = false := by decide
    simp [isVoidElement, hlabel, ha]
  have hcontents := content?_replaceChildrenWithText dom m text
  have hold : ∀ j < dom.size, (dom.replaceChildrenWithText (some m) text).content? (some j) = dom.content? (some j) :=
    fun j hj => by rw [hcontents, if_neg hj.ne]
  refine ⟨hw.wellFormed.replaceChildrenWithText hm.lt_size text, fun i content hi => ?_, fun i q hq => ?_⟩
  · rw [hcontents] at hi
    split_ifs at hi
    · obtain rfl := Option.some_inj.mp hi
      trivial
    · exact hw.legible i content hi
  · refine notVoid_of_content_eq ?_ hold
    rw [parent?_replaceChildrenWithText hw.wellFormed] at hq
    split_ifs at hq
    · obtain rfl := Option.some_inj.mp hq
      exact .of_name (by rw [name?, hcontent]) hvoid
    · exact hw.parents i q hq

theorem legible_divOf (className : String) : Legible (divOf className) where
  tagName := by decide
  attributeNames := List.forall_mem_singleton.mpr (by show isAttributeName (attributeLabel ⟨.plain, "class"⟩).toList; decide)
  plain _ := List.forall_mem_singleton.mpr (by show Vocabulary.plain = .plain ∧ Text.asciiLowercase "class" = "class"; decide)
  distinct := List.nodup_singleton _
  identifiers := List.forall_mem_singleton.mpr fun h => absurd h (by show ¬ "id".toList.isPrefixOf "class".toList; decide)

theorem writable_wrap (hw : Writable dom) (hx : dom.parent? (some x) = some p) (label : String) :
    Writable (wrap dom x label) := by
  have hcontents := content?_wrap hw.wellFormed hx label
  have hold : ∀ j < dom.size, (wrap dom x label).content? (some j) = dom.content? (some j) := fun j hj => by
    rw [hcontents]
    grind
  have hbox : ∀ {i : NodeId} (className : String), (wrap dom x label).content? (some i) = some (divOf className) →
      NotVoid (wrap dom x label) i := fun _ hi => .of_name (by rw [name?, hi]; rfl) (by decide)
  refine ⟨wellFormed_wrap hw.wellFormed hx label, fun i content hi => ?_, fun i q hq => ?_⟩
  · rw [hcontents] at hi
    split_ifs at hi
    · exact Option.some_inj.mp hi ▸ legible_divOf displayClass
    · exact Option.some_inj.mp hi ▸ legible_divOf contentClass
    · exact Option.some_inj.mp hi ▸ legible_divOf numberClass
    · exact Option.some_inj.mp hi ▸ trivial
    · exact hw.legible i content hi
  · rw [parent?_wrap hw.wellFormed hx] at hq
    have hdisplay : NotVoid (wrap dom x label) dom.size := hbox displayClass (by rw [hcontents, if_pos rfl])
    have hcontent : NotVoid (wrap dom x label) (dom.size + 1) :=
      hbox contentClass (by rw [hcontents, if_neg (Nat.succ_ne_self _), if_pos rfl])
    have hnumber : NotVoid (wrap dom x label) (dom.size + 2) :=
      hbox numberClass (by simp [hcontents])
    split_ifs at hq
    · exact Option.some_inj.mp hq ▸ hcontent
    · exact Option.some_inj.mp hq ▸ notVoid_of_content_eq (hw.parents x p hx) hold
    · exact Option.some_inj.mp hq ▸ hdisplay
    · exact Option.some_inj.mp hq ▸ hnumber
    · exact notVoid_of_content_eq (hw.parents i q hq) hold

/-! ### Passes -/

theorem writable_judgeLinks (judge : Dom → NodeId → Verdict) (hw : Writable dom) (hnodup : links.Nodup)
    (hlocal : ∀ m ∈ links, IsLocalLink dom m) : Writable (judgeLinks judge dom links).1 := by
  induction links generalizing dom with
  | nil => exact hw
  | cons m rest ih =>
    have hrest := carryOut_rest hw.wellFormed hnodup hlocal (judge dom m)
    have hm := hlocal m List.mem_cons_self
    refine ih ?_ (List.nodup_cons.mp hnodup).2 fun m' hm' => (hrest m' hm').2
    cases judge dom m with
    | newText text => exact writable_replaceText hw hm text
    | newTarget href => exact writable_setHref hw hm href
    | _ => exact hw

theorem writable_wrapAll (number : ChapterNumber) (hw : Writable dom) {equations : List ScannedEquation}
    (hnodup : (equations.map (·.node)).Nodup) (hparent : ∀ e ∈ equations, ∃ p, dom.parent? (some e.node) = some p) :
    Writable (wrapAll number dom equations).1 := by
  induction equations generalizing dom with
  | nil => exact hw
  | cons e rest ih =>
    obtain ⟨hmem, hnodup⟩ := List.nodup_cons.mp hnodup
    have hrest := fun e' he' => hparent e' (List.mem_cons_of_mem e he')
    obtain ⟨p, hp⟩ := hparent e List.mem_cons_self
    rw [wrapAll]
    split_ifs
    · exact ih hw hnodup hrest
    · have hstep := annotated_wrap hw.wellFormed hp (shownEquationNumber number e.sequence)
      obtain ⟨hparents, -⟩ := hstep.later hw.wellFormed hrest fun e' he' heq =>
        hmem (List.mem_map.mpr ⟨e', he', List.mem_singleton.mp heq⟩)
      refine ih (writable_wrap hw hp _) hnodup fun e' he' => ?_
      rw [hparents e' he']
      exact hrest e' he'

theorem writable_apply (hwf : f.WellFormed) (hw : Writable f.dom) (pass : Pass) (config : Config) (ctx : Context) :
    Writable (pass.apply config ctx f).1.dom := by
  have hlinks : ∀ judge, Writable (changeLinks judge f).1.dom := fun judge =>
    writable_judgeLinks judge hw (nodup_localLinks hwf) fun m hm => ((mem_localLinks_iff hwf).mp hm).2
  cases pass with
  | equationNumbers =>
    rw [Pass.apply]
    cases hnumber : ctx.chapter?.bind (·.number) with
    | none => simpa [numberEquations, hnumber] using hw
    | some number =>
      rw [numberEquations_eq hnumber]
      exact writable_wrapAll number hw (nodup_scanEquations hwf config.numbering) fun e he =>
        exists_parent_of_mem_scanEquations hwf he
  | _ => exact hlinks _

/-- Whatever passes run, what they leave can be written. -/
theorem writable_applyAll (hwf : f.WellFormed) (hw : Writable f.dom) (passes : List Pass) (config : Config)
    (ctx : Context) : Writable (applyAll config ctx passes f).1.dom := by
  induction passes generalizing f with
  | nil => exact hw
  | cons pass rest ih => exact ih (wellFormed_apply hwf pass config ctx) (writable_apply hwf hw pass config ctx)

end Pass
end CrossRef
