import CrossRef.Proofs.Ready.Again
import CrossRef.Proofs.Index.Anchor
import CrossRef.Proofs.Text.Blank

/-!
Identifiers that are written and read again. An identifier without a line end stays what it is between blanks, and
the attribute that holds it keeps a name that starts with `id`.
-/
namespace CrossRef
namespace Index

open Markup Markup.Html Markup.Dom Text

variable {dom : Dom} {f : Fragment} {x : NodeId} {value identifier : String} {cs rest : List Char}

/-! ### Values -/

theorem normalizeLines_append_of_not_mem (h : '\r' ∉ cs) (rest : List Char) :
    normalizeLines (cs ++ rest) = cs ++ normalizeLines rest := by
  induction cs with
  | nil => rfl
  | cons c cs ih =>
    rw [List.mem_cons, not_or] at h
    rw [List.cons_append, normalizeLines_cons (Ne.symm h.1), ih h.2, List.cons_append]

theorem isBlank_of_mem_normalizeLines (h : ∀ c ∈ cs, isBlank c) : ∀ c ∈ normalizeLines cs, isBlank c := by
  intro c hc
  rcases mem_normalizeLines hc with hmem | rfl
  · exact h c hmem
  · decide

/-- Line ends are only changed in the blanks around a text that has none. -/
theorem trims_normalizeLines {kept : List Char} (h : Trims cs kept) (hreturn : '\r' ∉ kept) (hne : kept ≠ []) :
    Trims (normalizeLines cs) kept := by
  obtain ⟨⟨before, after, rfl, hbefore, hafter⟩, hstarts, hends⟩ := h
  refine ⟨⟨_, _, ?_, isBlank_of_mem_normalizeLines hbefore, isBlank_of_mem_normalizeLines hafter⟩, hstarts, hends⟩
  have hhead : (kept ++ after).head? ≠ some '\n' := by
    obtain ⟨c, kept, rfl⟩ := List.exists_cons_of_ne_nil hne
    rintro heq
    obtain rfl := Option.some_inj.mp heq
    exact hstarts '\n' rfl (by decide)
  rw [List.append_assoc, normalizeLines_append hhead, normalizeLines_append_of_not_mem hreturn, List.append_assoc]

/-- A value between blanks stays the same when it is written and read. -/
theorem trim_readValue (hreturn : '\r' ∉ (trim value).toList) (hnull : '\x00' ∉ value.toList) (hne : trim value ≠ "") :
    trim (readValue value) = trim value := by
  have hshown : (normalizeLines value.toList).map showNull = normalizeLines value.toList := by
    refine (List.map_congr_left fun c hc => ?_).trans (List.map_id' _)
    rw [showNull, if_neg]
    rintro rfl
    rcases mem_normalizeLines hc with hmem | heq
    · exact hnull hmem
    · exact absurd heq (by decide)
  have htrims := trims_trimChars value.toList
  rw [trim, String.toList_ofList] at hreturn
  have hkept : trimChars value.toList ≠ [] := fun heq => hne (by rw [trim, heq])
  rw [trim, readValue, String.toList_ofList, hshown, trimChars_eq_iff.mpr (trims_normalizeLines htrims hreturn hkept), trim]

/-! ### Names -/

theorem isPrefixOf_asciiLowercase {label : String} (h : "id".toList.isPrefixOf label.toList) :
    "id".toList.isPrefixOf (asciiLowercase label).toList := by
  obtain ⟨rest, hrest⟩ := List.isPrefixOf_iff_prefix.mp h
  rw [asciiLowercase, String.toList_ofList, ← hrest]
  exact List.isPrefixOf_iff_prefix.mpr ⟨rest.map asciiLower, by simp [asciiLower]⟩

theorem isPrefixOf_foreignAttributeName {label : String} (h : "id".toList.isPrefixOf label.toList)
    (vocabulary : Vocabulary) : "id".toList.isPrefixOf (foreignAttributeName vocabulary label).label.toList := by
  rcases foreignAttributeName_cases vocabulary label with hforeign | hsame | ⟨spelling, hmem, heq, rfl⟩
  · have hall : ∀ label ∈ foreignAttributes, ¬ "id".toList.isPrefixOf label.toList := by decide
    exact absurd h (hall label hforeign)
  · rwa [hsame]
  · have hall : ∀ s ∈ svgAttributes ++ mathAttributes, "id".toList.isPrefixOf (asciiLowercase s).toList →
        "id".toList.isPrefixOf s.toList := by decide +kernel
    rw [heq]
    exact hall spelling hmem h

/-- What an attribute of a tag becomes. -/
theorem exists_attributeIn {tag : Tag} {label value : String} (h : (label, value) ∈ tag.attributes)
    (vocabulary : Vocabulary) : ∃ b ∈ tag.attributesIn vocabulary, b.value = value ∧
      (b.name = ⟨.plain, label⟩ ∨ b.name = foreignAttributeName vocabulary label) := by
  cases vocabulary with
  | mathml => exact ⟨_, List.mem_map.mpr ⟨_, h, rfl⟩, rfl, .inr rfl⟩
  | svg => exact ⟨_, List.mem_map.mpr ⟨_, h, rfl⟩, rfl, .inr rfl⟩
  | _ => exact ⟨_, List.mem_map.mpr ⟨_, h, rfl⟩, rfl, .inl rfl⟩

/-- An attribute with an identifier is read as one. -/
theorem exists_readAttribute {name : Name} {attributes : List Attribute} (h : LegibleTag name attributes) {a : Attribute}
    (ha : a ∈ attributes) (hid : "id".toList.isPrefixOf a.name.label.toList) (vocabulary : Vocabulary) :
    ∃ b ∈ (readTag name attributes).attributesIn vocabulary,
      "id".toList.isPrefixOf b.name.label.toList ∧ b.value = readValue a.value := by
  have hplain := (h.identifiers a ha hid).1
  have hlabel : attributeLabel a.name = a.name.label := by rw [attributeLabel, hplain]
  have hread := isPrefixOf_asciiLowercase (hlabel.symm ▸ hid)
  have hmem : readAttribute a ∈ (readTag name attributes).attributes := List.mem_map_of_mem ha
  obtain ⟨b, hb, hvalue, hname⟩ := exists_attributeIn hmem vocabulary
  refine ⟨b, hb, ?_, hvalue⟩
  rcases hname with hname | hname
  · rw [hname]
    exact hread
  · rw [hname]
    exact isPrefixOf_foreignAttributeName hread vocabulary

/-- An identifier of an element that is made again is shown by what is read. -/
theorem shows_of_madeAgain (hw : Writable dom) {root : NodeId} (habove : dom.Above root x) (h : MadeAgain dom root x)
    (hidentifier : identifier ∈ headingIdentifiers dom x) (hreturn : '\r' ∉ identifier.toList) :
    Fragment.Shows (.parse (dom.innerHtml (some root))) identifier := by
  obtain ⟨hne, a, ha, hid, rfl⟩ := mem_headingIdentifiers_iff.mp hidentifier
  obtain ⟨name, attributes, hx, ha⟩ : ∃ name attributes, dom.content? (some x) = some (.element name attributes) ∧
      a ∈ attributes := by
    unfold Dom.attributes at ha
    split at ha
    · next hcontent => exact ⟨_, _, hcontent, ha⟩
    · exact absurd ha List.not_mem_nil
  have hlegible := hw.legible x _ hx
  obtain ⟨y, vocabulary, other, more, hy, hcontent⟩ := Construction.made_again hw hx habove h
  obtain ⟨b, hb, hbid, hvalue⟩ := exists_readAttribute hlegible ha hid vocabulary
  refine ⟨y, .inl hy.to_reflTransGen, mem_headingIdentifiers_iff.mpr ⟨hne, b, ?_, hbid, ?_⟩⟩
  · rw [Dom.attributes, hcontent]
    exact List.mem_append_left more hb
  · rw [hvalue]
    exact trim_readValue hreturn (hlegible.identifiers a ha hid).2 hne

end Index
end CrossRef
