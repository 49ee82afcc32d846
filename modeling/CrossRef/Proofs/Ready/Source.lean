import CrossRef.Proofs.Ready.Walk

/-!
What is read of a text can be written. Names, attributes and comments that are read have none of the characters
that would end them.
-/
namespace CrossRef
namespace Markup
namespace Html

open Dom Text

variable {name : Name} {attributes old new : List Attribute} {tag : Tag} {label : String} {depth : Nat}

/-! ### Contents that can be written -/

/-- The same attributes can be written with any name that a tag can have, in the same vocabulary. -/
theorem LegibleTag.rename {other : Name} (h : LegibleTag name attributes) (hother : isTagName other.label.toList)
    (hvocabulary : other.vocabulary = name.vocabulary) : LegibleTag other attributes :=
  ⟨hother, h.attributeNames, fun hhtml => h.plain (hvocabulary ▸ hhtml), h.distinct, h.identifiers⟩

theorem LegibleTag.of_mem (h : LegibleTag name attributes) {a : Attribute} (ha : a ∈ attributes) :
    LegibleTag name [a] where
  tagName := h.tagName
  attributeNames := by simpa using h.attributeNames a ha
  plain hhtml := by simpa using h.plain hhtml a ha
  distinct := by simp
  identifiers := by simpa using h.identifiers a ha

/-- Attributes of HTML elements are written with different names if they have different ones. -/
theorem label_ne {a b : Attribute} (ha : a.name.vocabulary = .plain ∧ asciiLowercase a.name.label = a.name.label)
    (hb : b.name.vocabulary = .plain ∧ asciiLowercase b.name.label = b.name.label) (hne : a.name ≠ b.name) :
    asciiLowercase (attributeLabel a.name) ≠ asciiLowercase (attributeLabel b.name) := by
  obtain ⟨⟨_, label⟩, value⟩ := a
  obtain ⟨⟨_, label'⟩, value'⟩ := b
  obtain ⟨rfl, hsmall⟩ := ha
  obtain ⟨rfl, hsmall'⟩ := hb
  intro heq
  refine hne ?_
  rw [show label = label' from hsmall.symm.trans (heq.trans hsmall')]

theorem LegibleTag.concat {a : Attribute} (h : LegibleTag name attributes) (hvocabulary : name.vocabulary = .html)
    (ha : LegibleTag name [a]) (hnew : ∀ b ∈ attributes, b.name ≠ a.name) : LegibleTag name (attributes ++ [a]) where
  tagName := h.tagName
  attributeNames := List.forall_mem_append.mpr ⟨h.attributeNames, ha.attributeNames⟩
  plain hhtml := List.forall_mem_append.mpr ⟨h.plain hhtml, ha.plain hhtml⟩
  distinct := by
    rw [List.map_append, List.nodup_append]
    refine ⟨h.distinct, by simp, fun label hlabel other hother => ?_⟩
    obtain ⟨b, hb, rfl⟩ := List.mem_map.mp hlabel
    obtain rfl := List.mem_singleton.mp hother
    exact label_ne (h.plain hvocabulary b hb) (ha.plain hvocabulary a List.mem_cons_self) (hnew b hb)
  identifiers := List.forall_mem_append.mpr ⟨h.identifiers, ha.identifiers⟩

theorem LegibleTag.addMissing (h : LegibleTag name old) (hvocabulary : name.vocabulary = .html)
    (hnew : LegibleTag name new) : LegibleTag name (Dom.addMissing old new) := by
  replace hnew : ∀ a ∈ new, LegibleTag name [a] := fun a => hnew.of_mem
  induction new generalizing old with
  | nil => exact h
  | cons a new ih =>
    obtain ⟨ha, hnew⟩ := List.forall_mem_cons.mp hnew
    rw [Dom.addMissing]
    split_ifs with hany
    · exact ih h hnew
    · exact ih (h.concat hvocabulary ha (by simpa using hany)) hnew

/-! ### What is read -/

theorem legibleTag_bare (h : isTagName label.toList) (hsmall : asciiLowercase label = label) (vocabulary : Vocabulary) :
    LegibleTag ⟨vocabulary, foreignElementLabel vocabulary label⟩ [] :=
  IsReadTag.legible (show IsReadTag (.bare label) from ⟨h, hsmall, readAttributes_nil⟩) vocabulary

theorem fitsEmpty_legible : FitsEmpty Legible where
  document := trivial
  doctype := rfl
  bare label hlabel := by
    have hall : ∀ label ∈ ["html", "head", "body"], isTagName label.toList ∧ asciiLowercase label = label := by decide
    exact legibleTag_bare (hall label hlabel).1 (hall label hlabel).2 .html

theorem lawful_legible {σ : Setting} (h : σ.fits = Legible) : σ.Lawful := by
  obtain ⟨body, root, fits, watched, depth⟩ := σ
  subst h
  refine ⟨fun _ => trivial, fun label hlabel vocabulary => ?_, fun tag htag vocabulary => ?_,
    fun tag label old htag hold => ?_⟩
  · have hall : ∀ label ∈ ["br", "colgroup", "p", "tbody", "tr"], isTagName label.toList ∧ asciiLowercase label = label := by
      decide
    exact legibleTag_bare (hall label hlabel).1 (hall label hlabel).2 vocabulary
  · have himg : isTagName "img".toList ∧ asciiLowercase "img" = "img" := by decide
    exact (htag vocabulary).rename (legibleTag_bare himg.1 himg.2 vocabulary).tagName rfl
  · exact hold.addMissing rfl ((htag .html).rename hold.tagName rfl)

theorem fitsToken_legible {σ : Setting} (h : σ.fits = Legible) {token : Token} (htoken : IsReadToken token) :
    σ.FitsToken token := by
  obtain ⟨body, root, fits, watched, depth⟩ := σ
  subst h
  cases token with
  | opening tag => exact fun vocabulary => htoken.legible vocabulary
  | comment text => exact htoken
  | _ => trivial

/-- What is read of a text can be written. -/
theorem writable_parse (text : String) : Writable (Fragment.parse text).dom := by
  have hscan : ∀ mode inForeign cs, cs ≠ [] → '\r' ∉ cs → '\r' ∉ (scan mode inForeign cs).rest ∧
      ∀ token ∈ (scan mode inForeign cs).token, (Setting.atStart Legible).FitsToken token := by
    intro mode inForeign cs hne hreturn
    refine ⟨?_, fun token htoken => fitsToken_legible rfl (isRead_scan mode inForeign hreturn token htoken)⟩
    obtain ⟨c, cs, rfl⟩ := List.exists_cons_of_ne_nil hne
    exact fun hmem => hreturn (List.mem_cons_of_mem c ((scan_suffix mode inForeign c cs).subset hmem))
  obtain ⟨hkeeps, -⟩ := Construction.keeps_parse fitsEmpty_legible (lawful_legible rfl) hscan
    (return_not_mem_normalizeLines _)
  exact ⟨(Fragment.wellFormed_parse text).dom, fun i content hi => (hkeeps.contents i content hi).1, hkeeps.parents⟩

end Html
end Markup
end CrossRef
