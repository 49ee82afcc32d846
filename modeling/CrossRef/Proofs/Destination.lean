import CrossRef.Proofs.Document
import CrossRef.Proofs.Index.Kept
import CrossRef.Proofs.Pass.Writable

/-!
Where links lead. A link that is led to the file of another chapter finds its identifier there, unless the element
that carries it is dropped by a pass or stands where markup is not read as it was written.
-/
namespace CrossRef

open Markup Markup.Dom Markup.Html Index Pass

variable {manifest : Manifest} {sources : Sources} {config : Config} {ctx : Context}
  {f g : Fragment} {content owner identifier : String}

/-! ### Links that are led away -/

/-- The passes lead a local link of a chapter from an identifier to the file of its owner. -/
def Retargets (config : Config) (ctx : Context) (content owner identifier : String) : Prop :=
  let before := runEnabled config ctx .textRefs (runEnabled config ctx .equationRefs
    (runEnabled config ctx .equationNumbers (Fragment.parse content)))
  let after := runEnabled config ctx .linkTargets before
  ∃ x ∈ before.localLinks, before.dom.attribute? (some x) "href" = some ("#" ++ identifier) ∧
    after.dom.attribute? (some x) "href" = some (addressIn owner identifier)

theorem wellFormed_runEnabled (hwf : f.WellFormed) (config : Config) (ctx : Context) (pass : Pass) :
    (runEnabled config ctx pass f).WellFormed := by
  unfold runEnabled
  split_ifs
  · exact hwf
  · exact wellFormed_apply hwf pass config ctx

theorem addressIn_ne_local (owner identifier : String) :
    addressIn owner identifier ≠ "#" ++ identifier := by
  intro h
  have hlength := congrArg (·.toList.length) h
  simp [addressIn] at hlength
  omega

theorem addressIn_inj {owner owner' : String}
    (h : addressIn owner identifier = addressIn owner' identifier) : owner = owner' := by
  have hlist := congrArg String.toList h
  simp only [addressIn, String.toList_append, List.append_cancel_right_eq] at hlist
  exact String.toList_inj.mp hlist

/-- A link is led to the chapter that the look-ups give for its identifier. -/
theorem newOwner?_of_retargets (h : Retargets config ctx content owner identifier) :
    newOwner? ctx config.equationTargets identifier = some owner := by
  obtain ⟨x, hx, hhref, hafter⟩ := h
  have hwf := Fragment.wellFormed_parse content
  have hbefore := wellFormed_runEnabled (wellFormed_runEnabled
    (wellFormed_runEnabled hwf config ctx .equationNumbers) config ctx .equationRefs) config ctx
    .textRefs
  rw [runEnabled] at hafter
  split_ifs at hafter
  · exact absurd (Option.some_inj.mp (hafter.symm.trans hhref)) (addressIn_ne_local owner identifier)
  · have hnew := href_retargetLinks hbefore hx hhref config.equationTargets ctx
    have haddress := Option.some_inj.mp (hafter.symm.trans hnew)
    cases howner : newOwner? ctx config.equationTargets identifier with
    | none =>
      rw [howner] at haddress
      exact absurd haddress (addressIn_ne_local owner identifier)
    | some owner' =>
      rw [howner] at haddress
      rw [addressIn_inj haddress]

/-- The owner is a chapter whose text shows the identifier, unless the link names a chapter. -/
theorem shows_of_retargets (hdistinct : Manifest.repeatedId? [] manifest.chapters = none)
    {current : String} (hreference : ∀ reference, classify identifier ≠ .chapter reference)
    (h : Retargets config ⟨manifest, buildIndex manifest sources config.numbering, current⟩ content
      owner identifier) :
    ∃ chapter ∈ manifest.chapters, owner = chapter.id ∧
      ∃ source, sources owner = some source ∧ Fragment.Shows (.parse source) identifier := by
  have hnew := newOwner?_of_retargets h
  unfold newOwner? at hnew
  split_ifs at hnew
  have howner := (Option.filter_eq_some_iff.mp hnew).1
  cases hclass : classify identifier with
  | chapter reference => exact absurd hclass (hreference reference)
  | excluded => simp [hclass, targetOwner?] at howner
  | heading target =>
    rw [hclass, eq_of_classify_heading hclass] at howner
    obtain ⟨entry, hentry, rfl⟩ := Option.map_eq_some_iff.mp howner
    obtain ⟨chapter, hchapter, hid, source, hsource, hshows⟩ :=
      shows_of_findSection? hdistinct hentry
    exact ⟨chapter, hchapter, hid, source, hid ▸ hsource, hshows⟩
  | equation target =>
    rw [hclass, eq_of_classify_equation hclass, targetOwner?] at howner
    split_ifs at howner
    obtain ⟨entry, hentry, rfl⟩ := Option.map_eq_some_iff.mp howner
    obtain ⟨chapter, hchapter, hid, source, hsource, hshows⟩ :=
      shows_of_findEquation? hdistinct hentry
    exact ⟨chapter, hchapter, hid, source, hid ▸ hsource, hshows⟩

/-! ### Identifiers that stay -/

/-- An element below the body carries the identifier, it stands in no link whose text the passes replace, and in the
tree that they leave it is where the parser makes it again. -/
def Carried (config : Config) (ctx : Context) (f : Fragment) (identifier : String) : Prop :=
  let f' := (applyAll config ctx (enabled config) f).1
  ∃ x ∈ f.dom.descendants (some f.root), identifier ∈ headingIdentifiers f.dom x ∧
    (∀ m ∈ replacedByAll config ctx (enabled config) f, x ∉ f.dom.descendants (some m)) ∧ MadeAgain f'.dom f'.root x

instance : Decidable (Carried config ctx f identifier) :=
  inferInstanceAs (Decidable (∃ x ∈ f.dom.descendants (some f.root), _ ∧ _ ∧ _))

/-- What keeps an identifier of a chapter within reach: nothing in the chapter is changed, or the identifier has no
line end and an element carries it through the passes and the parser. -/
def KeepsIdentifier (config : Config) (ctx : Context) (source identifier : String) : Prop :=
  (processChapter config ctx (enabled config) source).report.changed = 0 ∨
    '\r' ∉ identifier.toList ∧ Carried config ctx (.parse source) identifier

/-- An element that carries the identifier through the passes is read with it. -/
theorem Carried.shows {source : String} (h : Carried config ctx (.parse source) identifier)
    (hreturn : '\r' ∉ identifier.toList) :
    Fragment.Shows (.parse (applyAll config ctx (enabled config) (.parse source)).1.html) identifier := by
  obtain ⟨x, hx, hcarries, hapart, hagain⟩ := h
  have hwf := Fragment.wellFormed_parse source
  have habove := (hwf.dom.mem_descendants_iff hwf.root).mp hx
  have hapart' : ∀ m ∈ replacedByAll config ctx (enabled config) (.parse source),
      ¬ (Fragment.parse source).dom.Above m x := by
    intro m hm hmx
    have hlt := lt_size_of_mem_localLinks hwf (mem_localLinks_of_replacedByAll hwf hm)
    exact hapart m hm ((hwf.dom.mem_descendants_iff hlt).mpr hmx)
  obtain ⟨habove', hids⟩ := keeps_applyAll hwf hapart' habove
  have hwritable := writable_applyAll hwf (writable_parse source) (enabled config) config ctx
  exact shows_of_madeAgain hwritable habove' hagain (hids ▸ hcarries) hreturn

theorem shows_processChapter {source : String} (hshows : Fragment.Shows (.parse source) identifier)
    (hkeeps : KeepsIdentifier config ctx source identifier) :
    Fragment.Shows (.parse (processChapter config ctx (enabled config) source).html) identifier := by
  by_cases hunchanged : (processChapter config ctx (enabled config) source).report.changed = 0
  · have hhtml : (processChapter config ctx (enabled config) source).html = source := if_pos hunchanged
    rwa [hhtml]
  · have hhtml : (processChapter config ctx (enabled config) source).html =
        (applyAll config ctx (enabled config) (.parse source)).1.html := if_neg hunchanged
    obtain ⟨hreturn, hcarried⟩ := hkeeps.resolve_left hunchanged
    rw [hhtml]
    exact hcarried.shows hreturn

/-- A chapter with the number 3. -/
def thirdChapter : Chapter := ⟨"c", some (.ordinal 3), "C", none, .chapters⟩

/-- The values of all attributes, without blanks around them. -/
def shownValues (dom : Dom) : List String := dom.nodes.toList.flatMap fun node =>
  match node.content with
  | .element _ attributes => attributes.map (Text.trim ·.value)
  | _ => []

theorem not_shows_of_not_mem (h : identifier ∉ shownValues f.dom) : ¬ Fragment.Shows f identifier := by
  rintro ⟨x, -, hx⟩
  obtain ⟨-, a, ha, -, rfl⟩ := mem_headingIdentifiers_iff.mp hx
  refine h (List.mem_flatMap.mpr ?_)
  unfold Dom.attributes at ha
  split at ha
  · next name attributes hcontent =>
    obtain ⟨node, hnode, heq⟩ := Option.map_eq_some_iff.mp hcontent
    refine ⟨node, Array.mem_toList_iff.mpr (Array.mem_of_getElem? hnode), ?_⟩
    rw [heq]
    exact List.mem_map_of_mem ha
  · cases ha

/-- A link of a chapter is led to an identifier in another chapter that does not show it. -/
def Dangles (manifest : Manifest) (sources : Sources) (config : Config)
    (current owner identifier : String) : Prop :=
  Manifest.repeatedId? [] manifest.chapters = none ∧ enabled config = all ∧
  (∃ content, sources current = some content ∧ Retargets config
    ⟨manifest, buildIndex manifest sources config.numbering, current⟩ content owner identifier) ∧
  (∀ reference, classify identifier ≠ .chapter reference) ∧
  ∃ processed, (resolveDocument manifest sources config).lookup owner = some processed ∧
    ¬ Fragment.Shows (.parse processed.html) identifier

instance : Decidable (Retargets config ctx content owner identifier) :=
  inferInstanceAs (Decidable (∃ x ∈ Fragment.localLinks _, _ ∧ _))

/-- The document that is read from characters. -/
def readChars (cs : List Char) : Dom :=
  let chars := normalizeLines (cs ++ "</body></html>".toList)
  (Construction.readAll (chars.length + 1) .start .markup chars).finish.dom

theorem dom_parse (text : String) : (Fragment.parse text).dom = readChars text.toList := by
  simp [Fragment.parse, Construction.run, readChars]

/-- All that can be checked of a link that dangles. -/
theorem dangles_of {current : String}
    (h : Manifest.repeatedId? [] manifest.chapters = none ∧ enabled config = all ∧
      (∃ content ∈ sources current, Retargets config
        ⟨manifest, buildIndex manifest sources config.numbering, current⟩ content owner identifier) ∧
      classify identifier ∈ [.heading identifier, .equation identifier] ∧
      ∃ chapter ∈ manifest.findChapter? owner, ∃ source ∈ sources chapter.id,
        let result := applyAll config ⟨manifest, buildIndex manifest sources config.numbering, chapter.id⟩
          (enabled config) (.parse source)
        result.2.changed ≠ 0 ∧ identifier ∉ shownValues
          (readChars (written [.outermost] (result.1.dom.innerEvents (some result.1.root))))) :
    Dangles manifest sources config current owner identifier := by
  obtain ⟨hdistinct, henabled, hretargets, hclass, chapter, hchapter, source, hsource, hchanged, hlost⟩ := h
  refine ⟨hdistinct, henabled, hretargets, fun reference heq => by simp [heq] at hclass, processChapter config
    ⟨manifest, buildIndex manifest sources config.numbering, chapter.id⟩ (enabled config) source, ?_, ?_⟩
  · rw [lookup_resolveDocument, hchapter, Option.bind_some, hsource, Option.map_some]
  · refine not_shows_of_not_mem ?_
    simp only [dom_parse, processChapter, if_neg hchanged, Fragment.html, innerHtml, toList_write]
    exact hlost

/-- The second chapter has the identifier, and a link of the third that is led there dangles. -/
def Lost (source link identifier : String) : Prop :=
  Dangles ⟨[secondChapter, thirdChapter]⟩ (sourcesOf [("d", source), ("c", link)])
    { Config.default with equationTargets := true } "c" "d" identifier

end CrossRef
