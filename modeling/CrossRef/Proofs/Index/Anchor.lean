import CrossRef.Proofs.Index.Lookup
import CrossRef.Proofs.Index.Section
import CrossRef.Proofs.Pass.EquationNumbers

/-!
Anchors: the elements that the entries of an index lead to. Whatever an entry is registered under is
an identifier of some element of the chapter.
-/
namespace CrossRef
namespace Index

open Markup Markup.Dom

variable {manifest : Manifest} {sources : Sources} {numbering : Numbering} {chapter : Chapter}
  {f : Fragment} {dom : Dom} {i n x : NodeId} {s identifier : String}

/-! ### Identifiers of an element -/

/-- The identifiers of an element are what its attributes with such names hold between blanks. -/
theorem mem_headingIdentifiers_iff : s ∈ headingIdentifiers dom x ↔
    s ≠ "" ∧ ∃ a ∈ dom.attributes (some x), "id".toList.isPrefixOf a.name.label.toList ∧
      Text.trim a.value = s := by
  rw [headingIdentifiers_eq, List.mem_eraseDups, List.mem_filter, List.mem_map, and_comm]
  simp only [List.mem_filter, and_assoc, decide_eq_true_eq, ne_eq]

theorem mem_headingIdentifiers_of_ownIdentifier? (h : ownIdentifier? dom x = some s) :
    s ∈ headingIdentifiers dom x := by
  unfold ownIdentifier? at h
  split at h
  · simp at h
  · next hne =>
    obtain ⟨value, hvalue, htrim⟩ := Option.map_eq_some_iff.mp h
    obtain ⟨a, ha, rfl⟩ := Option.map_eq_some_iff.mp hvalue
    have hlabel : a.name.label = "id" := by simpa using List.find?_some ha
    refine mem_headingIdentifiers_iff.mpr ⟨?_, a, List.mem_of_find?_eq_some ha, ?_, htrim⟩
    · rintro rfl
      exact hne h
    · rw [hlabel]
      decide +kernel

/-- An equation is known by an identifier of its own or of an element around it. -/
theorem exists_of_nearestIdentifier? {depth : Nat} (h : nearestIdentifier? dom depth n = some s) :
    ∃ x, dom.Encloses x n ∧ s ∈ headingIdentifiers dom x := by
  induction depth generalizing n with
  | zero =>
    rcases nearestIdentifier?_eq_some_iff.mp h with hown | ⟨-, d, p, hd, -⟩
    · exact ⟨n, .refl, mem_headingIdentifiers_of_ownIdentifier? hown⟩
    · exact absurd hd (by simp)
  | succ d ih =>
    rcases nearestIdentifier?_eq_some_iff.mp h with hown | ⟨-, d', p, hd, hp, hnear⟩
    · exact ⟨n, .refl, mem_headingIdentifiers_of_ownIdentifier? hown⟩
    · rw [← Nat.succ.inj hd] at hnear
      obtain ⟨x, hx, hs⟩ := ih hnear
      exact ⟨x, hx.tail hp, hs⟩

/-! ### Entries of a chapter -/

/-- A heading is registered under identifiers that it has. -/
theorem exists_heading_of_get? (h : f.WellFormed) {entry : SectionEntry}
    (hget : (sectionsOf chapter f).get? s = some entry) :
    ∃ x ∈ f.dom.descendants (some f.root), s ∈ headingIdentifiers f.dom x := by
  obtain ⟨state, hstate, hsections⟩ := exists_describes h chapter
  have hsome : (state.2.get? s).isSome := by rw [← hsections, hget, Option.isSome_some]
  obtain ⟨x, hx, hidentifier⟩ := (hstate.get?_isSome_iff s).mp hsome
  refine ⟨x, ?_, hidentifier⟩
  rw [h.dom.descendants_eq h.root]
  exact (List.mem_filter.mp hx).1

/-- An equation is registered under the identifier that it is known by. -/
theorem exists_equation_of_get? {entry : EquationEntry}
    (h : (equationsOf chapter f numbering).get? s = some entry) :
    ∃ n ∈ f.dom.descendants (some f.root), owningIdentifier? f.dom n = some s := by
  cases hnumber : chapter.number with
  | none => simp [equationsOf, hnumber, ChapterEquations.get?, ChapterEquations.empty] at h
  | some number =>
    rw [get?_equationsOf hnumber] at h
    obtain ⟨e, he, -⟩ := Option.map_eq_some_iff.mp h
    have hnode := find?_scanFrom f.dom 1 (numberedEquations f numbering) s
    have hscan : scanFrom f.dom 1 (numberedEquations f numbering) = scanEquations f numbering := rfl
    rw [hscan, he, Option.map_some] at hnode
    have hmem := List.mem_of_find?_eq_some hnode.symm
    exact ⟨e.node, (List.mem_filter.mp hmem).1, by simpa using List.find?_some hnode.symm⟩

/-! ### Entries of a document -/

/-- The node is the body, inside it or around it. -/
def Fragment.Holds (f : Fragment) (x : NodeId) : Prop :=
  f.dom.Encloses f.root x ∨ f.dom.Above x f.root

/-- Some element has an attribute whose name starts with `id` and that holds the identifier between
blanks. -/
def Fragment.Shows (f : Fragment) (identifier : String) : Prop :=
  ∃ x, Fragment.Holds f x ∧ identifier ∈ headingIdentifiers f.dom x

theorem holds_of_encloses (hwf : f.WellFormed) (hn : n ∈ f.dom.descendants (some f.root))
    (hx : f.dom.Encloses x n) : Fragment.Holds f x := by
  have hroot := (hwf.dom.mem_descendants_iff hwf.root).mp hn
  rcases encloses_or_encloses hroot.to_reflTransGen hx with hbelow | habove
  · exact .inl hbelow
  · rcases Relation.reflTransGen_iff_eq_or_transGen.mp habove with heq | habove
    · exact .inl (heq ▸ .refl)
    · exact .inr habove

/-- What the index leads to is in the text of the chapter that it names. -/
theorem shows_of_findSection? (hdistinct : Manifest.repeatedId? [] manifest.chapters = none)
    {current : String} {entry : SectionEntry}
    (h : (buildIndex manifest sources numbering).findSection? current s = some entry) :
    ∃ chapter ∈ manifest.chapters, entry.chapterId = chapter.id ∧
      ∃ content, sources chapter.id = some content ∧ Fragment.Shows (.parse content) s := by
  obtain ⟨indexed, hindexed, hget⟩ := exists_of_findSection? h
  have hitself := (buildIndex_spec manifest sources numbering indexed hindexed).1
  rw [chapters_buildIndex hdistinct, List.mem_filterMap] at hindexed
  obtain ⟨chapter, hchapter, hindexed⟩ := hindexed
  obtain ⟨content, hcontent, rfl⟩ := Option.map_eq_some_iff.mp hindexed
  have hwf := Fragment.wellFormed_parse content
  obtain ⟨x, hx, hidentifier⟩ := exists_heading_of_get? hwf hget
  exact ⟨chapter, hchapter, hitself.sections entry (ChapterSections.mem_of_get? hget).1, content,
    hcontent, x, holds_of_encloses hwf hx .refl, hidentifier⟩

theorem shows_of_findEquation? (hdistinct : Manifest.repeatedId? [] manifest.chapters = none)
    {current : String} {entry : EquationEntry}
    (h : (buildIndex manifest sources numbering).findEquation? current s = some entry) :
    ∃ chapter ∈ manifest.chapters, entry.chapterId = chapter.id ∧
      ∃ content, sources chapter.id = some content ∧ Fragment.Shows (.parse content) s := by
  obtain ⟨indexed, hindexed, hget⟩ := exists_of_findEquation? h
  have hitself := (buildIndex_spec manifest sources numbering indexed hindexed).1
  rw [chapters_buildIndex hdistinct, List.mem_filterMap] at hindexed
  obtain ⟨chapter, hchapter, hindexed⟩ := hindexed
  obtain ⟨content, hcontent, rfl⟩ := Option.map_eq_some_iff.mp hindexed
  have hentry := List.mem_of_find?_eq_some hget
  obtain ⟨n, hn, howner⟩ := exists_equation_of_get? hget
  obtain ⟨x, hx, hidentifier⟩ := exists_of_nearestIdentifier? howner
  exact ⟨chapter, hchapter, hitself.equations entry hentry, content, hcontent, x,
    holds_of_encloses (Fragment.wellFormed_parse content) hn hx, hidentifier⟩

end Index
end CrossRef
