import CrossRef.Proofs.Construction.Run
import CrossRef.Proofs.Manifest
import CrossRef.Proofs.Pass.Annotation

/-!
The numbers shown next to equations are the numbers that the index knows them by.
-/
namespace CrossRef

open Markup Markup.Dom

namespace Index

variable {dom : Dom} {f : Fragment} {numbering : Numbering}

/-- The display equations that the policy numbers, in document order. -/
def numberedEquations (f : Fragment) (numbering : Numbering) : List NodeId :=
  (f.dom.descendants (some f.root)).filter (isNumbered f.dom numbering)

theorem map_node_scanFrom (dom : Dom) (n : Nat) (nodes : List NodeId) :
    (scanFrom dom n nodes).map (·.node) = nodes := by
  induction nodes generalizing n with
  | nil => rfl
  | cons x rest ih => simp [scanFrom, ih]

theorem map_node_scanEquations (f : Fragment) (numbering : Numbering) :
    (scanEquations f numbering).map (·.node) = numberedEquations f numbering :=
  map_node_scanFrom _ _ _

theorem length_scanEquations (f : Fragment) (numbering : Numbering) :
    (scanEquations f numbering).length = (numberedEquations f numbering).length := by
  rw [← map_node_scanEquations, List.length_map]

theorem mem_numberedEquations_iff (h : f.WellFormed) {x : NodeId} :
    x ∈ numberedEquations f numbering ↔ f.dom.Above f.root x ∧ isNumbered f.dom numbering x := by
  rw [numberedEquations, List.mem_filter, h.dom.mem_descendants_iff h.root]

theorem above_of_mem_numbered (h : f.WellFormed) {x : NodeId}
    (hx : x ∈ numberedEquations f numbering) : f.dom.Above f.root x :=
  ((mem_numberedEquations_iff h).mp hx).1

theorem isDisplayMath_congr {dom' : Dom} {x : NodeId}
    (hname : dom'.name? (some x) = dom.name? (some x))
    (hdisplay : dom'.attribute? (some x) "display" = dom.attribute? (some x) "display") :
    isDisplayMath dom' x = isDisplayMath dom x := by
  simp only [isDisplayMath, isElement, hname, hdisplay]

/-- An equation that is numbered was numbered before, if its owner was the same before. -/
theorem isNumbered_of_owner {dom' : Dom} {x : NodeId}
    (hmath : isDisplayMath dom' x = isDisplayMath dom x)
    (howner : ∀ s, owningIdentifier? dom' x = some s → owningIdentifier? dom x = some s)
    (h : isNumbered dom' numbering x) : isNumbered dom numbering x := by
  unfold isNumbered at h ⊢
  rw [hmath] at h
  cases numbering with
  | allDisplay => exact h
  | identifiedOnly =>
    cases hs : owningIdentifier? dom' x with
    | none => simp [hs] at h
    | some s =>
      rw [hs] at h
      rw [howner s hs]
      exact h

/-- The first scanned equation with an identifier stands at the first node that has it. -/
theorem find?_scanFrom (dom : Dom) (n : Nat) (nodes : List NodeId) (i : String) :
    ((scanFrom dom n nodes).find? fun e => e.identifier = some i).map (·.node) =
      nodes.find? fun x => owningIdentifier? dom x = some i := by
  induction nodes generalizing n with
  | nil => rfl
  | cons x rest ih =>
    by_cases hx : owningIdentifier? dom x = some i
    · simp [scanFrom, hx]
    · simpa [scanFrom, hx] using ih (n + 1)

/-- The entry that an equation of a chapter is registered under. -/
def entryOf (chapter : Chapter) (number : ChapterNumber) (i : String) (e : ScannedEquation) :
    EquationEntry :=
  ⟨i, equationNumber number e.sequence, chapter.id, number.shown⟩

/-- An identifier leads to the first equation that was registered under it. -/
theorem find?_foldl_register (chapter : Chapter) (number : ChapterNumber)
    (scanned : List ScannedEquation) (entries : List EquationEntry) (i : String) :
    ((scanned.foldl (registerEquation chapter number) entries).find?
        fun entry => entry.identifier = i) =
      (entries.find? fun entry => entry.identifier = i).or
        ((scanned.find? fun e => e.identifier = some i).map (entryOf chapter number i)) := by
  induction scanned generalizing entries with
  | nil => simp
  | cons e rest ih =>
    rw [List.foldl_cons, ih, registerEquation]
    cases he : e.identifier with
    | none => simp [he]
    | some j =>
      by_cases htaken : entries.any (·.identifier = j)
      · by_cases hij : j = i
        · subst hij
          obtain ⟨entry, hentry⟩ := Option.isSome_iff_exists.mp (by
            rw [List.find?_isSome]
            simpa using htaken : (entries.find? fun entry => entry.identifier = j).isSome)
          simp [htaken, hentry]
        · simp [htaken, he, hij]
      · by_cases hij : j = i
        · subst hij
          have hnone : (entries.find? fun entry => entry.identifier = j) = none := by
            simpa using htaken
          simp [htaken, he, hnone, entryOf]
        · simp [htaken, he, hij]

theorem get?_equationsOf {chapter : Chapter} {number : ChapterNumber}
    (hnumber : chapter.number = some number) (f : Fragment) (numbering : Numbering) (i : String) :
    (equationsOf chapter f numbering).get? i =
      ((scanEquations f numbering).find? fun e => e.identifier = some i).map
        (entryOf chapter number i) := by
  simp [equationsOf, hnumber, ChapterEquations.get?, find?_foldl_register]

theorem numbered_equationsOf {chapter : Chapter} {number : ChapterNumber}
    (hnumber : chapter.number = some number) (f : Fragment) (numbering : Numbering) :
    (equationsOf chapter f numbering).numbered = (scanEquations f numbering).length := by
  simp [equationsOf, hnumber]

end Index

namespace Pass

open Index

variable {dom : Dom} {f : Fragment} {numbering : Numbering} {number : ChapterNumber} {x : NodeId}

/-- The equation is alone in a content box, which stands in a display box next to a number box that
shows the label. -/
def ShownWith (dom : Dom) (x : NodeId) (label : String) : Prop :=
  ∃ display content number,
    dom.content? (some display) = some (divOf displayClass) ∧
    dom.content? (some content) = some (divOf contentClass) ∧
    dom.content? (some number) = some (divOf numberClass) ∧
    dom.children (some display) = [content, number] ∧
    dom.children (some content) = [x] ∧
    dom.textOf (some number) = label

theorem BoxedIn.shownWith {label : String} {display content box text : NodeId}
    (h : BoxedIn dom x label display content box text) (hwf : dom.WellFormed) :
    ShownWith dom x label :=
  ⟨display, content, box, h.displayBox, h.contentBox, h.numberBox, h.inDisplay, h.inContent,
    h.textOf_number hwf⟩

theorem nodup_scanEquations (h : f.WellFormed) (numbering : Numbering) :
    ((scanEquations f numbering).map (·.node)).Nodup := by
  rw [map_node_scanEquations]
  exact (h.dom.nodup_descendants h.root).filter _

theorem exists_parent_of_mem_scanEquations (h : f.WellFormed) {e : ScannedEquation}
    (he : e ∈ scanEquations f numbering) : ∃ p, f.dom.parent? (some e.node) = some p := by
  have hmem := List.mem_map_of_mem (f := (·.node)) he
  rw [map_node_scanEquations] at hmem
  obtain ⟨p, hp, -⟩ := above_iff_exists_parent.mp (above_of_mem_numbered h hmem)
  exact ⟨p, hp⟩

/-- Annotating the numbered equations of a chapter. -/
theorem wrapAll_scanEquations (number : ChapterNumber) (h : f.WellFormed) (numbering : Numbering) :
    let result := wrapAll number f.dom (scanEquations f numbering)
    Annotated f.dom result.1 ((numberedEquations f numbering).filter (!isWrapped f.dom ·)) ∧
      result.2 = ((numberedEquations f numbering).filter (!isWrapped f.dom ·)).length ∧
      ∀ e ∈ scanEquations f numbering, isWrapped f.dom e.node = false →
        ShownWith result.1 e.node (shownEquationNumber number e.sequence) := by
  obtain ⟨hann, hcount, hboxes⟩ := wrapAll_spec number h.dom (nodup_scanEquations h numbering)
    fun e he => exists_parent_of_mem_scanEquations h he
  have hunwrapped : (unwrapped f.dom (scanEquations f numbering)).map (·.node) =
      (numberedEquations f numbering).filter (!isWrapped f.dom ·) := by
    rw [unwrapped, ← map_node_scanEquations, List.filter_map]
    rfl
  refine ⟨hunwrapped ▸ hann, ?_, fun e he hwrapped => ?_⟩
  · rw [hcount, ← hunwrapped, List.length_map]
  · obtain ⟨display, content, box, text, hbox⟩ := hboxes e (List.mem_filter.mpr ⟨he, by simp [hwrapped]⟩)
    exact hbox.shownWith hann.wellFormed

theorem numberEquations_eq {ctx : Context} (hnumber : ctx.chapter?.bind (·.number) = some number)
    (numbering : Numbering) (f : Fragment) :
    numberEquations numbering ctx f =
      ({ f with dom := (wrapAll number f.dom (scanEquations f numbering)).1 },
        ⟨(wrapAll number f.dom (scanEquations f numbering)).2, []⟩) := by
  simp [numberEquations, hnumber]

theorem Annotated.mem_numberedEquations {dom' : Dom} {moved : List NodeId}
    (ha : Annotated f.dom dom' moved) (h : f.WellFormed)
    (hx : x ∈ numberedEquations { f with dom := dom' } numbering) :
    x ∈ numberedEquations f numbering := by
  have hroot := h.root.trans_le ha.size_le
  obtain ⟨habove, hnumbered⟩ := (mem_numberedEquations_iff ⟨ha.wellFormed, hroot⟩).mp hx
  have hmath := (Bool.and_eq_true_iff.mp hnumbered).1
  have hlt : x < f.dom.size := by
    by_contra hge
    have hdiv := ha.fresh x "math" (Nat.le_of_not_lt hge) (Bool.and_eq_true_iff.mp hmath).1
    exact absurd hdiv (by decide)
  have hcontent := ha.content x hlt
  refine (mem_numberedEquations_iff h).mpr ⟨ha.above_old h.root hlt habove, ?_⟩
  exact isNumbered_of_owner (isDisplayMath_congr (name?_congr hcontent) (attribute?_congr hcontent _))
    (fun s => ha.owner _ x s hlt) hnumbered

/-- Every numbered equation is wrapped. -/
def AllWrapped (f : Fragment) (numbering : Numbering) : Prop :=
  ∀ x ∈ numberedEquations f numbering, isWrapped f.dom x

theorem allWrapped_numberEquations {ctx : Context}
    (hnumber : ctx.chapter?.bind (·.number) = some number) (h : f.WellFormed)
    (numbering : Numbering) : AllWrapped (numberEquations numbering ctx f).1 numbering := by
  rw [numberEquations_eq hnumber]
  intro x hx
  have hold := (wrapAll_scanEquations number h numbering).1.mem_numberedEquations h hx
  rw [← map_node_scanEquations, List.mem_map] at hold
  obtain ⟨e, he, rfl⟩ := hold
  exact isWrapped_wrapAll number h.dom (nodup_scanEquations h numbering)
    (fun e he => exists_parent_of_mem_scanEquations h he) he

/-- In every chapter with a number the index and the annotation agree: an identifier is known exactly
if a numbered equation carries it, the first equation that does is shown with the number that the
index gives unless it was boxed before, and together with the boxed ones the annotated equations are
as many as the index counts. -/
theorem shown_numbers_agree {manifest : Manifest} {chapter : Chapter}
    (hdistinct : Manifest.repeatedId? [] manifest.chapters = none)
    (hmem : chapter ∈ manifest.chapters) (hnumber : chapter.number = some number)
    (index : DocumentIndex) (numbering : Numbering) (content : String) :
    let f := Fragment.parse content
    let equations := equationsOf chapter f numbering
    let result := numberEquations numbering ⟨manifest, index, chapter.id⟩ f
    (∀ i, (∃ e, equations.get? i = some e) ↔
      ∃ x ∈ numberedEquations f numbering, owningIdentifier? f.dom x = some i) ∧
    (∀ i e, equations.get? i = some e → ∃ x,
      (numberedEquations f numbering).find? (owningIdentifier? f.dom · = some i) = some x ∧
      (isWrapped f.dom x = false →
        x ∈ result.1.dom.descendants (some result.1.root) ∧
        ShownWith result.1.dom x ("(" ++ e.number ++ ")"))) ∧
    result.2.changed + ((numberedEquations f numbering).filter (isWrapped f.dom)).length =
      equations.numbered := by
  intro f equations result
  have h : f.WellFormed := Fragment.wellFormed_parse content
  have hchapter : (⟨manifest, index, chapter.id⟩ : Context).chapter?.bind (·.number) = some number := by
    simp [Context.chapter?, Manifest.findChapter?_of_mem hdistinct hmem, hnumber]
  have hresult := numberEquations_eq hchapter numbering f
  obtain ⟨hann, hcount, hboxes⟩ := wrapAll_scanEquations number h numbering
  have hget : ∀ i, equations.get? i = ((scanEquations f numbering).find? fun e =>
      e.identifier = some i).map (entryOf chapter number i) := get?_equationsOf hnumber f numbering
  have hfind : ∀ i, ((scanEquations f numbering).find? fun e => e.identifier = some i).map (·.node) =
      (numberedEquations f numbering).find? (owningIdentifier? f.dom · = some i) :=
    find?_scanFrom _ _ _
  refine ⟨fun i => ?_, fun i e he => ?_, ?_⟩
  · rw [← Option.isSome_iff_exists, hget, Option.isSome_map, ← Option.isSome_map (f := (·.node)), hfind,
      List.find?_isSome]
    simp
  · rw [hget, Option.map_eq_some_iff] at he
    obtain ⟨scanned, hscanned, rfl⟩ := he
    have hmem := List.mem_of_find?_eq_some hscanned
    refine ⟨scanned.node, by rw [← hfind, hscanned]; rfl, fun hwrapped => ?_⟩
    have hbelow : scanned.node ∈ numberedEquations f numbering := by
      rw [← map_node_scanEquations]
      exact List.mem_map_of_mem hmem
    simp only [result, hresult]
    refine ⟨?_, hboxes scanned hmem hwrapped⟩
    rw [hann.wellFormed.mem_descendants_iff (h.root.trans_le hann.size_le)]
    exact hann.above h.dom (above_of_mem_numbered h hbelow)
  · have hsplit := (numberedEquations f numbering).length_eq_length_filter_add (isWrapped f.dom)
    simp only [result, hresult, equations, numbered_equationsOf hnumber, length_scanEquations, hsplit]
    rw [hcount, Nat.add_comm]

/-- One equation of chapter 2, known as `eq:a` and shown as 2.1. -/
theorem shown_number_of_one_equation :
    let ctx : Context := ⟨⟨[⟨"d", some (.ordinal 2), "T", none, .chapters⟩]⟩, .empty, "d"⟩
    let f := Fragment.parse "<p id=\"eq:a\"><math display=\"block\"></math></p>"
    ∃ x, owningIdentifier? f.dom x = some "eq:a" ∧
      ShownWith (numberEquations .allDisplay ctx f).1.dom x "(2.1)" := by
  intro ctx f
  have hmem : ⟨"d", some (.ordinal 2), "T", none, .chapters⟩ ∈ ctx.manifest.chapters := by simp [ctx]
  obtain ⟨-, hshown, -⟩ := shown_numbers_agree (by decide) hmem rfl .empty .allDisplay
    "<p id=\"eq:a\"><math display=\"block\"></math></p>"
  obtain ⟨x, hfind, hx⟩ := hshown "eq:a" ⟨"eq:a", "2.1", "d", "2"⟩ (by decide +kernel)
  have howner := List.find?_some hfind
  have hnode : (numberedEquations f .allDisplay).find? (owningIdentifier? f.dom · = some "eq:a") =
      some 6 := by decide +kernel
  obtain rfl : x = 6 := Option.some_inj.mp (hfind.symm.trans hnode)
  exact ⟨6, by simpa using howner, (hx (by decide +kernel)).2⟩

end Pass
end CrossRef
