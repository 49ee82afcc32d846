import CrossRef.Proofs.Construction.Run
import CrossRef.Proofs.Dom.Spine
import Mathlib.Data.List.TakeWhile

/-!
What tree construction shows of the open elements while a text only opens elements, puts text into them and
closes the innermost one. Each step of that kind changes the innermost element and nothing else.
-/
namespace CrossRef
namespace Markup
namespace Html

/-- An open element: its name, its attributes, the tag that can open it again if it is a formatting element,
and the trees of its finished children. -/
structure OpenFrame where
  label : String
  attributes : List Attribute
  tag? : Option Tag
  closed : List Tree

namespace OpenFrame

def content (frame : OpenFrame) : Content := .element (.html frame.label) frame.attributes

def toFrame (frame : OpenFrame) : Frame := ⟨frame.content, frame.closed⟩

/-- The tree of the element when it ends here. -/
def tree (frame : OpenFrame) : Tree := .node (some frame.content) frame.closed

/-- The element with more trees finished in it. -/
def add (frame : OpenFrame) (trees : List Tree) : OpenFrame :=
  { frame with closed := frame.closed ++ trees }

/-- The element with more text in it. -/
def addChars (frame : OpenFrame) (chars : List Char) : OpenFrame :=
  { frame with closed := Tree.addChars frame.closed chars }

theorem addChars_addChars (frame : OpenFrame) (first second : List Char) :
    (frame.addChars first).addChars second = frame.addChars (first ++ second) := by
  simp only [addChars, Tree.addChars_addChars]

/-- The element without its place in the arena. -/
def placeless (frame : OpenFrame) : OpenElement := ⟨0, .html frame.label⟩

end OpenFrame

/-- The document around the open elements, whose type is declared. -/
def documentFrame : Frame := ⟨.document, [.node (some (.doctype "html")) []]⟩

/-- The entries of those open elements that are formatting elements. -/
def formattingOf : List OpenElement → List OpenFrame → List FormattingEntry
  | e :: opened, frame :: frames =>
    (frame.tag?.map (FormattingEntry.element e.node)).toList ++ formattingOf opened frames
  | _, _ => []

namespace Construction

/-- The construction stands in the body, inside these elements, the innermost first. -/
structure Shows (c : Construction) (frames : List OpenFrame) : Prop where
  sound : c.Sound
  mode : c.mode = .inBody
  isFostering : c.isFostering = false
  skipsNewline : c.skipsNewline = false
  names : c.opened.map (·.name) = frames.map fun frame => .html frame.label
  formatting : c.formatting = formattingOf c.opened frames
  spine : c.dom.Spine none (c.opened.map (·.node) ++ [Dom.document])
    (frames.map (·.toFrame) ++ [documentFrame])

variable {c : Construction} {frame outer : OpenFrame} {frames : List OpenFrame} {tag : Tag}

/-! ### The names of the open elements -/

theorem inScope_congr {ends : Name → Bool} (p : Name → Bool) {opened opened' : List OpenElement}
    (h : opened.map (·.name) = opened'.map (·.name)) :
    inScope ends (fun e => p e.name) opened = inScope ends (fun e => p e.name) opened' := by
  induction opened generalizing opened' with
  | nil => rw [List.map_eq_nil_iff.mp h.symm]
  | cons e opened ih =>
    obtain ⟨e', opened', rfl, hname, hrest⟩ := List.map_eq_cons_iff.mp h.symm
    rw [inScope, inScope, ih hrest.symm, hname]

theorem Shows.inScope_eq (h : c.Shows frames) (ends p : Name → Bool) :
    inScope ends (fun e => p e.name) c.opened =
      inScope ends (fun e => p e.name) (frames.map (·.placeless)) :=
  inScope_congr p (by rw [h.names, List.map_map]; rfl)

/-- The innermost element comes first on the stack. -/
theorem Shows.opened_eq (h : c.Shows (frame :: frames)) :
    ∃ node opened, c.opened = ⟨node, .html frame.label⟩ :: opened := by
  obtain ⟨e, opened, heq, hname, -⟩ := List.map_eq_cons_iff.mp h.names
  exact ⟨e.node, opened, by rw [heq, show Name.html frame.label = e.name from hname.symm]⟩

theorem Shows.currentIs_eq (h : c.Shows (frame :: frames)) (p : Name → Bool) :
    c.currentIs p = p (.html frame.label) := by
  obtain ⟨node, opened, heq⟩ := h.opened_eq
  rw [currentIs, current?, heq]
  rfl

theorem Shows.popWhile_eq (h : c.Shows (frame :: frames)) {p : Name → Bool}
    (hp : p (.html frame.label) = false) : c.popWhile p = c := by
  obtain ⟨node, opened, heq⟩ := h.opened_eq
  rw [popWhile, heq, List.dropWhile_cons_of_neg (by simpa using hp), ← heq]

theorem Shows.popThrough_eq (h : c.Shows (frame :: frames)) {p : Name → Bool}
    (hp : p (.html frame.label) = true) : c.popThrough p = c.pop := by
  rw [popThrough, h.popWhile_eq (by simpa using hp)]

theorem Shows.currentPlace_eq (h : c.Shows (frame :: frames)) :
    ∃ node opened, c.opened = ⟨node, .html frame.label⟩ :: opened ∧ c.currentPlace = .inside node := by
  obtain ⟨node, opened, heq⟩ := h.opened_eq
  exact ⟨node, opened, heq, by rw [currentPlace, current?, heq]; simp [placeFor, h.isFostering]⟩

/-! ### Formatting elements that are open -/

theorem exists_of_mem_formattingOf {opened : List OpenElement} {entry : FormattingEntry}
    (h : entry ∈ formattingOf opened frames) :
    ∃ e ∈ opened, ∃ tag, entry = .element e.node tag := by
  induction opened generalizing frames with
  | nil => simp [formattingOf] at h
  | cons e opened ih =>
    cases frames with
    | nil => simp [formattingOf] at h
    | cons frame frames =>
      rcases List.mem_append.mp h with hfirst | hrest
      · obtain ⟨tag, -, rfl⟩ := Option.map_eq_some_iff.mp (Option.mem_toList.mp hfirst)
        exact ⟨e, List.mem_cons_self, tag, rfl⟩
      · obtain ⟨e', he', htag⟩ := ih hrest
        exact ⟨e', List.mem_cons_of_mem e he', htag⟩

theorem formattingOf_eq_nil (opened : List OpenElement) (h : ∀ frame ∈ frames, frame.tag? = none) :
    formattingOf opened frames = [] := by
  induction frames generalizing opened with
  | nil => cases opened <;> rfl
  | cons frame frames ih =>
    obtain ⟨hfirst, hrest⟩ := List.forall_mem_cons.mp h
    cases opened with
    | nil => rfl
    | cons e opened => rw [formattingOf, hfirst, ih opened hrest]; rfl

/-- While all formatting elements are open, none is to be opened again. -/
theorem Shows.reconstruct_eq (h : c.Shows frames) : c.reconstruct = c := by
  have hopen : ∀ entry ∈ c.formatting, ∃ e ∈ c.opened, ∃ tag, entry = .element e.node tag :=
    fun entry hentry => exists_of_mem_formattingOf (h.formatting ▸ hentry)
  unfold reconstruct
  dsimp only
  rw [List.takeWhile_eq_nil_iff.mpr]
  · rfl
  · intro hpos
    obtain ⟨e, he, tag, hentry⟩ := hopen _ (List.getElem_mem hpos)
    have hisOpen : c.isOpen e.node = true := List.any_eq_true.mpr ⟨e, he, by simp⟩
    simp [hentry, hisOpen]

/-! ### Opening an element -/

theorem insertOpen_eq {node : NodeId} (hplace : c.currentPlace = .inside node) (name : Name)
    (attributes : List Attribute) :
    c.insertOpen name attributes =
      ({ c with
        dom := (c.dom.create (.element name attributes)).1.append (some node) (some c.dom.size)
        opened := ⟨c.dom.size, name⟩ :: c.opened }, c.dom.size) := by
  rw [insertOpen, insertClosed, hplace]
  rfl

/-- A new element is open inside the one that was the innermost. -/
theorem Shows.insertOpen (h : c.Shows (frame :: frames)) (label : String) (attributes : List Attribute)
    (tag? : Option Tag) :
    { (c.insertOpen (.html label) attributes).1 with
      formatting := (tag?.map (FormattingEntry.element c.dom.size)).toList ++ c.formatting }.Shows
        (⟨label, attributes, tag?, []⟩ :: frame :: frames) := by
  obtain ⟨node, opened, heq, hplace⟩ := h.currentPlace_eq
  have hsound := ((goes h.sound).insertOpen (.html label) attributes).sound
  have hspine := h.spine
  rw [heq] at hspine
  rw [insertOpen_eq hplace] at hsound ⊢
  refine ⟨hsound, h.mode, h.isFostering, h.skipsNewline, ?_, ?_, ?_⟩
  · rw [List.map_cons, List.map_cons, h.names]
  · rw [formattingOf, ← h.formatting]
  · have happended :=
      Dom.appended_create h.sound.wellFormed (.element (.html label) attributes) hspine.lt_size
    rw [heq]
    exact hspine.append h.sound.wellFormed hsound.wellFormed happended

theorem Shows.openTag (h : c.Shows (frame :: frames)) (tag : Tag) :
    (c.openTag tag).Shows (⟨tag.label, tag.attributesIn .html, none, []⟩ :: frame :: frames) := by
  obtain ⟨node, opened, -, hplace⟩ := h.currentPlace_eq
  have hopened := h.insertOpen tag.label (tag.attributesIn .html) none
  rw [Construction.openTag]
  rw [insertOpen_eq hplace] at hopened ⊢
  exact hopened

/-- The first formatting element. -/
theorem Shows.openFormatting (h : c.Shows (frame :: frames))
    (hothers : ∀ other ∈ frame :: frames, other.tag? = none) (tag : Tag) :
    (c.openFormatting tag).Shows
      (⟨tag.label, tag.attributesIn .html, some tag, []⟩ :: frame :: frames) := by
  obtain ⟨node, opened, -, hplace⟩ := h.currentPlace_eq
  have hthree : earliestOfThree? tag c.formatting = none := by
    rw [h.formatting, formattingOf_eq_nil c.opened hothers]
    rfl
  have hopened := h.insertOpen tag.label (tag.attributesIn .html) (some tag)
  rw [Construction.openFormatting, hthree]
  dsimp only
  rw [insertOpen_eq hplace] at hopened ⊢
  exact hopened

/-! ### Text -/

theorem Shows.insertText (h : c.Shows (frame :: frames)) (chars : List Char) :
    (c.insertText chars).Shows
      ({ frame with closed := Tree.addText frame.closed (String.ofList chars) } :: frames) := by
  obtain ⟨node, opened, heq, hplace⟩ := h.currentPlace_eq
  have hsound := ((goes h.sound).insertText chars).sound
  have hspine := h.spine
  rw [heq] at hspine
  rw [Construction.insertText, hplace] at hsound ⊢
  have hformatting := h.formatting
  rw [heq] at hformatting
  exact ⟨hsound, h.mode, h.isFostering, h.skipsNewline, h.names, heq ▸ hformatting,
    heq ▸ hspine.appendText h.sound.wellFormed (String.ofList chars)⟩

/-! ### Closing an element -/

/-- The innermost element ends. -/
theorem Shows.close (h : c.Shows (frame :: outer :: frames)) (formatting : List FormattingEntry)
    (hformatting : formatting = formattingOf c.opened.tail (outer :: frames)) :
    { c with opened := c.opened.tail, formatting := formatting }.Shows
      (outer.add [frame.tree] :: frames) := by
  obtain ⟨e, opened, heq, -, hnames⟩ := List.map_eq_cons_iff.mp h.names
  obtain ⟨next, rest, rfl, -, -⟩ := List.map_eq_cons_iff.mp hnames
  have hspine := h.spine
  rw [heq] at hspine hformatting
  have hclosed := hspine.close h.sound.wellFormed
  rw [heq]
  refine ⟨h.sound.subset fun x hx => heq ▸ List.mem_cons_of_mem e hx, h.mode, h.isFostering,
    h.skipsNewline, hnames, hformatting, hclosed⟩

theorem Shows.pop (h : c.Shows (frame :: outer :: frames)) (htag : frame.tag? = none) :
    c.pop.Shows (outer.add [frame.tree] :: frames) := by
  obtain ⟨node, opened, heq⟩ := h.opened_eq
  refine h.close c.formatting ?_
  rw [h.formatting, heq, formattingOf, htag]
  rfl

/-- The end tag of the innermost element, which is the only formatting element. -/
theorem Shows.closeFormatting (h : c.Shows (frame :: outer :: frames)) (htag : frame.tag? = some tag)
    (hlabel : tag.label = frame.label) (hothers : ∀ other ∈ outer :: frames, other.tag? = none) :
    (c.closeFormatting frame.label).Shows (outer.add [frame.tree] :: frames) := by
  obtain ⟨node, opened, heq⟩ := h.opened_eq
  have hformatting := h.formatting
  have hnone := formattingOf_eq_nil opened hothers
  rw [heq, formattingOf, htag, hnone] at hformatting
  have hclosed : c.closeFormatting frame.label =
      { c with opened := c.opened.tail, formatting := [] } := by
    have hround : c.closeFormattingRound frame.label =
        ({ c with opened := opened, formatting := [] }, false) := by
      simp [closeFormattingRound, latestNamed?, entriesToMarker, hformatting, hlabel, heq, inScope,
        removeEntry, FormattingEntry.isAt]
    simp [Construction.closeFormatting, current?, heq, isListed, hformatting, FormattingEntry.isAt,
      closeFormattingRounds, hround]
  rw [hclosed]
  exact h.close [] (by rw [heq, List.tail_cons, hnone])

/-! ### Which elements a tag closes -/

/-- Outside of paragraphs there is none to close. -/
theorem Shows.closeParagraphInScope_eq (h : c.Shows frames)
    (hnone : inScope endsButtonScope (fun e => isHtmlNamed "p" e.name)
      (frames.map (·.placeless)) = false) : c.closeParagraphInScope = c := by
  rw [closeParagraphInScope, hasInScopeOf, h.inScope_eq, hnone, if_neg Bool.false_ne_true]

/-- Directly inside of a list there is no item to close. -/
theorem Shows.closeItem_eq (h : c.Shows (frame :: frames)) {labels : List String}
    (hends : endsItemSearch (.html frame.label) = true)
    (hitem : isHtmlAmong labels (.html frame.label) = false) : c.closeItem labels = c := by
  obtain ⟨node, opened, heq⟩ := h.opened_eq
  simp [closeItem, heq, hends, hitem]

theorem isHtmlNamed_html (label : String) : isHtmlNamed label (.html label) = true := by
  simp [isHtmlNamed]

/-- The end tag of the innermost element whose end tag may be left out. -/
theorem Shows.closeImpliedExcept_popThroughNamed (h : c.Shows (frame :: frames)) :
    (c.closeImpliedExcept frame.label).popThroughNamed frame.label = c.pop := by
  rw [closeImpliedExcept, h.popWhile_eq (by simp [isHtmlNamed_html]), popThroughNamed,
    h.popThrough_eq (isHtmlNamed_html _)]

/-- The end tag of the innermost element whose end tag may not be left out. -/
theorem Shows.closeNamed_eq (h : c.Shows (frame :: frames))
    (himplied : hasImpliedEnd (.html frame.label) = false) : c.closeNamed frame.label = c.pop := by
  obtain ⟨node, opened, heq⟩ := h.opened_eq
  have hscope : c.hasInScope frame.label = true := by
    rw [hasInScope, heq, inScope, isHtmlNamed_html, Bool.true_or]
  rw [closeNamed, hscope, if_pos rfl, closeImplied, h.popWhile_eq himplied, popThroughNamed,
    h.popThrough_eq (isHtmlNamed_html _)]

/-- The end tag of the innermost element when that has no rules of its own. -/
theorem Shows.closeOrdinary_eq (h : c.Shows (frame :: frames)) :
    c.closeOrdinary frame.label = c.pop := by
  obtain ⟨node, opened, heq⟩ := h.opened_eq
  simp [closeOrdinary, heq, isHtmlNamed_html, Construction.pop]

/-- Without formatting elements there is no link to close. -/
theorem Shows.closeOuterLink_eq (h : c.Shows frames) (hothers : ∀ frame ∈ frames, frame.tag? = none) :
    c.closeOuterLink = c := by
  rw [closeOuterLink, h.formatting, formattingOf_eq_nil c.opened hothers]
  rfl

end Construction
end Html
end Markup
end CrossRef
