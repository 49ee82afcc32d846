import CrossRef.Markup.Fragment
import CrossRef.Proofs.Construction.Since

/-!
Every insertion mode keeps the construction sound and what is closed closed, and with it so does reading a
whole text.
-/
namespace CrossRef
namespace Markup
namespace Html
namespace Construction

variable {c : Construction}

namespace Goes

variable {n : Nat} {start : List OpenElement} {fosters : Bool}

/-! ### In the body -/

@[grind ←] theorem openMetadata (h : c.Goes n start fosters) (tag : Tag) :
    (c.openMetadata tag).1.Goes n start fosters := by
  unfold Construction.openMetadata
  split
  all_goals simp only [h, openText, insertVoid]
  have htemplate : Goes n start fosters { c.pushMarker with
    mode := .inTemplate
    templateModes := .inTemplate :: c.templateModes } := h
  exact htemplate.openTag tag

@[grind ←] theorem closeTemplate (h : c.Goes n start fosters) : c.closeTemplate.Goes n start fosters := by
  unfold Construction.closeTemplate
  split_ifs
  · exact (h.popWhile _).popThroughNamed "template"
  · exact h

@[grind ←] theorem mergeAttributes (h : c.Goes n start fosters) (element? : Option OpenElement)
    (tag : Tag) : (c.mergeAttributes element? tag).Goes n start fosters := by
  unfold Construction.mergeAttributes
  split
  · next e =>
    have hlinks := Dom.sameLinks_addMissingAttributes c.dom (some e.node) (tag.attributesIn .html)
    split_ifs
    · exact h
    · exact h.grow (h.sound.grow (hlinks.wellFormed h.sound.wellFormed)
        (.addMissingAttributes c.dom (some e.node) _)) hlinks.size.ge
  · exact h

@[grind ←] theorem closeItem (h : c.Goes n start fosters) (labels : List String) :
    (c.closeItem labels).Goes n start fosters := by
  unfold Construction.closeItem
  grind

@[grind ←] theorem openForeign (h : c.Goes n start fosters) (vocabulary : Vocabulary) (tag : Tag) :
    (c.openForeign vocabulary tag).Goes n start fosters := by
  unfold Construction.openForeign
  grind

@[grind ←] theorem openInBody (h : c.Goes n start fosters) (tag : Tag) :
    (c.openInBody tag).1.Goes n start fosters := by
  unfold Construction.openInBody
  split
  · exact h.openMetadata tag
  · split <;> grind

@[grind ←] theorem closeNamed (h : c.Goes n start fosters) (label : String) :
    (c.closeNamed label).Goes n start fosters := by
  unfold Construction.closeNamed
  grind

@[grind ←] theorem closeForm (h : c.Goes n start fosters) : c.closeForm.Goes n start fosters := by
  unfold Construction.closeForm
  split_ifs
  · exact h.closeNamed "form"
  · split
    · exact h
    · grind

@[grind ←] theorem closeInBody (h : c.Goes n start fosters) (tag : Tag) :
    (c.closeInBody tag).1.Goes n start fosters := by
  unfold Construction.closeInBody
  split <;> grind

@[grind ←] theorem inBody (h : c.Goes n start fosters) (token : Token) :
    (c.inBody token).1.Goes n start fosters := by
  cases token <;> grind [Construction.inBody]

/-! ### In tables -/

@[grind ←] theorem fosterInBody (h : c.Goes n start fosters) (token : Token) :
    (c.fosterInBody token).1.Goes n start fosters := by
  have hfoster : Goes n start true { c with isFostering := true } := { h with isFostering := fun _ => rfl }
  exact { hfoster.inBody token with isFostering := nofun }

@[grind ←] theorem textInTable (h : c.Goes n start fosters) (token : Token) :
    (c.textInTable token).1.Goes n start fosters := by
  unfold Construction.textInTable
  grind

@[grind ←] theorem openInTable (h : c.Goes n start fosters) (tag : Tag) :
    (c.openInTable tag).1.Goes n start fosters := by
  unfold Construction.openInTable
  dsimp only
  split <;> grind

@[grind ←] theorem closeInTable (h : c.Goes n start fosters) (tag : Tag) :
    (c.closeInTable tag).1.Goes n start fosters := by
  unfold Construction.closeInTable
  split <;> grind

@[grind ←] theorem inTable (h : c.Goes n start fosters) (token : Token) :
    (c.inTable token).1.Goes n start fosters := by
  cases token <;> grind [Construction.inTable]

@[grind ←] theorem placeTableText (h : c.Goes n start fosters) :
    c.placeTableText.Goes n start fosters := by
  unfold Construction.placeTableText
  grind

@[grind ←] theorem inTableText (h : c.Goes n start fosters) (token : Token) :
    (c.inTableText token).1.Goes n start fosters := by
  cases token <;> grind [Construction.inTableText]

@[grind ←] theorem leaveCaption (h : c.Goes n start fosters) (next : Next) :
    (c.leaveCaption next).1.Goes n start fosters := by
  unfold Construction.leaveCaption
  grind

@[grind ←] theorem inCaption (h : c.Goes n start fosters) (token : Token) :
    (c.inCaption token).1.Goes n start fosters := by
  unfold Construction.inCaption
  split <;> grind

@[grind ←] theorem leaveColumnGroup (h : c.Goes n start fosters) (next : Next) :
    (c.leaveColumnGroup next).1.Goes n start fosters := by
  unfold Construction.leaveColumnGroup
  grind

@[grind ←] theorem inColumnGroup (h : c.Goes n start fosters) (token : Token) :
    (c.inColumnGroup token).1.Goes n start fosters := by
  unfold Construction.inColumnGroup
  split <;> grind

@[grind ←] theorem leaveTableBody (h : c.Goes n start fosters) (token : Token) :
    (c.leaveTableBody token).1.Goes n start fosters := by
  unfold Construction.leaveTableBody
  grind

@[grind ←] theorem inTableBody (h : c.Goes n start fosters) (token : Token) :
    (c.inTableBody token).1.Goes n start fosters := by
  unfold Construction.inTableBody
  split <;> grind

@[grind ←] theorem leaveRow (h : c.Goes n start fosters) (next : Next) :
    (c.leaveRow next).1.Goes n start fosters := by
  unfold Construction.leaveRow
  grind

@[grind ←] theorem inRow (h : c.Goes n start fosters) (token : Token) :
    (c.inRow token).1.Goes n start fosters := by
  unfold Construction.inRow
  split <;> grind

@[grind ←] theorem leaveCell (h : c.Goes n start fosters) (token : Token) :
    (c.leaveCell token).1.Goes n start fosters := by
  unfold Construction.leaveCell
  grind

@[grind ←] theorem inCell (h : c.Goes n start fosters) (token : Token) :
    (c.inCell token).1.Goes n start fosters := by
  unfold Construction.inCell
  split <;> grind

/-! ### Any mode -/

@[grind ←] theorem inTemplate (h : c.Goes n start fosters) (token : Token) :
    (c.inTemplate token).1.Goes n start fosters := by
  unfold Construction.inTemplate Construction.enterTemplateContent
  split <;> grind

@[grind ←] theorem inText (h : c.Goes n start fosters) (token : Token) :
    (c.inText token).1.Goes n start fosters := by
  cases token <;> grind [Construction.inText]

theorem insertOuterComment (h : c.Goes n start fosters) {parent : NodeId} (hp : c.dom.CanHold parent)
    (text : String) : (c.insertOuterComment parent text).Goes n start fosters :=
  h.grow (h.sound.append_create hp (.comment text)) (by simp [Construction.insertOuterComment])

@[grind ←] theorem afterBody (h : c.Goes n start fosters) (token : Token) :
    (c.afterBody token).1.Goes n start fosters := by
  unfold Construction.afterBody
  cases token with
  | comment text =>
    dsimp only
    refine h.insertOuterComment ?_ text
    split
    · next root _ hroot => exact h.sound.opened root (List.mem_of_getLast? hroot)
    · exact h.sound.document
  | _ => grind

@[grind ←] theorem inMode (h : c.Goes n start fosters) (token : Token) :
    (c.inMode token).1.Goes n start fosters := by
  unfold Construction.inMode
  split <;> grind

theorem leaveForeign (h : c.Goes n start fosters) (token : Token) :
    (c.leaveForeign token).1.Goes n start fosters :=
  (h.popTo _).inMode token

theorem foreignClosed_suffix {label : String} {isFirst : Bool} {opened outer : List OpenElement}
    (h : foreignClosed? label isFirst opened = some outer) : outer <:+ opened := by
  induction opened generalizing isFirst with
  | nil => simp [foreignClosed?] at h
  | cons e opened ih =>
    rw [foreignClosed?] at h
    split_ifs at h
    · obtain rfl := Option.some_inj.mp h
      exact List.suffix_cons e _
    · exact (ih h).trans (List.suffix_cons e _)

theorem inForeign (h : c.Goes n start fosters) (token : Token) :
    (c.inForeign token).1.Goes n start fosters := by
  unfold Construction.inForeign
  cases token with
  | closing tag =>
    dsimp only
    split_ifs
    · exact h.leaveForeign _
    · split
      · next outer houter => exact h.narrow (foreignClosed_suffix houter).sublist
      · exact h.inMode _
  | _ => grind [leaveForeign]

theorem handle (h : c.Goes n start fosters) (fuel : Nat) (token : Token) :
    (c.handle fuel token).1.Goes n start fosters := by
  induction fuel generalizing c token with
  | zero => exact h
  | succ fuel ih =>
    have hstep : (if c.isForeign token then c.inForeign token
        else c.inMode token).1.Goes n start fosters := by
      split_ifs
      · exact h.inForeign token
      · exact h.inMode token
    rw [Construction.handle]
    split <;> simp_all

theorem feed (h : c.Goes n start fosters) (token : Token) : (c.feed token).1.Goes n start fosters := by
  unfold Construction.feed
  dsimp only
  split
  · exact h
  · split
    · exact h
    · exact handle (c := { c with skipsNewline := false }) h _ _
  · exact handle (c := { c with skipsNewline := false }) h _ _

theorem readAll (h : c.Goes n start fosters) (fuel : Nat) (mode : ReadingMode) (chars : List Char) :
    (c.readAll fuel mode chars).Goes n start fosters := by
  induction fuel generalizing c mode chars with
  | zero => exact h
  | succ fuel ih =>
    cases chars with
    | nil => exact h
    | cons x rest =>
      rw [Construction.readAll]
      dsimp only
      split
      · exact ih (c := { c with skipsNewline := false }) h _ _
      · exact ih (h.feed _) _ _

theorem finish (h : c.Goes n start fosters) : c.finish.Goes n start fosters := by
  unfold Construction.finish
  grind

end Goes

theorem start_sound : start.Sound := by
  have hdoctype := holds_empty.append_create holds_empty.document (.doctype "html")
  have hhtml := hdoctype.append_create hdoctype.document (.element (.html "html") [])
  have hhead := hhtml.append_create (p := 2) (.of_name (by decide)) (.element (.html "head") [])
  have hbody := hhead.append_create (p := 2) (.of_name (by decide)) (.element (.html "body") [])
  exact (hbody.cons (.of_name (by decide)) _).cons (.of_name (by decide)) _

/-- Reading any text gives a well-formed arena that has a document and whose text nodes are leaves. -/
theorem run_sound (text : String) : Holds (run text) [] := by
  have h : Goes _ _ _ _ := goes start_sound
  exact ((h.readAll _ _ _).finish).sound.subset (List.nil_subset _)

end Construction
end Html

namespace Fragment

/-- In markup that was read no text node has children. -/
theorem textIsLeaf_parse (html : String) : (parse html).dom.TextIsLeaf :=
  (Html.Construction.run_sound html).leaves

/-- The arena is well formed and holds the root. -/
structure WellFormed (f : Fragment) : Prop where
  dom : f.dom.WellFormed
  root : f.root < f.dom.size

theorem wellFormed_parse (html : String) : (parse html).WellFormed := by
  have h := Html.Construction.run_sound html
  refine ⟨h.wellFormed, ?_⟩
  unfold parse
  dsimp only
  cases hbody : ((Html.Construction.run html).elementsBelow (some Dom.document) "body").head? with
  | none => exact h.document.lt_size
  | some body =>
    have hmem := (List.mem_filter.mp (List.mem_of_mem_head? hbody)).1
    exact ((h.wellFormed.mem_descendants_iff h.document.lt_size).mp hmem).lt_size

end Fragment
end Markup
end CrossRef
