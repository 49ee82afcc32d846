import CrossRef.Proofs.Ready.Pieces
import CrossRef.Proofs.Dom.Events

/-!
Reading what the writer makes of an arena. An element is read from its start tag to its end tag, whatever it is
read as, so what comes after it is read as it was written; and an element that has a place everywhere is made
again, with its attributes.
-/
namespace CrossRef
namespace Markup

def Content.isText : Content → Bool
  | .text _ => true
  | _ => false

namespace Html

open Dom Text

variable {outer : List Enclosing} {name : Name} {attributes : List Attribute} {inner rest : List Event}

/-! ### What is written -/

/-- The characters that are written for a sequence of events, inside the given open elements. -/
def written (outer : List Enclosing) (events : List Event) : List Char := (pieces outer events).flatMap String.toList

theorem toList_write (events : List Event) : (write events).toList = written [.outermost] events := by
  simp [write, written, String.toList_join]

/-- What is written for a sequence in which every element is closed does not change what is written after it. -/
theorem pieces_append (h : Nested inner) (outer : List Enclosing) (rest : List Event) :
    pieces outer (inner ++ rest) = pieces outer inner ++ pieces outer rest := by
  induction h generalizing outer rest with
  | nil => rfl
  | @leaf event more hleaf _ ih =>
    cases event with
    | opened name attributes => exact absurd hleaf id
    | closed name => exact absurd hleaf id
    | _ => simp [pieces, ih]
  | @element name attributes within more _ _ ihWithin ihMore =>
    simp only [List.cons_append, List.append_assoc, pieces, ihWithin, ihMore, List.tail_cons]
    split_ifs <;> simp

theorem written_append (h : Nested inner) (outer : List Enclosing) (rest : List Event) :
    written outer (inner ++ rest) = written outer inner ++ written outer rest := by
  simp [written, pieces_append h]

theorem written_flatMap {nodes : List NodeId} {f : NodeId → List Event} (h : ∀ i ∈ nodes, Nested (f i))
    (outer : List Enclosing) : written outer (nodes.flatMap f) = nodes.flatMap fun i => written outer (f i) := by
  induction nodes with
  | nil => rfl
  | cons i nodes ih =>
    rw [List.flatMap_cons, written_append (h i List.mem_cons_self), ih fun j hj => h j (List.mem_cons_of_mem i hj),
      List.flatMap_cons]

/-- An element between its tags. Where the writer is silent there is nothing inside. -/
theorem written_element (h : Nested inner) (hsilent : (enclosing outer).isSilent = false) :
    written outer (.opened name attributes :: inner ++ [.closed name]) =
      (startTag name attributes).toList ++ (written (⟨htmlLabel name, isVoidElement name⟩ :: outer) inner ++
        if isVoidElement name then [] else (endTag name).toList) := by
  have hvoid : (htmlLabel name).any isVoid = isVoidElement name := by
    unfold htmlLabel isVoidElement
    split_ifs with hhtml <;> simp [hhtml]
  rw [List.cons_append, written, pieces, if_neg (by simp [hsilent]), List.flatMap_cons, pieces_append h, hvoid,
    List.flatMap_append, written, pieces]
  cases hname : isVoidElement name <;> simp [enclosing, pieces]

/-! ### Elements that end in place -/

/-- What keeps an element from being read beyond its end tag: it does not begin plain text, and if its text may be
read up to an end tag, it holds nothing else, and nothing opens in it where it is written as it is. -/
structure EndsInPlace (dom : Dom) (i : NodeId) : Prop where
  plaintext : ∀ name ∈ dom.name? (some i), asciiLowercase name.label ≠ "plaintext"
  text : ∀ name ∈ dom.name? (some i), holdsText (asciiLowercase name.label) →
    ∀ c ∈ dom.children (some i), (dom.content? (some c)).any (·.isText)
  opens : ∀ name ∈ dom.name? (some i), (htmlLabel name).any isRawText → opensNothing (dom.textOf (some i)).toList

instance (dom : Dom) (i : NodeId) : Decidable (EndsInPlace dom i) :=
  decidable_of_iff (_ ∧ _ ∧ _) ⟨fun h => ⟨h.1, h.2.1, h.2.2⟩, fun h => ⟨h.plaintext, h.text, h.opens⟩⟩

theorem EndsInPlace.exists_text {dom : Dom} {i : NodeId} (h : EndsInPlace dom i) {name : Name}
    (hname : dom.name? (some i) = some name) (hholds : holdsText (asciiLowercase name.label)) :
    ∀ c ∈ dom.children (some i), ∃ text, dom.content? (some c) = some (.text text) := by
  intro c hc
  have htext := h.text name hname hholds c hc
  cases hcontent : dom.content? (some c) with
  | none => simp [hcontent] at htext
  | some content =>
    cases content with
    | text text => exact ⟨text, rfl⟩
    | _ => simp [hcontent, Content.isText] at htext

/-- An arena that can be written. -/
structure Writable (dom : Dom) : Prop where
  wellFormed : dom.WellFormed
  legible : ∀ i content, dom.content? (some i) = some content → Legible content
  parents : ∀ i p, dom.parent? (some i) = some p → NotVoid dom p

/-- Inside of the elements the writer writes text that it escapes. -/
structure Escapes (outer : List Enclosing) : Prop where
  isSilent : (enclosing outer).isSilent = false
  isRawText : (enclosing outer).label.any isRawText = false

variable {dom : Dom} {i : NodeId}

theorem lt_not_mem_escapeText (text : String) : '<' ∉ (escapeText text).toList := by
  rw [escapeText, String.toList_ofList]
  intro hmem
  obtain ⟨c, -, hc⟩ := List.mem_flatMap.mp hmem
  by_cases h : c ∈ ['&', '\u00a0', '<', '>']
  · simp only [List.mem_cons, List.not_mem_nil, or_false] at h
    rcases h with rfl | rfl | rfl | rfl <;> simp [escapeTextChar] at hc
  · rw [escapeTextChar_of_plain h, List.mem_singleton] at hc
    exact h (by simp [← hc])

/-- A text has nothing below it. -/
theorem Writable.children_eq_nil (h : Writable dom) {text : String} (htext : dom.content? (some i) = some (.text text)) :
    dom.children (some i) = [] := by
  refine List.eq_nil_iff_forall_not_mem.mpr fun c hc => ?_
  rcases (h.parents c i (h.wellFormed.mem_children_iff.mp hc)).kind with hdocument | hname
  · rw [htext] at hdocument
    exact absurd (Option.some_inj.mp hdocument) nofun
  · simp [name?, htext] at hname

/-- The text of an element that holds nothing else. -/
theorem Writable.textOf_eq (h : Writable dom) {name : Name} (hname : dom.name? (some i) = some name)
    (htexts : ∀ c ∈ dom.children (some i), ∃ text, dom.content? (some c) = some (.text text)) :
    (dom.textOf (some i)).toList = (dom.children (some i)).flatMap fun c => (dom.textOf (some c)).toList := by
  have hbelow : dom.descendants (some i) = dom.children (some i) := by
    rw [h.wellFormed.descendants_eq (lt_size_of_name? (by simp [hname]))]
    have hpreorder : ∀ c ∈ dom.children (some i), dom.preorder c = [c] := fun c hc => by
      obtain ⟨text, htext⟩ := htexts c hc
      rw [h.wellFormed.preorder_eq (lt_size_of_parent? (h.wellFormed.mem_children_iff.mp hc)),
        h.children_eq_nil htext, List.flatMap_nil]
    rw [List.flatMap_congr hpreorder, List.flatMap_singleton']
  have htext : dom.textOf (some i) = String.join ((dom.children (some i)).map fun c => dom.textOf (some c)) := by
    have hnot : ∀ text, dom.content? (some i) ≠ some (.text text) := fun text hcontent => by
      simp [name?, hcontent] at hname
    rw [textOf, hbelow]
    split
    · next hcontent => exact absurd hcontent (hnot _)
    · congr 1
      rw [← List.filterMap_eq_map]
      refine List.filterMap_congr fun c hc => ?_
      obtain ⟨text, htext⟩ := htexts c hc
      simp [textOf, htext]
  rw [htext, String.toList_join, List.flatMap_map]

theorem Escapes.text (h : Escapes outer) (text : String) : written outer [.text text] = (escapeText text).toList := by
  rw [written, pieces, h.isRawText]
  simp [pieces]

/-- The texts in an element that holds nothing else open nothing. -/
theorem opensNothing_written (hw : Writable dom) (hname : dom.name? (some i) = some name) (h : EndsInPlace dom i)
    (hholds : holdsText (asciiLowercase name.label)) (silent : Bool) (outer : List Enclosing) :
    opensNothing (written (⟨htmlLabel name, silent⟩ :: outer) ((dom.children (some i)).flatMap (dom.eventsOf dom.size))) := by
  have htexts := h.exists_text hname hholds
  rw [written_flatMap fun c _ => nested_eventsOf dom dom.size c]
  have hchild : ∀ c ∈ dom.children (some i), ∃ text, dom.textOf (some c) = text ∧
      written (⟨htmlLabel name, silent⟩ :: outer) (dom.eventsOf dom.size c) =
        if (htmlLabel name).any isRawText then text.toList else (escapeText text).toList := by
    intro c hc
    obtain ⟨text, htext⟩ := htexts c hc
    refine ⟨text, by simp [textOf, htext], ?_⟩
    rw [hw.wellFormed.eventsOf_eq c, htext, eventsAround, written, pieces]
    cases hraw : (htmlLabel name).any isRawText <;> simp [enclosing, hraw, pieces]
  by_cases hraw : (htmlLabel name).any isRawText
  · have hopens := h.opens name hname hraw
    rw [hw.textOf_eq hname htexts] at hopens
    rw [List.flatMap_congr fun c hc => ?_]
    · exact hopens
    · obtain ⟨text, htext, hwritten⟩ := hchild c hc
      rw [hwritten, if_pos hraw, htext]
  · refine opensNothing_of_not_mem fun hmem => ?_
    obtain ⟨c, hc, hin⟩ := List.mem_flatMap.mp hmem
    obtain ⟨text, -, hwritten⟩ := hchild c hc
    rw [hwritten, if_neg hraw] at hin
    exact lt_not_mem_escapeText text hin

/-- Inside of an element that neither holds text nor begins plain text, text is escaped. -/
theorem escapes_inside (hvoid : isVoidElement name = false) (hholds : holdsText (asciiLowercase name.label) = false)
    (hplain : asciiLowercase name.label ≠ "plaintext") (outer : List Enclosing) :
    Escapes (⟨htmlLabel name, isVoidElement name⟩ :: outer) := by
  refine ⟨hvoid, ?_⟩
  have hall : ∀ label ∈ ["style", "script", "xmp", "iframe", "noembed", "noframes", "plaintext", "noscript"],
      holdsText (asciiLowercase label) ∨ asciiLowercase label = "plaintext" := by decide
  refine Bool.eq_false_iff.mpr fun hraw => ?_
  rw [enclosing, List.headD_cons, htmlLabel] at hraw
  split_ifs at hraw
  · rcases hall name.label (by simpa [isRawText] using hraw) with hholds' | hplain'
    · simp [hholds] at hholds'
    · exact hplain hplain'
  · simp at hraw

namespace Construction

variable {σ : Setting} {depth depth' : Nat} {cs cs' before : List Char}

/-- Text in front of a piece. -/
theorem proceeds_before (hall : ∀ content, σ.fits content) (hbefore : opensNothing before) (hhead : cs.head? = some '<')
    (h : Proceeds σ depth (normalizeLines cs) depth' cs') : Proceeds σ depth (normalizeLines (before ++ cs)) depth' cs' := by
  obtain ⟨rest, rfl⟩ := List.head?_eq_some_iff.mp hhead
  exact (proceeds_text hall depth hbefore rest).trans h

/-- A node is read from its beginning to its end, but for text that is read with what comes after it. -/
def Passes (σ : Setting) (cs : List Char) : Prop :=
  ∀ before, '<' ∉ before → ∃ after, '<' ∉ after ∧ ∀ depth rest,
    Proceeds σ depth (normalizeLines (before ++ (cs ++ rest))) depth (normalizeLines (after ++ rest))

theorem Passes.nil (σ : Setting) : Passes σ [] := fun before hbefore => ⟨before, hbefore, fun _ _ => .refl _ _ _⟩

theorem Passes.append (h : Passes σ cs) (h' : Passes σ cs') : Passes σ (cs ++ cs') := by
  intro before hbefore
  obtain ⟨between, hbetween, hread⟩ := h before hbefore
  obtain ⟨after, hafter, hread'⟩ := h' between hbetween
  refine ⟨after, hafter, fun depth rest => ?_⟩
  rw [List.append_assoc]
  exact (hread depth (cs' ++ rest)).trans (hread' depth rest)

theorem Passes.flatMap {nodes : List NodeId} {f : NodeId → List Char} (h : ∀ i ∈ nodes, Passes σ (f i)) :
    Passes σ (nodes.flatMap f) := by
  induction nodes with
  | nil => exact .nil σ
  | cons i nodes ih => exact (h i List.mem_cons_self).append (ih fun j hj => h j (List.mem_cons_of_mem i hj))

theorem Passes.text (h : '<' ∉ cs) : Passes σ cs := by
  intro before hbefore
  refine ⟨before ++ cs, by simp [hbefore, h], fun depth rest => ?_⟩
  rw [List.append_assoc]
  exact .refl σ depth _

/-- Something that begins with a tag. -/
theorem Passes.tag (hall : ∀ content, σ.fits content) (hhead : cs.head? = some '<')
    (h : ∀ depth rest, Proceeds σ depth (normalizeLines (cs ++ rest)) depth (normalizeLines rest)) : Passes σ cs := by
  intro before hbefore
  refine ⟨[], List.not_mem_nil, fun depth rest => ?_⟩
  obtain ⟨more, rfl⟩ := List.head?_eq_some_iff.mp hhead
  exact proceeds_before hall (opensNothing_of_not_mem hbefore) rfl (h depth rest)

/-- An element whose text is markup. -/
theorem Passes.element (hall : ∀ content, σ.fits content) (h : LegibleTag name attributes)
    (hholds : holdsText (asciiLowercase name.label) = false) (hplain : asciiLowercase name.label ≠ "plaintext")
    (hcs : Passes σ cs) : Passes σ ((startTag name attributes).toList ++ (cs ++ (endTag name).toList)) := by
  refine .tag hall (by simp [toList_startTag]) fun depth rest => ?_
  obtain ⟨after, hafter, hread⟩ := hcs [] List.not_mem_nil
  have hstart := proceeds_startTag hall depth h hholds hplain (cs ++ ((endTag name).toList ++ rest))
  have hinside := hread (depth + templateStep name) ((endTag name).toList ++ rest)
  have hend : Proceeds σ (depth + templateStep name) (normalizeLines (after ++ ((endTag name).toList ++ rest))) depth
      (normalizeLines rest) := by
    have hclosed := proceeds_endTag hall (depth + templateStep name) h.tagName rest
    rw [Nat.add_sub_cancel] at hclosed
    exact proceeds_before hall (opensNothing_of_not_mem hafter) (by simp [toList_endTag]) hclosed
  simpa using hstart.trans (hinside.trans hend)

theorem Passes.holder (hall : ∀ content, σ.fits content) (h : LegibleTag name attributes)
    (hholds : holdsText (asciiLowercase name.label)) (hcs : opensNothing cs) :
    Passes σ ((startTag name attributes).toList ++ (cs ++ (endTag name).toList)) := by
  refine .tag hall (by simp [toList_startTag]) fun depth rest => ?_
  simpa using proceeds_holder hall depth h hholds hcs rest

/-- A void element. -/
theorem Passes.void (hall : ∀ content, σ.fits content) (h : LegibleTag name attributes)
    (hvoid : isVoidElement name) : Passes σ (startTag name attributes).toList := by
  have hnot : ∀ label, isVoid label → asciiLowercase label = label ∧ holdsText label = false ∧ label ≠ "plaintext" ∧ label ≠ "template" := by
    intro label hlabel
    have hall : ∀ label ∈ ["area", "base", "basefont", "bgsound", "br", "col", "embed", "frame", "hr", "img", "input",
        "keygen", "link", "meta", "param", "source", "track", "wbr"], asciiLowercase label = label ∧
          holdsText label = false ∧ label ≠ "plaintext" ∧ label ≠ "template" := by decide
    exact hall label (by simpa [isVoid] using hlabel)
  refine .tag hall (by simp [toList_startTag]) fun depth rest => ?_
  obtain ⟨hsmall, hholds, hplain, htemplate⟩ := hnot name.label (by simp [isVoidElement] at hvoid; exact hvoid.2)
  have hread := proceeds_startTag hall depth h (by rwa [hsmall]) (by rwa [hsmall]) rest
  rwa [templateStep, isTemplate, hsmall, if_neg (by simpa using htemplate), Nat.add_zero] at hread

/-! ### Nodes -/

/-- What is written for a node is read up to its end. -/
theorem passes_node (hw : Writable dom) (hall : ∀ content, σ.fits content) (hi : i < dom.size)
    (hends : ∀ r ∈ dom.preorder i, EndsInPlace dom r) (houter : Escapes outer) :
    Passes σ (written outer (dom.eventsOf dom.size i)) := by
  induction i using hw.wellFormed.subtree_induction generalizing outer with
  | step i ih =>
    rw [hw.wellFormed.preorder_eq hi, List.forall_mem_cons] at hends
    obtain ⟨hself, hbelow⟩ := hends
    have hnested : ∀ c ∈ dom.children (some i), Nested (dom.eventsOf dom.size c) := fun c _ =>
      nested_eventsOf dom dom.size c
    have hinner : ∀ {outer : List Enclosing}, Escapes outer →
        Passes σ (written outer ((dom.children (some i)).flatMap (dom.eventsOf dom.size))) := by
      intro outer houter
      rw [written_flatMap hnested]
      refine .flatMap fun c hc => ?_
      have hparent := hw.wellFormed.mem_children_iff.mp hc
      exact ih c hparent (lt_size_of_parent? hparent) (fun r hr => hbelow r (List.mem_flatMap_of_mem hc hr)) houter
    rw [hw.wellFormed.eventsOf_eq i]
    cases hcontent : dom.content? (some i) with
    | none => exact .nil σ
    | some content =>
      have hlegible := hw.legible i content hcontent
      cases content with
      | document => exact hinner houter
      | text text =>
        rw [eventsAround, houter.text]
        exact .text (lt_not_mem_escapeText text)
      | comment text =>
        have hwritten : written outer [.comment text] = ("<!--" ++ text ++ "-->").toList := by
          simp [written, pieces]
        rw [eventsAround, hwritten]
        exact .tag hall (by simp) fun depth rest => proceeds_comment hall depth hlegible rest
      | doctype name =>
        obtain rfl : name = "html" := hlegible
        have hwritten : written outer [.doctype "html"] = "<!DOCTYPE html>".toList := by
          simp [written, pieces]
        rw [eventsAround, hwritten]
        exact .tag hall rfl fun depth rest => proceeds_doctype hall depth rest
      | element name attributes =>
        have hname : dom.name? (some i) = some name := by rw [name?, hcontent]
        rw [eventsAround, written_element (Nested.flatMap hnested) houter.isSilent]
        cases hvoid : isVoidElement name with
        | true =>
          have hempty : dom.children (some i) = [] := by
            refine List.eq_nil_iff_forall_not_mem.mpr fun c hc => ?_
            have hparent := hw.parents c i (hw.wellFormed.mem_children_iff.mp hc)
            exact absurd hvoid (by simp [hparent.name name hname])
          rw [hempty, if_pos rfl]
          simpa [written, pieces] using Passes.void hall hlegible hvoid
        | false =>
          rw [if_neg Bool.false_ne_true]
          by_cases hholds : holdsText (asciiLowercase name.label)
          · exact .holder hall hlegible hholds (opensNothing_written hw hname hself hholds false outer)
          · have hholds' := Bool.eq_false_iff.mpr hholds
            have hplain := hself.plaintext name hname
            have hescapes := escapes_inside hvoid hholds' hplain outer
            rw [hvoid] at hescapes
            exact .element hall hlegible hholds' hplain (hinner hescapes)

end Construction
end Html
end Markup
end CrossRef
