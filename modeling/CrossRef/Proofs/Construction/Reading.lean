import CrossRef.Proofs.Construction.Opened
import CrossRef.Proofs.Dom.ShownLink
import CrossRef.Proofs.Token.Plain

/-!
Reading markup piece by piece. A piece is read in the same way whatever comes after it, so what is read of a
text can be put together from what is read of its pieces.
-/
namespace CrossRef
namespace Markup

theorem Dom.leaf_of_tree {dom : Dom} {x : NodeId} {content : Content} (h : dom.WellFormed)
    (hx : x < dom.size) (htree : dom.tree x = .node (some content) []) :
    dom.content? (some x) = some content ∧ dom.preorder x = [x] := by
  rw [h.tree_eq hx] at htree
  obtain ⟨hcontent, hforest⟩ := Tree.node.inj htree
  rw [h.preorder_eq hx, List.map_eq_nil_iff.mp hforest]
  exact ⟨hcontent, rfl⟩

namespace Html

/-- Is the token a tag or a text that is not empty? -/
def Token.isContent : Token → Bool
  | .opening _ | .closing _ => true
  | .text chars => !chars.isEmpty
  | _ => false

namespace Construction

variable {c c' c'' : Construction} {cs cs' cs'' rest : List Char} {frame outer : OpenFrame}
  {frames frames' frames'' : List OpenFrame} {token : Token} {trees : List Tree}

/-! ### Steps of a reading -/

/-- Reading on leads from one state and text to others, in at most one step for each character that is
read. -/
def Reaches (c : Construction) (cs : List Char) (c' : Construction) (cs' : List Char) : Prop :=
  ∃ n, n + cs'.length ≤ cs.length ∧
    ∀ fuel, readAll (n + fuel) c .markup cs = readAll fuel c' .markup cs'

theorem Reaches.refl (c : Construction) (cs : List Char) : Reaches c cs c cs :=
  ⟨0, by simp, fun fuel => by rw [Nat.zero_add]⟩

theorem Reaches.trans (h : Reaches c cs c' cs') (h' : Reaches c' cs' c'' cs'') :
    Reaches c cs c'' cs'' := by
  obtain ⟨n, hn, hread⟩ := h
  obtain ⟨n', hn', hread'⟩ := h'
  exact ⟨n + n', by omega, fun fuel => by rw [Nat.add_assoc, hread, hread']⟩

/-- A text that can be read to its end is read to its end. -/
theorem Reaches.readAll_eq (h : Reaches c cs c' []) : readAll (cs.length + 1) c .markup cs = c' := by
  obtain ⟨n, hn, hread⟩ := h
  obtain ⟨fuel, hfuel⟩ : ∃ fuel, cs.length + 1 = n + (fuel + 1) := ⟨cs.length - n, by simp at hn; omega⟩
  rw [hfuel, hread, readAll]
  exact Nat.succ_ne_zero fuel

/-! ### One token -/

theorem Shows.isForeign_eq (h : c.Shows frames) (token : Token) : c.isForeign token = false := by
  rw [isForeign]
  cases frames with
  | nil => rw [current?, List.map_eq_nil_iff.mp h.names]; rfl
  | cons frame frames =>
    obtain ⟨node, opened, heq⟩ := h.opened_eq
    rw [current?, heq]
    rfl

theorem Shows.isInForeign_eq (h : c.Shows frames) : c.isInForeign = false := by
  rw [isInForeign]
  cases frames with
  | nil => rw [currentIs, current?, List.map_eq_nil_iff.mp h.names]; rfl
  | cons frame frames => rw [h.currentIs_eq]; rfl

/-- A token is read when it stands first in the text and the mode that holds takes it. -/
theorem reaches_token (hscan : scanMarkup false cs = ⟨some token, .markup, rest⟩)
    (hlength : rest.length < cs.length) (htoken : token.isContent) (hinForeign : c.isInForeign = false)
    (hforeign : c.isForeign token = false) (hskips : c.skipsNewline = false)
    (hmode : c.inMode token = (c', .done)) : Reaches c cs c' rest := by
  have hsame : { c with skipsNewline := false } = c := by rw [← hskips]
  have hhandle : c.handle c.handlingBound token = (c', none) := by
    rw [handlingBound, handle, hforeign, if_neg Bool.false_ne_true, hmode]
  have hfeed : c.feed token = (c', none) := by
    unfold feed
    rw [hsame, hskips]
    dsimp only
    split
    · simp [Token.isContent] at htoken
    · next chars =>
      cases chars with
      | nil => simp [Token.isContent] at htoken
      | cons x chars => exact hhandle
    · exact hhandle
  refine ⟨1, by omega, fun fuel => ?_⟩
  cases cs with
  | nil => simp at hlength
  | cons x chars =>
    rw [Nat.add_comm, readAll, hinForeign, scan, hscan]
    dsimp only
    rw [hfeed]
    rfl

theorem Shows.reaches (h : c.Shows frames) (hscan : scanMarkup false cs = ⟨some token, .markup, rest⟩)
    (hlength : rest.length < cs.length) (htoken : token.isContent)
    (hbody : c.inBody token = (c', .done)) : Reaches c cs c' rest :=
  reaches_token hscan hlength htoken h.isInForeign_eq (h.isForeign_eq token) h.skipsNewline
    (by rw [inMode, h.mode, hbody])

/-! ### Pieces -/

/-- From inside the first elements, reading on leads to inside the second ones. -/
def Leads (frames : List OpenFrame) (cs : List Char) (frames' : List OpenFrame) (cs' : List Char) :
    Prop :=
  ∀ c : Construction, c.Shows frames → ∃ c' : Construction, c'.Shows frames' ∧ Reaches c cs c' cs'

theorem Leads.refl (frames : List OpenFrame) (cs : List Char) : Leads frames cs frames cs :=
  fun c h => ⟨c, h, .refl c cs⟩

theorem Leads.trans (h : Leads frames cs frames' cs') (h' : Leads frames' cs' frames'' cs'') :
    Leads frames cs frames'' cs'' := by
  intro c hc
  obtain ⟨c', hc', hread⟩ := h c hc
  obtain ⟨c'', hc'', hread'⟩ := h' c' hc'
  exact ⟨c'', hc'', hread.trans hread'⟩

/-- What reading a token leads to. -/
theorem leads_token (hscan : scanMarkup false cs = ⟨some token, .markup, rest⟩)
    (hlength : rest.length < cs.length) (htoken : token.isContent)
    (hbody : ∀ c : Construction, c.Shows frames →
      ∃ c' : Construction, c'.Shows frames' ∧ c.inBody token = (c', .done)) :
    Leads frames cs frames' rest := by
  intro c hc
  obtain ⟨c', hc', hinBody⟩ := hbody c hc
  exact ⟨c', hc', hc.reaches hscan hlength htoken hinBody⟩

/-- A tag that only opens an element. -/
theorem leads_opening (tag : Tag) (hne : cs ≠ [])
    (hscan : scanMarkup false (cs ++ rest) = ⟨some (.opening tag), .markup, rest⟩)
    (hbody : ∀ c : Construction, c.Shows (frame :: frames) →
      c.inBody (.opening tag) = (c.openTag tag, .done)) :
    Leads (frame :: frames) (cs ++ rest)
      (⟨tag.label, tag.attributesIn .html, none, []⟩ :: frame :: frames) rest :=
  leads_token hscan (by simpa using List.length_pos_of_ne_nil hne) rfl fun c hc =>
    ⟨_, hc.openTag tag, hbody c hc⟩

/-- A tag that only closes the innermost element. -/
theorem leads_closing (tag : Tag) (hne : cs ≠ []) (htag : frame.tag? = none)
    (hscan : scanMarkup false (cs ++ rest) = ⟨some (.closing tag), .markup, rest⟩)
    (hbody : ∀ c : Construction, c.Shows (frame :: outer :: frames) →
      c.inBody (.closing tag) = (c.pop, .done)) :
    Leads (frame :: outer :: frames) (cs ++ rest) (outer.add [frame.tree] :: frames) rest :=
  leads_token hscan (by simpa using List.length_pos_of_ne_nil hne) rfl fun c hc =>
    ⟨_, hc.pop htag, hbody c hc⟩

/-! ### Text -/

theorem leads_text (hne : cs ≠ [])
    (hscan : scanMarkup false (cs ++ rest) = ⟨some (.text cs), .markup, rest⟩) :
    Leads (frame :: frames) (cs ++ rest) (frame.addChars cs :: frames) rest := by
  refine leads_token hscan ?_ ?_ fun c hc => ⟨c.insertText cs, ?_, ?_⟩
  · simpa using List.length_pos_of_ne_nil hne
  · simpa [Token.isContent] using hne
  · rw [OpenFrame.addChars, Tree.addChars, if_neg hne]
    exact hc.insertText cs
  · rw [inBody, hc.reconstruct_eq]

/-- A text up to its first `<`. -/
theorem exists_run (cs : List Char) :
    ∃ run left, cs = run ++ left ∧ '<' ∉ run ∧ (left = [] ∨ ∃ more, left = '<' :: more) := by
  induction cs with
  | nil => exact ⟨[], [], rfl, List.not_mem_nil, .inl rfl⟩
  | cons c cs ih =>
    by_cases hc : c = '<'
    · exact ⟨[], c :: cs, rfl, List.not_mem_nil, .inr ⟨cs, by rw [hc]⟩⟩
    obtain ⟨run, left, rfl, hrun, hleft⟩ := ih
    exact ⟨c :: run, left, rfl, List.not_mem_cons_of_ne_of_not_mem (Ne.symm hc) hrun, hleft⟩

/-- A run of plain text in front of `<`. -/
theorem leads_run (hplain : isPlain false cs) (hrun : '<' ∉ cs) (more : List Char) :
    Leads (frame :: frames) (cs ++ '<' :: more) (frame.addChars cs :: frames) ('<' :: more) := by
  by_cases hne : cs = []
  · rw [hne]
    exact .refl _ _
  · exact leads_text hne (scanMarkup_run hne hplain hrun more)

/-- Plain text in front of a tag is read as it is written. -/
theorem leads_plain (hplain : isPlain false cs) (more : List Char) :
    Leads (frame :: frames) (cs ++ '<' :: more) (frame.addChars cs :: frames) ('<' :: more) := by
  induction hn : cs.length using Nat.strong_induction_on generalizing cs frame with
  | _ n ih =>
  subst hn
  obtain ⟨run, left, rfl, hrun, rfl | ⟨later, rfl⟩⟩ := exists_run cs
  · rw [List.append_nil] at hplain ⊢
    exact leads_run hplain hrun more
  -- the run, then a `<` that opens nothing and is a text of its own, then what comes after it
  rw [isPlain_append_stop isStop_angle, Bool.and_eq_true] at hplain
  obtain ⟨hplainRun, hplainLeft⟩ := hplain
  obtain ⟨⟨-, -, -, hangle⟩, hplainLater⟩ := isPlain_cons_iff.mp hplainLeft
  have hopens : opensMarkup (later ++ '<' :: more) = false := by
    rw [opensMarkup_append_stop isStop_angle]
    exact hangle rfl
  have hfirst : Leads (frame :: frames) (run ++ '<' :: (later ++ '<' :: more))
      (frame.addChars run :: frames) ('<' :: (later ++ '<' :: more)) := leads_run hplainRun hrun _
  have hsecond : Leads (frame.addChars run :: frames) (['<'] ++ (later ++ '<' :: more))
      ((frame.addChars run).addChars ['<'] :: frames) (later ++ '<' :: more) :=
    leads_text (List.cons_ne_nil '<' []) (scanMarkup_angle hopens)
  have hthird : Leads ((frame.addChars run).addChars ['<'] :: frames) (later ++ '<' :: more)
      (((frame.addChars run).addChars ['<']).addChars later :: frames) ('<' :: more) :=
    ih later.length (by simp; omega) hplainLater rfl
  rw [OpenFrame.addChars_addChars, OpenFrame.addChars_addChars] at hthird
  rw [OpenFrame.addChars_addChars] at hsecond
  simpa using hfirst.trans (hsecond.trans hthird)

/-! ### The whole text -/

/-- The body of a document with these trees in it, and the root around it. -/
def bodyFrames (trees : List Tree) : List OpenFrame :=
  [⟨"body", [], none, trees⟩, ⟨"html", [], none, [.node (some (.element (.html "head") [])) []]⟩]

theorem start_shows : start.Shows (bodyFrames []) where
  sound := start_sound
  mode := rfl
  isFostering := rfl
  skipsNewline := rfl
  names := rfl
  formatting := rfl
  spine := ⟨rfl, ⟨[], rfl, rfl⟩, rfl, ⟨[3], rfl, rfl⟩, rfl, ⟨[1], rfl, rfl⟩, trivial⟩

/-- The ends of the body and of the root leave the document as it is. -/
theorem Shows.reaches_end (h : c.Shows (bodyFrames trees)) :
    Reaches c "</body></html>".toList { c with mode := .afterAfterBody } [] := by
  have hscope : c.hasInScope "body" = true := h.inScope_eq endsScope (isHtmlNamed "body")
  have hbody : c.inBody (.closing (.bare "body")) = ({ c with mode := .afterBody }, .done) := by
    show ((if c.hasInScope "body" then { c with mode := .afterBody } else c), Next.done) = _
    rw [hscope, if_pos rfl]
  have hfirst : Reaches c "</body></html>".toList { c with mode := .afterBody } "</html>".toList :=
    h.reaches rfl (by decide) rfl hbody
  have hsecond : Reaches { c with mode := .afterBody } "</html>".toList
      { c with mode := .afterAfterBody } [] :=
    reaches_token rfl (by decide) rfl h.isInForeign_eq (h.isForeign_eq (.closing (.bare "html")))
      h.skipsNewline rfl
  exact hfirst.trans hsecond

/-- The body is the first element of its name, and the trees are what is in it. -/
theorem Shows.body_eq (h : c.Shows (bodyFrames trees)) :
    ∃ body, (c.dom.elementsBelow (some Dom.document) "body").head? = some body ∧
      c.dom.forest body = trees := by
  have hwf := h.sound.wellFormed
  obtain ⟨body, html, hspine⟩ : ∃ body html, c.dom.Spine none [body, html, Dom.document]
      ((bodyFrames trees).map (·.toFrame) ++ [documentFrame]) := by
    obtain ⟨body, opened, hopened, -, hnames⟩ := List.map_eq_cons_iff.mp h.names
    obtain ⟨html, opened, rfl, -, hnil⟩ := List.map_eq_cons_iff.mp hnames
    obtain rfl := List.map_eq_nil_iff.mp hnil
    have hspine := h.spine
    rw [hopened] at hspine
    exact ⟨body.node, html.node, hspine⟩
  have hbodySize := hspine.lt_size
  obtain ⟨hbody, ⟨inBody, hinBody, htrees⟩, hhtml, ⟨inHtml, hinHtml, hhead⟩, -,
    ⟨inDocument, hinDocument, hdoctype⟩, -⟩ := hspine
  obtain ⟨head, rfl, hheadTree⟩ := List.map_eq_singleton_iff.mp hhead
  obtain ⟨doctype, rfl, hdoctypeTree⟩ := List.map_eq_singleton_iff.mp hdoctype
  have hchild : ∀ {child parent : NodeId}, child ∈ c.dom.children (some parent) → child < c.dom.size :=
    fun hmem => Dom.lt_size_of_parent? (hwf.mem_children_iff.mp hmem)
  obtain ⟨hdoctype, hdoctypePreorder⟩ :=
    Dom.leaf_of_tree hwf (hchild (by rw [hinDocument]; simp)) hdoctypeTree
  obtain ⟨hhead, hheadPreorder⟩ := Dom.leaf_of_tree hwf (hchild (by rw [hinHtml]; simp)) hheadTree
  refine ⟨body, ?_, ?_⟩
  · have hhtmlSize : html < c.dom.size := hchild (by rw [hinDocument]; simp)
    have hbelow : c.dom.descendants (some Dom.document) =
        doctype :: html :: head :: body :: (c.dom.children (some body)).flatMap c.dom.preorder := by
      rw [hwf.descendants_eq h.sound.document.lt_size, hinDocument]
      simp [hdoctypePreorder, hwf.preorder_eq hhtmlSize, hinHtml, hheadPreorder,
        hwf.preorder_eq hbodySize]
    rw [Dom.elementsBelow, hbelow]
    simp only [List.filter_cons, Dom.isElement_eq, hdoctype, hhtml, hhead, hbody]
    rfl
  · rw [Dom.forest, hinBody, Option.toList_none, List.append_nil, htrees]
    rfl

/-- Text that leads from an empty body to one with some trees makes these trees. -/
theorem forest_parse {text : String} (hlines : '\r' ∉ text.toList)
    (h : Leads (bodyFrames []) (text.toList ++ "</body></html>".toList) (bodyFrames trees)
      "</body></html>".toList) :
    (Fragment.parse text).dom.forest (Fragment.parse text).root = trees := by
  obtain ⟨c, hc, hread⟩ := h start start_shows
  have hchars : normalizeLines (text ++ "</body></html>").toList =
      text.toList ++ "</body></html>".toList := by
    rw [String.toList_append]
    refine normalizeLines_eq fun hmem => ?_
    rcases List.mem_append.mp hmem with htext | hend
    · exact hlines htext
    · exact absurd hend (by decide)
  have hdom : run text = c.dom := by
    rw [run, hchars, (hread.trans hc.reaches_end).readAll_eq]
    rfl
  obtain ⟨body, hbody, hforest⟩ := hc.body_eq
  rw [Fragment.parse, hdom, hbody]
  exact hforest

end Construction
end Html
end Markup
end CrossRef
