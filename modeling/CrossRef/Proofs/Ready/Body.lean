import CrossRef.Proofs.Ready.Formatting
import CrossRef.Proofs.Token.Written

/-!
Tags in the body keep a construction ready, and a start tag makes an element unless it is one of those that
have no place there.
-/
namespace CrossRef
namespace Markup
namespace Html

/-- The start tags that make an element only where tree construction waits for it. -/
def isDroppable (label : String) : Bool :=
  ["html", "body", "head", "frame", "frameset", "caption", "col", "colgroup", "tbody", "td", "tfoot", "th", "thead",
    "tr", "form", "select"].contains label

/-- The start tags after which text is read up to the end tag. -/
def holdsText (label : String) : Bool :=
  ["title", "noframes", "style", "script", "textarea", "xmp", "iframe", "noembed", "noscript"].contains label

/-- The names with rules of their own. -/
def isSpecialTag (label : String) : Bool :=
  isDroppable label || isVoid label || ["table", "template"].contains label

theorem isOrdinary_of_not_isSpecialTag {label : String} (h : isSpecialTag label = false) :
    isOrdinary (.html label) := by
  have hnot : ∀ labels : List String, (∀ other ∈ labels, isSpecialTag other) → isHtmlAmong labels (.html label) = false := by
    intro labels hlabels
    refine Bool.eq_false_iff.mpr fun hmem => ?_
    have hspecial := hlabels label (by simpa [isHtmlAmong] using hmem)
    simp [h] at hspecial
  have hvoid : isVoid label = false := by
    simp only [isSpecialTag, Bool.or_eq_false_iff] at h
    exact h.1.2
  have htemplate : isHtmlNamed "template" (.html label) = false := by
    simpa [isHtmlAmong, isHtmlNamed] using hnot ["template"] (by decide)
  simp [isOrdinary, isContextual, isTablePart, isTableFrame, isCell, isVoidElement, hvoid, htemplate,
    hnot ["table", "tbody", "tfoot", "thead", "tr"] (by decide), hnot ["td", "th"] (by decide),
    hnot ["caption", "colgroup"] (by decide), hnot ["html", "body"] (by decide)]

theorem asciiLower_asciiLower (c : Char) : Text.asciiLower (Text.asciiLower c) = Text.asciiLower c := by
  by_cases hcapital : 'A' ≤ c ∧ c ≤ 'Z'
  · have hall : ∀ n < 91, 65 ≤ n →
        Text.asciiLower (Text.asciiLower (Char.ofNat n)) = Text.asciiLower (Char.ofNat n) := by decide
    have hlt : c.toNat < 91 := Nat.lt_succ_of_le hcapital.2
    simpa using hall c.toNat hlt hcapital.1
  · have hsame : Text.asciiLower c = c := if_neg hcapital
    rw [hsame, hsame]

theorem asciiLowercase_asciiLowercase (s : String) :
    Text.asciiLowercase (Text.asciiLowercase s) = Text.asciiLowercase s := by
  simp [Text.asciiLowercase, Function.comp_def, asciiLower_asciiLower]

/-- The spelling of a vocabulary changes nothing but capitals. -/
theorem asciiLowercase_foreignElementLabel (vocabulary : Vocabulary) (label : String) :
    Text.asciiLowercase (foreignElementLabel vocabulary label) = Text.asciiLowercase label := by
  unfold foreignElementLabel respell
  split_ifs
  · cases hfound : svgElements.find? fun s => Text.asciiLowercase s = label with
    | none => rfl
    | some s =>
      have hspelled := List.find?_some hfound
      rw [Option.getD_some, ← of_decide_eq_true hspelled, asciiLowercase_asciiLowercase]
  · rfl

/-- The setting after a token: a start tag may open a template, and an end tag closes one if any is open. -/
def Setting.after (σ : Setting) : Token → Setting
  | .opening tag => σ.inside (.html tag.label)
  | .closing tag => if tag.label = "template" then σ.outside else σ
  | _ => σ

theorem isOrdinary_of_foreign {name : Name} (h : name.vocabulary ≠ .html) : isOrdinary name := by
  simp [isOrdinary, isContextual, isTablePart, isTableFrame, isCell, isHtmlAmong, isHtmlNamed, isVoidElement, h]

theorem ne_body_of_isOrdinary {label : String} (h : isOrdinary (.html label)) : label ≠ "body" := by
  rintro rfl
  exact absurd h (by decide)

theorem foreignElementLabel_ne_body {label : String} (h : label ≠ "body") (vocabulary : Vocabulary) :
    foreignElementLabel vocabulary label ≠ "body" := by
  unfold foreignElementLabel respell
  split_ifs
  · cases hfound : svgElements.find? fun s => Text.asciiLowercase s = label with
    | none => exact h
    | some s =>
      have hall : ∀ s ∈ svgElements, s ≠ "body" := by decide
      exact hall s (List.mem_of_find?_eq_some hfound)
  · exact h

theorem Setting.FitsTag.foreign {σ : Setting} {tag : Tag} (h : σ.FitsTag tag) (hne : tag.label ≠ "body")
    (vocabulary : Vocabulary) : σ.Allows (.element ⟨vocabulary, foreignElementLabel vocabulary tag.label⟩
      (tag.attributesIn vocabulary)) :=
  ⟨h vocabulary, by simpa [Content.isBody] using foreignElementLabel_ne_body hne vocabulary⟩

namespace Construction

/-- The mode that a construction is in or goes back to. -/
inductive Awaits : Construction → InsertionMode → Prop
  | settled {c} : Awaits c c.mode
  | text {c} (hmode : c.mode = .text)
      (hholder : ∃ e ∈ c.opened.head?, isOrdinary e.name ∧ e.name.vocabulary = .html) : Awaits c c.returnMode
  | tableText {c} (hmode : c.mode = .inTableText) (hreturn : c.returnMode ≠ .inColumnGroup) : Awaits c c.returnMode
  | after {c} (hmode : c.mode = .afterBody ∨ c.mode = .afterAfterBody) : Awaits c .inBody

/-- The construction is ready once it is in the mode that it goes back to. -/
def Orderly (σ : Setting) (c : Construction) : Prop :=
  ∃ modes mode, c.Awaits mode ∧ Ready σ modes mode { c with mode := mode }

/-- The construction is in order and has made an element with these attributes, which is looked at from now on. -/
def Watches (σ : Setting) (attributes : List Attribute) (c : Construction) : Prop :=
  ∃ i, c.Orderly (σ.watch (i, attributes))

/-- A bound for how often a tag is handled again. -/
def rank (c : Construction) : Nat :=
  2 * (c.opened.countP fun e => isHtmlNamed "table" e.name) +
    match c.mode with
    | .inColumnGroup => 1
    | .inTableText | .afterBody | .afterAfterBody => 2
    | _ => 0

/-- The tags that have to be handled to the end: those that make an element, and those that close a template. -/
def Insists (σ : Setting) : Token → Prop
  | .opening tag => isDroppable tag.label = false ∧ σ.depth = 0
  | .closing tag => tag.label = "template"
  | _ => False

/-- What a token comes to in a construction that is in order. -/
inductive Comes (σ : Setting) (bound : Nat) (token : Token) : Construction × Next → Prop
  | made {c tag vocabulary} (htoken : token = .opening tag)
      (h : c.Watches (σ.after token) (tag.attributesIn vocabulary)) (hmode : c.mode ≠ .text) :
      Comes σ bound token (c, .done)
  | passed {c} (htoken : ∀ tag, token = .opening tag → isDroppable tag.label ∨ 0 < σ.depth)
      (h : c.Orderly (σ.after token)) (hmode : c.mode ≠ .text) : Comes σ bound token (c, .done)
  | plaintext {c tag} (htoken : token = .opening tag) (hlabel : tag.label = "plaintext")
      (h : c.Watches (σ.after token) (tag.attributesIn .html)) (hmode : c.mode ≠ .text) :
      Comes σ bound token (c, .read .plain)
  | text {c tag reading} (htoken : token = .opening tag) (hlabel : holdsText tag.label)
      (hreading : reading.EndsWith tag.label) (h : c.Watches (σ.after token) (tag.attributesIn .html)) (hmode : c.mode = .text) :
      Comes σ bound token (c, .read reading)
  | again {c next} (hnext : next = token ∨ ∃ chars chars', token = .text chars ∧ next = .text chars')
      (h : c.Orderly σ) (hmode : c.mode ≠ .text) (hrank : Insists σ token → c.rank < bound) :
      Comes σ bound token (c, .again next)

variable {σ : Setting} {modes : List InsertionMode} {mode : InsertionMode} {c : Construction} {tag : Tag}

namespace Ready

theorem mode_ne_text (h : c.Ready σ modes mode) : c.mode ≠ .text := fun heq => by
  obtain ⟨inner, -, hnests⟩ := h.nested
  have hsettled := hnests.isSettled
  rw [← h.mode, heq] at hsettled
  exact absurd hsettled (by decide)

theorem orderly (h : c.Ready σ modes mode) : c.Orderly σ :=
  ⟨modes, c.mode, .settled, by rw [h.mode]; exact h.congr rfl rfl rfl rfl rfl h.mode.symm⟩

end Ready

theorem Makes.comes {vocabulary : Vocabulary} {bound : Nat}
    (h : Makes (σ.inside (.html tag.label)) (tag.attributesIn vocabulary) modes mode c) :
    Comes σ bound (.opening tag) (c, .done) := by
  obtain ⟨i, hready⟩ := h
  exact .made rfl ⟨i, hready.orderly⟩ hready.mode_ne_text

namespace Ready

/-- The start tag of an element that has no place here. -/
theorem drops (h : c.Ready σ modes mode) {bound : Nat} (hlabel : isDroppable tag.label ∨ 0 < σ.depth) :
    Comes σ bound (.opening tag) (c, .done) :=
  .passed (fun tag' htag' => by cases htag'; exact hlabel) (h.inside (.html tag.label)).orderly h.mode_ne_text

theorem passes (h : c.Ready σ modes mode) {bound : Nat} {token : Token} (hopening : ∀ tag, token ≠ .opening tag)
    (hafter : σ.after token = σ) : Comes σ bound token (c, .done) :=
  .passed (fun tag htag => absurd htag (hopening tag)) (by rw [hafter]; exact h.orderly) h.mode_ne_text

/-! ### Elements -/

theorem openTag (h : c.Ready σ modes mode) (hmode : mode ≠ .inColumnGroup) (hfits : σ.FitsTag tag)
    (hname : isOrdinary (.html tag.label)) :
    Makes (σ.inside (.html tag.label)) (tag.attributesIn .html) modes mode (c.openTag tag) :=
  h.insertOpen (hfits.html (ne_body_of_isOrdinary hname)) hname hmode

theorem insertVoid (h : c.Ready σ modes mode) (hfits : σ.FitsTag tag) (hne : tag.label ≠ "body") :
    Makes (σ.inside (.html tag.label)) (tag.attributesIn .html) modes mode (c.insertVoid tag) :=
  (h.inside _).insertClosed (hfits.html hne)

theorem inside_foreign (σ : Setting) (vocabulary : Vocabulary) (label : String) :
    σ.inside ⟨vocabulary, foreignElementLabel vocabulary label⟩ = σ.inside (.html label) := by
  have htemplate : isTemplate ⟨vocabulary, foreignElementLabel vocabulary label⟩ = isTemplate (.html label) := by
    simp only [isTemplate, asciiLowercase_foreignElementLabel]
  rw [Setting.inside, Setting.inside, htemplate]

theorem openForeign (h : c.Ready σ modes mode) (hcontext : ∀ names, Nests modes names mode →
      c.opened.map (·.name) = names ++ σ.outermost.map (·.name) → context? names ≠ some (.html "colgroup"))
    {vocabulary : Vocabulary} (hforeign : vocabulary ≠ .html) (hfits : σ.FitsTag tag) (hne : tag.label ≠ "body") :
    Makes (σ.inside (.html tag.label)) (tag.attributesIn vocabulary) modes mode (c.openForeign vocabulary tag) := by
  unfold Construction.openForeign
  dsimp only
  split_ifs
  · exact (h.inside _).insertClosed (hfits.foreign hne vocabulary)
  · rw [← inside_foreign σ vocabulary tag.label]
    exact h.insertInside (hfits.foreign hne vocabulary) (isOrdinary_of_foreign hforeign) hcontext

theorem mergeAttributes (h : c.Ready σ modes mode) (hlawful : σ.Lawful) (hfits : σ.FitsTag tag)
    {element? : Option OpenElement} (helement : ∀ e ∈ element?, e ∈ c.opened ∧ e.name.vocabulary = .html) :
    (c.mergeAttributes element? tag).Ready σ modes mode := by
  have hsound := ((goes h.sound).mergeAttributes element? tag).sound
  unfold Construction.mergeAttributes at hsound ⊢
  split
  · next e =>
    dsimp only at hsound
    split_ifs at hsound ⊢
    · exact h
    · have hext := Setting.Extends.addMissingAttributes (σ := σ) c.dom e.node (tag.attributesIn .html)
        fun name old hold hold' => by
          obtain ⟨he, hhtml⟩ := helement e rfl
          have hnamed := h.held.named e he
          rw [Dom.name?, hold] at hnamed
          obtain rfl : name = e.name := Option.some_inj.mp hnamed
          obtain ⟨node, vocabulary, label⟩ := e
          obtain rfl : vocabulary = .html := hhtml
          exact hlawful.merge tag label old hfits hold'
      exact h.grow hext (h.held.grow hext hsound fun i _ =>
        (Dom.sameLinks_addMissingAttributes c.dom (some e.node) _).parent?_eq i)
  · exact h

/-- The root and the body are HTML elements that are open. -/
theorem root_html (h : c.Ready σ modes mode) (e : OpenElement) (he : e ∈ c.opened.getLast?) :
    e ∈ c.opened ∧ e.name.vocabulary = .html := by
  refine ⟨List.mem_of_getLast? he, ?_⟩
  obtain ⟨inner, heq, -⟩ := h.nested
  rw [heq] at he
  simp [Setting.outermost] at he
  rw [← he]

theorem body_html (c : Construction) (e : OpenElement) (he : e ∈ c.body?) :
    e ∈ c.opened ∧ e.name.vocabulary = .html := by
  unfold body? at he
  split at he
  · next root e' rest heq =>
    split_ifs at he with hbody
    · obtain rfl : e' = e := by simpa using he
      refine ⟨List.mem_reverse.mp (by simp [heq]), ?_⟩
      rw [eq_html_of_isHtmlNamed hbody]
    · simp at he
  · simp at he

/-- The innermost element may be closed. -/
theorem popIf (h : c.Ready σ modes mode) {p : Name → Bool} (hp : ∀ name, p name → isOrdinary name) :
    (if c.currentIs p then c.pop else c).Ready σ modes mode := by
  split_ifs with hcurrent
  · exact h.pop_of_currentIs hcurrent hp
  · exact h

theorem isOrdinary_of_isHeading (name : Name) (h : isHeading name) : isOrdinary name := by
  obtain ⟨label, hlabel, rfl⟩ := eq_html_of_isHtmlAmong h
  have hall : ∀ label ∈ ["h1", "h2", "h3", "h4", "h5", "h6"], isOrdinary (.html label) := by decide
  exact hall label hlabel

theorem closeSelect (h : c.Ready σ modes mode) :
    (if c.hasInScope "select" then c.popThroughNamed "select" else c).Ready σ modes mode := by
  split_ifs with hscope
  · exact h.popThroughNamed hscope (not_endsFostering _ (by decide)) (by decide)
  · exact h

theorem openText (h : c.Ready σ modes mode) {bound : Nat} (hmode : mode ≠ .inColumnGroup) (hfits : σ.FitsTag tag)
    (hlabel : holdsText tag.label) {reading : ReadingMode} (hreading : reading.EndsWith tag.label) :
    Comes σ bound (.opening tag) (c.openText tag reading) := by
  have hname : isOrdinary (.html tag.label) := by
    have hall : ∀ label ∈ ["title", "noframes", "style", "script", "textarea", "xmp", "iframe", "noembed",
        "noscript"], isOrdinary (.html label) := by decide
    exact hall tag.label (by simpa [holdsText] using hlabel)
  obtain rfl := h.mode
  obtain ⟨i, hready⟩ := h.openTag hmode hfits hname
  refine .text rfl hlabel hreading ⟨i, modes, c.mode, .text rfl ⟨⟨c.dom.size, .html tag.label⟩, ?_, hname, rfl⟩, ?_⟩ rfl
  · simp [Construction.openTag, insertOpen_eq_push]
  · exact hready.congr rfl rfl rfl rfl rfl hready.mode.symm

/-- The start tag of a template. -/
theorem openTemplate (h : c.Ready σ modes mode) (hfits : σ.FitsTag tag) (hlabel : tag.label = "template") :
    Makes (σ.inside (.html tag.label)) (tag.attributesIn .html) (.inTemplate :: modes) .inTemplate
      (({ c.pushMarker with
        mode := .inTemplate
        templateModes := .inTemplate :: c.templateModes }).openTag tag) := by
  obtain ⟨i, hready⟩ := h.pushMarker.insertNested (hfits.html (by rw [hlabel]; decide))
    fun names hnests _ => show Nests (.inTemplate :: modes) (.html tag.label :: names) .inTemplate from
      .template (by rw [hlabel]) rfl rfl (by exact hnests)
  simp only [Construction.openTag, insertOpen_eq_push] at hready ⊢
  exact ⟨i, hready.congr rfl rfl rfl rfl (congrArg (List.cons .inTemplate) h.templateModes) rfl⟩

theorem openMetadata (h : c.Ready σ modes mode) {bound : Nat} (hlabel : isMetadata tag.label) (hmode : mode ≠ .inColumnGroup ∨ tag.label = "template")
    (hfits : σ.FitsTag tag) : Comes σ bound (.opening tag) (c.openMetadata tag) := by
  unfold Construction.openMetadata
  split
  case h_5 htemplate => exact Makes.comes (h.openTemplate hfits htemplate)
  case h_6 =>
    refine Makes.comes (h.insertVoid hfits fun hbody => ?_)
    rw [hbody] at hlabel
    exact absurd hlabel (by decide)
  all_goals
    have hopen : mode ≠ .inColumnGroup := hmode.resolve_right (by rw [‹tag.label = _›]; decide)
    exact h.openText hopen hfits (by rw [‹tag.label = _›]; decide) (by first | rfl | assumption)

/-- The mode is set to the one that fits the open elements. -/
theorem resetMode {c : Construction} {mode : InsertionMode}
    (h : Ready σ modes mode { c with mode := mode }) : c.resetMode.Ready σ modes mode := by
  have hfit : fittingMode c.templateModes c.opened = mode := by
    obtain ⟨inner, heq, hnests⟩ := h.nested
    have hmodes : c.templateModes = modes := h.templateModes
    have hopened : c.opened = inner ++ σ.outermost := heq
    rw [hmodes]
    exact hnests.fittingMode_eq (by rw [hopened, List.map_append]; rfl)
  rw [Construction.resetMode, hfit]
  exact h

/-- Everything is closed that is open inside of an element outside of which no template is closed. -/
theorem closeOutward (h : c.Ready σ modes mode) {before after : List OpenElement} {e : OpenElement}
    (heq : c.opened = before ++ e :: after) (hbefore : ∀ x ∈ before, x.name ≠ .html "template")
    (he : isHtmlAmong ["html", "body"] e.name = false) {modes' : List InsertionMode}
    (hnests : ∀ {mode names}, Nests modes (e.name :: names) mode → ∃ mode', Nests modes' names mode') :
    ∃ mode', Ready σ modes' mode' { c with opened := after, templateModes := modes', mode := mode' } := by
  obtain ⟨inner, hinner, hall⟩ := h.nested
  obtain ⟨between, rfl⟩ := exists_before (hinner.symm.trans heq) he
  rw [List.map_append, List.map_cons] at hall
  obtain ⟨outer, houter⟩ := hall.drop_of_ne_template fun name hname => by
    obtain ⟨x, hx, rfl⟩ := List.mem_map.mp hname
    exact hbefore x hx
  obtain ⟨mode', hmode'⟩ := hnests houter
  have hafter : after = between ++ σ.outermost := by
    have hboth := hinner.symm.trans heq
    simpa using hboth.symm
  have hsub : after.Sublist c.opened := by
    rw [heq]
    exact (List.sublist_cons_self e after).trans (List.sublist_append_right _ _)
  exact ⟨mode', h.held.sublist hsub, ⟨between, hafter, hmode'⟩, h.listed, h.form, rfl, rfl,
    (templateDepth_le_of_sublist (hsub.map _)).trans h.depth⟩

/-- The end tag of a template. -/
theorem closeTemplate (h : c.Ready σ modes mode) : ∃ modes' mode', c.closeTemplate.Ready σ.outside modes' mode' := by
  unfold Construction.closeTemplate
  split_ifs with htemplate
  · obtain ⟨before, e, after, heq, he, hbefore⟩ := exists_first htemplate
    have hname := eq_html_of_isHtmlNamed he
    obtain ⟨mode', hready⟩ := h.closeOutward heq (fun x hx hx' => by
      have hnot := hbefore x hx
      rw [hx'] at hnot
      exact absurd hnot (by decide)) (by rw [hname]; decide) fun hnests => by
        rw [hname] at hnests
        exact hnests.of_template.2
    have hopened : ((c.popWhile hasImpliedEndInTemplate).popThroughNamed "template").opened = after := by
      simp only [Construction.popThroughNamed, Construction.popThrough, Construction.popWhile, Construction.pop]
      rw [dropWhile_dropWhile, heq]
      · exact tail_dropWhile_of_split (fun x hx => by simp [hbefore x hx]) (by simp [he])
      · intro x hx
        refine (Bool.not_eq_true' _).mpr (Bool.eq_false_iff.mpr fun hnamed => ?_)
        rw [eq_html_of_isHtmlNamed hnamed] at hx
        exact absurd hx (by decide)
    refine ⟨modes.tail, mode', resetMode ?_⟩
    refine (hready.clearFormatting.setDepth ?_).congr rfl hopened rfl rfl (congrArg List.tail h.templateModes) rfl
    have hdepth := h.depth
    rw [heq, List.map_append, List.map_cons] at hdepth
    exact (templateDepth_close (isTemplate_of_isHtmlNamed he)).trans (Nat.sub_le_sub_right hdepth 1)
  · refine ⟨modes, mode, h.setDepth ?_⟩
    rw [templateDepth_eq_zero]
    · exact Nat.zero_le _
    · intro name hname heq
      obtain ⟨e, he, rfl⟩ := List.mem_map.mp hname
      exact htemplate (List.any_eq_true.mpr ⟨e, he, by rw [heq]; rfl⟩)

/-! ### Start tags -/

theorem openNobr (h : c.Ready σ modes mode) (hmode : mode ≠ .inColumnGroup) :
    (if c.reconstruct.hasInScope "nobr" then (c.reconstruct.closeFormatting "nobr").reconstruct
      else c.reconstruct).Ready σ modes mode := by
  have hreopened := h.reconstruct hmode
  split_ifs
  · exact (hreopened.closeFormatting (by decide)).reconstruct hmode
  · exact hreopened

theorem closeButton (h : c.Ready σ modes mode) :
    (if c.hasInScope "button" then c.closeImplied.popThroughNamed "button" else c).Ready σ modes mode := by
  split_ifs with hscope
  · exact h.closeThrough hscope (by decide) (by decide)
  · exact h

theorem closeOptions (h : c.Ready σ modes mode) :
    (if c.hasInScope "select" then c.closeImpliedExcept "optgroup"
      else if c.currentIs (isHtmlNamed "option") then c.pop else c).Ready σ modes mode := by
  split_ifs with hscope hcurrent
  · exact h.closeImpliedExcept "optgroup"
  · exact h.pop_of_currentIs hcurrent fun _ => isOrdinary_of_isHtmlNamed (by decide)
  · exact h

theorem closeGroups (h : c.Ready σ modes mode) :
    (if c.hasInScope "select" then c.closeImplied
      else if c.currentIs (isHtmlNamed "option") then c.pop else c).Ready σ modes mode := by
  split_ifs with hscope hcurrent
  · exact h.closeImplied
  · exact h.pop_of_currentIs hcurrent fun _ => isOrdinary_of_isHtmlNamed (by decide)
  · exact h

theorem closeImpliedIf (h : c.Ready σ modes mode) (b : Bool) :
    (if b then c.closeImplied else c).Ready σ modes mode := by
  split_ifs
  · exact h.closeImplied
  · exact h

theorem closeImpliedExceptIf (h : c.Ready σ modes mode) (b : Bool) (label : String) :
    (if b then c.closeImpliedExcept label else c).Ready σ modes mode := by
  split_ifs
  · exact h.closeImpliedExcept label
  · exact h

/-- The form that is open is a form. -/
theorem setForm (h : c.Ready σ modes mode) (hmode : mode ≠ .inColumnGroup) (hfits : σ.FitsTag tag)
    (hlabel : tag.label = "form") : Ready (σ.inside (.html tag.label)) modes mode
      { (c.insertOpen (.html tag.label) (tag.attributesIn .html)).1 with
        form := some (c.insertOpen (.html tag.label) (tag.attributesIn .html)).2 } := by
  have hready := (h.openTag hmode hfits (by rw [hlabel]; rfl)).ready
  simp only [Construction.openTag, insertOpen_eq_push] at hready ⊢
  refine { hready with form := fun node hnode => ?_ }
  obtain rfl := Option.some_inj.mp hnode
  show (c.inserted _).name? _ = _
  rw [Dom.name?, content?_inserted, hlabel]

/-- The start tag of a table. -/
theorem openTable (h : c.Ready σ modes mode) (hmode : mode ≠ .inColumnGroup) (hfits : σ.FitsTag tag)
    (hlabel : tag.label = "table") :
    Makes (σ.inside (.html tag.label)) (tag.attributesIn .html) modes .inTable
      { c.openTag tag with mode := .inTable } := by
  obtain ⟨i, hready⟩ := h.insertNested (hfits.html (by rw [hlabel]; decide)) fun names hnests _ =>
    .table (by rw [hlabel]) (hnests.context_ne hmode) hnests
  refine ⟨i, hready.congr rfl rfl rfl rfl ?_ rfl⟩
  rw [Construction.openTag, insertOpen_eq_push]
  exact h.templateModes

theorem openListed (h : c.Ready σ modes mode) {bound : Nat} (hmode : mode ≠ .inColumnGroup) (hlabel : isFormatting tag.label)
    (hfits : σ.FitsTag tag) : Comes σ bound (.opening tag) (c.openFormatting tag, .done) := by
  have hmade := h.openFormatting hmode hlabel hfits
  rw [← Setting.inside_eq (σ := σ) (not_isTemplate_of_isFormatting hlabel)] at hmade
  exact Makes.comes hmade

theorem openInBody (h : c.Ready σ modes mode) {bound : Nat} (hlawful : σ.Lawful) (hmode : mode ≠ .inColumnGroup)
    (hfits : σ.FitsTag tag) : Comes σ bound (.opening tag) (c.openInBody tag) := by
  have hparagraph := h.closeParagraphInScope
  have hreopened := h.reconstruct hmode
  have hskip : ∀ {c : Construction} {skips}, Makes (σ.inside (.html tag.label)) (tag.attributesIn .html) modes mode c →
      Makes (σ.inside (.html tag.label)) (tag.attributesIn .html) modes mode { c with skipsNewline := skips } :=
    fun ⟨i, hready⟩ => ⟨i, hready.congr rfl rfl rfl rfl rfl rfl⟩
  have hmarked : ∀ {c : Construction}, Makes (σ.inside (.html tag.label)) (tag.attributesIn .html) modes mode c →
      Makes (σ.inside (.html tag.label)) (tag.attributesIn .html) modes mode c.pushMarker := fun ⟨i, hready⟩ => ⟨i, hready.pushMarker⟩
  unfold Construction.openInBody
  dsimp only
  split
  · exact h.openMetadata ‹_› (.inl hmode) hfits
  · split
    · exact (h.mergeAttributes hlawful hfits h.root_html).drops (.inl (by rw [‹tag.label = _›]; rfl))
    · exact (h.mergeAttributes hlawful hfits (body_html c)).drops (.inl (by rw [‹tag.label = _›]; rfl))
    iterate 12 exact h.drops (.inl (by rw [‹tag.label = _›]; rfl))
    -- elements that end a paragraph
    iterate 25 exact Makes.comes (hparagraph.openTag hmode hfits (by rw [‹tag.label = _›]; rfl))
    iterate 6 exact Makes.comes ((hparagraph.popIf isOrdinary_of_isHeading).openTag hmode hfits
      (by rw [‹tag.label = _›]; rfl))
    iterate 2 exact Makes.comes (hskip (hparagraph.openTag hmode hfits (by rw [‹tag.label = _›]; rfl)))
    · -- a form
      split_ifs
      · exact h.drops (.inl (by rw [‹tag.label = _›]; rfl))
      · exact Makes.comes (hparagraph.openTag hmode hfits (by rw [‹tag.label = _›]; rfl))
      · have hform := hparagraph.setForm hmode hfits ‹_›
        rw [Setting.inside_eq (by rw [‹tag.label = _›]; decide)] at hform
        exact hform.drops (.inl (by rw [‹tag.label = _›]; rfl))
    · -- items
      exact Makes.comes ((h.closeItem (by decide)).closeParagraphInScope.openTag hmode hfits
        (by rw [‹tag.label = _›]; rfl))
    iterate 2 exact Makes.comes ((h.closeItem (by decide)).closeParagraphInScope.openTag hmode hfits
        (by rw [‹tag.label = _›]; rfl))
    · obtain ⟨i, hready⟩ := hparagraph.openTag hmode hfits (by rw [‹tag.label = _›]; rfl)
      exact .plaintext rfl ‹_› ⟨i, hready.orderly⟩ hready.mode_ne_text
    · exact Makes.comes ((h.closeButton.reconstruct hmode).openTag hmode hfits (by rw [‹tag.label = _›]; rfl))
    · exact (h.closeOuterLink.reconstruct hmode).openListed hmode (by rw [‹tag.label = _›]; rfl) hfits
    iterate 12 exact hreopened.openListed hmode (by rw [‹tag.label = _›]; rfl) hfits
    · exact (h.openNobr hmode).openListed hmode (by rw [‹tag.label = _›]; rfl) hfits
    iterate 3 exact Makes.comes (hmarked (hreopened.openTag hmode hfits (by rw [‹tag.label = _›]; rfl)))
    · exact Makes.comes (hparagraph.openTable hmode hfits ‹_›)
    iterate 6 exact Makes.comes (hreopened.insertVoid hfits (by rw [‹tag.label = _›]; decide))
    · exact Makes.comes ((h.closeSelect.reconstruct hmode).insertVoid hfits (by rw [‹tag.label = _›]; decide))
    iterate 3 exact Makes.comes (h.insertVoid hfits (by rw [‹tag.label = _›]; decide))
    · exact Makes.comes ((hparagraph.closeImpliedIf _).insertVoid hfits (by rw [‹tag.label = _›]; decide))
    · have hmade : Makes (σ.inside (.html tag.label)) (tag.attributesIn .html) modes mode
          (c.reconstruct.insertVoid { tag with label := "img" }) :=
        (hreopened.inside (.html tag.label)).insertClosed ((hlawful.image tag hfits).html (by simp))
      exact Makes.comes hmade
    -- text
    · exact Ready.openText (c := { c with skipsNewline := true }) (h.congr rfl rfl rfl rfl rfl rfl) hmode hfits
        (by rw [‹tag.label = _›]; rfl) rfl
    · exact (hparagraph.reconstruct hmode).openText hmode hfits (by rw [‹tag.label = _›]; rfl) rfl
    iterate 3 exact h.openText hmode hfits (by rw [‹tag.label = _›]; rfl) rfl
    · split_ifs with hscope
      · exact (h.popThroughNamed hscope (not_endsFostering _ (by decide)) (by decide)).drops
          (.inl (by rw [‹tag.label = _›]; rfl))
      · exact Makes.comes (hreopened.openTag hmode hfits (by rw [‹tag.label = _›]; rfl))
    · exact Makes.comes ((h.closeOptions.reconstruct hmode).openTag hmode hfits (by rw [‹tag.label = _›]; rfl))
    · exact Makes.comes ((h.closeGroups.reconstruct hmode).openTag hmode hfits (by rw [‹tag.label = _›]; rfl))
    iterate 2 exact Makes.comes ((h.closeImpliedIf _).openTag hmode hfits (by rw [‹tag.label = _›]; rfl))
    iterate 2 exact Makes.comes ((h.closeImpliedExceptIf _ _).openTag hmode hfits (by rw [‹tag.label = _›]; rfl))
    iterate 2 exact Makes.comes (h.openForeign (fun _ hnests _ => hnests.context_ne hmode) (by decide) hfits
        (by rw [‹tag.label = _›]; decide))
    · refine Makes.comes (hreopened.openTag hmode hfits (isOrdinary_of_not_isSpecialTag ?_))
      have hmetadata := ‹¬isMetadata tag.label = true›
      simp_all [isSpecialTag, isDroppable, isVoid, isMetadata]

theorem after_closing {σ : Setting} (h : tag.label ≠ "template") : σ.after (.closing tag) = σ := if_neg h

/-! ### End tags -/

theorem comes_closeTemplate (h : c.Ready σ modes mode) {bound : Nat} (hlabel : tag.label = "template") :
    Comes σ bound (.closing tag) (c.closeTemplate, .done) := by
  obtain ⟨modes', mode', hready⟩ := h.closeTemplate
  exact .passed (by simp) (by rw [Setting.after, if_pos hlabel]; exact hready.orderly) hready.mode_ne_text

theorem closeNoParagraph (h : c.Ready σ modes mode) (hlawful : σ.Lawful) (hmode : mode ≠ .inColumnGroup) :
    (if c.hasInScopeOf endsButtonScope "p" then c else c.openBare "p").closeParagraph.Ready σ modes mode := by
  split_ifs with hscope
  · exact h.closeParagraph hscope
  · have hopened := (h.openTag hmode (hlawful.bare "p" (by decide)) (by decide)).ready
    rw [Setting.inside_eq (by decide)] at hopened
    refine hopened.closeParagraph ?_
    rw [hasInScopeOf, Construction.openTag, insertOpen_eq_push, inScope]
    simp [isHtmlNamed, Name.html]

theorem closeAmong (h : c.Ready σ modes mode) {ends : Name → Bool} (hends : ∀ label ∈ ["table", "template"], ends (.html label))
    {label : String} (hlabel : isOrdinary (.html label)) :
    (if c.hasInScopeOf ends label then (c.closeImpliedExcept label).popThroughNamed label else c).Ready σ modes mode := by
  split_ifs with hscope
  · exact h.closeExcept hscope (not_endsFostering _ hends) hlabel
  · exact h

theorem closeHeading (h : c.Ready σ modes mode) :
    (if inScope endsScope (fun e => isHeading e.name) c.opened then c.closeImplied.popThrough isHeading
      else c).Ready σ modes mode := by
  split_ifs with hscope
  · refine h.closeImplied.popThrough (inScope_dropWhile hscope fun e he => ?_) (not_endsFostering _ (by decide))
      isOrdinary_of_isHeading
    obtain ⟨label, hlabel, hname⟩ := eq_html_of_isHtmlAmong he
    have hall : ∀ label ∈ ["dd", "dt", "li", "option", "optgroup", "p", "rb", "rp", "rt", "rtc"],
        isHeading (.html label) = false := by decide
    rw [hname]
    exact hall label hlabel
  · exact h

theorem closeMarked (h : c.Ready σ modes mode) {label : String} (hlabel : isOrdinary (.html label))
    (himplied : hasImpliedEnd (.html label) = false) :
    (if c.hasInScope label then (c.closeNamed label).clearFormatting else c).Ready σ modes mode := by
  split_ifs
  · exact (h.closeNamed hlabel himplied).clearFormatting
  · exact h

theorem closeInBody (h : c.Ready σ modes mode) {bound : Nat} (hlawful : σ.Lawful) (hmode : mode ≠ .inColumnGroup)
    (hlabel : mode = .inBody ∨ tag.label ∉ ["body", "caption", "col", "colgroup", "html", "table", "tbody", "td",
      "tfoot", "th", "thead", "tr"]) : Comes σ bound (.closing tag) (c.closeInBody tag) := by
  have hdone : ∀ {c : Construction}, tag.label ≠ "template" → c.Ready σ modes mode →
      Comes σ bound (.closing tag) (c, .done) := fun hne h => h.passes (by simp) (after_closing hne)
  have hbody : tag.label = "body" ∨ tag.label = "html" → Ready σ modes .inBody { c with mode := .inBody } := by
    intro heq
    obtain rfl := hlabel.resolve_right fun hnot => by rcases heq with heq | heq <;> simp [heq] at hnot
    exact h.congr rfl rfl rfl rfl rfl h.mode.symm
  unfold Construction.closeInBody
  dsimp only
  split
  · exact h.comes_closeTemplate ‹_›
  · split_ifs
    · refine .passed (by simp) ?_ (by simp)
      rw [after_closing (by rw [‹tag.label = _›]; decide)]
      exact ⟨modes, .inBody, .after (.inl rfl), hbody (.inl ‹_›)⟩
    · exact hdone (by rw [‹tag.label = _›]; decide) h
  · split_ifs
    · refine .again (.inl rfl) ⟨modes, .inBody, .after (.inl rfl), hbody (.inr ‹_›)⟩ (by simp) fun hinsists => ?_
      exact absurd (‹tag.label = "html"›.symm.trans hinsists) (by decide)
    · exact hdone (by rw [‹tag.label = _›]; decide) h
  iterate 28
    exact hdone (by rw [‹tag.label = _›]; decide)
      (h.closeNamed (by rw [‹tag.label = _›]; rfl) (by rw [‹tag.label = _›]; rfl))
  · exact hdone (by rw [‹tag.label = _›]; decide) h.closeForm
  · exact hdone (by rw [‹tag.label = _›]; decide) (h.closeNoParagraph hlawful hmode)
  · exact hdone (by rw [‹tag.label = _›]; decide) (h.closeAmong (by decide) (by decide))
  iterate 2 exact hdone (by rw [‹tag.label = _›]; decide) (h.closeAmong (by decide) (by rw [‹tag.label = _›]; rfl))
  iterate 6 exact hdone (by rw [‹tag.label = _›]; decide) h.closeHeading
  iterate 14 exact hdone (by rw [‹tag.label = _›]; decide) (h.closeFormatting (by rw [‹tag.label = _›]; rfl))
  iterate 3
    exact hdone (by rw [‹tag.label = _›]; decide)
      (h.closeMarked (by rw [‹tag.label = _›]; rfl) (by rw [‹tag.label = _›]; rfl))
  · have hbreak : c.openInBody (.bare "br") = (c.reconstruct.insertVoid (.bare "br"), .done) := rfl
    have hmade := ((h.reconstruct hmode).insertVoid (hlawful.bare "br" (by decide)) (by decide)).ready
    rw [Setting.inside_eq (by decide)] at hmade
    rw [hbreak]
    exact hdone (by rw [‹tag.label = _›]; decide) hmade
  · have hne : tag.label ≠ "template" := ‹tag.label = "template" → False›
    refine hdone hne (h.closeOrdinary ?_ fun hcontextual => ⟨?_, hne⟩)
    · simp_all [isHtmlAmong]
    · refine hlabel.resolve_right fun hnot => ?_
      have hlisted := isHtmlAmong_of_isContextual hcontextual
      simp_all [isHtmlAmong]

theorem inBody (h : c.Ready σ modes mode) {bound : Nat} (hlawful : σ.Lawful) (hmode : mode ≠ .inColumnGroup) {token : Token}
    (hfits : σ.FitsToken token)
    (hlabel : mode = .inBody ∨ ∀ tag, token = .closing tag → tag.label ∉ ["body", "caption", "col", "colgroup", "html",
      "table", "tbody", "td", "tfoot", "th", "thead", "tr"]) : Comes σ bound token (c.inBody token) := by
  cases token with
  | opening tag => exact h.openInBody hlawful hmode hfits
  | closing tag => exact h.closeInBody hlawful hmode (hlabel.imp_right fun hall => hall tag rfl)
  | comment text => exact (h.insertComment hfits).passes (by simp) rfl
  | text chars => exact ((h.reconstruct hmode).insertText hlawful chars).passes (by simp) rfl
  | null => exact h.passes (by simp) rfl
  | doctype => exact h.passes (by simp) rfl

end Ready
end Construction
end Html
end Markup
end CrossRef
