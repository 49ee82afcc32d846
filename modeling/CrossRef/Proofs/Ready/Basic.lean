import CrossRef.Proofs.Ready.Arena
import CrossRef.Proofs.Construction.Run

/-!
Constructions that are ready for any token. What is open stands below the body, in each other as the mode
says, and none of it inside of what is open in it.
-/
namespace CrossRef
namespace Markup
namespace Html

open Dom

/-- The elements that are opened again where the text they format goes on. -/
def isFormatting (label : String) : Bool :=
  ["a", "b", "big", "code", "em", "font", "i", "nobr", "s", "small", "strike", "strong", "tt", "u"].contains label

namespace Setting

/-- The elements that a tag makes are as they should be, in any vocabulary. -/
def FitsTag (σ : Setting) (tag : Tag) : Prop :=
  ∀ vocabulary, σ.fits (.element ⟨vocabulary, foreignElementLabel vocabulary tag.label⟩
    (tag.attributesIn vocabulary))

def FitsToken (σ : Setting) : Token → Prop
  | .opening tag => σ.FitsTag tag
  | .comment text => σ.fits (.comment text)
  | _ => True

/-- What tree construction makes of its own accord is as it should be. -/
structure Lawful (σ : Setting) : Prop where
  text : ∀ text, σ.fits (.text text)
  bare : ∀ label ∈ ["br", "colgroup", "p", "tbody", "tr"], σ.FitsTag (.bare label)
  image : ∀ tag, σ.FitsTag tag → σ.FitsTag { tag with label := "img" }
  merge : ∀ tag label old, σ.FitsTag tag → σ.fits (.element (.html label) old) →
    σ.fits (.element (.html label) (addMissing old (tag.attributesIn .html)))

/-- The elements that are always open. -/
def outermost (σ : Setting) : List OpenElement := [⟨σ.body, .html "body"⟩, ⟨σ.root, .html "html"⟩]

/-- The same setting with one more element to look at. -/
def watch (σ : Setting) (w : NodeId × List Attribute) : Setting := { σ with watched := w :: σ.watched }

/-- The same setting where one more template may be open, if one is opened. -/
def inside (σ : Setting) (name : Name) : Setting :=
  { σ with depth := σ.depth + if isTemplate name then 1 else 0 }

/-- The same setting where a template is closed. -/
def outside (σ : Setting) : Setting := { σ with depth := σ.depth - 1 }

theorem inside_eq {σ : Setting} {name : Name} (h : isTemplate name = false) : σ.inside name = σ := by
  simp [inside, h]

theorem FitsTag.html {σ : Setting} {tag : Tag} (h : σ.FitsTag tag) (hne : tag.label ≠ "body") :
    σ.Allows (.element (.html tag.label) (tag.attributesIn .html)) := ⟨h .html, by simpa [Content.isBody] using hne⟩

end Setting

/-- The open elements are in the arena, below the body but for the root, and none is inside of one that is
open in it. -/
structure Held (σ : Setting) (dom : Dom) (opened : List OpenElement) : Prop where
  sound : Holds dom opened
  keeps : σ.Keeps dom
  named : ∀ e ∈ opened, dom.name? (some e.node) = some e.name
  hosts : ∀ e ∈ opened, e.name ≠ .html "html" → σ.Hosts dom e.node
  ordered : opened.Pairwise fun inner outer => ¬ dom.Encloses inner.node outer.node

/-- What was in the arena encloses nothing more than before, if no parent changed. -/
theorem encloses_of_parents {dom dom' : Dom} (hwf : dom.WellFormed) {a i : NodeId} (hi : i < dom.size)
    (hparent : ∀ j < dom.size, dom'.parent? (some j) = dom.parent? (some j)) (h : dom'.Encloses a i) :
    dom.Encloses a i := by
  induction h with
  | refl => exact .refl
  | tail _ hlast ih =>
    have hold := (hparent _ hi).symm.trans hlast
    exact (ih (hwf.parent_lt hold)).tail hold

namespace Held

variable {σ : Setting} {dom dom' : Dom} {opened opened' : List OpenElement} {name : Name} {node : NodeId}

theorem sublist (h : Held σ dom opened) (hsub : opened'.Sublist opened) : Held σ dom opened' :=
  ⟨h.sound.subset hsub.subset, h.keeps, fun e he => h.named e (hsub.subset he),
    fun e he => h.hosts e (hsub.subset he), h.ordered.sublist hsub⟩

theorem lt_size (h : Held σ dom opened) {e : OpenElement} (he : e ∈ opened) : e.node < dom.size :=
  lt_size_of_name? (by simp [h.named e he])

/-- Something is put into the arena and nothing is moved. -/
theorem grow (h : Held σ dom opened) (hext : σ.Extends dom dom') (hholds : Holds dom' opened)
    (hparent : ∀ i < dom.size, dom'.parent? (some i) = dom.parent? (some i)) : Held σ dom' opened where
  sound := hholds
  keeps := hext.keeps h.keeps
  named e he := hext.named (h.named e he)
  hosts e he hname := hext.hosts (h.hosts e he hname)
  ordered := h.ordered.imp_of_mem fun _ houter hnot henc =>
    hnot (encloses_of_parents h.sound.wellFormed (h.lt_size houter) hparent henc)

/-- What an element below the body stands in. -/
theorem exists_parent (h : Held σ dom opened) {e : OpenElement} (he : e ∈ opened) (hname : e.name ≠ .html "html")
    (hne : e.node ≠ σ.body) : ∃ p, dom.parent? (some e.node) = some p ∧ σ.Hosts dom p := by
  rcases Relation.reflTransGen_iff_eq_or_transGen.mp (h.hosts e he hname).inside with heq | habove
  · exact absurd heq hne
  · obtain ⟨p, hp, hinside⟩ := above_iff_exists_parent.mp habove
    exact ⟨p, hp, h.keeps.parents _ p hp, hinside⟩

/-- A new element is open inside of all that were. -/
theorem push (h : Held σ dom opened) (hname : dom.name? (some node) = some name)
    (hhosts : σ.Hosts dom node) (hleaf : ∀ i, dom.parent? (some i) ≠ some node) (hnew : ∀ e ∈ opened, e.node ≠ node) :
    Held σ dom (⟨node, name⟩ :: opened) where
  sound := h.sound.cons (.of_name (by simp [hname])) name
  keeps := h.keeps
  named := List.forall_mem_cons.mpr ⟨hname, h.named⟩
  hosts := List.forall_mem_cons.mpr ⟨fun _ => hhosts, h.hosts⟩
  ordered := by
    refine List.pairwise_cons.mpr ⟨fun e he henc => ?_, h.ordered⟩
    exact not_encloses_of_childless (fun i _ => hleaf i) (hnew e he) henc

end Held

/-- The entries are of formatting elements, each in the arena with the name of its tag. -/
def Listed (σ : Setting) (dom : Dom) (entries : List FormattingEntry) : Prop :=
  ∀ node tag, .element node tag ∈ entries →
    isFormatting tag.label ∧ σ.FitsTag tag ∧ dom.name? (some node) = some (.html tag.label)

section Listed

variable {σ : Setting} {dom dom' : Dom} {entries entries' : List FormattingEntry}

theorem Listed.mono (h : Listed σ dom entries)
    (hnames : ∀ i name, dom.name? (some i) = some name → dom'.name? (some i) = some name) :
    Listed σ dom' entries := fun node tag hmem => by
  obtain ⟨hlabel, hfits, hname⟩ := h node tag hmem
  exact ⟨hlabel, hfits, hnames node _ hname⟩

theorem Listed.grow (h : Listed σ dom entries) (hext : σ.Extends dom dom') : Listed σ dom' entries :=
  h.mono fun _ _ => hext.named

theorem Listed.subset (h : Listed σ dom entries) (hsub : entries' ⊆ entries) : Listed σ dom entries' :=
  fun node tag hmem => h node tag (hsub hmem)

theorem Listed.cons (h : Listed σ dom entries) {node : NodeId} {tag : Tag} (hlabel : isFormatting tag.label)
    (hfits : σ.FitsTag tag) (hname : dom.name? (some node) = some (.html tag.label)) :
    Listed σ dom (.element node tag :: entries) := by
  intro node' tag' hmem
  rcases List.mem_cons.mp hmem with heq | hmem
  · obtain ⟨rfl, rfl⟩ := FormattingEntry.element.inj heq
    exact ⟨hlabel, hfits, hname⟩
  · exact h node' tag' hmem

end Listed

/-- A table or a template, which end a look outward for a place outside of tables. -/
def endsFostering (name : Name) : Bool := isHtmlAmong ["table", "template"] name

/-- Around a part of a table there is a table or a template. -/
theorem Nests.exists_endsFostering {modes : List InsertionMode} {mode : InsertionMode} {names : List Name}
    (h : Nests modes names mode) (hpart : ∃ name ∈ names, (partRule? name).isSome) :
    ∃ other ∈ names, endsFostering other := by
  have hcons : ∀ {name : Name} {names : List Name}, (∃ other ∈ names, endsFostering other) →
      ∃ other ∈ name :: names, endsFostering other := by
    rintro name names ⟨other, hother, hends⟩
    exact ⟨other, List.mem_cons_of_mem name hother, hends⟩
  induction h with
  | body => simp at hpart
  | @ordinary modes names mode name hname _ _ ih =>
    obtain ⟨part, hmem, hsome⟩ := hpart
    rcases List.mem_cons.mp hmem with rfl | hmem
    · obtain ⟨rule, hrule⟩ := Option.isSome_iff_exists.mp hsome
      exact absurd hname (by simp [(classes_of_partRule? hrule).2.2])
    · exact hcons (ih ⟨part, hmem, hsome⟩)
  | table heq => exact ⟨_, List.mem_cons_self, heq ▸ rfl⟩
  | part hrule hholder h ih =>
    -- the holder ends the search or is a part itself
    obtain ⟨holder, hmem, hholds⟩ := hholder
    have hin := List.mem_of_mem_head? hmem
    have hne := (h.ne_of_mem hin).1
    have hlisted : ∀ label ∈ ["html", "table", "template", "tbody", "tfoot", "thead", "tr"],
        isHtmlAmong ["html", "body"] (.html label) = false →
          endsFostering (.html label) ∨ (partRule? (.html label)).isSome := by decide
    have hclass : endsFostering holder ∨ (partRule? holder).isSome := by
      obtain ⟨label, hlabel, rfl⟩ := eq_html_of_isHtmlAmong (isHtmlAmong_of_holds hrule hholds)
      exact hlisted label hlabel hne
    rcases hclass with hends | hsome
    · exact hcons ⟨holder, hin, hends⟩
    · exact hcons (ih ⟨holder, hin, hsome⟩)
  | template heq => exact ⟨_, List.mem_cons_self, heq ▸ rfl⟩

theorem endsFostering_or_part {name : Name} (h : isTableFrame name) :
    endsFostering name ∨ (partRule? name).isSome := by
  obtain ⟨label, hlabel, rfl⟩ := eq_html_of_isHtmlAmong h
  have hall : ∀ label ∈ ["table", "tbody", "tfoot", "thead", "tr"],
      endsFostering (.html label) ∨ (partRule? (.html label)).isSome := by decide
  exact hall label hlabel

/-- The place outside of the innermost table, or in the template inside of which there is none. -/
theorem fosterPlace_cases {inner rest : List OpenElement} (hrest : rest ≠ [])
    (h : ∃ e ∈ inner, endsFostering e.name) :
    ∃ before e after, inner = before ++ e :: after ∧ (∀ x ∈ before, endsFostering x.name = false) ∧
      endsFostering e.name ∧ (fosterPlace (inner ++ rest) = .inside e.node ∨
        e.name = .html "table" ∧ ∃ below, fosterPlace (inner ++ rest) = .outside e.node below) := by
  induction inner with
  | nil => simp at h
  | cons e inner ih =>
    obtain ⟨below, outer, hbelow⟩ : ∃ below outer, inner ++ rest = below :: outer :=
      List.exists_cons_of_ne_nil (by simp [hrest])
    by_cases hends : endsFostering e.name
    · refine ⟨[], e, inner, rfl, by simp, hends, ?_⟩
      rw [List.cons_append, hbelow, fosterPlace]
      by_cases htemplate : isHtmlNamed "template" e.name
      · exact .inl (if_pos htemplate)
      · rw [if_neg htemplate]
        obtain ⟨label, hlabel, hname⟩ := eq_html_of_isHtmlAmong hends
        rcases List.mem_pair.mp hlabel with rfl | rfl
        · exact .inr ⟨hname, below.node, by rw [hname]; rfl⟩
        · exact absurd (hname ▸ rfl) htemplate
    · obtain ⟨before, found, after, heq, hbefore, hfound, hplace⟩ := ih (by
        obtain ⟨found, hmem, hfound⟩ := h
        rcases List.mem_cons.mp hmem with rfl | hmem
        · exact absurd hfound hends
        · exact ⟨found, hmem, hfound⟩)
      have hskip : fosterPlace (e :: inner ++ rest) = fosterPlace (inner ++ rest) := by
        have hnot : isHtmlNamed "template" e.name = false ∧ isHtmlNamed "table" e.name = false := by
          constructor <;>
          · refine Bool.eq_false_iff.mpr fun hnamed => hends ?_
            rw [eq_html_of_isHtmlNamed hnamed]
            decide
        rw [List.cons_append, hbelow, fosterPlace, hnot.1, hnot.2, if_neg Bool.false_ne_true,
          if_neg Bool.false_ne_true]
      refine ⟨e :: before, found, after, by rw [heq]; rfl, ?_, hfound, by rwa [hskip]⟩
      exact List.forall_mem_cons.mpr ⟨by simpa using hends, hbefore⟩

namespace Construction

/-- The construction is ready for any token in this mode, with these modes for what is open of templates. -/
structure Ready (σ : Setting) (modes : List InsertionMode) (mode : InsertionMode) (c : Construction) : Prop where
  held : Held σ c.dom c.opened
  nested : ∃ inner, c.opened = inner ++ σ.outermost ∧ Nests modes (inner.map (·.name)) mode
  listed : Listed σ c.dom c.formatting
  form : ∀ node ∈ c.form, c.dom.name? (some node) = some (.html "form")
  templateModes : c.templateModes = modes
  mode : c.mode = mode
  depth : templateDepth (c.opened.map (·.name)) ≤ σ.depth

namespace Ready

variable {σ : Setting} {modes : List InsertionMode} {mode : InsertionMode} {c : Construction}
  {before after : List OpenElement} {e : OpenElement} {dom : Dom}

theorem sound (h : c.Ready σ modes mode) : c.Sound := h.held.sound

theorem congr (h : c.Ready σ modes mode) {c' : Construction} (hdom : c'.dom = c.dom) (hopened : c'.opened = c.opened)
    (hformatting : c'.formatting = c.formatting) (hform : c'.form = c.form)
    (htemplateModes : c'.templateModes = c.templateModes) (hmode : c'.mode = c.mode) : c'.Ready σ modes mode where
  held := by rw [hdom, hopened]; exact h.held
  nested := by rw [hopened]; exact h.nested
  listed := by rw [hdom, hformatting]; exact h.listed
  form := by rw [hdom, hform]; exact h.form
  templateModes := htemplateModes.trans h.templateModes
  mode := hmode.trans h.mode
  depth := by rw [hopened]; exact h.depth

/-- The arena grows. -/
theorem grow (h : c.Ready σ modes mode) (hext : σ.Extends c.dom dom) (hheld : Held σ dom c.opened) :
    Ready σ modes mode { c with dom := dom } :=
  { h with held := hheld, listed := h.listed.grow hext, form := fun node hnode => hext.named (h.form node hnode) }

theorem body_mem (h : c.Ready σ modes mode) : (⟨σ.body, .html "body"⟩ : OpenElement) ∈ c.opened := by
  obtain ⟨inner, heq, -⟩ := h.nested
  simp [heq, Setting.outermost]

/-- An element with another name is not the body. -/
theorem ne_body (h : c.Ready σ modes mode) (he : e ∈ c.opened) (hname : e.name ≠ .html "body") :
    e.node ≠ σ.body := by
  intro heq
  have hbody := h.held.named _ h.body_mem
  have hnamed := h.held.named e he
  rw [heq, hbody] at hnamed
  exact hname (Option.some_inj.mp hnamed).symm

/-- Something for an open element is put into an open element or outside of an open table, none of which stands
inside of it. -/
theorem placeFor_cases (h : c.Ready σ modes mode) (heq : c.opened = before ++ e :: after)
    (hbefore : ∀ x ∈ before, endsFostering x.name = false) (hname : e.name ≠ .html "html") :
    ∃ found ∈ e :: after, found.name ≠ .html "html" ∧ (c.placeFor e = .inside found.node ∨
      found.name = .html "table" ∧ ∃ below, c.placeFor e = .outside found.node below) := by
  unfold placeFor
  split_ifs with hfosters
  · obtain ⟨inner, hinner, hnests⟩ := h.nested
    have hframe := (Bool.and_eq_true _ _ ▸ hfosters).2
    have he : e ∈ inner := by
      have hmem : e ∈ c.opened := by simp [heq]
      rw [hinner, List.mem_append] at hmem
      refine hmem.resolve_right fun hmem => ?_
      have houter : ∀ name ∈ σ.outermost.map (·.name), isTableFrame name = false := by
        show ∀ name ∈ [Name.html "body", .html "html"], isTableFrame name = false
        decide
      exact absurd hframe (by simp [houter e.name (List.mem_map_of_mem hmem)])
    obtain ⟨before', found, after', hsplit, -, hends, hplace⟩ := fosterPlace_cases
      (show σ.outermost ≠ [] by simp [Setting.outermost]) (show ∃ e ∈ inner, endsFostering e.name by
        rcases endsFostering_or_part hframe with hends | hpart
        · exact ⟨e, he, hends⟩
        · obtain ⟨other, hother, hends⟩ := hnests.exists_endsFostering
            ⟨e.name, List.mem_map_of_mem he, hpart⟩
          obtain ⟨found, hfound, rfl⟩ := List.mem_map.mp hother
          exact ⟨found, hfound, hends⟩)
    have hhtml : found.name ≠ .html "html" := fun heq => absurd hends (by rw [heq]; decide)
    -- what is found does not stand before the element
    have hafter : found ∈ e :: after := by
      have hmem : found ∈ c.opened := by simp [hinner, hsplit]
      rw [heq, List.mem_append] at hmem
      exact hmem.resolve_left fun hmem => absurd hends (by simp [hbefore found hmem])
    rw [hinner]
    exact ⟨found, hafter, hhtml, hplace⟩
  · exact ⟨e, by simp, hname, .inl rfl⟩

/-- Where something for an open element is put. -/
theorem target_placeFor (h : c.Ready σ modes mode) (heq : c.opened = before ++ e :: after)
    (hbefore : ∀ x ∈ before, endsFostering x.name = false) (hname : e.name ≠ .html "html") :
    σ.Hosts c.dom ((c.placeFor e).target c.dom) := by
  obtain ⟨found, hfound, hhtml, hplace⟩ := h.placeFor_cases heq hbefore hname
  have hmem : found ∈ c.opened := heq ▸ List.mem_append_right before hfound
  rcases hplace with hplace | ⟨htable, below, hplace⟩
  · rw [hplace]
    exact h.held.hosts found hmem hhtml
  · have hne := h.ne_body hmem (by rw [htable]; decide)
    obtain ⟨p, hp, hhosts⟩ := h.held.exists_parent hmem hhtml hne
    rw [hplace, Place.target, outerNode, hp]
    exact hhosts

theorem exists_current (h : c.Ready σ modes mode) :
    ∃ e outer, c.opened = e :: outer ∧ e.name ≠ .html "html" := by
  obtain ⟨inner, heq, hnests⟩ := h.nested
  cases inner with
  | nil => exact ⟨_, _, heq, show Name.html "body" ≠ .html "html" by decide⟩
  | cons e inner =>
    refine ⟨e, _, heq, fun hname => ?_⟩
    have hne := (hnests.ne_of_mem (List.mem_map_of_mem List.mem_cons_self)).1
    rw [hname] at hne
    exact absurd hne (by decide)

/-- Where something new is put. -/
theorem target_hosts (h : c.Ready σ modes mode) : σ.Hosts c.dom (c.currentPlace.target c.dom) := by
  obtain ⟨e, outer, heq, hname⟩ := h.exists_current
  rw [currentPlace, current?, heq]
  exact h.target_placeFor (show c.opened = [] ++ e :: outer from heq) (by simp) hname

end Ready

/-! ### Something new -/

/-- The arena with a new node at the current place. -/
def inserted (c : Construction) (content : Content) : Dom :=
  (c.dom.create content).1.append (some (c.currentPlace.target c.dom)) (some c.dom.size)

section Inserted

variable (c : Construction)

theorem insertComment_eq (text : String) : c.insertComment text = { c with dom := c.inserted (.comment text) } := by
  simp only [insertComment, placeAt_eq, Place.target_create, create_snd]
  rfl

theorem insertClosed_eq (name : Name) (attributes : List Attribute) :
    c.insertClosed name attributes = ({ c with dom := c.inserted (.element name attributes) }, c.dom.size) := by
  simp only [insertClosed, placeAt_eq, Place.target_create, create_snd]
  rfl

theorem insertOpen_eq_push (name : Name) (attributes : List Attribute) :
    c.insertOpen name attributes = ({ c with
      dom := c.inserted (.element name attributes)
      opened := ⟨c.dom.size, name⟩ :: c.opened }, c.dom.size) := by
  rw [insertOpen, insertClosed_eq]

theorem insertText_eq (chars : List Char) : c.insertText chars =
    { c with dom := c.dom.appendText (some (c.currentPlace.target c.dom)) (String.ofList chars) } := by
  rw [insertText, placeAt_eq]
  rfl

end Inserted

namespace Ready

variable {σ : Setting} {modes : List InsertionMode} {mode : InsertionMode} {c : Construction} {content : Content}
  {name : Name} {attributes : List Attribute}

theorem extends_inserted (h : c.Ready σ modes mode) (hfits : σ.Allows content) :
    σ.Extends c.dom (c.inserted content) :=
  Setting.Extends.appendNew h.target_hosts.toNotVoid hfits

theorem parent?_inserted (c : Construction) (content : Content) (i : NodeId) :
    (c.inserted content).parent? (some i) =
      if i = c.dom.size then some (c.currentPlace.target c.dom) else c.dom.parent? (some i) := by
  rw [inserted, parent?_append _ _ _ (by simp), parent?_create]

theorem held_inserted (h : c.Ready σ modes mode) (hfits : σ.Allows content) :
    Held σ (c.inserted content) c.opened := by
  have hholds := ((goes h.sound).insertNew content).sound
  simp only [placeAt_eq, Place.target_create] at hholds
  refine h.held.grow (h.extends_inserted hfits) hholds fun i hi => ?_
  rw [parent?_inserted, if_neg hi.ne]

/-- The new node is below the body. -/
theorem above_inserted (h : c.Ready σ modes mode) (hfits : σ.Allows content) :
    (c.inserted content).Above σ.body c.dom.size :=
  .tail' ((h.extends_inserted hfits).encloses h.target_hosts.inside) (by rw [parent?_inserted, if_pos rfl])

theorem content?_inserted (c : Construction) (content : Content) :
    (c.inserted content).content? (some c.dom.size) = some content := by
  rw [inserted, content?_append, content?_create, if_pos rfl]

/-- The new element is the innermost. -/
theorem held_push (h : c.Ready σ modes mode) (hfits : σ.Allows (.element name attributes))
    (hvoid : isVoidElement name = false) :
    Held σ (c.inserted (.element name attributes)) (⟨c.dom.size, name⟩ :: c.opened) := by
  have hname : (c.inserted (.element name attributes)).name? (some c.dom.size) = some name := by
    rw [name?, content?_inserted]
  refine (h.held_inserted hfits).push hname ⟨.of_name hname hvoid,
    (h.above_inserted hfits).to_reflTransGen⟩ (fun i hi => ?_) fun e he => (h.held.lt_size he).ne
  rw [parent?_inserted] at hi
  have hlt := h.target_hosts.lt_size
  split_ifs at hi
  · exact absurd (Option.some_inj.mp hi) hlt.ne
  · exact absurd (h.sound.wellFormed.parent_lt hi) (lt_irrefl _)

theorem insertComment (h : c.Ready σ modes mode) {text : String} (hfits : σ.fits (.comment text)) :
    (c.insertComment text).Ready σ modes mode := by
  rw [insertComment_eq]
  have hallows : σ.Allows (.comment text) := ⟨hfits, rfl⟩
  exact h.grow (h.extends_inserted hallows) (h.held_inserted hallows)

theorem insertText (h : c.Ready σ modes mode) (hlawful : σ.Lawful) (chars : List Char) :
    (c.insertText chars).Ready σ modes mode := by
  have hsound := ((goes h.sound).insertText chars).sound
  have hext := Setting.Extends.appendText h.target_hosts.toNotVoid hlawful.text (String.ofList chars)
  rw [insertText_eq] at hsound ⊢
  refine h.grow hext (h.held.grow hext hsound fun i hi => ?_)
  rcases appendText_cases c.dom (c.currentPlace.target c.dom) (String.ofList chars) with ⟨old, -, he⟩ | he
  · rw [he]
    exact (sameLinks_modify _
      (f := fun n => { n with content := .text (old ++ String.ofList chars) }) fun n => rfl).parent?_eq _
  · rw [he, parent?_append _ _ _ (by simp), parent?_create, if_neg hi.ne]

end Ready

/-! ### Elements to look at -/

/-- The construction is ready and has made an element with these attributes, which is looked at from now on. -/
def Makes (σ : Setting) (attributes : List Attribute) (modes : List InsertionMode) (mode : InsertionMode)
    (c : Construction) : Prop :=
  ∃ i, c.Ready (σ.watch (i, attributes)) modes mode

section Watch

variable {σ : Setting} {w : NodeId × List Attribute} {modes : List InsertionMode} {mode : InsertionMode}
  {c : Construction} {name : Name} {attributes : List Attribute}

theorem Ready.unwatch (h : c.Ready (σ.watch w) modes mode) : c.Ready σ modes mode where
  depth := h.depth
  held :=
    { sound := h.held.sound
      keeps := ⟨h.held.keeps.document, h.held.keeps.rooted, h.held.keeps.contents, h.held.keeps.parents,
        fun w' hw' => h.held.keeps.watched w' (List.mem_cons_of_mem w hw')⟩
      named := h.held.named
      hosts := fun e he hname => ⟨(h.held.hosts e he hname).toNotVoid, (h.held.hosts e he hname).inside⟩
      ordered := h.held.ordered }
  nested := h.nested
  listed := h.listed
  form := h.form
  templateModes := h.templateModes
  mode := h.mode

/-- From now on an element below the body is looked at. -/
theorem Ready.watch (h : c.Ready σ modes mode) {i : NodeId} (habove : c.dom.Above σ.body i)
    (hcontent : c.dom.content? (some i) = some (.element name attributes)) : Makes σ attributes modes mode c :=
  ⟨i,
    { held :=
        { sound := h.held.sound
          keeps := ⟨h.held.keeps.document, h.held.keeps.rooted, h.held.keeps.contents, h.held.keeps.parents, List.forall_mem_cons.mpr
            ⟨⟨habove, name, [], by simpa using hcontent⟩, h.held.keeps.watched⟩⟩
          named := h.held.named
          hosts := fun e he hname => ⟨(h.held.hosts e he hname).toNotVoid, (h.held.hosts e he hname).inside⟩
          ordered := h.held.ordered }
      nested := h.nested
      listed := h.listed
      form := h.form
      templateModes := h.templateModes
      mode := h.mode
      depth := h.depth }⟩

theorem Makes.ready (h : Makes σ attributes modes mode c) : c.Ready σ modes mode := h.choose_spec.unwatch

/-! ### New elements -/

theorem Ready.insertClosed (h : c.Ready σ modes mode) (hfits : σ.Allows (.element name attributes)) :
    Makes σ attributes modes mode (c.insertClosed name attributes).1 := by
  rw [insertClosed_eq]
  exact (h.grow (h.extends_inserted hfits) (h.held_inserted hfits)).watch (h.above_inserted hfits)
    (Ready.content?_inserted c _)

/-- More or fewer templates may be open. -/
theorem Ready.setDepth (h : c.Ready σ modes mode) {depth : Nat}
    (hdepth : templateDepth (c.opened.map (·.name)) ≤ depth) :
    c.Ready { σ with depth := depth } modes mode where
  held :=
    { sound := h.held.sound
      keeps := ⟨h.held.keeps.document, h.held.keeps.rooted, h.held.keeps.contents, h.held.keeps.parents, h.held.keeps.watched⟩
      named := h.held.named
      hosts := fun e he hname => ⟨(h.held.hosts e he hname).toNotVoid, (h.held.hosts e he hname).inside⟩
      ordered := h.held.ordered }
  nested := h.nested
  listed := h.listed
  form := h.form
  templateModes := h.templateModes
  mode := h.mode
  depth := hdepth

theorem Ready.inside (h : c.Ready σ modes mode) (name : Name) : c.Ready (σ.inside name) modes mode :=
  h.setDepth (Nat.le_add_right_of_le h.depth)

/-- An element is opened, in the mode that it calls for. -/
theorem Ready.insertNested (h : c.Ready σ modes mode) (hfits : σ.Allows (.element name attributes))
    {modes' : List InsertionMode} {mode' : InsertionMode}
    (hnests : ∀ names, Nests modes names mode → c.opened.map (·.name) = names ++ σ.outermost.map (·.name) →
      Nests modes' (name :: names) mode') :
    Makes (σ.inside name) attributes modes' mode' { (c.insertOpen name attributes).1 with
      templateModes := modes', mode := mode' } := by
  have hdepth : templateDepth (name :: c.opened.map (·.name)) ≤ (σ.inside name).depth :=
    (templateDepth_cons_le name _).trans (Nat.add_le_add_right h.depth _)
  replace h := h.inside name
  obtain ⟨inner, heq, hinner⟩ := h.nested
  have hnew := hnests _ hinner (by rw [heq, List.map_append]; rfl)
  have hvoid := (hnew.ne_of_mem List.mem_cons_self).2
  have hext := h.extends_inserted hfits
  rw [insertOpen_eq_push]
  refine Ready.watch ⟨h.held_push hfits hvoid, ⟨⟨c.dom.size, name⟩ :: inner, by simp [heq], hnew⟩,
    h.listed.grow hext, fun node hnode => hext.named (h.form node hnode), rfl, rfl, hdepth⟩
    (h.above_inserted hfits) (Ready.content?_inserted c _)

/-- An ordinary element is opened where no column group is the innermost part of a table. -/
theorem Ready.insertInside (h : c.Ready σ modes mode) (hfits : σ.Allows (.element name attributes))
    (hname : isOrdinary name) (hcontext : ∀ names, Nests modes names mode →
      c.opened.map (·.name) = names ++ σ.outermost.map (·.name) → context? names ≠ some (.html "colgroup")) :
    Makes (σ.inside name) attributes modes mode (c.insertOpen name attributes).1 := by
  have hmade := h.insertNested hfits fun names hnests hnames =>
    .ordinary hname (hcontext names hnests hnames) hnests
  have hsame : { (c.insertOpen name attributes).1 with templateModes := modes, mode := mode } =
      (c.insertOpen name attributes).1 := by
    rw [insertOpen_eq_push, ← h.templateModes, ← h.mode]
  rwa [hsame] at hmade

theorem Ready.insertOpen (h : c.Ready σ modes mode) (hfits : σ.Allows (.element name attributes))
    (hname : isOrdinary name) (hmode : mode ≠ .inColumnGroup) :
    Makes (σ.inside name) attributes modes mode (c.insertOpen name attributes).1 :=
  h.insertInside hfits hname fun _ hnests _ => hnests.context_ne hmode

end Watch
end Construction
end Html
end Markup
end CrossRef
