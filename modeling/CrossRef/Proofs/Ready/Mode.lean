import CrossRef.Proofs.Ready.Part

/-!
Tokens in every mode keep a construction in order, and so does their handling again. A start tag that is handled to
the end makes an element, unless it is one of those that have no place there.
-/
namespace CrossRef
namespace Markup
namespace Html
namespace Construction

variable {σ : Setting} {modes : List InsertionMode} {mode : InsertionMode} {c : Construction} {tag : Tag}
  {bound : Nat} {token : Token} {next : Next}

namespace Ready

/-! ### Templates -/

theorem enterTemplateContent (h : c.Ready σ modes .inTemplate) {inner : InsertionMode} (hinner : inner.isSettled)
    (hnot : ¬ Insists σ token) : Comes σ bound token (c.enterTemplateContent inner token) := by
  obtain ⟨names, heq, hnests⟩ := h.nested
  have hready : Ready σ (inner :: modes.tail) inner
      { c with mode := inner, templateModes := inner :: c.templateModes.tail } :=
    ⟨h.held, ⟨names, heq, hnests.retemplate hinner⟩, h.listed, h.form, by rw [h.templateModes], rfl, h.depth⟩
  exact hready.comes_again hnot

theorem inTemplate (h : c.Ready σ modes .inTemplate) (hlawful : σ.Lawful) (hfits : σ.FitsToken token) :
    Comes σ bound token (c.inTemplate token) := by
  have hdepth : 0 < σ.depth := by
    obtain ⟨before, e, after, heq, -, htemplate | ⟨-, htable⟩ | ⟨rule, hrule, hinner⟩⟩ := h.exists_context (by decide)
    · exact h.depth_pos ⟨e, by simp [heq], htemplate⟩
    · cases htable
    · rcases partRule?_cases hrule with ⟨-, rfl⟩ | ⟨-, rfl⟩ | ⟨-, rfl⟩ | ⟨-, rfl⟩ | ⟨-, rfl⟩ <;> cases hinner
  unfold Construction.inTemplate
  split
  · next tag =>
    have hnot : ¬ Insists σ (.opening tag) := fun hinsists => hdepth.ne' hinsists.2
    split
    · exact h.openMetadata ‹_› (.inl (by decide)) hfits
    · split <;> exact h.enterTemplateContent rfl hnot
  · next tag =>
    split_ifs with htemplate
    · exact h.comes_closeTemplate htemplate
    · exact h.passes (by simp) (after_closing htemplate)
  · next hopening hclosing =>
    exact h.inBody hlawful (by decide) hfits (.inr fun tag htag => absurd htag (hclosing tag))

/-! ### After the body -/

theorem setMode_reopen (c : Construction) (mode : InsertionMode) (before entries : List FormattingEntry) :
    ({ c with mode := mode } : Construction).reopen before entries = { c.reopen before entries with mode := mode } := by
  induction entries generalizing c before with
  | nil => rfl
  | cons entry rest ih =>
    cases entry with
    | marker => exact ih c _
    | element node tag =>
      simp only [Construction.reopen, insertOpen_eq_push]
      exact ih { c with
        dom := c.inserted (.element (.html tag.label) (tag.attributesIn .html))
        opened := ⟨c.dom.size, .html tag.label⟩ :: c.opened } _

theorem mode_reopen (c : Construction) (before entries : List FormattingEntry) :
    (c.reopen before entries).mode = c.mode := by
  have hsame := congrArg Construction.mode (setMode_reopen c c.mode before entries)
  exact hsame

/-- Blank text after the body goes into the body. -/
theorem insertBlankAfter (h : Ready σ modes .inBody { c with mode := .inBody }) (hlawful : σ.Lawful)
    (chars : List Char) : Ready σ modes .inBody { (c.inBody (.text chars)).1 with mode := .inBody } ∧
      (c.inBody (.text chars)).1.mode = c.mode := by
  have hready := (h.reconstruct (by decide)).insertText hlawful chars
  simp only [Construction.inBody, insertText_eq] at hready ⊢
  refine ⟨?_, mode_reopen c _ _⟩
  have hsame : ({ c with mode := .inBody } : Construction).reconstruct = { c.reconstruct with mode := .inBody } :=
    setMode_reopen c _ _ _
  rw [hsame] at hready
  exact hready

theorem insertOuterComment (h : Ready σ modes .inBody { c with mode := .inBody }) {parent : NodeId}
    (hcan : c.dom.CanHold parent) (hparent : NotVoid c.dom parent) {text : String} (hfits : σ.fits (.comment text)) :
    Ready σ modes .inBody { c.insertOuterComment parent text with mode := .inBody } := by
  have hsound := ((goes h.sound).insertOuterComment hcan text).sound
  have hext := Setting.Extends.appendNew (σ := σ) hparent ⟨hfits, rfl⟩
  simp only [Construction.insertOuterComment, Dom.create_snd] at hsound ⊢
  refine h.grow hext (h.held.grow hext hsound fun i hi => ?_)
  rw [Dom.parent?_append _ _ _ (by simp), if_neg (by exact hi.ne), Dom.parent?_create]

theorem notVoid_of_mem (h : c.Ready σ modes mode) {e : OpenElement} (he : e ∈ c.opened) : NotVoid c.dom e.node := by
  by_cases hhtml : e.name = .html "html"
  · exact .of_name (h.held.named e he) (by rw [hhtml]; decide)
  · exact (h.held.hosts e he hhtml).toNotVoid

theorem setMode_mergeAttributes (c : Construction) (mode : InsertionMode) (element? : Option OpenElement) (tag : Tag) :
    ({ c with mode := mode } : Construction).mergeAttributes element? tag =
      { c.mergeAttributes element? tag with mode := mode } := by
  cases element? with
  | none => rfl
  | some e =>
    have hsame : ({ c with mode := mode } : Construction).hasTemplate = c.hasTemplate := rfl
    simp only [Construction.mergeAttributes, hsame]
    cases c.hasTemplate <;> rfl

theorem mode_mergeAttributes (c : Construction) (element? : Option OpenElement) (tag : Tag) :
    (c.mergeAttributes element? tag).mode = c.mode := by
  have hsame := congrArg Construction.mode (setMode_mergeAttributes c c.mode element? tag)
  exact hsame

theorem afterBody (h : Ready σ modes .inBody { c with mode := .inBody })
    (hmode : c.mode = .afterBody ∨ c.mode = .afterAfterBody) (hlawful : σ.Lawful) (hfits : σ.FitsToken token) :
    Comes σ c.rank token (c.afterBody token) := by
  have hne : c.mode ≠ .text := by rcases hmode with hmode | hmode <;> rw [hmode] <;> decide
  have hagain : Comes σ c.rank token ({ c with mode := .inBody }, .again token) := by
    refine .again (.inl rfl) h.orderly h.mode_ne_text fun _ => ?_
    rw [h.rank_eq, if_neg (by decide), rank]
    rcases hmode with hmode | hmode <;> rw [hmode] <;> exact Nat.lt_add_of_pos_right (by decide)
  have hstay : ∀ {c' : Construction}, Ready σ modes .inBody { c' with mode := .inBody } → c'.mode = c.mode →
      (∀ tag, token = .opening tag → isDroppable tag.label) → σ.after token = σ → Comes σ c.rank token (c', .done) :=
    fun hready hsame hdrop hafter => .passed (fun tag htag => .inl (hdrop tag htag))
      (by rw [hafter]; exact ⟨modes, .inBody, .after (by rwa [hsame]), hready⟩) (by rwa [hsame])
  cases token with
  | text chars =>
    simp only [Construction.afterBody]
    generalize hblank : (if (chars.takeWhile isTextBlank).isEmpty then c
      else (c.inBody (.text (chars.takeWhile isTextBlank))).1) = blankPlaced
    obtain ⟨hready, hsame⟩ : Ready σ modes .inBody { blankPlaced with mode := .inBody } ∧ blankPlaced.mode = c.mode := by
      subst hblank
      split_ifs
      · exact ⟨h, rfl⟩
      · exact h.insertBlankAfter hlawful _
    split
    · exact hstay hready hsame (by simp) rfl
    · exact .again (.inr ⟨_, _, rfl, rfl⟩) hready.orderly hready.mode_ne_text fun hinsists => absurd hinsists id
  | comment text =>
    simp only [Construction.afterBody]
    refine hstay (h.insertOuterComment ?_ ?_ hfits) rfl (by simp) rfl
    · split
      · next root _ hroot => exact h.sound.opened root (List.mem_of_getLast? hroot)
      · exact h.sound.document
    · split
      · next root _ hroot =>
        exact h.notVoid_of_mem (List.mem_of_getLast? hroot)
      · exact h.held.keeps.document
  | opening tag =>
    simp only [Construction.afterBody]
    split_ifs with hroot
    · rw [inBody_root c hroot]
      have hdrop : ∀ tag', Token.opening tag = .opening tag' → isDroppable tag'.label := fun tag' htag => by
        cases htag
        rw [hroot]
        rfl
      have hafter : σ.after (.opening tag) = σ := Setting.inside_eq (by rw [hroot]; decide)
      have hmerged := h.mergeAttributes hlawful hfits h.root_html
      rw [setMode_mergeAttributes] at hmerged
      exact hstay hmerged (mode_mergeAttributes c _ tag) hdrop hafter
    · exact hagain
  | closing tag =>
    simp only [Construction.afterBody]
    split_ifs with hroot
    · simp only [Bool.and_eq_true, decide_eq_true_eq] at hroot
      refine .passed (by simp) ?_ (by simp)
      rw [after_closing (by rw [hroot.1]; decide)]
      exact ⟨modes, .inBody, .after (.inr rfl), h⟩
    · exact hagain
  | null => exact hagain
  | doctype => exact hstay h rfl (by simp) rfl

end Ready

/-! ### MathML and SVG -/

/-- What does not depend on the mode keeps a construction in order. -/
theorem Awaits.map {f : Construction} (h : c.Awaits mode) (hmode : c.mode ≠ .text) (hsame : f.mode = c.mode)
    (hreturn : f.returnMode = c.returnMode) : f.Awaits mode := by
  cases h with
  | settled => exact hsame ▸ .settled
  | text htext => exact absurd htext hmode
  | tableText htext hne => exact hreturn ▸ .tableText (hsame.trans htext) (by rwa [hreturn])
  | after hafter => exact .after (by rwa [hsame])

theorem Orderly.map {σ' : Setting} {f : Construction} (h : c.Orderly σ) (hmode : c.mode ≠ .text)
    (hready : ∀ modes mode, Ready σ modes mode { c with mode := mode } → Ready σ' modes mode { f with mode := mode })
    (hsame : f.mode = c.mode) (hreturn : f.returnMode = c.returnMode) : f.Orderly σ' := by
  obtain ⟨modes, mode, hawaits, h⟩ := h
  exact ⟨modes, mode, hawaits.map hmode hsame hreturn, hready modes mode h⟩

/-- A MathML or SVG element is opened inside of another. -/
theorem Ready.openForeignInside (h : c.Ready σ modes mode) (hcurrent : ∃ e ∈ c.opened.head?, e.name.vocabulary ≠ .html)
    {vocabulary : Vocabulary} (hforeign : vocabulary ≠ .html) (hfits : σ.FitsTag tag) (hne : tag.label ≠ "body") :
    Makes (σ.inside (.html tag.label)) (tag.attributesIn vocabulary) modes mode (c.openForeign vocabulary tag) := by
  refine h.openForeign (fun names hnests hnames => ?_) hforeign hfits hne
  obtain ⟨e, he, hname⟩ := hcurrent
  obtain ⟨outer, heq⟩ := List.head?_eq_some_iff.mp (Option.mem_def.mp he)
  rw [heq, List.map_cons] at hnames
  cases names with
  | nil => simp [context?]
  | cons name names =>
    obtain ⟨rfl, -⟩ := List.cons_eq_cons.mp hnames
    rw [Nests.context?_cons_of_ordinary (isOrdinary_of_foreign hname)]
    exact (hnests.of_ordinary (isOrdinary_of_foreign hname)).2

/-- Foreign elements are closed. -/
theorem Ready.popForeign (h : c.Ready σ modes mode) :
    (c.popTo fun name => name.vocabulary = .html || isMathTextPoint name || isSvgHtmlPoint name).Ready σ modes mode :=
  h.popWhile fun name hname => isOrdinary_of_foreign (by simp at hname; exact hname.1.1)

/-- What an end tag closes inside of foreign elements. -/
theorem foreignClosed?_cases {label : String} {isFirst : Bool} {opened outer : List OpenElement}
    (h : foreignClosed? label isFirst opened = some outer)
    (hfirst : isFirst → ∃ e ∈ opened.head?, e.name.vocabulary ≠ .html) :
    ∃ before e, opened = before ++ e :: outer ∧ Text.asciiLowercase e.name.label = label ∧
      ∀ x ∈ before ++ [e], x.name.vocabulary ≠ .html := by
  induction opened generalizing isFirst with
  | nil => simp [foreignClosed?] at h
  | cons x opened ih =>
    rw [foreignClosed?] at h
    split_ifs at h with hhtml hempty hlabel
    all_goals
      have hx : x.name.vocabulary ≠ .html := by
        cases isFirst with
        | false => simpa using hhtml
        | true => simpa using hfirst rfl
    · obtain rfl := Option.some_inj.mp h
      exact ⟨[], x, rfl, hlabel, by simpa using hx⟩
    · obtain ⟨before, e, rfl, he, hall⟩ := ih h (by simp)
      exact ⟨x :: before, e, rfl, he, List.forall_mem_cons.mpr ⟨hx, hall⟩⟩

theorem Ready.closeForeign (h : c.Ready σ modes mode) {outer : List OpenElement}
    (hcurrent : ∃ e ∈ c.opened.head?, e.name.vocabulary ≠ .html)
    (hclosed : foreignClosed? tag.label true c.opened = some outer) :
    Ready (σ.after (.closing tag)) modes mode { c with opened := outer } := by
  obtain ⟨before, e, heq, he, hall⟩ := foreignClosed?_cases hclosed fun _ => hcurrent
  have hready := h.closeInner (show c.opened = (before ++ [e]) ++ outer by simp [heq])
    fun x hx => isOrdinary_of_foreign (hall x hx)
  rw [Setting.after]
  split_ifs with htemplate
  · refine hready.setDepth ?_
    have hdepth := h.depth
    rw [heq, List.map_append, List.map_cons] at hdepth
    exact (templateDepth_close (by rw [isTemplate, he, htemplate]; rfl)).trans (Nat.sub_le_sub_right hdepth 1)
  · exact hready

theorem exists_of_isForeign (h : c.isForeign token) : ∃ e ∈ c.opened.head?, e.name.vocabulary ≠ .html := by
  unfold isForeign at h
  split at h
  · simp at h
  · next e he =>
    by_cases hhtml : e.name.vocabulary = .html
    · simp [hhtml] at h
    · exact ⟨e, he, hhtml⟩

/-! ### Every mode -/

theorem Orderly.inMode (h : c.Orderly σ) (hmode : c.mode ≠ .text) (hlawful : σ.Lawful) (hfits : σ.FitsToken token) :
    Comes σ c.rank token (c.inMode token) := by
  obtain ⟨modes, mode, hawaits, h⟩ := h
  cases hawaits with
  | settled =>
    have h' : c.Ready σ modes c.mode := h
    obtain ⟨inner, -, hnests⟩ := h'.nested
    have hsettled := hnests.isSettled
    unfold Construction.inMode
    split <;> next heq => 
      rw [heq] at h' hsettled
      first
        | exact absurd hsettled (by decide)
        | exact h'.inBody hlawful (by decide) hfits (.inl rfl)
        | exact h'.inTable hlawful (by decide) hfits (.inl rfl)
        | exact h'.inCaption hlawful hfits
        | exact h'.inColumnGroup hlawful hfits
        | exact h'.inTableBody hlawful hfits
        | exact h'.inRow hlawful hfits
        | exact h'.inCell hlawful hfits
        | exact h'.inTemplate hlawful hfits
  | text htext => exact absurd htext hmode
  | tableText htext hne =>
    rw [Construction.inMode, htext]
    exact h.inTableText hlawful rfl hne htext hfits
  | after hafter =>
    have hin : c.inMode token = c.afterBody token := by
      rcases hafter with hafter | hafter <;> rw [Construction.inMode, hafter]
    rw [hin]
    exact h.afterBody hafter hlawful hfits

theorem Comes.mono {bound' : Nat} {r : Construction × Next} (h : Comes σ bound token r) (hle : bound ≤ bound') :
    Comes σ bound' token r := by
  cases h with
  | made htoken h hmode => exact .made htoken h hmode
  | passed htoken h hmode => exact .passed htoken h hmode
  | plaintext htoken hlabel h hmode => exact .plaintext htoken hlabel h hmode
  | text htoken hlabel hreading h hmode => exact .text htoken hlabel hreading h hmode
  | again hnext h hmode hrank => exact .again hnext h hmode fun hinsists => (hrank hinsists).trans_le hle

theorem Orderly.leaveForeign (h : c.Orderly σ) (hmode : c.mode ≠ .text) (hlawful : σ.Lawful)
    (hfits : σ.FitsToken token) : Comes σ c.rank token (c.leaveForeign token) := by
  have hpopped : (c.popTo fun name => name.vocabulary = .html || isMathTextPoint name || isSvgHtmlPoint name).Orderly σ :=
    h.map hmode (fun modes mode hready => hready.popForeign.congr rfl rfl rfl rfl rfl rfl) rfl rfl
  refine (hpopped.inMode hmode hlawful hfits).mono ?_
  have hcount := (List.dropWhile_sublist (p := fun e : OpenElement =>
    !(e.name.vocabulary = .html || isMathTextPoint e.name || isSvgHtmlPoint e.name)) (l := c.opened)).countP_le
      (p := fun e => isHtmlNamed "table" e.name)
  exact Nat.add_le_add_right (Nat.mul_le_mul_left 2 hcount) _

theorem setMode_openForeign (c : Construction) (mode : InsertionMode) (vocabulary : Vocabulary) (tag : Tag) :
    ({ c with mode := mode } : Construction).openForeign vocabulary tag =
      { c.openForeign vocabulary tag with mode := mode } := by
  simp only [Construction.openForeign, insertClosed_eq, insertOpen_eq_push]
  cases tag.isSelfClosing <;> rfl

theorem same_openForeign (c : Construction) (vocabulary : Vocabulary) (tag : Tag) :
    (c.openForeign vocabulary tag).mode = c.mode ∧ (c.openForeign vocabulary tag).returnMode = c.returnMode := by
  simp only [Construction.openForeign, insertClosed_eq, insertOpen_eq_push]
  cases tag.isSelfClosing <;> exact ⟨rfl, rfl⟩

theorem Orderly.openForeign (h : c.Orderly σ) (hmode : c.mode ≠ .text)
    (hcurrent : ∃ e ∈ c.opened.head?, e.name.vocabulary ≠ .html) {vocabulary : Vocabulary} (hforeign : vocabulary ≠ .html)
    (hfits : σ.FitsTag tag) (hne : tag.label ≠ "body") :
    Comes σ bound (.opening tag) (c.openForeign vocabulary tag, .done) := by
  obtain ⟨modes, mode, hawaits, h⟩ := h
  obtain ⟨i, hready⟩ := h.openForeignInside hcurrent hforeign hfits hne
  rw [setMode_openForeign] at hready
  obtain ⟨hsame, hreturn⟩ := same_openForeign c vocabulary tag
  exact .made rfl ⟨i, modes, mode, hawaits.map hmode hsame hreturn, hready⟩ (by rwa [hsame])

theorem Orderly.inForeign (h : c.Orderly σ) (hmode : c.mode ≠ .text) (hforeign : c.isForeign token)
    (hlawful : σ.Lawful) (hfits : σ.FitsToken token) : Comes σ c.rank token (c.inForeign token) := by
  have hcurrent := exists_of_isForeign hforeign
  have hstay : ∀ {f : Construction}, (∀ modes mode, Ready σ modes mode { c with mode := mode } →
      Ready σ modes mode { f with mode := mode }) → f.mode = c.mode → f.returnMode = c.returnMode →
        (∀ tag, token ≠ .opening tag) → σ.after token = σ → Comes σ c.rank token (f, .done) :=
    fun hready hsame hreturn hopening hafter => .passed (fun tag htag => absurd htag (hopening tag))
      (by rw [hafter]; exact h.map hmode hready hsame hreturn) (by rwa [hsame])
  cases token with
  | opening tag =>
    rw [Construction.inForeign]
    split_ifs with hleaves
    · exact h.leaveForeign hmode hlawful hfits
    · obtain ⟨e, he, hname⟩ := hcurrent
      refine h.openForeign hmode ⟨e, he, hname⟩ ?_ hfits fun hbody => hleaves ?_
      · rw [Construction.current?, Option.mem_def.mp he]
        exact hname
      · simp [Tag.leavesForeign, hbody]
  | closing tag =>
    rw [Construction.inForeign]
    split_ifs
    · exact h.leaveForeign hmode hlawful hfits
    · split
      · next outer hclosed =>
        exact .passed (by simp) (h.map hmode (fun modes mode hready => (hready.closeForeign hcurrent hclosed).congr
          rfl rfl rfl rfl rfl rfl) rfl rfl) hmode
      · exact h.inMode hmode hlawful hfits
  | comment text =>
    rw [Construction.inForeign, insertComment_eq]
    refine hstay (fun modes mode hready => ?_) rfl rfl (by simp) rfl
    have hinserted := hready.insertComment hfits
    rwa [insertComment_eq] at hinserted
  | text chars =>
    rw [Construction.inForeign, insertText_eq]
    refine hstay (fun modes mode hready => ?_) rfl rfl (by simp) rfl
    have hinserted := hready.insertText hlawful chars
    rwa [insertText_eq] at hinserted
  | null =>
    rw [Construction.inForeign, insertText_eq]
    refine hstay (fun modes mode hready => ?_) rfl rfl (by simp) rfl
    have hinserted := hready.insertText hlawful ['\ufffd']
    rwa [insertText_eq] at hinserted
  | doctype => exact hstay (fun _ _ hready => hready) rfl rfl (by simp) rfl

/-! ### Handling again and again -/

theorem Orderly.inside (h : c.Orderly σ) (name : Name) : c.Orderly (σ.inside name) := by
  obtain ⟨modes, mode, hawaits, hready⟩ := h
  exact ⟨modes, mode, hawaits, hready.inside name⟩

/-- A token that does not have to be handled to the end may be dropped. -/
theorem Orderly.dropToken (h : c.Orderly σ) (hmode : c.mode ≠ .text) (hnot : ¬ Insists σ token) :
    Comes σ bound token (c, .done) := by
  cases token with
  | opening tag =>
    refine .passed (fun tag' htag => ?_) (h.inside _) hmode
    cases htag
    by_contra hdrop
    simp only [not_or, Bool.not_eq_true, Nat.not_lt, Nat.le_zero] at hdrop
    exact hnot hdrop
  | closing tag => exact .passed (by simp) (by rw [Ready.after_closing hnot]; exact h) hmode
  | _ => exact .passed (by simp) h hmode

theorem Comes.of_text {chars chars' : List Char} {r : Construction × Next} (h : Comes σ bound (.text chars) r) :
    Comes σ bound (.text chars') r := by
  cases h with
  | made htoken => cases htoken
  | passed _ h hmode => exact .passed (by simp) h hmode
  | plaintext htoken => cases htoken
  | text htoken => cases htoken
  | again hnext h hmode =>
    rcases hnext with rfl | ⟨chars, next, -, rfl⟩
    · exact .again (.inr ⟨_, _, rfl, rfl⟩) h hmode fun hinsists => absurd hinsists id
    · exact .again (.inr ⟨_, _, rfl, rfl⟩) h hmode fun hinsists => absurd hinsists id

/-- What follows when a token has been handled. -/
def outcome (r : Construction × Option ReadingMode) : Construction × Next := (r.1, r.2.elim .done .read)

theorem Orderly.handle (hlawful : σ.Lawful) (fuel : Nat) (h : c.Orderly σ) (hmode : c.mode ≠ .text)
    (hfits : σ.FitsToken token) (hfuel : Insists σ token → c.rank < fuel) :
    Comes σ bound token (outcome (c.handle fuel token)) := by
  induction fuel generalizing c token with
  | zero => exact h.dropToken hmode fun hinsists => absurd (hfuel hinsists) (Nat.not_lt_zero _)
  | succ fuel ih =>
    have hstep : Comes σ c.rank token (if c.isForeign token then c.inForeign token else c.inMode token) := by
      split_ifs with hforeign
      · exact h.inForeign hmode hforeign hlawful hfits
      · exact h.inMode hmode hlawful hfits
    rw [Construction.handle]
    cases hr : (if c.isForeign token then c.inForeign token else c.inMode token) with
    | mk c' next =>
    rw [hr] at hstep
    cases hstep with
    | made htoken h hmode => exact .made htoken h hmode
    | passed htoken h hmode => exact .passed htoken h hmode
    | plaintext htoken hlabel h hmode => exact .plaintext htoken hlabel h hmode
    | text htoken hlabel hreading h hmode => exact .text htoken hlabel hreading h hmode
    | again hnext h hmode' hrank =>
      rcases hnext with rfl | ⟨chars, chars', rfl, rfl⟩
      · exact ih h hmode' hfits fun hinsists =>
          (hrank hinsists).trans_le (Nat.lt_succ_iff.mp (hfuel hinsists))
      · exact (ih h hmode' (show σ.FitsToken (.text chars') from trivial) fun hinsists => absurd hinsists id).of_text

theorem rank_lt_handlingBound (c : Construction) : c.rank < c.handlingBound := by
  have hcount : c.opened.countP (fun e => isHtmlNamed "table" e.name) ≤
      c.opened.countP fun e => isTablePart e.name :=
    List.countP_mono_left fun e _ hnamed => by rw [eq_html_of_isHtmlNamed hnamed]; decide
  rw [rank, handlingBound]
  split <;> omega

theorem Orderly.feed (h : c.Orderly σ) (hlawful : σ.Lawful) (hmode : c.mode ≠ .text) (hfits : σ.FitsToken token) :
    Comes σ bound token (outcome (c.feed token)) := by
  have hread : ({ c with skipsNewline := false } : Construction).Orderly σ := h.congr rfl rfl rfl rfl rfl rfl rfl
  have hhandle : ∀ token, σ.FitsToken token → Comes σ bound token
      (outcome (({ c with skipsNewline := false } : Construction).handle
        ({ c with skipsNewline := false } : Construction).handlingBound token)) := fun token hfits =>
    hread.handle hlawful _ hmode hfits fun _ => rank_lt_handlingBound _
  cases token with
  | doctype => exact .passed (by simp) hread hmode
  | text chars =>
    simp only [Construction.feed]
    split
    · exact .passed (by simp) hread hmode
    · exact (hhandle (.text _) trivial).of_text
  | _ => exact hhandle _ hfits

/-! ### Text -/

/-- In the mode of text an element is open that holds it. -/
theorem Orderly.of_text (h : c.Orderly σ) (hmode : c.mode = .text) :
    ∃ modes, Ready σ modes c.returnMode { c with mode := c.returnMode } ∧
      ∃ e outer, c.opened = e :: outer ∧ isOrdinary e.name ∧ e.name.vocabulary = .html := by
  obtain ⟨modes, mode, hawaits, h⟩ := h
  cases hawaits with
  | settled => exact absurd hmode (show c.Ready σ modes c.mode from h).mode_ne_text
  | text _ hholder =>
    obtain ⟨e, he, hname⟩ := hholder
    obtain ⟨outer, heq⟩ := List.head?_eq_some_iff.mp (Option.mem_def.mp he)
    exact ⟨modes, h, e, outer, heq, hname⟩
  | tableText htext => exact absurd (hmode.symm.trans htext) (by decide)
  | after hafter => rcases hafter with hafter | hafter <;> exact absurd (hmode.symm.trans hafter) (by decide)

theorem handle_of_text (h : c.Orderly σ) (hmode : c.mode = .text) (fuel : Nat) (token : Token) :
    c.handle (fuel + 1) token = ((c.inText token).1, none) := by
  obtain ⟨modes, -, e, outer, heq, -, hhtml⟩ := h.of_text hmode
  have hforeign : c.isForeign token = false := by simp [isForeign, current?, heq, hhtml]
  rw [Construction.handle, hforeign, if_neg Bool.false_ne_true, inMode, hmode]
  cases token <;> rfl

theorem Orderly.insertText (h : c.Orderly σ) (hmode : c.mode = .text) (hlawful : σ.Lawful) (chars : List Char) :
    (c.insertText chars).Orderly σ := by
  obtain ⟨modes, hready, e, outer, heq, hordinary, hhtml⟩ := h.of_text hmode
  have hinserted := hready.insertText hlawful chars
  rw [insertText_eq] at hinserted ⊢
  exact ⟨modes, c.returnMode, .text hmode ⟨e, by simp [heq], hordinary, hhtml⟩, hinserted⟩

theorem Orderly.closeText (h : c.Orderly σ) (hmode : c.mode = .text) :
    ∃ modes mode, Ready σ modes mode { c.pop with mode := c.returnMode } := by
  obtain ⟨modes, hready, e, outer, heq, hordinary, hhtml⟩ := h.of_text hmode
  refine ⟨modes, c.returnMode, (hready.pop fun x hx => ?_).congr rfl rfl rfl rfl rfl rfl⟩
  obtain rfl : e = x := by simpa [heq] using hx
  exact hordinary

/-- The end tag of an element that holds text. -/
theorem Orderly.feed_closing (h : c.Orderly σ) (hmode : c.mode = .text) (tag : Tag) :
    ∃ modes mode, (c.feed (.closing tag)).1.Ready σ modes mode ∧ (c.feed (.closing tag)).2 = none := by
  have hread : ({ c with skipsNewline := false } : Construction).Orderly σ := h.congr rfl rfl rfl rfl rfl rfl rfl
  obtain ⟨modes, mode, hready⟩ := hread.closeText hmode
  refine ⟨modes, mode, ?_⟩
  rw [Construction.feed, handlingBound, handle_of_text hread hmode]
  · exact ⟨hready, rfl⟩
  all_goals simp

/-- Everything else is put into it or dropped. -/
theorem Orderly.feed_text (h : c.Orderly σ) (hlawful : σ.Lawful) (hmode : c.mode = .text)
    (htoken : ∀ tag, token ≠ .closing tag) :
    (c.feed token).1.Orderly σ ∧ (c.feed token).1.mode = .text ∧ (c.feed token).2 = none := by
  have hread : ({ c with skipsNewline := false } : Construction).Orderly σ := h.congr rfl rfl rfl rfl rfl rfl rfl
  have hinserted : ∀ chars, (({ c with skipsNewline := false } : Construction).insertText chars).mode = .text :=
    fun chars => by rw [insertText_eq]; exact hmode
  cases token with
  | text chars =>
    simp only [Construction.feed]
    split
    · exact ⟨hread, hmode, rfl⟩
    · rw [handlingBound, handle_of_text hread hmode]
      exact ⟨hread.insertText hmode hlawful _, hinserted _, rfl⟩
  | closing tag => exact absurd rfl (htoken tag)
  | doctype => exact ⟨hread, hmode, rfl⟩
  | _ =>
    rw [Construction.feed, handlingBound, handle_of_text hread hmode]
    · exact ⟨hread, hmode, rfl⟩
    all_goals simp

/-! ### Any token -/

theorem Watches.orderly {attributes : List Attribute} (h : c.Watches σ attributes) : c.Orderly σ := by
  obtain ⟨i, modes, mode, hawaits, hready⟩ := h
  exact ⟨modes, mode, hawaits, hready.unwatch⟩

theorem Comes.orderly {c' : Construction} {next? : Option ReadingMode}
    (h : Comes σ bound token (outcome (c', next?))) : c'.Orderly (σ.after token) := by
  cases next? with
  | none =>
    cases h with
    | made _ h _ => exact h.orderly
    | passed _ h _ => exact h
  | some reading =>
    cases h with
    | plaintext _ _ h _ => exact h.orderly
    | text _ _ _ h _ => exact h.orderly

/-- Whatever is fed, the construction stays in order. -/
theorem Orderly.feed_any (h : c.Orderly σ) (hlawful : σ.Lawful) (hfits : σ.FitsToken token) :
    ∃ depth, (c.feed token).1.Orderly { σ with depth := depth } := by
  have hafter : ∃ depth, σ.after token = { σ with depth := depth } := by
    cases token with
    | opening tag => exact ⟨_, rfl⟩
    | closing tag =>
      rw [Setting.after]
      split_ifs
      · exact ⟨_, rfl⟩
      · exact ⟨_, rfl⟩
    | _ => exact ⟨_, rfl⟩
  by_cases hmode : c.mode = .text
  · by_cases htoken : ∃ tag, token = .closing tag
    · obtain ⟨tag, rfl⟩ := htoken
      obtain ⟨modes, mode, hready, -⟩ := h.feed_closing hmode tag
      exact ⟨σ.depth, hready.orderly⟩
    · exact ⟨σ.depth, (h.feed_text hlawful hmode fun tag htag => htoken ⟨tag, htag⟩).1⟩
  · obtain ⟨depth, hdepth⟩ := hafter
    have hcomes : Comes σ 0 token (outcome (c.feed token)) := h.feed hlawful hmode hfits
    exact ⟨depth, hdepth ▸ hcomes.orderly⟩

end Construction
end Html
end Markup
end CrossRef
