import CrossRef.Proofs.Ready.Reading
import CrossRef.Proofs.Token.Scanned

/-!
Reading what the writer writes, piece by piece. Whatever a construction makes of a piece, it is in order after
it, and it reads the next one from its beginning.
-/
namespace CrossRef
namespace Markup
namespace Html

open Dom Text

variable {cs rest : List Char} {token : Token} {mode mode' : ReadingMode} {inForeign : Bool} {name : Name}
  {attributes : List Attribute}

/-! ### Lengths -/

theorem normalizeLines_ne_nil (h : cs ≠ []) : normalizeLines cs ≠ [] := by
  fun_cases normalizeLines cs <;> simp_all

theorem scan_length_lt (hscan : scan mode inForeign cs = ⟨some token, mode', rest⟩) (hne : cs ≠ []) :
    rest.length < cs.length := by
  obtain ⟨c, cs, rfl⟩ := List.exists_cons_of_ne_nil hne
  have hle := (scan_suffix mode inForeign c cs).length_le
  rw [hscan] at hle
  exact Nat.lt_succ_of_le hle

theorem startTag_ne_nil (name : Name) (attributes : List Attribute) (rest : List Char) :
    (startTag name attributes).toList ++ rest ≠ [] := by
  simp [toList_startTag]

theorem endTag_ne_nil (name : Name) (rest : List Char) : (endTag name).toList ++ rest ≠ [] := by
  simp [toList_endTag]

/-- How many templates more are open inside of an element than outside. -/
def templateStep (name : Name) : Nat := if isTemplate name then 1 else 0

theorem Setting.lawful_of_all {σ : Setting} (h : ∀ content, σ.fits content) : σ.Lawful :=
  ⟨fun _ => h _, fun _ _ _ => h _, fun _ _ _ => h _, fun _ _ _ _ _ => h _⟩

theorem Setting.fitsToken_of_all {σ : Setting} (h : ∀ content, σ.fits content) (token : Token) :
    σ.FitsToken token := by
  cases token with
  | opening tag => exact fun _ => h _
  | comment text => exact h _
  | _ => trivial

namespace Construction

variable {σ : Setting} {c c' c'' : Construction} {mode'' : ReadingMode} {cs' cs'' : List Char}
  {depth depth' depth'' : Nat}

/-! ### Steps of a reading -/

/-- Reading on leads from one state, mode and text to others, in at most one step for each character that is
read. -/
def ReadsOn (c : Construction) (mode : ReadingMode) (cs : List Char) (c' : Construction) (mode' : ReadingMode)
    (cs' : List Char) : Prop :=
  ∃ n, n + cs'.length ≤ cs.length ∧ ∀ fuel, readAll (n + fuel) c mode cs = readAll fuel c' mode' cs'

theorem ReadsOn.refl (c : Construction) (mode : ReadingMode) (cs : List Char) : ReadsOn c mode cs c mode cs :=
  ⟨0, by simp, fun fuel => by rw [Nat.zero_add]⟩

theorem ReadsOn.trans (h : ReadsOn c mode cs c' mode' cs') (h' : ReadsOn c' mode' cs' c'' mode'' cs'') :
    ReadsOn c mode cs c'' mode'' cs'' := by
  obtain ⟨n, hn, hread⟩ := h
  obtain ⟨n', hn', hread'⟩ := h'
  exact ⟨n + n', by omega, fun fuel => by rw [Nat.add_assoc, hread, hread']⟩

/-- One token is read. -/
theorem readsOn_token (hscan : scan mode c.isInForeign cs = ⟨some token, mode', rest⟩) (hne : cs ≠ []) :
    ReadsOn c mode cs (c.feed token).1 ((c.feed token).2.getD mode') rest := by
  refine ⟨1, by have := scan_length_lt hscan hne; omega, fun fuel => ?_⟩
  obtain ⟨x, chars, rfl⟩ := List.exists_cons_of_ne_nil hne
  rw [Nat.add_comm, readAll, hscan]

/-! ### Pieces -/

/-- Any construction that is in order in front of a text reads on to the other text and is in order there. The
depths bound how many templates are open. -/
def Proceeds (σ : Setting) (depth : Nat) (cs : List Char) (depth' : Nat) (cs' : List Char) : Prop :=
  ∀ c : Construction, c.Orderly { σ with depth := depth } → c.mode ≠ .text →
    ∃ c' : Construction, c'.Orderly { σ with depth := depth' } ∧ c'.mode ≠ .text ∧
      ReadsOn c .markup cs c' .markup cs'

theorem Proceeds.refl (σ : Setting) (depth : Nat) (cs : List Char) : Proceeds σ depth cs depth cs :=
  fun c h hmode => ⟨c, h, hmode, .refl c .markup cs⟩

theorem Proceeds.trans (h : Proceeds σ depth cs depth' cs') (h' : Proceeds σ depth' cs' depth'' cs'') :
    Proceeds σ depth cs depth'' cs'' := by
  intro c hc hmode
  obtain ⟨c', hc', hmode', hread⟩ := h c hc hmode
  obtain ⟨c'', hc'', hmode'', hread'⟩ := h' c' hc' hmode'
  exact ⟨c'', hc'', hmode'', hread.trans hread'⟩

/-- What a token comes to that was read as markup. -/
theorem Orderly.reads (hall : ∀ content, σ.fits content) (h : c.Orderly { σ with depth := depth })
    (hmode : c.mode ≠ .text) (hscan : scanMarkup c.isInForeign cs = ⟨some token, .markup, rest⟩) (hne : cs ≠ []) :
    ∃ (c' : Construction) (reading? : Option ReadingMode),
      Comes { σ with depth := depth } 0 token (outcome (c', reading?)) ∧
        ReadsOn c .markup cs c' (reading?.getD .markup) rest :=
  ⟨(c.feed token).1, (c.feed token).2,
    h.feed (Setting.lawful_of_all hall) hmode (Setting.fitsToken_of_all hall token),
    readsOn_token hscan hne⟩

/-- A token that neither begins plain text nor text in an element. -/
theorem Comes.settled {reading? : Option ReadingMode} (h : Comes σ 0 token (outcome (c, reading?)))
    (htag : ∀ tag, token = .opening tag → holdsText tag.label = false ∧ tag.label ≠ "plaintext") :
    reading? = none ∧ c.mode ≠ .text := by
  cases reading? with
  | none =>
    refine ⟨rfl, ?_⟩
    cases h with
    | made _ _ hmode => exact hmode
    | passed _ _ hmode => exact hmode
  | some reading =>
    cases h with
    | plaintext htoken hlabel => exact absurd hlabel (htag _ htoken).2
    | text htoken hlabel => exact absurd hlabel (by simp [(htag _ htoken).1])

theorem proceeds_token (hall : ∀ content, σ.fits content)
    (hscan : ∀ inForeign, scanMarkup inForeign cs = ⟨some token, .markup, rest⟩) (hne : cs ≠ [])
    (htag : ∀ tag, token = .opening tag → holdsText tag.label = false ∧ tag.label ≠ "plaintext")
    (hafter : Setting.after { σ with depth := depth } token = { σ with depth := depth' }) :
    Proceeds σ depth cs depth' rest := by
  intro c hc hmode
  obtain ⟨c', reading?, hcomes, hread⟩ := hc.reads hall hmode (hscan c.isInForeign) hne
  obtain ⟨rfl, hmode'⟩ := hcomes.settled htag
  exact ⟨c', hafter ▸ hcomes.orderly, hmode', hread⟩

theorem proceeds_run (hall : ∀ content, σ.fits content) (depth : Nat) (h : opensNothing cs) (rest : List Char) :
    Proceeds σ depth (cs ++ '<' :: rest) depth ('<' :: rest) := by
  induction hn : cs.length using Nat.strong_induction_on generalizing cs with
  | _ n ih =>
  subst hn
  by_cases hempty : cs = []
  · rw [hempty]
    exact .refl σ depth ('<' :: rest)
  · intro c hc hmode
    obtain ⟨token, left, hscan, htoken, hleft, hlength⟩ := scanMarkup_text hempty h c.isInForeign rest
    obtain ⟨c', reading?, hcomes, hread⟩ := hc.reads hall hmode hscan (by simp [hempty])
    have hsame : Setting.after { σ with depth := depth } token = { σ with depth := depth } := by
      rcases htoken with rfl | ⟨chars, rfl⟩ <;> rfl
    obtain ⟨rfl, hmode'⟩ := hcomes.settled fun tag htag => by
      rcases htoken with rfl | ⟨chars, rfl⟩ <;> cases htag
    obtain ⟨c'', hc'', hmode'', hread'⟩ := ih left.length hlength hleft rfl c' (hsame ▸ hcomes.orderly) hmode'
    exact ⟨c'', hc'', hmode'', hread.trans hread'⟩

/-- Text in front of a tag. -/
theorem proceeds_text (hall : ∀ content, σ.fits content) (depth : Nat) (h : opensNothing cs) (rest : List Char) :
    Proceeds σ depth (normalizeLines (cs ++ '<' :: rest)) depth (normalizeLines ('<' :: rest)) := by
  rw [normalizeLines_append_cons (by decide) (by decide), normalizeLines_cons (by decide)]
  exact proceeds_run hall depth (opensNothing_normalizeLines h) (normalizeLines rest)

theorem after_readTag (σ : Setting) (depth : Nat) (name : Name) (attributes : List Attribute) :
    Setting.after { σ with depth := depth } (.opening (readTag name attributes)) =
      { σ with depth := depth + templateStep name } := by
  have htemplate : isTemplate (.html (asciiLowercase name.label)) = isTemplate name := by
    simp [isTemplate, asciiLowercase_asciiLowercase]
  simp [Setting.after, Setting.inside, readTag, htemplate, templateStep]

/-- A start tag after which markup is read. -/
theorem proceeds_startTag (hall : ∀ content, σ.fits content) (depth : Nat) (h : LegibleTag name attributes)
    (hholds : holdsText (asciiLowercase name.label) = false) (hplain : asciiLowercase name.label ≠ "plaintext")
    (rest : List Char) :
    Proceeds σ depth (normalizeLines ((startTag name attributes).toList ++ rest)) (depth + templateStep name)
      (normalizeLines rest) := by
  refine proceeds_token hall (fun inForeign => scanMarkup_startTag h inForeign rest)
    (normalizeLines_ne_nil (startTag_ne_nil name attributes rest)) ?_ (after_readTag σ depth name attributes)
  intro tag htag
  obtain rfl := Token.opening.inj htag
  exact ⟨hholds, hplain⟩

theorem proceeds_endTag (hall : ∀ content, σ.fits content) (depth : Nat) (h : isTagName name.label.toList)
    (rest : List Char) :
    Proceeds σ depth (normalizeLines ((endTag name).toList ++ rest)) (depth - templateStep name)
      (normalizeLines rest) := by
  refine proceeds_token hall (fun inForeign => scanMarkup_endTag h inForeign rest)
    (normalizeLines_ne_nil (endTag_ne_nil name rest)) (by simp) ?_
  simp only [Setting.after, templateStep, isTemplate, decide_eq_true_eq]
  split_ifs <;> rfl

theorem proceeds_comment (hall : ∀ content, σ.fits content) (depth : Nat) {text : String}
    (h : Legible (.comment text)) (rest : List Char) :
    Proceeds σ depth (normalizeLines (("<!--" ++ text ++ "-->").toList ++ rest)) depth (normalizeLines rest) :=
  proceeds_token hall (fun inForeign => scanMarkup_comment h inForeign rest)
    (normalizeLines_ne_nil (by simp)) (by simp) rfl

theorem proceeds_doctype (hall : ∀ content, σ.fits content) (depth : Nat) (rest : List Char) :
    Proceeds σ depth (normalizeLines ("<!DOCTYPE html>".toList ++ rest)) depth (normalizeLines rest) := by
  have hlines : normalizeLines ("<!DOCTYPE html>".toList ++ rest) = "<!DOCTYPE html>".toList ++ normalizeLines rest := by
    rw [show "<!DOCTYPE html>".toList = "<!DOCTYPE html".toList ++ ['>'] by decide, List.append_assoc,
      List.singleton_append, normalizeLines_name (by decide) (by decide) (by decide), List.append_assoc,
      List.singleton_append]
  rw [hlines]
  exact proceeds_token hall (fun inForeign => by cases inForeign <;> rfl) (by simp) (by simp) rfl

/-! ### Elements that hold text -/

theorem Orderly.proceeds_closing (h : c.Orderly { σ with depth := depth }) (hmode : c.mode = .text)
    {reading : ReadingMode} (hreading : reading.EndsWith (asciiLowercase name.label))
    (hname : isTagName name.label.toList) (rest : List Char) :
    ∃ c' : Construction, c'.Orderly { σ with depth := depth } ∧ c'.mode ≠ .text ∧
      ReadsOn c reading (normalizeLines ((endTag name).toList ++ rest)) c' .markup (normalizeLines rest) := by
  obtain ⟨modes, mode, hready, hnone⟩ := h.feed_closing hmode (.bare (asciiLowercase name.label))
  have hscan := scanMarkup_endTag hname false rest
  rw [normalizeLines_endTag hname] at hscan ⊢
  rw [← scan_endTag hreading (by simp [asciiLowercase]) c.isInForeign] at hscan
  have hread := readsOn_token hscan (by simp)
  rw [hnone] at hread
  exact ⟨_, hready.orderly, hready.mode_ne_text, hread⟩

/-- The text in an element that holds it, and the end tag. -/
theorem Orderly.proceeds_held (hall : ∀ content, σ.fits content) (h : c.Orderly { σ with depth := depth })
    (hmode : c.mode = .text) {reading : ReadingMode} (hreading : reading.EndsWith (asciiLowercase name.label))
    (hname : isTagName name.label.toList) (hcs : opensNothing cs) (rest : List Char) :
    ∃ c' : Construction, c'.Orderly { σ with depth := depth } ∧ c'.mode ≠ .text ∧
      ReadsOn c reading (normalizeLines (cs ++ ((endTag name).toList ++ rest))) c' .markup (normalizeLines rest) := by
  rw [normalizeLines_append (by simp [endTag]) cs]
  by_cases hempty : normalizeLines cs = []
  · rw [hempty]
    exact h.proceeds_closing hmode hreading hname rest
  · have hlabel : name.label.toList.map asciiLower = (asciiLowercase name.label).toList := by simp [asciiLowercase]
    obtain ⟨shown, hscan⟩ := scan_text hreading hlabel hempty
      (opensNothing_normalizeLines hcs) c.isInForeign (normalizeLines rest)
    rw [← normalizeLines_endTag hname] at hscan
    have hread := readsOn_token hscan (by simp [hempty])
    obtain ⟨hfed, hfedMode, hnone⟩ := h.feed_text (Setting.lawful_of_all hall) hmode
      (show ∀ tag, Token.text shown ≠ .closing tag by simp)
    rw [hnone] at hread
    obtain ⟨c', hc', hmode', hread'⟩ := hfed.proceeds_closing hfedMode hreading hname rest
    exact ⟨c', hc', hmode', hread.trans hread'⟩

/-- An element that holds text is read as one, or as an element like others. -/
theorem proceeds_holder (hall : ∀ content, σ.fits content) (depth : Nat) (h : LegibleTag name attributes)
    (hholds : holdsText (asciiLowercase name.label)) (hcs : opensNothing cs) (rest : List Char) :
    Proceeds σ depth (normalizeLines ((startTag name attributes).toList ++ (cs ++ ((endTag name).toList ++ rest))))
      depth (normalizeLines rest) := by
  have htemplate : templateStep name = 0 := by
    refine if_neg fun htemplate => ?_
    rw [of_decide_eq_true htemplate] at hholds
    exact absurd hholds (by decide)
  intro c hc hmode
  obtain ⟨c', reading?, hcomes, hread⟩ := hc.reads hall hmode
    (scanMarkup_startTag h c.isInForeign (cs ++ ((endTag name).toList ++ rest)))
    (normalizeLines_ne_nil (startTag_ne_nil name attributes _))
  have horderly := hcomes.orderly
  rw [after_readTag, htemplate, Nat.add_zero] at horderly
  have hmarkup : Proceeds σ depth (normalizeLines (cs ++ ((endTag name).toList ++ rest))) depth (normalizeLines rest) := by
    have hend := proceeds_endTag hall depth h.tagName rest
    rw [htemplate, Nat.sub_zero, toList_endTag] at hend
    rw [toList_endTag]
    exact (proceeds_text hall depth hcs _).trans hend
  have hon : ∃ c'' : Construction, c''.Orderly { σ with depth := depth } ∧ c''.mode ≠ .text ∧
      ReadsOn c' (reading?.getD .markup) (normalizeLines (cs ++ ((endTag name).toList ++ rest))) c'' .markup
        (normalizeLines rest) := by
    cases reading? with
    | none =>
      cases hcomes with
      | made _ _ hmode' => exact hmarkup c' horderly hmode'
      | passed _ _ hmode' => exact hmarkup c' horderly hmode'
    | some reading =>
      cases hcomes with
      | plaintext htoken hlabel =>
        obtain rfl := Token.opening.inj htoken
        rw [show asciiLowercase name.label = "plaintext" from hlabel] at hholds
        exact absurd hholds (by decide)
      | text htoken _ hreading _ hmode' =>
        obtain rfl := Token.opening.inj htoken
        exact horderly.proceeds_held hall hmode' hreading h.tagName hcs rest
  obtain ⟨c'', hc'', hmode'', hread'⟩ := hon
  exact ⟨c'', hc'', hmode'', hread.trans hread'⟩

/-- The start tag of an element that has a place everywhere makes an element, outside of templates. -/
theorem Orderly.watches_startTag (hall : ∀ content, σ.fits content) (h : c.Orderly { σ with depth := 0 })
    (hmode : c.mode ≠ .text) (hlegible : LegibleTag name attributes)
    (hdrop : isDroppable (asciiLowercase name.label) = false) (rest : List Char) :
    ∃ (c' : Construction) (mode : ReadingMode) (vocabulary : Vocabulary),
      c'.Watches { σ with depth := templateStep name } ((readTag name attributes).attributesIn vocabulary) ∧
        ReadsOn c .markup (normalizeLines ((startTag name attributes).toList ++ rest)) c' mode
          (normalizeLines rest) := by
  obtain ⟨c', reading?, hcomes, hread⟩ := h.reads hall hmode (scanMarkup_startTag hlegible c.isInForeign rest)
    (normalizeLines_ne_nil (startTag_ne_nil name attributes rest))
  have hafter := after_readTag σ 0 name attributes
  rw [Nat.zero_add] at hafter
  cases reading? with
  | none =>
    cases hcomes with
    | @made _ _ vocabulary htoken hwatches =>
      obtain rfl := Token.opening.inj htoken
      exact ⟨c', _, vocabulary, hafter ▸ hwatches, hread⟩
    | passed htoken => simp [readTag, hdrop] at htoken
  | some reading =>
    cases hcomes with
    | plaintext htoken _ hwatches =>
      obtain rfl := Token.opening.inj htoken
      exact ⟨c', _, .html, hafter ▸ hwatches, hread⟩
    | text htoken _ _ hwatches =>
      obtain rfl := Token.opening.inj htoken
      exact ⟨c', _, .html, hafter ▸ hwatches, hread⟩

end Construction
end Html
end Markup
end CrossRef
