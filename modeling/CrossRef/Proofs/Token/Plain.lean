import CrossRef.Markup.Html.Token.Scan
import Mathlib.Data.List.TakeWhile

/-!
Plain text: text that is read as it is written. What comes after it does not matter as long as it starts
with a character that belongs to no character reference.
-/
namespace CrossRef
namespace Markup
namespace Html

open Text

variable {inValue : Bool} {c stop : Char} {cs rest more : List Char}

/-- Does `<` with this text after it open a tag, a comment or a declaration? -/
def opensMarkup : List Char → Bool
  | c :: _ => isAsciiLetter c || c = '/' || c = '!' || c = '?'
  | [] => false

/-- Is a character before the rest of a text, or of a value in double quotes, read as something else than
itself? -/
def isMarkup (inValue : Bool) (c : Char) (rest : List Char) : Bool :=
  c = '\r' || c = '\x00' || (c = '&' && (reference? inValue rest).isSome) ||
    if inValue then c = '"' else c = '<' && opensMarkup rest

/-- Is every character of a text, or of a value in double quotes, read as itself? -/
def isPlain (inValue : Bool) : List Char → Bool
  | [] => true
  | c :: rest => !isMarkup inValue c rest && isPlain inValue rest

/-! ### What may follow -/

/-- A character that is no part of a character reference and makes no markup of `<` before it. -/
def isStop (c : Char) : Bool :=
  !isAsciiAlphanumeric c && !([';', '=', '#', '/', '!', '?'].contains c)

theorem takeWhile_append_stop {α : Type} {p : α → Bool} {stop : α} (h : p stop = false)
    (l more : List α) : (l ++ stop :: more).takeWhile p = l.takeWhile p := by
  induction l with
  | nil => simp [h]
  | cons a rest ih => rw [List.cons_append, List.takeWhile_cons, List.takeWhile_cons, ih]

theorem drop_length_takeWhile {α : Type} (p : α → Bool) (l : List α) :
    l.drop (l.takeWhile p).length = l.dropWhile p := by
  induction l with
  | nil => rfl
  | cons a l ih => by_cases h : p a <;> simp [h, ih]

theorem head?_drop_append_stop {α : Type} {k : Nat} {l : List α} (hk : k ≤ l.length) (stop : α)
    (more : List α) : ((l ++ stop :: more).drop k).head? = ((l.drop k).head?).or (some stop) := by
  rw [List.drop_append_of_le_length hk]
  cases l.drop k <;> rfl

theorem or_stop_eq_some_iff {c stop : Char} (hne : stop ≠ c) (next : Option Char) :
    next.or (some stop) = some c ↔ next = some c := by
  cases next <;> simp [hne]

theorem not_alphanumeric_of_isStop (hstop : isStop stop) : isAsciiAlphanumeric stop = false := by
  simp only [isStop, Bool.and_eq_true, Bool.not_eq_true'] at hstop
  exact hstop.1

theorem ne_of_isStop {c : Char} (hstop : isStop stop) (hc : c ∈ [';', '=', '#', '/', '!', '?']) :
    stop ≠ c := by
  rintro rfl
  simp only [isStop, Bool.and_eq_true, Bool.not_eq_true'] at hstop
  exact absurd hc (by simpa using hstop.2)

theorem decimalDigit?_of_isStop (hstop : isStop stop) : decimalDigit? stop = none := by
  have h := not_alphanumeric_of_isStop hstop
  simp only [isAsciiAlphanumeric, isAsciiDigit, Bool.or_eq_false_iff] at h
  rw [decimalDigit?, if_neg (by simpa using h.2)]

theorem hexDigit?_of_isStop (hstop : isStop stop) : hexDigit? stop = none := by
  have h := not_alphanumeric_of_isStop hstop
  simp only [isAsciiAlphanumeric, isAsciiLetter, isAsciiDigit, Bool.or_eq_false_iff] at h
  obtain ⟨⟨hsmall, hcapital⟩, hdigit⟩ := h
  have hsmall' : ¬ ('a' ≤ stop ∧ stop ≤ 'f') := fun hin => by
    simp [hin.1, Char.le_trans hin.2 (by decide : 'f' ≤ 'z')] at hsmall
  have hcapital' : ¬ ('A' ≤ stop ∧ stop ≤ 'F') := fun hin => by
    simp [hin.1, Char.le_trans hin.2 (by decide : 'F' ≤ 'Z')] at hcapital
  rw [hexDigit?, if_neg (by simpa using hdigit), if_neg hsmall', if_neg hcapital']

theorem numericDigits_append_stop {base before : Nat} {digit? : Char → Option Nat}
    (hdigit : digit? stop = none) (hstop : stop ≠ ';') (cs more : List Char) :
    numericDigits base digit? before (cs ++ stop :: more) = numericDigits base digit? before cs := by
  have hrun : ((cs ++ stop :: more).takeWhile fun c => (digit? c).isSome) =
      cs.takeWhile fun c => (digit? c).isSome := takeWhile_append_stop (by simp [hdigit]) cs more
  have hle : (cs.takeWhile fun c => (digit? c).isSome).length ≤ cs.length :=
    (List.takeWhile_prefix _).length_le
  simp only [numericDigits, hrun, head?_drop_append_stop hle, or_stop_eq_some_iff hstop]

theorem barePart?_length {run : List Char} {n : Nat} {reading : Reading}
    (h : barePart? run n = some reading) : reading.length ≤ n := by
  induction n with
  | zero => simp [barePart?] at h
  | succ n ih =>
    rw [barePart?] at h
    split at h
    · obtain rfl := Option.some_inj.mp h
      exact Nat.le_refl _
    · exact Nat.le_succ_of_le (ih h)

theorem named?_append_stop (hstop : isStop stop) (inValue : Bool) (cs more : List Char) :
    named? inValue (cs ++ stop :: more) = named? inValue cs := by
  have halnum := not_alphanumeric_of_isStop hstop
  have hrun := takeWhile_append_stop halnum cs more
  have hle : (cs.takeWhile isAsciiAlphanumeric).length ≤ cs.length :=
    (List.takeWhile_prefix _).length_le
  have hsemicolon : stop ≠ ';' := ne_of_isStop hstop (by simp)
  simp only [named?, hrun, head?_drop_append_stop hle, or_stop_eq_some_iff hsemicolon]
  split
  · rfl
  · cases hbare : barePart? (cs.takeWhile isAsciiAlphanumeric)
        (min (cs.takeWhile isAsciiAlphanumeric).length longestBareName) with
    | none => rfl
    | some reading =>
      have hlength : reading.length ≤ cs.length := by
        have := barePart?_length hbare
        omega
      have hlast : (stop = '=' || isAsciiAlphanumeric stop) = false := by
        simp [halnum, ne_of_isStop hstop (c := '=') (by simp)]
      have hafter : ∀ next : Option Char,
          (next.or (some stop)).any (fun c => c = '=' || isAsciiAlphanumeric c) =
            next.any fun c => c = '=' || isAsciiAlphanumeric c := fun next => by
        cases next with
        | none => exact hlast
        | some c => rfl
      dsimp only
      rw [head?_drop_append_stop hlength, hafter]

theorem numeric?_decimal (h : cs.head? ≠ some 'x') (h' : cs.head? ≠ some 'X') :
    numeric? cs = numericDigits 10 decimalDigit? 1 cs := by
  unfold numeric?
  split
  · simp at h
  · simp at h'
  · rfl

theorem numeric?_append_stop (hstop : isStop stop) (cs more : List Char) :
    numeric? (cs ++ stop :: more) = numeric? cs := by
  have hsemicolon : stop ≠ ';' := ne_of_isStop hstop (by simp)
  have hdecimal : numericDigits 10 decimalDigit? 1 (cs ++ stop :: more) =
      numericDigits 10 decimalDigit? 1 cs :=
    numericDigits_append_stop (decimalDigit?_of_isStop hstop) hsemicolon cs more
  have hhex : numericDigits 16 hexDigit? 2 (cs.tail ++ stop :: more) =
      numericDigits 16 hexDigit? 2 cs.tail :=
    numericDigits_append_stop (hexDigit?_of_isStop hstop) hsemicolon cs.tail more
  have hletter : ∀ c, isAsciiAlphanumeric c → stop ≠ c := fun c hc heq => by
    simp [← heq, not_alphanumeric_of_isStop hstop] at hc
  cases cs with
  | nil =>
    rw [numeric?_decimal, hdecimal, numeric?_decimal (by simp) (by simp)]
    · simpa using hletter 'x' (by decide)
    · simpa using hletter 'X' (by decide)
  | cons c rest =>
    by_cases hx : c = 'x'
    · subst hx
      exact hhex
    by_cases hX : c = 'X'
    · subst hX
      exact hhex
    rw [numeric?_decimal (by simpa using hx) (by simpa using hX), hdecimal,
      numeric?_decimal (by simpa using hx) (by simpa using hX)]

theorem reference?_named (h : cs.head? ≠ some '#') (inValue : Bool) :
    reference? inValue cs = named? inValue cs := by
  unfold reference?
  split
  · simp at h
  · rfl

/-- The reference after an ampersand is the same whatever comes after a character that ends it. -/
theorem reference?_append_stop (hstop : isStop stop) (inValue : Bool) (cs more : List Char) :
    reference? inValue (cs ++ stop :: more) = reference? inValue cs := by
  have hnamed := named?_append_stop hstop inValue cs more
  cases cs with
  | nil =>
    rw [reference?_named, hnamed, reference?_named (by simp)]
    have hhash : stop ≠ '#' := ne_of_isStop hstop (by simp)
    simpa using hhash
  | cons c rest =>
    by_cases hc : c = '#'
    · subst hc
      exact numeric?_append_stop hstop rest more
    rw [reference?_named (by simpa using hc), hnamed, reference?_named (by simpa using hc)]

/-! ### Plain text -/

theorem opensMarkup_append_stop (hstop : isStop stop) (cs more : List Char) :
    opensMarkup (cs ++ stop :: more) = opensMarkup cs := by
  cases cs with
  | nil =>
    have hletter := not_alphanumeric_of_isStop hstop
    rw [isAsciiAlphanumeric, Bool.or_eq_false_iff] at hletter
    simp [opensMarkup, hletter.1, ne_of_isStop hstop (c := '/') (by simp),
      ne_of_isStop hstop (c := '!') (by simp), ne_of_isStop hstop (c := '?') (by simp)]
  | cons c rest => rfl

theorem isMarkup_append_stop (hstop : isStop stop) (inValue : Bool) (c : Char) (rest more : List Char) :
    isMarkup inValue c (rest ++ stop :: more) = isMarkup inValue c rest := by
  rw [isMarkup, reference?_append_stop hstop, opensMarkup_append_stop hstop, isMarkup]

theorem isPlain_append_stop (hstop : isStop stop) (inValue : Bool) (cs more : List Char) :
    isPlain inValue (cs ++ stop :: more) = (isPlain inValue cs && isPlain inValue (stop :: more)) := by
  induction cs with
  | nil => simp [isPlain]
  | cons c rest ih =>
    rw [List.cons_append, isPlain, isMarkup_append_stop hstop, ih, isPlain.eq_2 _ c, Bool.and_assoc]

theorem isPlain_cons_iff : isPlain inValue (c :: rest) ↔
    (c ≠ '\r' ∧ c ≠ '\x00' ∧ (c = '&' → reference? inValue rest = none) ∧
      if inValue then c ≠ '"' else c = '<' → opensMarkup rest = false) ∧
      isPlain inValue rest := by
  cases inValue <;> simp [isPlain, isMarkup, and_assoc, imp_iff_not_or]

/-- The characters that plain text cannot have anywhere. -/
theorem ne_of_mem_of_isPlain (h : isPlain inValue cs) (hc : c ∈ cs) :
    c ≠ '\r' ∧ c ≠ '\x00' ∧ (inValue → c ≠ '"') := by
  induction cs with
  | nil => exact absurd hc List.not_mem_nil
  | cons first rest ih =>
    obtain ⟨⟨hreturn, hnull, -, hquote⟩, hrest⟩ := isPlain_cons_iff.mp h
    rcases List.mem_cons.mp hc with rfl | hc
    · exact ⟨hreturn, hnull, fun hvalue => by simpa [hvalue] using hquote⟩
    · exact ih hrest hc

theorem normalizeLines_eq (h : '\r' ∉ cs) : normalizeLines cs = cs := by
  induction cs with
  | nil => rfl
  | cons c rest ih =>
    have hc := List.ne_of_not_mem_cons h
    have hrest := List.not_mem_of_not_mem_cons h
    unfold normalizeLines
    split <;> simp_all

/-- No reference is replaced in plain text. -/
theorem expand_eq (h : isPlain inValue cs) : expand inValue cs = cs := by
  rw [expand]
  induction cs with
  | nil => rfl
  | cons c rest ih =>
    obtain ⟨⟨-, -, hreference, -⟩, hrest⟩ := isPlain_cons_iff.mp h
    rw [expandFrom, ih hrest]
    by_cases hc : c = '&'
    · rw [if_pos hc, hreference hc]
    · rw [if_neg hc]

/-- No character of plain text is shown by another one. -/
theorem map_showNull_eq (h : isPlain inValue cs) : cs.map showNull = cs := by
  have hshown : ∀ c ∈ cs, showNull c = c := fun c hc => by
    rw [showNull, if_neg (ne_of_mem_of_isPlain h hc).2.1]
  rw [List.map_congr_left hshown, List.map_id']

/-- Digits are plain text. -/
theorem isPlain_of_digits (h : ∀ c ∈ cs, isAsciiDigit c) : isPlain inValue cs := by
  induction cs with
  | nil => rfl
  | cons c rest ih =>
    obtain ⟨hc, hrest⟩ := List.forall_mem_cons.mp h
    have hne : ∀ special, isAsciiDigit special = false → c ≠ special := fun special hspecial heq => by
      simp [← heq, hc] at hspecial
    refine isPlain_cons_iff.mpr ⟨⟨hne _ (by decide), hne _ (by decide),
      fun heq => absurd heq (hne _ (by decide)), ?_⟩, ih hrest⟩
    split
    · exact hne _ (by decide)
    · exact fun heq => absurd heq (hne _ (by decide))

/-! ### Scanning plain text -/

theorem isStop_angle : isStop '<' := by decide

/-- A run of plain text up to the next `<`. -/
theorem scanMarkup_run (hne : cs ≠ []) (hplain : isPlain false cs) (hrun : '<' ∉ cs)
    (rest : List Char) : scanMarkup false (cs ++ '<' :: rest) = ⟨some (.text cs), .markup, '<' :: rest⟩ := by
  have hchars : ∀ c ∈ cs, c ≠ '<' ∧ c ≠ '\x00' := fun c hc =>
    ⟨fun heq => hrun (heq ▸ hc), (ne_of_mem_of_isPlain hplain hc).2.1⟩
  have htake : (cs ++ '<' :: rest).takeWhile (fun c => c ≠ '<' ∧ c ≠ '\x00') = cs := by
    rw [takeWhile_append_stop (by simp), List.takeWhile_eq_self_iff]
    simpa using hchars
  obtain ⟨c, cs, rfl⟩ := List.exists_cons_of_ne_nil hne
  obtain ⟨hangle, hnull⟩ := hchars c List.mem_cons_self
  rw [List.cons_append] at htake ⊢
  rw [scanMarkup, if_neg hangle, if_neg hnull]
  dsimp only
  rw [htake, expand_eq hplain, ← List.cons_append, List.drop_left]

/-- A `<` that opens nothing is text. -/
theorem scanMarkup_angle (h : opensMarkup rest = false) {inForeign : Bool} :
    scanMarkup inForeign ('<' :: rest) = ⟨some (.text ['<']), .markup, rest⟩ := by
  rw [scanMarkup, if_pos rfl]
  cases rest with
  | nil => rfl
  | cons c rest =>
    simp only [opensMarkup, Bool.or_eq_false_iff, decide_eq_false_iff_not] at h
    obtain ⟨⟨⟨hletter, hslash⟩, hbang⟩, hquestion⟩ := h
    unfold scanAngle
    split <;> simp_all

/-! ### Scanning values in double quotes -/

theorem scanAttributes_quoted (h : '"' ∉ cs) (name value : List Char) (done : List (String × String))
    (rest : List Char) :
    scanAttributes (.quoted '"' name value) done (cs ++ '"' :: rest) =
      scanAttributes .gap (addAttribute done name (cs.reverse ++ value)) rest := by
  induction cs generalizing value with
  | nil => rw [List.nil_append, scanAttributes, if_pos rfl]; rfl
  | cons c cs ih =>
    have hc := List.ne_of_not_mem_cons h
    rw [List.cons_append, scanAttributes, if_neg hc.symm, ih (List.not_mem_of_not_mem_cons h)]
    simp

theorem scanTag_eq (cs : List Char) {tagEnd : TagEnd}
    (h : scanAttributes .gap [] (cs.drop (cs.takeWhile fun c => !endsTagName c).length) = some tagEnd) :
    scanTag cs = some (⟨String.ofList ((cs.takeWhile fun c => !endsTagName c).map nameChar),
      tagEnd.attributes, tagEnd.isSelfClosing⟩, tagEnd.rest) := by
  simp only [scanTag, h]

theorem scanMarkup_opening {tag : Tag} {left : List Char} (hletter : isAsciiLetter c)
    (h : scanTag (c :: cs) = some (tag, left)) {inForeign : Bool} :
    scanMarkup inForeign ('<' :: c :: cs) = ⟨some (.opening tag), .markup, left⟩ := by
  have hne : ∀ other, isAsciiLetter other = false → c ≠ other := fun other hother heq => by
    simp [← heq, hletter] at hother
  rw [scanMarkup, if_pos rfl, scanAngle, if_pos hletter, h]
  · exact hne '!' (by decide)
  · exact hne '?' (by decide)
  · exact fun heq _ => hne '/' (by decide) heq
  · exact fun _ heq => absurd heq (hne '/' (by decide))
  · exact fun _ _ heq => absurd heq (hne '/' (by decide))

/-- The start tag of a link whose target is plain. -/
theorem scanMarkup_link (h : isPlain true cs) (rest : List Char) :
    scanMarkup false ("<a href=\"".toList ++ (cs ++ ("\">".toList ++ rest))) =
      ⟨some (.opening ⟨"a", [("href", String.ofList cs)], false⟩), .markup, rest⟩ := by
  have hquote : '"' ∉ cs := fun hmem => (ne_of_mem_of_isPlain h hmem).2.2 rfl rfl
  have hvalue : String.ofList (expand true ((cs.reverse ++ []).reverse.map showNull)) =
      String.ofList cs := by
    rw [List.append_nil, List.reverse_reverse, map_showNull_eq h, expand_eq h]
  have hend : scanAttributes .gap [] (" href=\"".toList ++ (cs ++ ("\">".toList ++ rest))) =
      some ⟨[("href", String.ofList cs)], false, rest⟩ := by
    have hquoted := scanAttributes_quoted hquote ['f', 'e', 'r', 'h'] [] [] ('>' :: rest)
    rw [addAttribute, hvalue] at hquoted
    exact hquoted
  have htag : scanTag ("a href=\"".toList ++ (cs ++ ("\">".toList ++ rest))) =
      some (⟨"a", [("href", String.ofList cs)], false⟩, rest) := scanTag_eq ("a href=\"".toList ++ _) hend
  exact scanMarkup_opening (by decide) htag

end Html
end Markup
end CrossRef
