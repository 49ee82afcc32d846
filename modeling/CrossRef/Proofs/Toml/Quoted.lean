import CrossRef.Toml.Quoted
import CrossRef.Toml.Writer
import Mathlib.Data.List.Basic

/-!
Texts in quotes. Whatever quotes the writer chooses for a text, the reader gives the text back and stops
after them.
-/
namespace CrossRef
namespace Toml

open Text

variable {cs rest : List Char} {c : Char} {isMultiline : Bool} {run : Nat} {e : List Char}

/-! ### Characters and their escapes -/

theorem isTextChar_of_not_isControl (h : isControl c = false) (hline : c ≠ '\n') :
    isTextChar c = true := by
  simp only [isControl, Bool.or_eq_false_iff, Bool.and_eq_false_imp, decide_eq_false_iff_not,
    Decidable.not_not] at h
  simp only [isTextChar, Bool.or_eq_true, Bool.and_eq_true, decide_eq_true_eq]
  by_cases htab : c = '\t'
  · exact .inl htab
  · refine .inr ⟨Char.not_lt.mp fun hlt => ?_, h.2⟩
    exact hline (h.1 (by simp [hlt, htab]))

theorem hexDigit?_hexCapital : ∀ n < 16, hexDigit? (hexCapital n) = some n := by decide

theorem ne_return_of_hexDigit? {d : Nat} (h : hexDigit? c = some d) : c ≠ '\r' := by
  rintro rfl
  simp [show hexDigit? '\r' = none by decide] at h

theorem toNat_lt_of_isControl (h : isControl c) : c.toNat < 128 := by
  simp only [isControl, Bool.or_eq_true, Bool.and_eq_true, decide_eq_true_eq] at h
  rcases h with h | rfl
  · have hlt : c.toNat < 32 := h.1.1
    omega
  · decide

/-- An escape has one letter, or the number of the character. -/
theorem escaped?_cases (h : escaped? isMultiline c = some e) :
    (∃ letter, e = ['\\', letter] ∧ Escape.letter? letter = some c) ∨
      (c.toNat < 128 ∧
        e = ['\\', 'u', '0', '0', hexCapital (c.toNat / 16), hexCapital (c.toNat % 16)]) := by
  unfold escaped? at h
  split_ifs at h with hback htab hline hmulti hfeed hreturn hslash hcontrol
  case pos => exact .inl ⟨'b', (Option.some_inj.mp h).symm, by rw [hback]; rfl⟩
  case pos => exact .inl ⟨'t', (Option.some_inj.mp h).symm, by rw [htab]; rfl⟩
  case neg => exact .inl ⟨'n', (Option.some_inj.mp h).symm, by rw [hline]; rfl⟩
  case pos => exact .inl ⟨'f', (Option.some_inj.mp h).symm, by rw [hfeed]; rfl⟩
  case pos => exact .inl ⟨'r', (Option.some_inj.mp h).symm, by rw [hreturn]; rfl⟩
  case pos => exact .inl ⟨'\\', (Option.some_inj.mp h).symm, by rw [hslash]; rfl⟩
  case pos => exact .inr ⟨toNat_lt_of_isControl hcontrol, (Option.some_inj.mp h).symm⟩

/-- A character without an escape stands for itself. -/
theorem of_escaped?_eq_none (h : escaped? isMultiline c = none) :
    c ≠ '\\' ∧ c ≠ '\r' ∧ Escape.step isMultiline c .outside = some (.outside, [c]) := by
  unfold escaped? at h
  split_ifs at h with hback htab hline hmulti hfeed hreturn hslash hcontrol
  · subst hline
    refine ⟨by decide, by decide, ?_⟩
    simp [Escape.step, Escape.plain, hmulti, Escape.isLineChar]
  · refine ⟨hslash, hreturn, ?_⟩
    have htext := isTextChar_of_not_isControl (Bool.eq_false_iff.mpr hcontrol) hline
    simp [Escape.step, Escape.plain, hslash, htext]

/-- The reader takes a character by its step, unless that may end the text. -/
def Follows (isMultiline : Bool) (reader : Escape → List Char → Reading) : Prop :=
  ∀ {state next : Escape} {c : Char} {taken cs read rest : List Char}, c ≠ '\r' →
    (state.mayEnd → c ≠ '"') → state.step isMultiline c = some (next, taken) →
    reader next cs = some (read, rest) → reader state (c :: cs) = some (taken ++ read, rest)

namespace Follows

variable {reader : Escape → List Char → Reading} {read : List Char}

theorem plain (hreader : Follows isMultiline reader) (he : escaped? isMultiline c = none)
    (hquote : c ≠ '"') (h : reader .outside cs = some (read, rest)) :
    reader .outside (c :: cs) = some (c :: read, rest) := by
  obtain ⟨-, hreturn, hstep⟩ := of_escaped?_eq_none he
  exact hreader hreturn (fun _ => hquote) hstep h

theorem backslash (hreader : Follows isMultiline reader) (h : reader .opened cs = some (read, rest)) :
    reader .outside ('\\' :: cs) = some (read, rest) := by
  have hstep : Escape.step isMultiline '\\' .outside = some (.opened, []) := rfl
  exact hreader (by decide) (fun _ => by decide) hstep h

theorem letter (hreader : Follows isMultiline reader) {letter : Char}
    (hletter : Escape.letter? letter = some c) (h : reader .outside cs = some (read, rest)) :
    reader .outside ('\\' :: letter :: cs) = some (c :: read, rest) := by
  have hreturn : letter ≠ '\r' := by
    rintro rfl
    simp [Escape.letter?] at hletter
  have hopened : Escape.step isMultiline letter .opened = some (.outside, [c]) := by
    simp [Escape.step, hletter]
  exact hreader.backslash (hreader hreturn (by simp [Escape.mayEnd]) hopened h)

theorem digit (hreader : Follows isMultiline reader) {left value d : Nat} (hd : hexDigit? c = some d)
    (h : reader (.code (left + 1) (value * 16 + d)) cs = some (read, rest)) :
    reader (.code (left + 2) value) (c :: cs) = some (read, rest) := by
  have hstep : Escape.step isMultiline c (.code (left + 2) value) =
      some (.code (left + 1) (value * 16 + d), []) := by
    simp [Escape.step, hd]
  exact hreader (ne_return_of_hexDigit? hd) (by simp [Escape.mayEnd]) hstep h

theorem escaped (hreader : Follows isMultiline reader) (he : escaped? isMultiline c = some e)
    (h : reader .outside cs = some (read, rest)) :
    reader .outside (e ++ cs) = some (c :: read, rest) := by
  rcases escaped?_cases he with ⟨letter, rfl, hletter⟩ | ⟨hlt, rfl⟩
  · exact hreader.letter hletter h
  · have hzero : hexDigit? '0' = some 0 := by decide
    have hhigh := hexDigit?_hexCapital (c.toNat / 16) (by omega)
    have hlow := hexDigit?_hexCapital (c.toNat % 16) (by omega)
    have hlast : Escape.step isMultiline (hexCapital (c.toNat % 16)) (.code 1 (c.toNat / 16)) =
        some (.outside, [c]) := by
      have hvalid : c.toNat.isValidChar := c.valid
      have hvalue : c.toNat / 16 * 16 + c.toNat % 16 = c.toNat := by omega
      simp [Escape.step, hlow, hvalue, hvalid]
    have hopened : Escape.step isMultiline 'u' .opened = some (.code 4 0, []) := rfl
    have hdigits := hreader (ne_return_of_hexDigit? hlow) (by simp [Escape.mayEnd]) hlast h
    refine hreader.backslash (hreader (by decide) (by simp [Escape.mayEnd]) hopened ?_)
    refine hreader.digit hzero (hreader.digit hzero (hreader.digit hhigh ?_))
    simpa using hdigits

end Follows

/-! ### Double quotes in one line -/

theorem follows_basicLine? : Follows false basicLine? := by
  intro state next c taken cs read rest _ hend hstep h
  have hno : (c = '"' && state.mayEnd) = false := by
    cases hmay : state.mayEnd
    · simp
    · simp [hend hmay]
  rw [basicLine?, hno, hstep]
  simp [h, Reading.after]

theorem basicLine?_escape (cs rest : List Char) (run : Nat) :
    basicLine? .outside (escape false run cs ++ '"' :: rest) = some (cs, rest) := by
  induction cs generalizing run with
  | nil => simp [escape, basicLine?, Escape.mayEnd]
  | cons c cs ih =>
    rw [escape]
    split_ifs with hquote hraw
    · simp at hraw
    · subst hquote
      exact follows_basicLine?.letter rfl (ih 0)
    · cases he : escaped? false c with
      | some e =>
        simp only [List.append_assoc]
        exact follows_basicLine?.escaped he (ih 0)
      | none => exact follows_basicLine?.plain he hquote (ih 0)

/-! ### The end of a text with three quotes -/

section Closing

variable {quote : Char}

theorem closing?_of_length_lt (h : (cs.takeWhile (· = quote)).length < 3) :
    closing? quote cs = none := by
  simp [closing?, h]

theorem closing?_of_ne (h : c ≠ quote) (cs : List Char) : closing? quote (c :: cs) = none :=
  closing?_of_length_lt (by simp [h])

/-- Up to two quotes before the three belong to the text. -/
theorem closing?_replicate {k : Nat} (hk : k ≤ 2) (hrest : rest.head? ≠ some quote) :
    closing? quote (List.replicate k quote ++ (List.replicate 3 quote ++ rest)) =
      some (List.replicate k quote, rest) := by
  have hstop : rest.takeWhile (· = quote) = [] := by
    cases rest with
    | nil => rfl
    | cons c rest => simp [show c ≠ quote by simpa using hrest]
  have hrun : (List.replicate k quote ++ (List.replicate 3 quote ++ rest)).takeWhile (· = quote) =
      List.replicate (k + 3) quote := by
    rw [← List.append_assoc, List.replicate_append_replicate,
      List.takeWhile_append_of_pos (by simp), hstop, List.append_nil]
  have hinside : min (k + 3 - 3) 2 = k := by omega
  rw [closing?]
  simp only [hrun, List.length_replicate, if_neg (show ¬ k + 3 < 3 by omega), hinside]
  rw [← List.append_assoc, List.replicate_append_replicate]
  congr 2
  exact List.drop_left' (by simp)

end Closing

/-! ### Double quotes over several lines -/

theorem follows_basicLines? : Follows true basicLines? := by
  intro state next c taken cs read rest hreturn hend hstep h
  have hopen : (if state.mayEnd then closing? '"' (c :: cs) else none) = none := by
    split_ifs with hmay
    · exact closing?_of_ne (hend hmay) cs
    · rfl
  have hlone : isLoneReturn c cs = false := by simp [isLoneReturn, hreturn]
  rw [basicLines?, hopen, hlone, hstep]
  simp [h, Reading.after]

/-- A text is nothing but quotes up to its end, or it has at most two quotes before something else. -/
theorem escape_starts (cs : List Char) (hrun : run ≤ 2) :
    (∃ k, run + k ≤ 2 ∧ cs = List.replicate k '"' ∧ escape true run cs = List.replicate k '"') ∨
      ∀ tail, run + ((escape true run cs ++ tail).takeWhile (· = '"')).length ≤ 2 := by
  induction cs generalizing run with
  | nil => exact .inl ⟨0, hrun, rfl, rfl⟩
  | cons c cs ih =>
    rw [escape]
    split_ifs with hquote hraw
    · subst hquote
      have hrun' : run + 1 ≤ 2 := by simpa [Nat.lt_iff_add_one_le] using hraw
      rcases ih hrun' with ⟨k, hk, hcs, he⟩ | hlater
      · exact .inl ⟨k + 1, by omega, by rw [hcs]; rfl, by rw [he]; rfl⟩
      · refine .inr fun tail => ?_
        have hlen := hlater tail
        simp only [List.cons_append, List.takeWhile_cons, decide_true, if_true, List.length_cons]
        omega
    · exact .inr fun tail => by simpa using hrun
    · refine .inr fun tail => ?_
      cases he : escaped? true c with
      | some e =>
        obtain ⟨x, e', rfl⟩ : ∃ x e', e = '\\' :: x :: e' := by
          rcases escaped?_cases he with ⟨letter, rfl, -⟩ | ⟨-, rfl⟩ <;> exact ⟨_, _, rfl⟩
        simpa using hrun
      | none => simpa [hquote] using hrun

theorem basicLines?_of_closing {ending : List Char × List Char}
    (h : closing? '"' cs = some ending) : basicLines? .outside cs = some ending := by
  cases cs with
  | nil => simp [closing?] at h
  | cons c cs =>
    rw [basicLines?]
    simp [Escape.mayEnd, h]

/-- A quote that does not start the end of the text belongs to the text. -/
theorem basicLines?_quote {read : List Char} (hopen : closing? '"' ('"' :: cs) = none)
    (h : basicLines? .outside cs = some (read, rest)) :
    basicLines? .outside ('"' :: cs) = some ('"' :: read, rest) := by
  have hlone : isLoneReturn '"' cs = false := rfl
  have hstep : Escape.step true '"' .outside = some (.outside, ['"']) := rfl
  rw [basicLines?]
  simp [Escape.mayEnd, hopen, hlone, hstep, h, Reading.after]

theorem basicLines?_escape (hrest : rest.head? ≠ some '"') (cs : List Char) (hrun : run ≤ 2) :
    basicLines? .outside (escape true run cs ++ (List.replicate 3 '"' ++ rest)) =
      some (cs, rest) := by
  induction cs generalizing run with
  | nil => exact basicLines?_of_closing (closing?_replicate (k := 0) (by omega) hrest)
  | cons c cs ih =>
    rcases escape_starts (c :: cs) hrun with ⟨k, hk, hcs, he⟩ | hshort
    · rw [he, hcs]
      exact basicLines?_of_closing (closing?_replicate (by omega) hrest)
    · have htail := hshort (List.replicate 3 '"' ++ rest)
      rw [escape] at htail ⊢
      split_ifs at htail ⊢ with hquote hraw
      · subst hquote
        have hrun' : run + 1 ≤ 2 := by simpa [Nat.lt_iff_add_one_le] using hraw
        rw [List.cons_append] at htail ⊢
        exact basicLines?_quote (closing?_of_length_lt (by omega)) (ih hrun')
      · subst hquote
        exact follows_basicLines?.letter rfl (ih (by omega))
      · cases he : escaped? true c with
        | some e =>
          simp only [List.append_assoc]
          exact follows_basicLines?.escaped he (ih (by omega))
        | none => exact follows_basicLines?.plain he hquote (ih (by omega))

/-! ### Single quotes -/

theorem literalLine?_written (h : ∀ c ∈ cs, c ≠ '\'' ∧ isTextChar c) (rest : List Char) :
    literalLine? (cs ++ '\'' :: rest) = some (cs, rest) := by
  induction cs with
  | nil => simp [literalLine?]
  | cons c cs ih =>
    obtain ⟨hquote, htext⟩ := h c (by simp)
    rw [List.cons_append, literalLine?, if_neg hquote, if_pos htext,
      ih fun c hc => h c (by simp [hc])]
    rfl

theorem le_longestRunFrom (c : Char) (run longest : Nat) (cs : List Char) :
    longest ≤ longestRunFrom c run longest cs := by
  induction cs generalizing run longest with
  | nil => exact Nat.le_refl longest
  | cons x cs ih =>
    rw [longestRunFrom]
    split_ifs
    · exact Nat.le_trans (Nat.le_max_left _ _) (ih _ _)
    · exact ih _ _

/-- A text without a long run is nothing but quotes up to its end, or it has at most two quotes before
something else. -/
theorem longestRun_starts {quote : Char} {longest : Nat} (cs : List Char) (hrun : run ≤ 2)
    (h : longestRunFrom quote run longest cs ≤ 2) :
    (∃ k, run + k ≤ 2 ∧ cs = List.replicate k quote) ∨
      ∀ tail, run + ((cs ++ tail).takeWhile (· = quote)).length ≤ 2 := by
  induction cs generalizing run longest with
  | nil => exact .inl ⟨0, hrun, rfl⟩
  | cons c cs ih =>
    rw [longestRunFrom] at h
    split_ifs at h with hquote
    · subst hquote
      have hle : run + 1 ≤ 2 :=
        Nat.le_trans (Nat.le_max_right _ _) (Nat.le_trans (le_longestRunFrom _ _ _ _) h)
      rcases ih hle h with ⟨k, hk, hcs⟩ | hlater
      · exact .inl ⟨k + 1, by omega, by rw [hcs]; rfl⟩
      · refine .inr fun tail => ?_
        have hlen := hlater tail
        simp only [List.cons_append, List.takeWhile_cons, decide_true, if_true, List.length_cons]
        omega
    · exact .inr fun tail => by simpa [hquote] using hrun

theorem literalLines?_of_closing {ending : List Char × List Char}
    (h : closing? '\'' cs = some ending) : literalLines? cs = some ending := by
  cases cs with
  | nil => simp [closing?] at h
  | cons c cs =>
    rw [literalLines?]
    simp [h]

/-- A character that does not start the end of the text belongs to the text. -/
theorem literalLines?_char {read : List Char} (hopen : closing? '\'' (c :: cs) = none)
    (hreturn : c ≠ '\r') (hchar : isTextChar c ∨ c = '\n')
    (h : literalLines? cs = some (read, rest)) :
    literalLines? (c :: cs) = some (c :: read, rest) := by
  have hlone : isLoneReturn c cs = false := by simp [isLoneReturn, hreturn]
  have hmay : (isTextChar c || Escape.isLineChar c) = true := by
    rcases hchar with hchar | rfl
    · simp [hchar]
    · rfl
  rw [literalLines?]
  simp [hopen, hlone, hmay, h, Reading.after]

theorem literalLines?_written (hrest : rest.head? ≠ some '\'') {longest : Nat} (hrun : run ≤ 2)
    (hlongest : longestRunFrom '\'' run longest cs ≤ 2)
    (h : ∀ c ∈ cs, c ≠ '\r' ∧ (isTextChar c ∨ c = '\n')) :
    literalLines? (cs ++ (List.replicate 3 '\'' ++ rest)) = some (cs, rest) := by
  induction cs generalizing run longest with
  | nil => exact literalLines?_of_closing (closing?_replicate (k := 0) (by omega) hrest)
  | cons c cs ih =>
    rcases longestRun_starts (c :: cs) hrun hlongest with ⟨k, hk, hcs⟩ | hshort
    · rw [hcs]
      exact literalLines?_of_closing (closing?_replicate (by omega) hrest)
    · have htail := hshort (List.replicate 3 '\'' ++ rest)
      obtain ⟨hreturn, hchar⟩ := h c (by simp)
      rw [List.cons_append] at htail ⊢
      refine literalLines?_char (closing?_of_length_lt (by omega)) hreturn hchar ?_
      rw [longestRunFrom] at hlongest
      split_ifs at hlongest with hquote
      · have hle : run + 1 ≤ 2 :=
          Nat.le_trans (Nat.le_max_right _ _) (Nat.le_trans (le_longestRunFrom _ _ _ _) hlongest)
        exact ih hle hlongest fun c hc => h c (by simp [hc])
      · exact ih (by omega) hlongest fun c hc => h c (by simp [hc])

/-! ### Any quotes -/

/-- The opening of a text over several lines: nothing of the text is taken for the line end that the
reader drops. -/
theorem dropFirstLineEnd_opening {body : List Char}
    (h : '\n' ∉ cs → ∀ c ∈ body.head?, c ≠ '\n' ∧ c ≠ '\r') :
    dropFirstLineEnd ((if cs.contains '\n' then ['\n'] else []) ++ body) = body := by
  split_ifs with hline
  · rfl
  · cases body with
    | nil => rfl
    | cons c body =>
      obtain ⟨hne, hreturn⟩ := h (by simpa using hline) c rfl
      unfold dropFirstLineEnd
      split <;> simp_all

/-- How a text with escapes starts. -/
theorem escape_head (isMultiline : Bool) (run : Nat) (c : Char) (cs : List Char) :
    ∃ x more, escape isMultiline run (c :: cs) = x :: more ∧ (x = '"' → isMultiline) ∧
      (x = '"' ∨ x = '\\' ∨ x = c) ∧ x ≠ '\r' := by
  rw [escape]
  split_ifs with hquote hraw
  · exact ⟨_, _, rfl, fun _ => (Bool.and_eq_true_iff.mp hraw).1, .inl rfl, by decide⟩
  · exact ⟨_, _, rfl, fun h => absurd h (by decide), .inr (.inl rfl), by decide⟩
  · cases he : escaped? isMultiline c with
    | some e =>
      obtain ⟨e', rfl⟩ : ∃ e', e = '\\' :: e' := by
        rcases escaped?_cases he with ⟨letter, rfl, -⟩ | ⟨-, rfl⟩ <;> exact ⟨_, rfl⟩
      exact ⟨_, _, rfl, fun h => absurd h (by decide), .inr (.inl rfl), by decide⟩
    | none =>
      exact ⟨_, _, rfl, fun h => absurd h hquote, .inr (.inr rfl), (of_escaped?_eq_none he).2.1⟩

theorem isTextChar_of_any_isControl (h : cs.any isControl = false) :
    ∀ c ∈ cs, c ≠ '\r' ∧ (isTextChar c ∨ c = '\n') := by
  intro c hc
  have hcontrol : isControl c = false := by
    simpa using (List.any_eq_false.mp h) c hc
  refine ⟨?_, ?_⟩
  · rintro rfl
    revert hcontrol
    decide
  · by_cases hline : c = '\n'
    · exact .inr hline
    · exact .inl (isTextChar_of_not_isControl hcontrol hline)

theorem of_for_eq_literal (h : Quotes.for cs = .literal) :
    cs ≠ [] ∧ ∀ c ∈ cs, c ≠ '\'' ∧ isTextChar c := by
  unfold Quotes.for at h
  dsimp only at h
  split_ifs at h with hbasic hliteral
  simp only [Bool.and_eq_true, Bool.not_eq_true'] at hliteral
  obtain ⟨⟨hcontrol, hline⟩, hquote⟩ := hliteral
  refine ⟨?_, fun c hc => ⟨?_, ?_⟩⟩
  · rintro rfl
    exact hbasic rfl
  · rintro rfl
    simp [hc] at hquote
  · refine ((isTextChar_of_any_isControl hcontrol) c hc).2.resolve_right ?_
    rintro rfl
    simp [hc] at hline

theorem of_for_eq_literalLines (h : Quotes.for cs = .literalLines) :
    longestRun '\'' cs ≤ 2 ∧ ∀ c ∈ cs, c ≠ '\r' ∧ (isTextChar c ∨ c = '\n') := by
  unfold Quotes.for at h
  dsimp only at h
  split_ifs at h with hbasic hliteral hlines hliteralLines
  simp only [Bool.and_eq_true, Bool.not_eq_true', decide_eq_true_eq] at hliteralLines
  exact ⟨hliteralLines.2, isTextChar_of_any_isControl hliteralLines.1⟩

/-- Quotes of one line, where they are not the start of three. -/
theorem quoted?_line {quote : Char} (h : cs.take 2 ≠ [quote, quote]) :
    quoted? (quote :: cs) = quotedLine? (quote :: cs) := by
  unfold quoted?
  split
  · simp_all
  · simp_all
  · rfl

theorem quoted?_basic (hrest : rest.head? ≠ some '"') (cs : List Char) :
    quoted? ('"' :: (escape false 0 cs ++ '"' :: rest)) = some (cs, rest) := by
  rw [quoted?_line]
  · exact basicLine?_escape cs rest 0
  · cases cs with
    | nil =>
      cases rest with
      | nil => simp [escape]
      | cons c rest => simpa [escape] using hrest
    | cons c cs =>
      obtain ⟨x, more, heq, hquote, -, -⟩ := escape_head false 0 c cs
      have hne : x ≠ '"' := fun hx => by simpa using hquote hx
      simp [heq, hne]

theorem quoted?_literal (hne : cs ≠ []) (h : ∀ c ∈ cs, c ≠ '\'' ∧ isTextChar c) (rest : List Char) :
    quoted? ('\'' :: (cs ++ '\'' :: rest)) = some (cs, rest) := by
  rw [quoted?_line]
  · exact literalLine?_written h rest
  · obtain ⟨c, cs, rfl⟩ := List.exists_cons_of_ne_nil hne
    simp [(h c (by simp)).1]

theorem quoted?_basicLines (hrest : rest.head? ≠ some '"') (cs : List Char) :
    quoted? (opening '"' cs ++ (escape true 0 cs ++ (List.replicate 3 '"' ++ rest))) =
      some (cs, rest) := by
  have hstart : '\n' ∉ cs → ∀ c ∈ (escape true 0 cs ++ (List.replicate 3 '"' ++ rest)).head?,
      c ≠ '\n' ∧ c ≠ '\r' := by
    intro hline
    cases cs with
    | nil => simp [escape]
    | cons c cs =>
      obtain ⟨x, more, heq, -, hx, hreturn⟩ := escape_head true 0 c cs
      rw [heq]
      rintro y hy
      obtain rfl : x = y := by simpa using hy
      refine ⟨?_, hreturn⟩
      rcases hx with rfl | rfl | rfl
      · decide
      · decide
      · rintro rfl
        simp at hline
  rw [opening, List.append_assoc]
  exact (congrArg (basicLines? .outside) (dropFirstLineEnd_opening hstart)).trans
    (basicLines?_escape hrest cs (by omega))

theorem quoted?_literalLines (hrest : rest.head? ≠ some '\'') (hrun : longestRun '\'' cs ≤ 2)
    (h : ∀ c ∈ cs, c ≠ '\r' ∧ (isTextChar c ∨ c = '\n')) :
    quoted? (opening '\'' cs ++ (cs ++ (List.replicate 3 '\'' ++ rest))) = some (cs, rest) := by
  have hstart : '\n' ∉ cs → ∀ c ∈ (cs ++ (List.replicate 3 '\'' ++ rest)).head?,
      c ≠ '\n' ∧ c ≠ '\r' := by
    intro hline
    cases cs with
    | nil => simp
    | cons c cs =>
      rintro y hy
      obtain rfl : c = y := by simpa using hy
      refine ⟨?_, (h c (by simp)).1⟩
      rintro rfl
      simp at hline
  rw [opening, List.append_assoc]
  exact (congrArg literalLines? (dropFirstLineEnd_opening hstart)).trans
    (literalLines?_written hrest (by omega) hrun h)

/-- A text is read from what is written for it, if no quote stands after that. -/
theorem quoted?_quoteChars (hrest : rest.head? ≠ some '"' ∧ rest.head? ≠ some '\'') (cs : List Char) :
    quoted? (quoteChars cs ++ rest) = some (cs, rest) := by
  rw [quoteChars]
  cases hfor : Quotes.for cs with
  | basic => simpa using quoted?_basic hrest.1 cs
  | literal =>
    obtain ⟨hne, htext⟩ := of_for_eq_literal hfor
    simpa using quoted?_literal hne htext rest
  | basicLines =>
    simp only [List.append_assoc]
    exact quoted?_basicLines hrest.1 cs
  | literalLines =>
    obtain ⟨hrun, htext⟩ := of_for_eq_literalLines hfor
    simp only [List.append_assoc]
    exact quoted?_literalLines hrest.2 hrun htext

end Toml
end CrossRef
