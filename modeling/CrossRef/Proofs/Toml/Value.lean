import CrossRef.Proofs.Toml.Quoted
import CrossRef.Toml.Reader

/-!
Values that are read from what is written for them: texts, lists of texts in one line or over several,
and truth values. Each is read up to its end, whatever stands after it.
-/
namespace CrossRef
namespace Toml

open Text

variable {cs rest : List Char} {c : Char} {depth fuel : Nat}

/-! ### Blanks and line ends -/

/-- The reader does not skip the character before a statement or an item. -/
def IsSolid (c : Char) : Prop := c ≠ '\n' ∧ c ≠ '\r' ∧ c ≠ '#' ∧ isBlank c = false

instance : DecidablePred IsSolid := fun c =>
  inferInstanceAs (Decidable (c ≠ '\n' ∧ c ≠ '\r' ∧ c ≠ '#' ∧ isBlank c = false))

theorem skipLines?_solid (h : IsSolid c) (rest : List Char) :
    skipLines? false (c :: rest) = some (c :: rest) := by
  obtain ⟨hline, hreturn, hcomment, hblank⟩ := h
  rw [skipLines?.eq_def]
  split <;> simp_all

theorem skipLines?_lineEnd (rest : List Char) :
    skipLines? false ('\n' :: rest) = skipLines? false rest := rfl

theorem skipLines?_blank (rest : List Char) :
    skipLines? false (' ' :: rest) = skipLines? false rest := rfl

theorem skipBlanks_solid (h : IsSolid c) (rest : List Char) : skipBlanks (c :: rest) = c :: rest := by
  simp [skipBlanks, h.2.2.2]

/-! ### Texts -/

theorem quoteChars_starts (cs : List Char) :
    ∃ quote more, quoteChars cs = quote :: more ∧ (quote = '"' ∨ quote = '\'') := by
  rw [quoteChars]
  cases Quotes.for cs with
  | basic => exact ⟨_, _, rfl, .inl rfl⟩
  | literal => exact ⟨_, _, rfl, .inr rfl⟩
  | basicLines => exact ⟨_, _, rfl, .inl rfl⟩
  | literalLines => exact ⟨_, _, rfl, .inr rfl⟩

theorem isSolid_of_isQuote (h : c = '"' ∨ c = '\'') : IsSolid c ∧ c ≠ ']' := by
  rcases h with rfl | rfl <;> decide

theorem value?_quote (hquote : c ≠ '"' ∧ c ≠ '\'') (depth : Nat) (s : String) (rest : List Char) :
    value? depth (quoteChars s.toList ++ c :: rest) = some (.text s, c :: rest) := by
  have hread : quoted? (quoteChars s.toList ++ c :: rest) = some (s.toList, c :: rest) :=
    quoted?_quoteChars (by simpa using hquote) s.toList
  obtain ⟨quote, more, heq, hstarts⟩ := quoteChars_starts s.toList
  rw [heq, List.cons_append] at hread ⊢
  rcases hstarts with rfl | rfl
  · rw [value?.eq_def]
    simp [hread]
  · rw [value?.eq_def]
    simp [hread]

/-! ### Lists of texts -/

section Listed

variable {α : Type} {item? : List Char → Option (α × List Char)} {bracket : Char} {item : α}
  {items : List α} {more : List Char}

theorem listed?_end (h : IsSolid bracket) (rest : List Char) :
    listed? item? bracket (fuel + 1) (bracket :: rest) = some ([], rest) := by
  simp [listed?, skipLines?_solid h]

/-- The last item, without a comma after it. -/
theorem listed?_last (hbracket : IsSolid bracket) (hskip : skipLines? false cs = some (c :: more))
    (hne : c ≠ bracket) (hitem : item? (c :: more) = some (item, bracket :: rest)) :
    listed? item? bracket (fuel + 1) cs = some ([item], rest) := by
  simp [listed?, hskip, hne, hitem, skipLines?_solid hbracket]

/-- An item with a comma after it. -/
theorem listed?_next (hbracket : bracket ≠ ',') (hskip : skipLines? false cs = some (c :: more))
    (hne : c ≠ bracket) (hitem : item? (c :: more) = some (item, ',' :: rest)) :
    listed? item? bracket (fuel + 1) cs =
      (listed? item? bracket fuel rest).map fun read => (item :: read.1, read.2) := by
  have hcomma : skipLines? false (',' :: rest) = some (',' :: rest) :=
    skipLines?_solid (by decide) rest
  simp [listed?, hskip, hne, hitem, hcomma, hbracket.symm]

end Listed

/-- The line of a text in a list over several lines. -/
def itemLine (s : String) : List Char :=
  List.replicate 4 ' ' ++ (quoteChars s.toList ++ [',', '\n'])

theorem length_le_flatMap_itemLine (texts : List String) :
    texts.length ≤ (texts.flatMap itemLine).length := by
  induction texts with
  | nil => simp
  | cons s texts ih =>
    simp only [List.flatMap_cons, List.length_append, List.length_cons, itemLine]
    omega

/-- The lines of a list, read from the end of the line before them. -/
theorem listed?_itemLine {texts : List String} (hfuel : texts.length < fuel) (rest : List Char) :
    listed? (value? depth) ']' fuel ('\n' :: (texts.flatMap itemLine ++ ']' :: rest)) =
      some (texts.map .text, rest) := by
  induction texts generalizing fuel with
  | nil =>
    obtain ⟨fuel, rfl⟩ := Nat.exists_eq_add_of_lt hfuel
    simp [listed?, skipLines?_lineEnd, skipLines?_solid (c := ']') (by decide)]
  | cons s texts ih =>
    obtain ⟨fuel, rfl⟩ : ∃ k, fuel = k + 1 := ⟨fuel - 1, by omega⟩
    have hread := ih (show texts.length < fuel by simpa using hfuel)
    have hitem := value?_quote (c := ',') (by decide) depth s
      ('\n' :: (texts.flatMap itemLine ++ ']' :: rest))
    obtain ⟨quote, more, heq, hstarts⟩ := quoteChars_starts s.toList
    obtain ⟨hsolid, hne⟩ := isSolid_of_isQuote hstarts
    rw [heq, List.cons_append] at hitem
    rw [listed?_next (by decide) ?_ hne hitem, hread]
    · rfl
    · simp [itemLine, heq, skipLines?_lineEnd, skipLines?_blank, skipLines?_solid hsolid]

theorem toList_join_itemLine (texts : List String) :
    (String.join (texts.map fun s => "    " ++ quote s ++ ",\n")).toList = texts.flatMap itemLine := by
  induction texts with
  | nil => rfl
  | cons s texts ih =>
    rw [List.map_cons, String.join_cons, String.toList_append, ih]
    simp [itemLine, quote]

theorem toList_quoteAll_one (s : String) :
    (quoteAll [s]).toList = '[' :: (quoteChars s.toList ++ [']']) := by
  simp [quoteAll, quote]

theorem toList_quoteAll_many {texts : List String} (h : 1 < texts.length) :
    (quoteAll texts).toList = '[' :: '\n' :: (texts.flatMap itemLine ++ [']']) := by
  rw [quoteAll, String.toList_append, String.toList_append, toList_join_itemLine]
  · rfl
  · rintro rfl
    simp at h
  · rintro s rfl
    simp at h

theorem quoteAll_starts (texts : List String) : ∃ more, (quoteAll texts).toList = '[' :: more := by
  rcases texts with _ | ⟨s, _ | ⟨t, texts⟩⟩
  · exact ⟨_, rfl⟩
  · exact ⟨_, toList_quoteAll_one s⟩
  · exact ⟨_, toList_quoteAll_many (by simp)⟩

theorem value?_openBracket {items : List Toml} {rest' : List Char}
    (h : ∀ fuel, rest.length < fuel →
      listed? (value? depth) ']' fuel rest = some (items, rest')) :
    value? (depth + 1) ('[' :: rest) = some (.array items, rest') := by
  simp [value?, h (rest.length + 1) (Nat.lt_succ_self _)]

/-- A list of texts, with its brackets around nothing, around one text or around several lines. -/
theorem value?_quoteAll (texts : List String) (rest : List Char) :
    value? (depth + 1) ((quoteAll texts).toList ++ rest) =
      some (.array (texts.map .text), rest) := by
  have hbracket : IsSolid ']' := by decide
  rcases texts with _ | ⟨s, _ | ⟨t, texts⟩⟩
  · refine value?_openBracket fun fuel hfuel => ?_
    obtain ⟨fuel, rfl⟩ := Nat.exists_eq_add_of_lt hfuel
    exact listed?_end hbracket rest
  · have hitem := value?_quote (c := ']') (by decide) depth s rest
    obtain ⟨first, more, heq, hstarts⟩ := quoteChars_starts s.toList
    obtain ⟨hsolid, hne⟩ := isSolid_of_isQuote hstarts
    rw [toList_quoteAll_one, List.cons_append, List.append_assoc, List.cons_append, List.nil_append]
    rw [heq, List.cons_append] at hitem ⊢
    refine value?_openBracket fun fuel hfuel => ?_
    obtain ⟨fuel, rfl⟩ := Nat.exists_eq_add_of_lt hfuel
    exact listed?_last hbracket (skipLines?_solid hsolid _) hne hitem
  · have hlength := length_le_flatMap_itemLine (s :: t :: texts)
    rw [toList_quoteAll_many (by simp), List.cons_append, List.cons_append, List.append_assoc,
      List.cons_append, List.nil_append]
    refine value?_openBracket fun fuel hfuel => listed?_itemLine ?_ rest
    simp only [List.length_cons, List.length_append] at hlength hfuel ⊢
    omega

/-! ### Truth values -/

/-- How a truth value is written. -/
def boolChars (b : Bool) : List Char := (if b then "true" else "false").toList

theorem splitLiteral_boolChars (b : Bool) (rest : List Char) :
    splitLiteral (boolChars b ++ '\n' :: rest) = (boolChars b, '\n' :: rest) := by
  cases b <;> rfl

theorem literal?_boolChars (b : Bool) : literal? (boolChars b) = some (.bool b) := by
  cases b <;> rfl

theorem value?_boolChars (b : Bool) (rest : List Char) :
    value? depth (boolChars b ++ '\n' :: rest) = some (.bool b, '\n' :: rest) := by
  have hliteral : value? depth (boolChars b ++ '\n' :: rest) =
      (literal? (splitLiteral (boolChars b ++ '\n' :: rest)).1).map fun value =>
        (value, (splitLiteral (boolChars b ++ '\n' :: rest)).2) := by
    rw [value?.eq_def]
    cases b <;> rfl
  rw [hliteral, splitLiteral_boolChars, literal?_boolChars]
  rfl

end Toml
end CrossRef
