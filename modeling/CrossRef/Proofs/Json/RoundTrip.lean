import CrossRef.Json.Reader
import CrossRef.Json.Writer
import CrossRef.Proofs.Text.Digit
import Mathlib.Data.List.Basic

/-!
Values that are read as they were written. All values are but those with other numbers than natural
ones and those with unpaired surrogates, which are not written as they are.
-/
namespace CrossRef
namespace Json

open Text

variable {rest : List Char} {value : Json}

/-! ### Texts -/

theorem hexDigit?_hexLetter : ∀ n < 16, hexDigit? (hexLetter n) = some n := by decide

/-- A control character is read from its number. -/
theorem hexQuad?_hexLetter {c : Char} (hc : c.toNat < 0x20) (rest : List Char) :
    hexQuad? ('0' :: '0' :: hexLetter (c.toNat / 16) :: hexLetter (c.toNat % 16) :: rest) =
      some (c.toNat, rest) := by
  have hzero : hexDigit? '0' = some 0 := by decide
  simp only [hexQuad?, hzero, hexDigit?_hexLetter (c.toNat / 16) (by omega),
    hexDigit?_hexLetter (c.toNat % 16) (by omega)]
  congr 2
  omega

/-- A character is read from what is written for it. -/
theorem textUnits_quotedChar {fuel : Nat} {units : Units} {left : List Char} (c : Char)
    (h : textUnits fuel none rest = some (units, left)) :
    textUnits (fuel + 1) none (quotedChar c ++ rest) = some (some c :: units, left) := by
  unfold quotedChar
  split_ifs with hquote hslash hback hfeed hline hreturn htab hcontrol
  case pos => subst hquote; simp [textUnits, escapedChar?, h]
  case pos => subst hslash; simp [textUnits, escapedChar?, h]
  case pos => subst hback; simp [textUnits, escapedChar?, h]
  case pos => subst hfeed; simp [textUnits, escapedChar?, h]
  case pos => subst hline; simp [textUnits, escapedChar?, h]
  case pos => subst hreturn; simp [textUnits, escapedChar?, h]
  case pos => subst htab; simp [textUnits, escapedChar?, h]
  case pos =>
    have hhigh : isHighSurrogate c.toNat = false := by simp [isHighSurrogate]; omega
    have hlow : isLowSurrogate c.toNat = false := by simp [isLowSurrogate]; omega
    simp [textUnits, hexQuad?_hexLetter hcontrol, hhigh, hlow, h]
  case neg => simp [textUnits, hquote, hslash, hcontrol, h]

theorem textUnits_written (cs : List Char) (rest : List Char) {fuel : Nat} (hfuel : cs.length < fuel) :
    textUnits fuel none (cs.flatMap quotedChar ++ '"' :: rest) = some (cs.map some, rest) := by
  induction cs generalizing fuel with
  | nil =>
    obtain ⟨fuel, rfl⟩ : ∃ n, fuel = n + 1 := ⟨fuel - 1, by simp at hfuel; omega⟩
    simp [textUnits]
  | cons c cs ih =>
    obtain ⟨fuel, rfl⟩ : ∃ n, fuel = n + 1 := ⟨fuel - 1, by simp at hfuel; omega⟩
    rw [List.flatMap_cons, List.append_assoc]
    exact textUnits_quotedChar c (ih (by simpa using hfuel))

theorem length_le_length_quoted (cs : List Char) : cs.length ≤ (cs.flatMap quotedChar).length := by
  have hpos : ∀ c, 0 < (quotedChar c).length := by
    intro c
    unfold quotedChar
    split_ifs <;> simp
  induction cs with
  | nil => simp
  | cons c cs ih =>
    have hc := hpos c
    simp only [List.flatMap_cons, List.length_append, List.length_cons]
    omega

theorem wholeText?_map_some (cs : List Char) : wholeText? (cs.map some) = some (String.ofList cs) := by
  have hall : (cs.map some).mapM id = some cs := by
    induction cs with
    | nil => rfl
    | cons c cs ih => simp [ih]
  rw [wholeText?, hall, Option.map_some]

/-- A text is read from what is written for it after the opening quote. -/
theorem text?_written (s : String) (rest : List Char) :
    text? (s.toList.flatMap quotedChar ++ '"' :: rest) = some (some s, rest) := by
  have hle := length_le_length_quoted s.toList
  rw [text?, textUnits_written _ _ (by simp only [List.length_append, List.length_cons]; omega),
    Option.map_some]
  simp only [wholeText?_map_some, String.ofList_toList]

/-! ### Numbers -/

/-- What may stand after a number: nothing that would belong to the number. -/
def EndsNumber (rest : List Char) : Prop :=
  ∀ c ∈ rest.head?, isAsciiDigit c = false ∧ c ≠ '.' ∧ c ≠ 'e' ∧ c ≠ 'E'

/-- A number that is written with a zero first is zero. -/
theorem eq_zero_of_head?_toDigits {n : Nat} (h : (Nat.toDigits 10 n).head? = some '0') : n = 0 := by
  have hdigit : ∀ m < 10, [m.digitChar].head? = some '0' → m = 0 := by decide
  induction n using Nat.strongRecOn with
  | ind n ih =>
    by_cases hn : n < 10
    · exact hdigit n hn (Nat.toDigits_of_lt_base hn ▸ h)
    · rw [Nat.toDigits_of_base_le (by decide) (by omega), List.head?_append_of_ne_nil _ Nat.toDigits_ne_nil] at h
      have hzero := ih (n / 10) (by omega) h
      omega

theorem endsNumber_cons {c : Char} (h : isAsciiDigit c = false ∧ c ≠ '.' ∧ c ≠ 'e' ∧ c ≠ 'E')
    {rest : List Char} : EndsNumber (c :: rest) := by
  rintro d hd
  obtain rfl : c = d := by simpa using hd
  exact h

theorem number?_written (n : Nat) (h : EndsNumber rest) :
    number? ((toString n).toList ++ rest) = some (.natural n, rest) := by
  have hdigits : ∀ c ∈ Nat.toDigits 10 n, isAsciiDigit c = true := fun c => isAsciiDigit_of_mem_toDigits
  have hstop : rest.takeWhile isAsciiDigit = [] := by
    cases rest with
    | nil => rfl
    | cons c rest => simp [(h c rfl).1]
  have htake : (Nat.toDigits 10 n ++ rest).takeWhile isAsciiDigit = Nat.toDigits 10 n := by
    rw [List.takeWhile_append_of_pos hdigits, hstop, List.append_nil]
  have hsign : (Nat.toDigits 10 n ++ rest).head? ≠ some '-' := by
    rw [List.head?_append_of_ne_nil _ Nat.toDigits_ne_nil]
    intro hhead
    exact absurd (hdigits '-' (List.mem_of_mem_head? hhead)) (by decide)
  have hzeros : ((Nat.toDigits 10 n).isEmpty ||
      (decide ((Nat.toDigits 10 n).head? = some '0') && decide (1 < (Nat.toDigits 10 n).length))) =
        false := by
    rw [Bool.or_eq_false_iff, Bool.and_eq_false_imp]
    refine ⟨by simp, fun hhead => ?_⟩
    rw [eq_zero_of_head?_toDigits (of_decide_eq_true hhead)]
    decide
  have hlist : (toString n).toList = Nat.toDigits 10 n := Nat.toList_repr
  rw [hlist, number?]
  simp only [hsign, decide_false, Bool.false_eq_true, if_false, htake, hzeros, List.drop_left,
    numeral_toDigits]
  cases rest with
  | nil => simp
  | cons c rest =>
    obtain ⟨-, hpoint, hsmall, hcapital⟩ := h c rfl
    simp [hpoint, hsmall, hcapital]

/-! ### What is written for a value -/

/-- Values that are written as they are. -/
inductive Plain : Json → Prop
  | null : Plain .null
  | bool (value : Bool) : Plain (.bool value)
  | natural (n : Nat) : Plain (.natural n)
  | text (s : String) : Plain (.text s)
  | array {items : List Json} (h : ∀ item ∈ items, Plain item) : Plain (.array items)
  | object {members : List (String × Json)} (h : ∀ member ∈ members, Plain member.2) :
    Plain (.ofMembers members)

/-- The characters that a value is written with. -/
def chars (value : Json) : List Char := value.compact.toList

def quotedChars (s : String) : List Char := '"' :: (s.toList.flatMap quotedChar ++ ['"'])

def memberChars (member : String × Json) : List Char :=
  quotedChars member.1 ++ ':' :: chars member.2

/-- Characters with a comma between each two parts. -/
def separated : List (List Char) → List Char
  | [] => []
  | part :: rest => part ++ rest.flatMap fun part => ',' :: part

theorem separated_singleton (part : List Char) : separated [part] = part := by simp [separated]

theorem separated_cons (part next : List Char) (rest : List (List Char)) :
    separated (part :: next :: rest) = part ++ ',' :: separated (next :: rest) := by
  simp [separated]

theorem toList_join_commaJoin (pieces : List (List String)) :
    (String.join (commaJoin pieces)).toList =
      separated (pieces.map fun piece => (String.join piece).toList) := by
  cases pieces with
  | nil => rfl
  | cons piece rest =>
    simp [commaJoin, separated, List.flatMap_assoc, List.flatMap_map]

theorem compactItems_eq (items : List Json) : compactItems items = items.map compactPieces := by
  induction items with
  | nil => rfl
  | cons item rest ih => rw [compactItems, ih, List.map_cons]

theorem ofMembers_eq (members : List (String × Json)) :
    ofMembers members = .object (members.map fun member => (some member.1, member.2)) := rfl

theorem compactMembers_eq (members : List (String × Json)) :
    compactMembers (members.map fun member => (some member.1, member.2)) =
      members.map fun member => quote member.1 :: ":" :: compactPieces member.2 := by
  induction members with
  | nil => rfl
  | cons member rest ih =>
    rw [List.map_cons, compactMembers, ih, List.map_cons]
    rfl

theorem toList_quote (s : String) : (quote s).toList = quotedChars s := by
  simp [quote, quotedChars]

theorem chars_natural (n : Nat) : chars (.natural n) = Nat.toDigits 10 n := by
  simp [chars, compact, compactPieces]

theorem chars_text (s : String) : chars (.text s) = quotedChars s := by
  simp [chars, compact, compactPieces, toList_quote]

theorem chars_array (items : List Json) :
    chars (.array items) = '[' :: (separated (items.map chars) ++ [']']) := by
  rw [chars, compact, compactPieces, List.cons_append, String.join_cons, String.toList_append,
    String.join_append, String.toList_append, toList_join_commaJoin, compactItems_eq, List.map_map]
  rfl

theorem toList_join_member (member : String × Json) :
    (String.join (quote member.1 :: ":" :: compactPieces member.2)).toList = memberChars member := by
  rw [String.join_cons, String.toList_append, toList_quote, String.join_cons, String.toList_append]
  rfl

theorem chars_object (members : List (String × Json)) :
    chars (.ofMembers members) = '\x7b' :: (separated (members.map memberChars) ++ ['\x7d']) := by
  rw [chars, compact, ofMembers_eq, compactPieces, List.cons_append, String.join_cons,
    String.toList_append, String.join_append, String.toList_append, toList_join_commaJoin,
    compactMembers_eq, List.map_map, ← funext toList_join_member]
  rfl

/-! ### Values -/

/-- A value starts with a character that is no blank and closes no array. -/
def Starts (cs : List Char) : Prop := ∃ c rest, cs = c :: rest ∧ isBlank c = false ∧ c ≠ ']'

theorem Plain.starts (h : Plain value) : Starts (chars value) := by
  cases h with
  | null => exact ⟨'n', _, rfl, rfl, by decide⟩
  | bool b => cases b <;> exact ⟨_, _, rfl, rfl, by decide⟩
  | natural n =>
    obtain ⟨d, ds, hds⟩ := List.exists_cons_of_ne_nil (Nat.toDigits_ne_nil : Nat.toDigits 10 n ≠ [])
    have hdigit : isAsciiDigit d := isAsciiDigit_of_mem_toDigits (n := n) (by simp [hds])
    refine ⟨d, ds, by rw [chars_natural, hds], ?_, ?_⟩
    · simp only [isBlank, Bool.or_eq_false_iff, decide_eq_false_iff_not]
      refine ⟨⟨⟨?_, ?_⟩, ?_⟩, ?_⟩ <;> rintro rfl <;> exact absurd hdigit (by decide)
    · rintro rfl
      exact absurd hdigit (by decide)
  | text s => exact ⟨'"', _, chars_text s, rfl, by decide⟩
  | array h => exact ⟨'[', _, chars_array _, rfl, by decide⟩
  | object h => exact ⟨'\x7b', _, chars_object _, rfl, by decide⟩

theorem skipBlanks_cons {c : Char} (h : isBlank c = false) (rest : List Char) :
    skipBlanks (c :: rest) = c :: rest := by
  simp [skipBlanks, h]

theorem Starts.skipBlanks_append {cs : List Char} (h : Starts cs) (rest : List Char) :
    skipBlanks (cs ++ rest) = cs ++ rest := by
  obtain ⟨c, cs, rfl, hblank, -⟩ := h
  exact skipBlanks_cons hblank _

theorem Starts.length_pos {cs : List Char} (h : Starts cs) : 0 < cs.length := by
  obtain ⟨c, cs, rfl, -⟩ := h
  simp

/-- The value is read from what is written for it, whatever stands after it. -/
def ReadsBack (value : Json) : Prop :=
  ∀ fuel rest, (chars value).length < fuel → EndsNumber rest →
    value? fuel (chars value ++ rest) = some (value, rest)

/-- A value of an array or an object, up to what stands after it. -/
theorem ReadsBack.value?_skipBlanks (h : ReadsBack value) (hstart : Starts (chars value)) {fuel : Nat}
    (hfuel : (chars value).length < fuel) (hends : EndsNumber rest) :
    value? fuel (skipBlanks (chars value ++ rest)) = some (value, rest) := by
  rw [hstart.skipBlanks_append, h fuel rest hfuel hends]

theorem ReadsBack.items?_last (h : ReadsBack value) (hstart : Starts (chars value)) {fuel : Nat}
    (hfuel : (chars value).length < fuel) (rest : List Char) :
    items? (fuel + 1) (chars value ++ ']' :: rest) = some ([value], rest) := by
  rw [items?, h.value?_skipBlanks hstart hfuel (endsNumber_cons (by decide))]
  simp [skipBlanks, isBlank]

theorem ReadsBack.items?_next (h : ReadsBack value) (hstart : Starts (chars value)) {fuel : Nat}
    (hfuel : (chars value).length < fuel) (rest : List Char) :
    items? (fuel + 1) (chars value ++ ',' :: rest) =
      (items? fuel rest).map fun read => (value :: read.1, read.2) := by
  rw [items?, h.value?_skipBlanks hstart hfuel (endsNumber_cons (by decide))]
  simp [skipBlanks, isBlank]

theorem items?_written {items : List Json} (hne : items ≠ [])
    (hstarts : ∀ item ∈ items, Starts (chars item)) (hread : ∀ item ∈ items, ReadsBack item)
    {fuel : Nat} (hfuel : (separated (items.map chars)).length + 1 < fuel) (rest : List Char) :
    items? fuel (separated (items.map chars) ++ ']' :: rest) = some (items, rest) := by
  induction items generalizing fuel with
  | nil => exact absurd rfl hne
  | cons item more ih =>
    obtain ⟨fuel, rfl⟩ : ∃ n, fuel = n + 1 := ⟨fuel - 1, by omega⟩
    have hstart := hstarts item (by simp)
    have hitem := hread item (by simp)
    cases more with
    | nil =>
      simp only [List.map_cons, List.map_nil, separated_singleton] at hfuel ⊢
      exact hitem.items?_last hstart (by omega) rest
    | cons next more =>
      have hpos := hstart.length_pos
      have hseparated : separated ((item :: next :: more).map chars) =
          chars item ++ ',' :: separated ((next :: more).map chars) := separated_cons _ _ _
      rw [hseparated] at hfuel ⊢
      simp only [List.length_append, List.length_cons] at hfuel
      rw [List.append_assoc, List.cons_append, hitem.items?_next hstart (by omega),
        ih (by simp) (fun i hi => hstarts i (by simp [hi])) (fun i hi => hread i (by simp [hi]))
          (by omega)]
      rfl

section Member

variable (name : String)

theorem skipBlanks_memberChars (value : Json) (rest : List Char) :
    skipBlanks (memberChars (name, value) ++ rest) =
      '"' :: (name.toList.flatMap quotedChar ++ '"' :: ':' :: (chars value ++ rest)) := by
  simp [memberChars, quotedChars, skipBlanks, isBlank]

theorem ReadsBack.members?_last (h : ReadsBack value) (hstart : Starts (chars value)) {fuel : Nat}
    (hfuel : (chars value).length < fuel) (rest : List Char) :
    members? (fuel + 1) (memberChars (name, value) ++ '\x7d' :: rest) =
      some ([(some name, value)], rest) := by
  have hvalue : value? fuel (skipBlanks (chars value ++ '\x7d' :: rest)) = _ :=
    h.value?_skipBlanks hstart hfuel (endsNumber_cons (by decide))
  rw [members?, skipBlanks_memberChars]
  simp only [text?_written, skipBlanks_cons (show isBlank ':' = false from rfl), hvalue]
  simp [skipBlanks, isBlank]

theorem ReadsBack.members?_next (h : ReadsBack value) (hstart : Starts (chars value)) {fuel : Nat}
    (hfuel : (chars value).length < fuel) (rest : List Char) :
    members? (fuel + 1) (memberChars (name, value) ++ ',' :: rest) =
      (members? fuel rest).map fun read => ((some name, value) :: read.1, read.2) := by
  have hvalue : value? fuel (skipBlanks (chars value ++ ',' :: rest)) = _ :=
    h.value?_skipBlanks hstart hfuel (endsNumber_cons (by decide))
  rw [members?, skipBlanks_memberChars]
  simp only [text?_written, skipBlanks_cons (show isBlank ':' = false from rfl), hvalue]
  simp [skipBlanks, isBlank]

theorem length_lt_length_memberChars (value : Json) :
    (chars value).length < (memberChars (name, value)).length := by
  simp only [memberChars, quotedChars, List.length_append, List.length_cons]
  omega

end Member

theorem members?_written {members : List (String × Json)} (hne : members ≠ [])
    (hstarts : ∀ member ∈ members, Starts (chars member.2))
    (hread : ∀ member ∈ members, ReadsBack member.2) {fuel : Nat}
    (hfuel : (separated (members.map memberChars)).length + 1 < fuel) (rest : List Char) :
    members? fuel (separated (members.map memberChars) ++ '\x7d' :: rest) =
      some (members.map fun member => (some member.1, member.2), rest) := by
  induction members generalizing fuel with
  | nil => exact absurd rfl hne
  | cons member more ih =>
    obtain ⟨name, value⟩ := member
    obtain ⟨fuel, rfl⟩ : ∃ n, fuel = n + 1 := ⟨fuel - 1, by omega⟩
    have hstart : Starts (chars value) := hstarts (name, value) (by simp)
    have hvalue : ReadsBack value := hread (name, value) (by simp)
    have hlength := length_lt_length_memberChars name value
    cases more with
    | nil =>
      simp only [List.map_cons, List.map_nil, separated_singleton] at hfuel ⊢
      exact hvalue.members?_last name hstart (by omega) rest
    | cons next more =>
      have hseparated : separated (((name, value) :: next :: more).map memberChars) =
          memberChars (name, value) ++ ',' :: separated ((next :: more).map memberChars) :=
        separated_cons _ _ _
      rw [hseparated] at hfuel ⊢
      simp only [List.length_append, List.length_cons] at hfuel
      rw [List.append_assoc, List.cons_append, hvalue.members?_next name hstart (by omega),
        ih (by simp) (fun i hi => hstarts i (by simp [hi])) (fun i hi => hread i (by simp [hi]))
          (by omega)]
      rfl

theorem readsBack_natural (n : Nat) : ReadsBack (.natural n) := by
  intro fuel rest hfuel hends
  obtain ⟨fuel, rfl⟩ : ∃ k, fuel = k + 1 := ⟨fuel - 1, by omega⟩
  obtain ⟨d, ds, hds⟩ := List.exists_cons_of_ne_nil (Nat.toDigits_ne_nil : Nat.toDigits 10 n ≠ [])
  have hdigit : isAsciiDigit d = true := isAsciiDigit_of_mem_toDigits (n := n) (by simp [hds])
  have hne : ∀ c, isAsciiDigit c = false → d ≠ c := by
    rintro c hc rfl
    simp [hdigit] at hc
  have hnumber := number?_written n hends
  rw [show (toString n).toList = d :: ds from Nat.toList_repr.trans hds] at hnumber
  rw [chars_natural, hds, List.cons_append, value?]
  simpa [hne '\x7b' rfl, hne '[' rfl, hne '"' rfl, hne 't' rfl, hne 'f' rfl, hne 'n' rfl]
    using hnumber

theorem readsBack_text (s : String) : ReadsBack (.text s) := by
  intro fuel rest hfuel _
  obtain ⟨fuel, rfl⟩ : ∃ k, fuel = k + 1 := ⟨fuel - 1, by omega⟩
  rw [chars_text, quotedChars, List.cons_append, List.append_assoc, value?]
  simp [text?_written, ofText?]

theorem readsBack_array {items : List Json} (hstarts : ∀ item ∈ items, Starts (chars item))
    (hread : ∀ item ∈ items, ReadsBack item) : ReadsBack (.array items) := by
  intro fuel rest hfuel _
  obtain ⟨fuel, rfl⟩ : ∃ k, fuel = k + 1 := ⟨fuel - 1, by omega⟩
  rw [chars_array] at hfuel ⊢
  simp only [List.length_cons, List.length_append, List.length_nil] at hfuel
  cases items with
  | nil => simp [separated, value?, skipBlanks, isBlank]
  | cons item more =>
    have hitems : items? fuel (separated ((item :: more).map chars) ++ ']' :: rest) =
        some (item :: more, rest) := items?_written (by simp) hstarts hread (by omega) rest
    obtain ⟨c, cs, hc, hblank, hclose⟩ := hstarts item (by simp)
    have hfirst : ∃ tail, separated ((item :: more).map chars) ++ ']' :: rest = c :: tail := by
      simp [separated, hc]
    obtain ⟨tail, htail⟩ := hfirst
    rw [htail] at hitems
    rw [List.cons_append, List.append_assoc, List.singleton_append, htail]
    simp [value?, skipBlanks_cons hblank, hclose, hitems]

theorem readsBack_object {members : List (String × Json)}
    (hstarts : ∀ member ∈ members, Starts (chars member.2))
    (hread : ∀ member ∈ members, ReadsBack member.2) : ReadsBack (.ofMembers members) := by
  intro fuel rest hfuel _
  obtain ⟨fuel, rfl⟩ : ∃ k, fuel = k + 1 := ⟨fuel - 1, by omega⟩
  rw [chars_object] at hfuel ⊢
  simp only [List.length_cons, List.length_append, List.length_nil] at hfuel
  cases members with
  | nil => simp [separated, value?, skipBlanks, isBlank, ofMembers_eq]
  | cons member more =>
    have hmembers : members? fuel (separated ((member :: more).map memberChars) ++ '\x7d' :: rest) =
        some ((member :: more).map fun member => (some member.1, member.2), rest) :=
      members?_written (by simp) hstarts hread (by omega) rest
    have hfirst : ∃ tail, separated ((member :: more).map memberChars) ++ '\x7d' :: rest =
        '"' :: tail := by
      simp [separated, memberChars, quotedChars]
    obtain ⟨tail, htail⟩ := hfirst
    rw [htail] at hmembers
    rw [List.cons_append, List.append_assoc, List.singleton_append, htail]
    simp [value?, skipBlanks, isBlank, hmembers, ofMembers_eq]

/-- Every value that is written as it is reads back from its characters. -/
theorem Plain.readsBack (h : Plain value) : ReadsBack value := by
  induction h with
  | null =>
    intro fuel rest hfuel _
    obtain ⟨fuel, rfl⟩ : ∃ k, fuel = k + 1 := ⟨fuel - 1, by omega⟩
    rfl
  | bool b =>
    intro fuel rest hfuel _
    obtain ⟨fuel, rfl⟩ : ∃ k, fuel = k + 1 := ⟨fuel - 1, by omega⟩
    cases b <;> rfl
  | natural n => exact readsBack_natural n
  | text s => exact readsBack_text s
  | array h ih => exact readsBack_array (fun item hitem => (h item hitem).starts) ih
  | object h ih => exact readsBack_object (fun member hmember => (h member hmember).starts) ih

/-- A value is read from its text. -/
theorem read?_compact (h : Plain value) : read? value.compact = some value := by
  have hread := h.readsBack ((chars value).length + 1) [] (Nat.lt_succ_self _) (by simp [EndsNumber])
  have hskip := h.starts.skipBlanks_append []
  rw [List.append_nil] at hread hskip
  rw [read?, show value.compact.toList = chars value from rfl]
  simp only [hskip, hread]
  rfl

end Json
end CrossRef
