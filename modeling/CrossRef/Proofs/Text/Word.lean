import CrossRef.Text.Word

/-!
Whole words in a text. The search stops at the first place where one of the tokens stands as a word,
and of the tokens that stand there it takes the first of the list.
-/
namespace CrossRef
namespace Text

variable {token before found after cs : List Char}

/-- Between `before` and `after`, `found` is the token in some case, with a word boundary at both
ends. -/
structure IsWord (token before found after : List Char) : Prop where
  same : found.map fold = token.map fold
  starts : isBoundary before.getLast? (found ++ after).head?
  ends : isBoundary (before ++ found).getLast? after.head?

theorem IsWord.length_eq (h : IsWord token before found after) : found.length = token.length := by
  simpa using congrArg List.length h.same

theorem startsWithFolded_iff :
    startsWithFolded token cs ↔ (cs.take token.length).map fold = token.map fold := by
  induction token generalizing cs with
  | nil => simp [startsWithFolded]
  | cons t token ih =>
    cases cs with
    | nil => simp [startsWithFolded]
    | cons c cs =>
      rw [startsWithFolded, Bool.and_eq_true, decide_eq_true_iff, ih, List.length_cons,
        List.take_succ_cons, List.map_cons, List.map_cons, List.cons_eq_cons]
      exact and_congr_left fun _ => eq_comm

theorem isWordHere_iff :
    isWordHere before.getLast? token cs ↔
      ∃ found after, cs = found ++ after ∧ IsWord token before found after := by
  have hlast : (before ++ cs.take token.length).getLast? =
      (cs.take token.length).getLast?.or before.getLast? := List.getLast?_append
  rw [isWordHere, Bool.and_eq_true, Bool.and_eq_true, startsWithFolded_iff, ← hlast]
  constructor
  · rintro ⟨⟨hsame, hstarts⟩, hends⟩
    refine ⟨cs.take token.length, cs.drop token.length, (List.take_append_drop _ cs).symm, hsame, ?_,
      hends⟩
    rwa [List.take_append_drop]
  · rintro ⟨found, after, rfl, hword⟩
    rw [List.take_left' hword.length_eq, List.drop_left' hword.length_eq]
    exact ⟨⟨hword.same, hword.starts⟩, hword.ends⟩

/-- None of the tokens stands as a word between `before` and `cs`. -/
def NoWord (tokens : List (List Char)) (before cs : List Char) : Prop :=
  ∀ token ∈ tokens, isWordHere before.getLast? token cs = false

/-- The cut at a token that stands at the start of `cs`. -/
def cutAtStart (token before cs : List Char) : Cut :=
  ⟨before, cs.take token.length, cs.drop token.length⟩

/-- Either no token stands as a word anywhere, or there is a first place where one does, and the text is
cut there. -/
theorem cutFrom_cases (tokens : List (List Char)) (seen cs : List Char) :
    (cutFrom tokens seen cs = none ∧
      ∀ p q, cs = p ++ q → NoWord tokens (seen.reverse ++ p) q) ∨
    ∃ p q token, cs = p ++ q ∧
      (tokens.find? fun t => isWordHere (seen.reverse ++ p).getLast? t q) = some token ∧
      (∀ p' q', cs = p' ++ q' → p'.length < p.length → NoWord tokens (seen.reverse ++ p') q') ∧
      cutFrom tokens seen cs = some (cutAtStart token (seen.reverse ++ p) q) := by
  have hseen : seen.head? = (seen.reverse ++ []).getLast? := by simp
  induction cs generalizing seen with
  | nil =>
    rw [cutFrom, hseen]
    cases hfind : tokens.find? fun t => isWordHere (seen.reverse ++ []).getLast? t [] with
    | none =>
      refine .inl ⟨rfl, fun p q hpq token htoken => ?_⟩
      obtain ⟨rfl, rfl⟩ := List.append_eq_nil_iff.mp hpq.symm
      simpa using List.find?_eq_none.mp hfind token htoken
    | some token =>
      exact .inr ⟨[], [], token, rfl, hfind, by simp, by simp [cutAtStart]⟩
  | cons c rest ih =>
    rw [cutFrom, hseen]
    cases hfind : tokens.find? fun t => isWordHere (seen.reverse ++ []).getLast? t (c :: rest) with
    | some token =>
      exact .inr ⟨[], c :: rest, token, rfl, hfind, by simp, by simp [cutAtStart]⟩
    | none =>
      have hhere : NoWord tokens (seen.reverse ++ []) (c :: rest) := fun token htoken => by
        simpa using List.find?_eq_none.mp hfind token htoken
      have hmoved : ∀ p, (c :: seen).reverse ++ p = seen.reverse ++ c :: p := by simp
      rcases ih (c :: seen) (by simp) with ⟨hnone, hno⟩ | ⟨p, q, token, hpq, hfound, hfirst, hcut⟩
      · refine .inl ⟨hnone, fun p q hpq => ?_⟩
        cases p with
        | nil =>
          obtain rfl := hpq
          exact hhere
        | cons d p =>
          obtain ⟨rfl, hrest⟩ := List.cons_eq_cons.mp hpq
          rw [← hmoved]
          exact hno p q hrest
      · rw [hmoved] at hfound hcut
        refine .inr ⟨c :: p, q, token, by rw [hpq, List.cons_append], hfound, fun p' q' hpq' hlt => ?_,
          hcut⟩
        cases p' with
        | nil =>
          obtain rfl := hpq'
          exact hhere
        | cons d p' =>
          obtain ⟨rfl, hrest⟩ := List.cons_eq_cons.mp hpq'
          rw [← hmoved]
          exact hfirst p' q' hrest (Nat.lt_of_succ_lt_succ hlt)

end Text
end CrossRef
