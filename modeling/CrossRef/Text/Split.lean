/-!
Texts cut at each occurrence of a character.
-/
namespace CrossRef
namespace Text

/-- The pieces between the occurrences of a character: one more than there are occurrences. -/
def cutAt (mark : Char) : List Char → List (List Char)
  | [] => [[]]
  | c :: cs =>
    if c = mark then [] :: cutAt mark cs
    else match cutAt mark cs with
      | [] => [[c]]
      | piece :: pieces => (c :: piece) :: pieces

/-- The pieces with a character between each two. -/
def joinWith (mark : Char) : List (List Char) → List Char
  | [] => []
  | [piece] => piece
  | piece :: pieces => piece ++ mark :: joinWith mark pieces

theorem cutAt_ne_nil (mark : Char) (cs : List Char) : cutAt mark cs ≠ [] := by
  cases cs with
  | nil => simp [cutAt]
  | cons c cs =>
    simp only [cutAt]
    split
    · simp
    · split <;> simp

/-- Cutting loses nothing. -/
theorem joinWith_cutAt (mark : Char) (cs : List Char) : joinWith mark (cutAt mark cs) = cs := by
  induction cs with
  | nil => rfl
  | cons c cs ih =>
    have h := cutAt_ne_nil mark cs
    simp only [cutAt]
    split
    · next hc => cases hp : cutAt mark cs with
      | nil => exact absurd hp h
      | cons piece pieces => simp [joinWith, hc, ← hp, ih]
    · cases hp : cutAt mark cs with
      | nil => exact absurd hp h
      | cons piece pieces =>
        rw [hp] at ih
        cases pieces with
        | nil => simpa [joinWith] using ih
        | cons => simpa [joinWith] using ih

theorem cutAt_append (mark : Char) (before after : List Char) :
    cutAt mark (before ++ mark :: after) = cutAt mark before ++ cutAt mark after := by
  induction before with
  | nil => simp [cutAt]
  | cons c rest ih =>
    simp only [List.cons_append, cutAt, ih]
    split
    · rfl
    · cases hrest : cutAt mark rest with
      | nil => exact absurd hrest (cutAt_ne_nil mark rest)
      | cons piece pieces => rfl

theorem cutAt_of_not_mem {mark : Char} {cs : List Char} (h : mark ∉ cs) : cutAt mark cs = [cs] := by
  induction cs with
  | nil => rfl
  | cons c rest ih =>
    obtain ⟨hc, hrest⟩ := not_or.mp fun hmem => h (List.mem_cons.mpr hmem)
    simp [cutAt, Ne.symm hc, ih hrest]

/-- The texts between the occurrences of a character. -/
def fields (mark : Char) (s : String) : List String := (cutAt mark s.toList).map String.ofList

end Text
end CrossRef
