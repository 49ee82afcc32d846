import CrossRef.Text.Digit
import Mathlib.Data.List.Basic

/-!
Numbers that are written in decimal digits.
-/
namespace CrossRef
namespace Text

theorem isAsciiDigit_of_mem_toDigits {n : Nat} {c : Char} (h : c ∈ Nat.toDigits 10 n) :
    isAsciiDigit c = true := by
  have hdigit := Nat.isDigit_of_mem_toDigits (by decide) (by decide) h
  simpa [Char.isDigit, isAsciiDigit, Char.le_def] using hdigit

theorem not_mem_toDigits {c : Char} (h : isAsciiDigit c = false) (n : Nat) :
    c ∉ Nat.toDigits 10 n := fun hmem => by
  simp [isAsciiDigit_of_mem_toDigits hmem] at h

theorem numeral_toDigits (n : Nat) : numeral 10 decimalDigit? (Nat.toDigits 10 n) = n := by
  have hdigits : ∀ c ∈ Nat.toDigits 10 n, decimalDigit? c = some (c.toNat - 48) := fun c hc => by
    simpa [isAsciiDigit, decimalDigit?] using isAsciiDigit_of_mem_toDigits hc
  have hfold : numeral 10 decimalDigit? (Nat.toDigits 10 n) =
      Nat.ofDigitChars 10 (Nat.toDigits 10 n) 0 := by
    rw [numeral, Nat.ofDigitChars_eq_foldl]
    refine List.foldl_ext _ _ _ fun m c hc => ?_
    rw [hdigits c hc, Nat.mul_comm]
    rfl
  rw [hfold, Nat.ofDigitChars_ten_toDigits]

theorem toDigits_injective : Function.Injective (Nat.toDigits 10) :=
  Function.LeftInverse.injective numeral_toDigits

end Text
end CrossRef
