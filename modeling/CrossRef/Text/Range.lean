/-!
Look-up in tables of code points. The tables are in rising order, so a look-up ends at the first
range past the code point.
-/
namespace CrossRef
namespace Text

/-- Does one of the ranges hold the code point? -/
def inRanges : List (Nat × Nat) → Nat → Bool
  | [], _ => false
  | (first, last) :: rest, n => first ≤ n && (n ≤ last || inRanges rest n)

/-- What the runs `(first, last, step, target)` map the code point to, if they do. -/
def inRuns? : List (Nat × Nat × Nat × Nat) → Nat → Option Nat
  | [], _ => none
  | (first, last, step, target) :: rest, n =>
    if n < first then none
    else if n ≤ last then
      if (n - first) % step = 0 then some (target + (n - first)) else none
    else inRuns? rest n

end Text
end CrossRef
