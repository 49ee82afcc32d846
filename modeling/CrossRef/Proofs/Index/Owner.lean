import CrossRef.Index.Equation
import CrossRef.Proofs.Dom.WellFormed

/-!
Owners of equations. The nearest identifier above a node stays the nearest one as long as nothing with
an identifier comes between, and it can only get out of reach.
-/
namespace CrossRef
namespace Index

open Markup Markup.Dom

variable {dom dom' : Dom} {i p : NodeId} {depth : Nat} {s : String}

theorem ownIdentifier?_congr
    (h : dom'.attribute? (some i) "id" = dom.attribute? (some i) "id") :
    ownIdentifier? dom' i = ownIdentifier? dom i := by
  rw [ownIdentifier?, h, ownIdentifier?]

/-- The nearest identifier is that of the node, or the nearest one of its parent. -/
theorem nearestIdentifier?_eq_some_iff : nearestIdentifier? dom depth i = some s ↔
    ownIdentifier? dom i = some s ∨ ownIdentifier? dom i = none ∧
      ∃ d p, depth = d + 1 ∧ dom.parent? (some i) = some p ∧ nearestIdentifier? dom d p = some s := by
  conv_lhs => unfold nearestIdentifier?
  cases ownIdentifier? dom i with
  | some t => simp
  | none =>
    cases hp : dom.parent? (some i) with
    | none => cases depth <;> simp
    | some p => cases depth <;> simp

theorem nearestIdentifier?_mono {depth' : Nat} (h : nearestIdentifier? dom depth i = some s)
    (hle : depth ≤ depth') : nearestIdentifier? dom depth' i = some s := by
  induction depth' generalizing i depth with
  | zero => rwa [Nat.le_zero.mp hle] at h
  | succ d' ih =>
    rw [nearestIdentifier?_eq_some_iff] at h ⊢
    refine h.imp_right fun ⟨hown, d, p, hd, hp, hnear⟩ => ⟨hown, d', p, rfl, hp, ih hnear (by omega)⟩

/-- Where nodes keep their identifiers and get no new parents, no new owner is found. -/
theorem nearestIdentifier?_of_keeps (hwf : dom.WellFormed)
    (hid : ∀ i < dom.size, dom'.attribute? (some i) "id" = dom.attribute? (some i) "id")
    (hparent : ∀ i p, i < dom.size → dom'.parent? (some i) = some p → dom.parent? (some i) = some p)
    (hi : i < dom.size) (h : nearestIdentifier? dom' depth i = some s) :
    nearestIdentifier? dom depth i = some s := by
  induction depth generalizing i with
  | zero =>
    rw [nearestIdentifier?_eq_some_iff, ownIdentifier?_congr (hid i hi)] at h
    rw [nearestIdentifier?_eq_some_iff]
    exact h.imp_right fun ⟨_, _, _, hd, _⟩ => absurd hd (by simp)
  | succ d ih =>
    rw [nearestIdentifier?_eq_some_iff, ownIdentifier?_congr (hid i hi)] at h
    rw [nearestIdentifier?_eq_some_iff]
    refine h.imp_right fun ⟨hown, d₀, p, hd, hp, hnear⟩ => ?_
    have hp' := hparent i p hi hp
    exact ⟨hown, d, p, rfl, hp', ih (hwf.parent_lt hp') (Nat.succ.inj hd ▸ hnear)⟩

end Index
end CrossRef
