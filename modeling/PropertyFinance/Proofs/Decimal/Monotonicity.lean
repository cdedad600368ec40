import PropertyFinance.Proofs.Agreement
import PropertyFinance.Proofs.Decimal.Checked

/-! Two runs of an operation with operands in order. Rounding is monotone, so the results are in the
same order. -/

namespace PropertyFinance
set_option autoImplicit false

namespace Decimal
variable {a a' b b' : Decimal}

/-- Not negative, and in order. -/
structure NonnegLe (a b : Decimal) : Prop where
  nonneg : 0 ≤ a.value
  le : a.value ≤ b.value

theorem nonnegLe_self (h : 0 ≤ a.value) : NonnegLe a a := ⟨h, le_refl _⟩

theorem add_monotone (ha : a.value ≤ a'.value) (hb : b.value ≤ b'.value) :
    Agree (a.add b) (a'.add b') fun x y => x.value ≤ y.value := by
  intro x y hx hy
  rw [value_add hx, value_add hy]
  exact nearest_mono (add_le_add ha hb)

theorem sub_monotone (ha : a.value ≤ a'.value) (hb : b'.value ≤ b.value) :
    Agree (a.sub b) (a'.sub b') fun x y => x.value ≤ y.value := by
  intro x y hx hy
  rw [value_sub hx, value_sub hy]
  exact nearest_mono (sub_le_sub ha hb)

theorem NonnegLe.add (ha : NonnegLe a a') (hb : NonnegLe b b') :
    Agree (a.add b) (a'.add b') NonnegLe := by
  intro x y hx hy
  constructor
  · rw [value_add hx]
    exact nearest_nonneg (add_nonneg ha.nonneg hb.nonneg)
  · exact add_monotone ha.le hb.le x y hx hy

theorem NonnegLe.mul (ha : NonnegLe a a') (hb : NonnegLe b b') :
    Agree (a.mul b) (a'.mul b') NonnegLe := by
  intro x y hx hy
  constructor
  · rw [value_mul hx]
    exact nearest_nonneg (mul_nonneg ha.nonneg hb.nonneg)
  · rw [value_mul hx, value_mul hy]
    apply nearest_mono
    exact mul_le_mul ha.le hb.le hb.nonneg (ha.nonneg.trans ha.le)

/-- A quotient falls as its divisor grows. -/
theorem NonnegLe.div (ha : NonnegLe a a') (hb : NonnegLe b' b) :
    Agree (a.div b) (a'.div b') fun x y => x.value ≤ y.value := by
  intro x y hx hy
  obtain ⟨-, hx⟩ := value_div hx
  obtain ⟨hne, hy⟩ := value_div hy
  rw [hx, hy]
  apply nearest_mono
  exact div_le_div₀ (ha.nonneg.trans ha.le) ha.le (lt_of_le_of_ne hb.nonneg hne.symm) hb.le

end Decimal

open Decimal

theorem percentToRate_monotone {p q : Decimal} (h : p.value ≤ q.value) :
    Agree (percentToRate p) (percentToRate q) fun x y => x.value ≤ y.value := by
  intro x y hx hy
  rw [value_percentToRate hx, value_percentToRate hy]
  exact nearest_mono (by linarith)

end PropertyFinance
