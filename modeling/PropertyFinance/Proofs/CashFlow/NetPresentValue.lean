import PropertyFinance.CashFlow.Yield
import PropertyFinance.Proofs.Decimal.Value

/-! The exact present value of yearly flows, and the two sums that the solver computes in its place:
the flows discounted to the first period, and the flows compounded to the last one, which is the
present value times a power of the growth. -/

namespace PropertyFinance.Yield
open Decimal
set_option autoImplicit false

def netPresentValue (flows : List Decimal) (rate : ℚ) : ℚ :=
  (flows.mapIdx fun t flow => flow.value / (1 + rate) ^ t).sum

/-- The flows from period `t` on, discounted by powers of a factor. -/
def discountedSum (i : ℚ) : List Decimal → Nat → ℚ
  | [], _ => 0
  | flow :: rest, t => flow.value * i ^ t + discountedSum i rest (t + 1)

/-- The flows compounded to the last period, on top of what has been compounded before. -/
def compoundedSum (g : ℚ) : List Decimal → ℚ → ℚ
  | [], total => total
  | flow :: rest, total => compoundedSum g rest (total * g + flow.value)

/-- The sizes of the flows, weighted by the powers of a factor. -/
def weight (flows : List Decimal) (j : ℚ) : ℚ :=
  (flows.mapIdx fun t flow => |flow.value| * j ^ t).sum

variable {flows : List Decimal} {i g rate : ℚ}

theorem sum_mapIdx_eq (f : Decimal → Decimal) (i : ℚ) (flows : List Decimal) (t : Nat) :
    (flows.mapIdx fun k flow => (f flow).value * i ^ (t + k)).sum
      = discountedSum i (flows.map f) t := by
  induction flows generalizing t with
  | nil => rfl
  | cons flow rest ih =>
    rw [List.mapIdx_cons, List.sum_cons, add_zero, List.map_cons, discountedSum, ← ih]
    simp only [add_assoc, add_comm 1]

theorem netPresentValue_eq (flows : List Decimal) (rate : ℚ) :
    netPresentValue flows rate = discountedSum (1 / (1 + rate)) flows 0 := by
  have h := sum_mapIdx_eq id (1 / (1 + rate)) flows 0
  rw [List.map_id] at h
  rw [← h, netPresentValue]
  simp only [zero_add, inv_pow, id_eq, div_eq_mul_inv, one_mul]

theorem weight_eq (flows : List Decimal) (j : ℚ) :
    weight flows j = discountedSum j (flows.map Decimal.abs) 0 := by
  rw [← sum_mapIdx_eq, weight]
  simp only [zero_add, value_abs]

/-- Compounding keeps the ratio of the total to the value of the flows taken so far. -/
theorem mul_compoundedSum (hg : g ≠ 0) {t : Nat} {total worth : ℚ}
    (h : g * total = g ^ t * worth) :
    g * compoundedSum g flows total
      = g ^ (t + flows.length) * (worth + discountedSum (1 / g) flows t) := by
  induction flows generalizing t total worth with
  | nil => simpa [compoundedSum, discountedSum] using h
  | cons flow rest ih =>
    have hnext : g * (total * g + flow.value)
        = g ^ (t + 1) * (worth + flow.value * (1 / g) ^ t) := by
      rw [mul_add, mul_comm total, ← mul_assoc g g, mul_assoc g g total, h, mul_add, one_div,
        inv_pow, pow_succ]
      field_simp
    rw [compoundedSum, ih hnext, List.length_cons, discountedSum, add_assoc worth,
      show t + 1 + rest.length = t + (rest.length + 1) by omega]

theorem compoundedSum_eq (hne : flows ≠ []) (hg : 1 + rate ≠ 0) :
    compoundedSum (1 + rate) flows 0
      = (1 + rate) ^ (flows.length - 1) * netPresentValue flows rate := by
  have h : (1 + rate) * compoundedSum (1 + rate) flows 0
      = (1 + rate) ^ (0 + flows.length) * (0 + discountedSum (1 / (1 + rate)) flows 0) :=
    mul_compoundedSum hg (by ring)
  have hlen : flows.length = flows.length - 1 + 1 := by
    have := List.length_pos_iff.mpr hne
    omega
  rw [zero_add, zero_add, ← netPresentValue_eq, hlen, pow_succ', mul_assoc] at h
  rw [hlen, Nat.add_sub_cancel]
  exact mul_left_cancel₀ hg h

end PropertyFinance.Yield
