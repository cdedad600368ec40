import Mathlib.Tactic
import PropertyFinance.Failure

/-! The rational number that a decimal stands for. The order of decimals is the order of these
numbers, whatever the scales and the signs of zeros. -/

namespace PropertyFinance
set_option autoImplicit false

theorem cast_tenTo (n : Nat) : ((tenTo n : Nat) : ℚ) = 10 ^ n := by
  change ((10 ^ n : Nat) : ℚ) = 10 ^ n
  push_cast
  rfl

namespace Decimal

variable {a b c : Decimal}

def value (a : Decimal) : ℚ := a.signed / 10 ^ a.scale

@[simp] theorem value_zero : zero.value = 0 := by norm_num [value, signed, zero]
@[simp] theorem value_one : one.value = 1 := by norm_num [value, signed, one]
@[simp] theorem value_two : two.value = 2 := by norm_num [value, signed, two]
@[simp] theorem value_twelve : twelve.value = 12 := by norm_num [value, signed, twelve]
@[simp] theorem value_hundred : hundred.value = 100 := by norm_num [value, signed, hundred]

@[simp] theorem signed_negate (a : Decimal) : a.negate.signed = -a.signed := by
  cases h : a.negative <;> simp [negate, signed, h]

@[simp] theorem value_negate (a : Decimal) : a.negate.value = -a.value := by
  rw [value, signed_negate, negate_scale, value]
  push_cast
  ring

theorem natAbs_signed (a : Decimal) : a.signed.natAbs = a.mantissa := by
  cases h : a.negative <;> simp [signed, h]

theorem abs_value (a : Decimal) : |a.value| = a.mantissa / 10 ^ a.scale := by
  rw [value, abs_div, abs_of_pos (by positivity : (0 : ℚ) < 10 ^ a.scale)]
  congr 1
  rw [← natAbs_signed a, Nat.cast_natAbs]
  push_cast
  rfl

@[simp] theorem value_abs (a : Decimal) : a.abs.value = |a.value| := by
  rw [abs_value]
  simp [value, signed, abs]

theorem isZero_iff : a.isZero = true ↔ a.value = 0 := by
  rw [← abs_eq_zero, abs_value, div_eq_zero_iff]
  simp [isZero]

theorem isZero_eq_false_iff : a.isZero = false ↔ a.value ≠ 0 := by
  rw [Ne, ← isZero_iff, Bool.not_eq_true]

/-- The shifted mantissa is the value in units of the new scale. -/
theorem shifted_eq (a : Decimal) (k : Nat) : (a.shifted k : ℚ) = a.value * 10 ^ (a.scale + k) := by
  rw [shifted, value]
  push_cast
  rw [cast_tenTo, pow_add]
  field_simp

theorem lt_iff_value_lt : a < b ↔ a.value < b.value := by
  rw [lt_iff, ← Int.cast_lt (R := ℚ), shifted_eq, shifted_eq, add_comm b.scale]
  exact mul_lt_mul_iff_left₀ (by positivity)

theorem le_iff_value_le : a ≤ b ↔ a.value ≤ b.value := by
  rw [← not_lt, lt_iff_value_lt, Rat.not_lt]

theorem same_iff_value_eq : a.Same b ↔ a.value = b.value := by
  rw [Same, ← Int.cast_inj (α := ℚ), shifted_eq, shifted_eq, add_comm b.scale]
  exact mul_left_inj' (by positivity)

theorem zero_lt_iff : zero < a ↔ 0 < a.value := by
  rw [lt_iff_value_lt, value_zero]

theorem lt_zero_iff : a < zero ↔ a.value < 0 := by
  rw [lt_iff_value_lt, value_zero]

theorem not_lt_zero_iff : ¬ a < zero ↔ 0 ≤ a.value := by
  rw [lt_zero_iff, Rat.not_lt]

theorem zero_le_iff : zero ≤ a ↔ 0 ≤ a.value := by
  rw [le_iff_value_le, value_zero]

theorem not_le_zero_iff : ¬ a ≤ zero ↔ 0 < a.value := by
  rw [le_iff_value_le, value_zero, Rat.not_le]

theorem value_nonneg_of_positive (h : a.negative = false) : 0 ≤ a.value := by
  rw [value, signed, h]
  have : (0 : ℚ) ≤ a.mantissa / 10 ^ a.scale := by positivity
  simpa using this

theorem value_nonpos_of_negative (h : a.negative = true) : a.value ≤ 0 := by
  rw [value, signed, h]
  have : (0 : ℚ) ≤ a.mantissa / 10 ^ a.scale := by positivity
  simpa [neg_div] using this

theorem value_min (a b : Decimal) : (a.min b).value = min a.value b.value := by
  unfold Decimal.min
  split
  case isTrue h => rw [min_eq_right (lt_iff_value_lt.mp h).le]
  case isFalse h => rw [min_eq_left (le_iff_value_le.mp (not_lt.mp h))]

theorem value_max (a b : Decimal) : (a.max b).value = max a.value b.value := by
  unfold Decimal.max
  split
  case isTrue h => rw [max_eq_right (lt_iff_value_lt.mp h).le]
  case isFalse h => rw [max_eq_left (le_iff_value_le.mp (not_lt.mp h))]

theorem value_clamp {low high : Decimal} (h : low.value ≤ high.value) (a : Decimal) :
    low.value ≤ (a.clamp low high).value ∧ (a.clamp low high).value ≤ high.value := by
  unfold clamp
  split_ifs with h₁ h₂
  · exact ⟨le_refl _, h⟩
  · exact ⟨h, le_refl _⟩
  · exact ⟨le_iff_value_le.mp (not_lt.mp h₁), le_iff_value_le.mp (not_lt.mp h₂)⟩

theorem value_ofParts {negative : Bool} {m s : Nat} (h : ofParts? negative m s = some c) :
    c.value = (if negative then -1 else 1) * (m / 10 ^ s) ∧ m < capacity ∧ s ≤ maxScale := by
  unfold ofParts? at h
  split at h
  case isFalse => simp at h
  case isTrue hfit =>
    obtain rfl := Option.some.inj h
    refine ⟨?_, hfit⟩
    cases negative <;> simp [value, signed, neg_div]

theorem value_ofScaled {n : Int} {s : Nat} (hn : n.natAbs < capacity) (hs : s ≤ maxScale) :
    (ofScaled n s).value = n / 10 ^ s := by
  have hp : ofParts? (n < 0) n.natAbs s = some ⟨n < 0, n.natAbs, s, hn, hs⟩ := by
    simp [ofParts?, hn, hs]
  rw [ofScaled, hp, Option.getD_some, value]
  congr 2
  simp only [signed, decide_eq_true_eq]
  split <;> omega

end Decimal

end PropertyFinance
