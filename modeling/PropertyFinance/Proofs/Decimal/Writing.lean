import PropertyFinance.Proofs.Decimal.Checked

/-! The sign and the places with which a sum is written. They follow from the exact sum and from the places
of the operands. -/

namespace PropertyFinance.Decimal
set_option autoImplicit false

variable {a b c : Decimal} {m s : Nat} {negative : Bool} {x : ℚ}

theorem eq_of_value_eq (hvalue : a.value = b.value) (hscale : a.scale = b.scale)
    (hnegative : a.negative = b.negative) : a = b := by
  have hmantissa : (a.mantissa : ℚ) = b.mantissa := by
    have habs : |a.value| = |b.value| := by rw [hvalue]
    rw [abs_value, abs_value, hscale] at habs
    exact (div_left_inj' (by positivity)).mp habs
  have hmantissa : a.mantissa = b.mantissa := by exact_mod_cast hmantissa
  obtain ⟨negative, mantissa, scale, _, _⟩ := a
  cases hnegative
  cases hscale
  cases hmantissa
  rfl

theorem written_ofParts (h : ofParts? negative m s = some c) : c.negative = negative ∧ c.scale = s := by
  unfold ofParts? at h
  split at h
  case isFalse => cases h
  case isTrue =>
    obtain rfl := Option.some.inj h
    exact ⟨rfl, rfl⟩

theorem negative_fit (h : fit negative m s = some c) : c.negative = negative := by
  obtain ⟨k, -, h⟩ := Option.bind_eq_some_iff.mp h
  dsimp only at h
  split at h
  case isTrue =>
    split at h
    case isTrue => cases h
    case isFalse => exact (written_ofParts h).1
  case isFalse => exact (written_ofParts h).1

/-- As many places as are given and as the whole part leaves room for. -/
theorem scale_fit (h : fit negative m s = some c) : c.scale = min s (places (m / 10 ^ s)) := by
  unfold fit at h
  obtain ⟨k, hk, h⟩ := Option.bind_eq_some_iff.mp h
  obtain ⟨hlow, hhigh, hm⟩ := leastDrop_le hk
  have hks : k ≤ s := by omega
  dsimp only at h
  split at h
  case isTrue hround =>
    split at h
    case isTrue => cases h
    case isFalse hsk =>
      have hks' : k < s := by omega
      have hnot : ¬ Fits (m / 10 ^ s) (s - k - 1 + 1) := by
        rw [show s - k - 1 + 1 = s - k by omega, fits_scaled_iff hks, hround]
        exact Nat.lt_irrefl _
      have hfits : Fits (m / 10 ^ s) (s - k - 1) := by
        have hdigit : (m : ℚ) / 10 ^ s * 10 ^ (s - k - 1) = m / 10 ^ k / 10 := by
          rw [← scaled_mul_pow hks, show s - k = s - k - 1 + 1 by omega, pow_succ, ← mul_assoc,
            mul_div_cancel_right₀ _ (by norm_num), Nat.add_sub_cancel]
        have hhigh : (m / 10 ^ k : ℚ) < capacity := by
          rw [div_lt_iff₀ (by positivity), ← cast_tenTo]
          exact_mod_cast hm
        rw [Fits, abs_scaled, hdigit]
        norm_num [capacity] at hhigh ⊢
        linarith
      rw [(written_ofParts h).2, places_eq hfits (by omega) (Or.inr hnot)]
      omega
  case isFalse hround =>
    obtain ⟨-, hlt, hscale⟩ := value_ofParts h
    have hfits := (fits_scaled_iff hks).mpr hlt
    rw [(written_ofParts h).2]
    rcases Nat.eq_zero_or_pos k with rfl | hpos
    · exact (min_eq_left (le_places hfits hscale)).symm
    · have hmax : s - k = maxScale ∨ ¬ Fits (m / 10 ^ s) (s - k + 1) := by
        rcases Nat.eq_or_lt_of_le hlow with heq | hlt'
        · exact Or.inl (by omega)
        · right
          have hdrop := le_of_lt_leastDrop hk (j := k - 1) (by omega) (by omega)
          have hnot := not_fits_scaled (show k - 1 < s by omega) hdrop
          rwa [show s - (k - 1) = s - k + 1 by omega] at hnot
      rw [places_eq hfits hscale hmax]
      omega

section Add
variable (ha : a.isZero = false) (hb : b.isZero = false) (h : a.add? b = some c)
include ha hb h

theorem negative_add? : c.negative = decide (a.value + b.value < 0) := by
  rw [add?, ha, hb, if_neg Bool.false_ne_true, if_neg Bool.false_ne_true] at h
  rw [negative_fit h]
  congr 1
  have hpow : (0 : ℚ) < 10 ^ max a.scale b.scale := by positivity
  rw [← Int.cast_lt_zero (R := ℚ), value_aligned, eq_iff_iff]
  exact ⟨fun hneg => neg_of_mul_neg_left hneg hpow.le, fun hneg => mul_neg_of_neg_of_pos hneg hpow⟩

theorem scale_add? : c.scale = min (max a.scale b.scale) (places (a.value + b.value)) := by
  rw [add?, ha, hb, if_neg Bool.false_ne_true, if_neg Bool.false_ne_true] at h
  rw [scale_fit h, Nat.cast_natAbs, Int.cast_abs, value_aligned, abs_mul, mul_div_assoc,
    abs_of_pos (by positivity : (0 : ℚ) < 10 ^ max a.scale b.scale), div_self (by positivity), mul_one,
    places_abs]

end Add

/-- The sign of a sum that is not zero is no sign of a zero. -/
theorem value_neg_of_add? (ha : a.isZero = false) (hb : b.isZero = false) (h : a.add? b = some c)
    (hnegative : c.negative = true) : c.value < 0 := by
  rw [negative_add? ha hb h, decide_eq_true_iff] at hnegative
  have hgrid : OnGrid (-(a.value + b.value)) := ((onGrid_value a).add (onGrid_value b)).neg
  have hpos := hgrid.nearest_pos (by linarith)
  rw [nearest_neg] at hpos
  rw [value_add? h]
  linarith

end PropertyFinance.Decimal
