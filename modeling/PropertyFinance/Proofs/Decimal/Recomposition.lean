import PropertyFinance.Proofs.Decimal.Checked

/-! Taking a part off a total and adding it again. The difference may be rounded, but a total of at
most 27 digits has two digits to spare: the error is at most half a unit at the places kept of the
sum, where the total is an even number of units, so the sum is rounded back to the total. -/

namespace PropertyFinance.Decimal
set_option autoImplicit false

/-- At most `n` significant digits. -/
def HasDigits (n : Nat) (x : ℚ) : Prop := ∃ m e : ℤ, |m| < 10 ^ n ∧ x = m * (10 : ℚ) ^ e

variable {x : ℚ} {k : Nat} {whole part : Decimal}

theorem HasDigits.neg {n : Nat} (h : HasDigits n x) : HasDigits n (-x) := by
  obtain ⟨m, e, hm, rfl⟩ := h
  exact ⟨-m, e, by rwa [abs_neg], by push_cast; ring⟩

/-- At one place less than would overflow, 27 digits end in a zero. -/
theorem HasDigits.exists_eq_ten_mul (h : HasDigits 27 x)
    (hlarge : (capacity : ℚ) - 6 ≤ x * 10 ^ (k + 1)) : ∃ n : ℤ, x * 10 ^ k = 10 * n := by
  obtain ⟨m, e, hm, rfl⟩ := h
  have hten : (10 : ℚ) ≠ 0 := by norm_num
  have hm' : (m : ℚ) < 10 ^ 27 := by exact_mod_cast lt_of_abs_lt hm
  have hexp : 1 ≤ e + k := by
    by_contra hsmall
    have hmul : (m : ℚ) * 10 ^ e * 10 ^ (k + 1) = m * 10 ^ (e + k + 1) := by
      rw [mul_assoc, ← zpow_natCast, ← zpow_add₀ hten]
      push_cast
      ring_nf
    have hpow : (10 : ℚ) ^ (e + k + 1) ≤ 10 ^ (1 : ℤ) :=
      zpow_le_zpow_right₀ (by norm_num) (by omega)
    have hle : (m : ℚ) * 10 ^ (e + k + 1) ≤ 10 ^ 27 * 10 ^ (1 : ℤ) :=
      mul_le_mul hm'.le hpow (by positivity) (by positivity)
    rw [hmul] at hlarge
    norm_num [capacity] at hlarge hle
    linarith
  obtain ⟨j, hj⟩ := Int.le.dest hexp
  refine ⟨m * 10 ^ j, ?_⟩
  rw [mul_assoc, ← zpow_natCast, ← zpow_add₀ hten, ← hj, zpow_add₀ hten]
  push_cast
  rw [zpow_natCast]
  ring

/-- No number of 27 digits is among the six largest whole ones. -/
theorem HasDigits.value_le (h : HasDigits 27 whole.value) : whole.value ≤ capacity - 6 := by
  by_contra hlarge
  rw [Rat.not_le] at hlarge
  obtain ⟨n, hn⟩ := h.exists_eq_ten_mul (k := 0) (by
    norm_num [capacity] at hlarge ⊢
    linarith)
  have hlt : whole.value < capacity := by
    have habs := abs_value whole
    have hm : (whole.mantissa : ℚ) < capacity := by exact_mod_cast whole.mantissa_lt
    have hpow : (1 : ℚ) ≤ 10 ^ whole.scale := one_le_pow₀ (by norm_num)
    refine lt_of_le_of_lt (le_abs_self _) (lt_of_le_of_lt ?_ hm)
    rw [habs]
    exact div_le_self (by positivity) hpow
  rw [pow_zero, mul_one] at hn
  rw [hn] at hlarge hlt
  norm_num [capacity] at hlarge hlt
  have h₁ : (7922816251426433759354395033 : ℤ) < n := by
    have : (7922816251426433759354395033 : ℚ) < n := by linarith
    exact_mod_cast this
  have h₂ : n < (7922816251426433759354395034 : ℤ) := by
    have : (n : ℚ) < 7922816251426433759354395034 := by linarith
    exact_mod_cast this
  omega

/-- A difference no larger than the part taken off keeps the places of both. -/
theorem nearest_sub_eq_self (hlt : whole.value < part.value) (hle : part.value ≤ 2 * whole.value) :
    nearest (whole.value - part.value) = whole.value - part.value := by
  have hscale (s : Nat) (hs : s ≤ maxScale) (hw : whole.scale ≤ s) (hp : part.scale ≤ s)
      (hsmall : (part.value - whole.value) * 10 ^ s < capacity) :
      nearest (whole.value - part.value) = whole.value - part.value := by
    have hint : (whole.value - part.value) * 10 ^ s
        = ((whole.signed * 10 ^ (s - whole.scale) - part.signed * 10 ^ (s - part.scale) : ℤ) : ℚ) := by
      push_cast
      rw [← value_mul_pow whole, ← value_mul_pow part, mul_assoc, mul_assoc, ← pow_add, ← pow_add,
        Nat.add_sub_cancel' hw, Nat.add_sub_cancel' hp, sub_mul]
    apply nearest_eq_self hint _ hs
    have hneg : (whole.value - part.value) * 10 ^ s ≤ 0 :=
      mul_nonpos_of_nonpos_of_nonneg (by linarith) (by positivity)
    rw [← Int.cast_lt (R := ℚ), Int.cast_abs, ← hint, abs_of_nonpos hneg]
    push_cast
    linarith
  have hbound (a : Decimal) (h : part.value - whole.value ≤ |a.value|) :
      (part.value - whole.value) * 10 ^ a.scale < capacity := by
    calc _ ≤ |a.value| * 10 ^ a.scale := mul_le_mul_of_nonneg_right h (by positivity)
      _ = a.mantissa := by rw [abs_value, div_mul_cancel₀ _ (by positivity)]
      _ < capacity := by exact_mod_cast a.mantissa_lt
  rcases le_total part.scale whole.scale with h | h
  · exact hscale whole.scale whole.scale_le (le_refl _) h
      (hbound whole ((by linarith : _ ≤ whole.value).trans (le_abs_self _)))
  · exact hscale part.scale part.scale_le h (le_refl _)
      (hbound part ((by linarith : _ ≤ part.value).trans (le_abs_self _)))

section Error
variable {p : Nat} {error : ℚ}

/-- The sum has no more places than the difference: next to its last place the total is a multiple
of a hundred units. -/
theorem places_add_error_le {n : ℤ} (hn : whole.value * 10 ^ p = 10 * n)
    (hlarge : (capacity : ℚ) - 1 / 2 ≤ whole.value * 10 ^ (p + 1))
    (herror : |error * 10 ^ p| ≤ 1 / 2) : places (whole.value + error) ≤ p := by
  by_contra hmore
  rw [not_le] at hmore
  have hat := (abs_le.mp herror).1
  have hfits := (fits_places_of_pos (Nat.zero_lt_of_lt hmore)).of_le (Nat.succ_le_of_lt hmore)
  have hsum : (whole.value + error) * 10 ^ (p + 1) = 100 * n + 10 * (error * 10 ^ p) := by
    rw [pow_succ, ← mul_assoc, add_mul, hn]
    ring
  have hlt : (whole.value + error) * 10 ^ (p + 1) < capacity - 1 / 2 :=
    lt_of_le_of_lt (mul_le_mul_of_nonneg_right (le_abs_self _) (by positivity)) hfits
  rw [hsum] at hlt
  rw [pow_succ, ← mul_assoc, hn] at hlarge
  norm_num [capacity] at hlt hlarge
  have h₁ : (792281625142643375935439503 : ℤ) < n := by
    have : (792281625142643375935439503 : ℚ) < n := by linarith
    exact_mod_cast this
  have h₂ : n < (792281625142643375935439504 : ℤ) := by
    have : (n : ℚ) < 792281625142643375935439504 := by linarith
    exact_mod_cast this
  omega

/-- The sum is rounded at places where the total is an even number of units. -/
theorem nearest_add_error (hdigits : HasDigits 27 whole.value) (hp : p < maxScale)
    (hlarge : (capacity : ℚ) - 1 / 2 ≤ whole.value * 10 ^ (p + 1))
    (herror : |error| ≤ 1 / 2 / 10 ^ p) : nearest (whole.value + error) = whole.value := by
  have hscaled {q : Nat} (hq : q ≤ p) : |error * 10 ^ q| ≤ 1 / 2 := by
    rw [abs_mul, abs_of_pos (by positivity : (0 : ℚ) < 10 ^ q)]
    calc |error| * 10 ^ q ≤ 1 / 2 / 10 ^ p * 10 ^ p :=
          mul_le_mul herror (pow_le_pow_right₀ (by norm_num) hq) (by positivity) (by positivity)
      _ = 1 / 2 := div_mul_cancel₀ _ (by positivity)
  obtain ⟨n, hn⟩ := hdigits.exists_eq_ten_mul (k := p) (by linarith)
  have hle := places_add_error_le hn hlarge (hscaled (le_refl p))
  rw [nearest]
  generalize hq : places (whole.value + error) = q at hle
  have hroom := not_fits_succ_of_lt (hq ▸ lt_of_le_of_lt hle hp) (le_refl maxScale)
  have herr := hscaled hle
  have hpos : 0 ≤ whole.value + error := by
    have hat := (abs_le.mp (hscaled (le_refl p))).1
    rw [pow_succ, ← mul_assoc] at hlarge
    norm_num [capacity] at hlarge
    apply nonneg_of_mul_nonneg_left (b := (10 : ℚ) ^ p) _ (by positivity)
    linarith
  rw [hq, abs_of_nonneg hpos, pow_succ, ← mul_assoc, add_mul] at hroom
  obtain ⟨j, hj⟩ := hdigits.exists_eq_ten_mul (k := q) (by
    rw [pow_succ, ← mul_assoc]
    linarith [(abs_le.mp herr).2])
  have heven : halfEven ((whole.value + error) * 10 ^ q) = 10 * j := by
    apply halfEven_eq_of_even (by omega)
    push_cast
    rwa [add_mul, hj, add_sub_cancel_left]
  rw [heven]
  push_cast
  rw [← hj, mul_div_cancel_right₀ _ (by positivity)]

end Error

/-- The part and the rounded rest come to the total. -/
theorem recompose_of_nonneg (hdigits : HasDigits 27 whole.value) (hpart : 0 ≤ part.value)
    (hbound : part.value ≤ 2 * whole.value ∨ |whole.value - part.value| < 79 / 10) :
    nearest (part.value + nearest (whole.value - part.value)) = whole.value := by
  have hgrid := (onGrid_value whole).sub (onGrid_value part)
  by_cases hexact : nearest (whole.value - part.value) = whole.value - part.value
  · rw [hexact, add_sub_cancel, nearest_value]
  · have hle : part.value ≤ whole.value := by
      by_contra hlt
      rcases hbound with h | h
      · exact hexact (nearest_sub_eq_self (Rat.not_le.mp hlt) h)
      · exact hexact (hgrid.nearest_eq h)
    have hp := hgrid.places_lt hexact
    have hroom := not_fits_succ_of_lt hp (le_refl maxScale)
    rw [abs_of_nonneg (by linarith)] at hroom
    have herror := abs_nearest_sub_le_unit (whole.value - part.value)
    have hsum : part.value + nearest (whole.value - part.value) = whole.value +
        (nearest (whole.value - part.value) - (whole.value - part.value)) := by ring
    rw [hsum]
    apply nearest_add_error hdigits hp (hroom.trans _) herror
    exact mul_le_mul_of_nonneg_right (by linarith) (by positivity)

/-- The sum does not overflow, whatever the part. -/
theorem fits_recompose (hdigits : HasDigits 27 whole.value) (hwhole : 0 ≤ whole.value) (x : ℚ) :
    Fits (x + nearest (whole.value - x)) 0 := by
  have hle := hdigits.value_le
  have hunit : 1 / 2 / (10 : ℚ) ^ places (whole.value - x) ≤ 1 / 2 :=
    div_le_self (by norm_num) (one_le_pow₀ (by norm_num))
  have herror := abs_le.mp ((abs_nearest_sub_le_unit (whole.value - x)).trans hunit)
  rw [Fits, pow_zero, mul_one, abs_lt]
  norm_num [capacity] at hle ⊢
  constructor <;> linarith [herror.1, herror.2]

/-- A negative total is the mirror image of a positive one. -/
theorem recompose_of_nonpos (hdigits : HasDigits 27 whole.value)
    (hle : whole.value ≤ part.value) (hpart : part.value ≤ 0) :
    Fits (part.value + nearest (whole.value - part.value)) 0 ∧
      nearest (part.value + nearest (whole.value - part.value)) = whole.value := by
  have hmirror : part.value + nearest (whole.value - part.value)
      = -(part.negate.value + nearest (whole.negate.value - part.negate.value)) := by
    rw [value_negate, value_negate, neg_sub_neg, ← neg_sub, nearest_neg]
    ring
  have hdigits' : HasDigits 27 whole.negate.value := by
    rw [value_negate]
    exact hdigits.neg
  have hpart' : 0 ≤ part.negate.value ∧ part.negate.value ≤ whole.negate.value := by
    rw [value_negate, value_negate]
    constructor <;> linarith
  have hwhole' := hpart'.1.trans hpart'.2
  rw [hmirror]
  constructor
  · exact (fits_recompose hdigits' hwhole' _).of_abs_le (abs_neg _).le
  · rw [nearest_neg, recompose_of_nonneg hdigits' hpart'.1 (Or.inl (by linarith)), value_negate,
      neg_neg]

/-- The checked sum of the part and the rest, when they recompose. -/
theorem exists_add_eq {a b : Decimal} (h : Fits (a.value + b.value) 0 ∧
    nearest (a.value + b.value) = whole.value) : ∃ t, a.add b = .ok t ∧ t.Same whole := by
  obtain ⟨t, ht⟩ := add_isOk h.1
  exact ⟨t, ht, same_iff_value_eq.mpr ((value_add ht).trans h.2)⟩

end PropertyFinance.Decimal
