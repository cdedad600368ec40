import PropertyFinance.Proofs.Decimal.Capacity

/-! Numbers with so many places after the point. Rounding keeps to the places, since it only drops some
of them, and does nothing to a number whose places and whole digits together are at most 28. -/

namespace PropertyFinance.Decimal
set_option autoImplicit false

/-- A multiple of `10 ^ -m`. -/
def HasPlaces (m : Nat) (x : ℚ) : Prop := ∃ n : ℤ, x * 10 ^ m = n

variable {x y : ℚ} {m k c : Nat}

theorem HasPlaces.add (hx : HasPlaces m x) (hy : HasPlaces m y) : HasPlaces m (x + y) := by
  obtain ⟨n, hn⟩ := hx
  obtain ⟨l, hl⟩ := hy
  exact ⟨n + l, by rw [add_mul, hn, hl]; push_cast; ring⟩

theorem HasPlaces.sub (hx : HasPlaces m x) (hy : HasPlaces m y) : HasPlaces m (x - y) := by
  obtain ⟨n, hn⟩ := hx
  obtain ⟨l, hl⟩ := hy
  exact ⟨n - l, by rw [sub_mul, hn, hl]; push_cast; ring⟩

theorem HasPlaces.mul (hx : HasPlaces m x) (hy : HasPlaces k y) : HasPlaces (m + k) (x * y) := by
  obtain ⟨n, hn⟩ := hx
  obtain ⟨l, hl⟩ := hy
  exact ⟨n * l, by rw [pow_add, mul_mul_mul_comm, hn, hl]; push_cast; ring⟩

theorem HasPlaces.mono (hx : HasPlaces m x) (hmk : m ≤ k) : HasPlaces k x := by
  obtain ⟨n, hn⟩ := hx
  refine ⟨n * 10 ^ (k - m), ?_⟩
  push_cast
  rw [← hn, mul_assoc, ← pow_add, Nat.add_sub_cancel' hmk]

theorem hasPlaces_zero (m : Nat) : HasPlaces m 0 := ⟨0, by simp⟩

theorem hasPlaces_one (m : Nat) : HasPlaces m 1 := ⟨10 ^ m, by push_cast; ring⟩

theorem HasPlaces.min (hx : HasPlaces m x) (hy : HasPlaces m y) : HasPlaces m (min x y) := by
  rcases min_choice x y with h | h <;> rwa [h]

theorem HasPlaces.nearest_eq_of_le (hx : HasPlaces m x) (hle : m ≤ places x) :
    Decimal.nearest x = x := by
  obtain ⟨n, hn⟩ := hx
  have hint : x * 10 ^ places x = ((n * 10 ^ (places x - m) : ℤ) : ℚ) := by
    push_cast
    rw [← hn, mul_assoc, ← pow_add, Nat.add_sub_cancel' hle]
  rw [Decimal.nearest, hint, halfEven_intCast, ← hint]
  exact mul_div_cancel_right₀ _ (by positivity)

theorem HasPlaces.nearest (hx : HasPlaces m x) : HasPlaces m (nearest x) := by
  rcases le_total m (places x) with hle | hle
  · rwa [hx.nearest_eq_of_le hle]
  · obtain ⟨n, hn⟩ := hx
    refine ⟨halfEven (x * 10 ^ places x) * 10 ^ (m - places x), ?_⟩
    have hpow : (10 : ℚ) ^ m = 10 ^ places x * 10 ^ (m - places x) := by
      rw [← pow_add, Nat.add_sub_cancel' hle]
    rw [Decimal.nearest, hpow, ← mul_assoc, div_mul_cancel₀ _ (by positivity)]
    push_cast
    rfl

theorem nearest_mul_pow (x : ℚ) : nearest x * 10 ^ places x = halfEven (x * 10 ^ places x) := by
  rw [Decimal.nearest, div_mul_cancel₀ _ (by positivity)]

/-- Rounding drops no more places the second time. -/
theorem places_le_places_nearest (x : ℚ) : places x ≤ places (nearest x) := by
  rcases Nat.eq_zero_or_pos (places x) with hzero | hpos
  · rw [hzero]
    exact Nat.zero_le _
  · have hfits := fits_places_of_pos hpos
    have hscaled := nearest_mul_pow |x|
    rw [places_abs] at hscaled
    apply le_places _ (places_le x)
    rw [fits_iff_halfEven_lt] at hfits ⊢
    rwa [abs_nearest, hscaled, halfEven_intCast]

@[simp] theorem nearest_nearest (x : ℚ) : Decimal.nearest (Decimal.nearest x) = Decimal.nearest x := by
  apply HasPlaces.nearest_eq_of_le _ (places_le_places_nearest x)
  exact ⟨_, nearest_mul_pow x⟩

/-- Few enough digits in all are not rounded. -/
theorem HasPlaces.nearest_eq (hx : HasPlaces m x) (hsize : |x| ≤ 10 ^ c) (hdigits : m + c ≤ 28) :
    Decimal.nearest x = x := by
  obtain ⟨n, hn⟩ := hx
  apply nearest_eq_self hn _ (by unfold maxScale; omega)
  have habs : (|n| : ℚ) ≤ 10 ^ 28 := by
    rw [← Int.cast_abs, Int.cast_abs, ← hn, abs_mul,
      abs_of_pos (by positivity : (0 : ℚ) < 10 ^ m)]
    calc |x| * 10 ^ m ≤ 10 ^ c * 10 ^ m := mul_le_mul_of_nonneg_right hsize (by positivity)
      _ = 10 ^ (m + c) := by rw [← pow_add, add_comm]
      _ ≤ 10 ^ 28 := pow_le_pow_right₀ (by norm_num) hdigits
  have habs' : |n| ≤ 10 ^ 28 := by exact_mod_cast habs
  exact lt_of_le_of_lt habs' (by norm_num [capacity])

/-- A decimal with another one added: either the sum loses a place that the second one is of about the
size of, or it is too small to matter and drops out. -/
theorem abs_nearest_add_sub_le_mul (a b : Decimal) :
    |Decimal.nearest (a.value + b.value) - (a.value + b.value)| ≤ 10 * |b.value| := by
  have hgrid := (onGrid_value a).add (onGrid_value b)
  by_cases hexact : Decimal.nearest (a.value + b.value) = a.value + b.value
  · rw [hexact, sub_self, abs_zero]
    positivity
  have hlt := hgrid.places_lt hexact
  have hunit := abs_nearest_sub_le_unit (a.value + b.value)
  have hlarge := not_fits_succ_of_lt hlt (le_refl _)
  have hpow : (0 : ℚ) < 10 ^ places (a.value + b.value) := by positivity
  generalize hp : places (a.value + b.value) = p at *
  by_cases hb : 1 / 20 ≤ |b.value| * 10 ^ p
  · refine hunit.trans ?_
    rw [div_le_iff₀ hpow]
    linarith
  rw [not_le] at hb
  -- the first number is already at the places that are kept
  have hscale : a.scale ≤ p := by
    by_contra hmore
    rw [not_le] at hmore
    have hle : |a.value| * 10 ^ (p + 1) ≤ capacity - 1 := by
      have hm : (a.mantissa : ℚ) + 1 ≤ capacity := by exact_mod_cast a.mantissa_lt
      calc |a.value| * 10 ^ (p + 1) ≤ |a.value| * 10 ^ a.scale :=
            mul_le_mul_of_nonneg_left (pow_le_pow_right₀ (by norm_num) hmore) (abs_nonneg _)
        _ = a.mantissa := by rw [abs_value, div_mul_cancel₀ _ (by positivity)]
        _ ≤ capacity - 1 := by linarith
    have hsum := mul_le_mul_of_nonneg_right (abs_add_le a.value b.value) hpow.le
    rw [pow_succ, ← mul_assoc] at hle hlarge
    linarith
  obtain ⟨n, hn⟩ : HasPlaces p a.value := HasPlaces.mono ⟨a.signed, value_mul_pow a⟩ hscale
  have hround : halfEven ((a.value + b.value) * 10 ^ p) = n := by
    apply halfEven_eq_of_abs_lt
    rw [add_mul, hn, add_sub_cancel_left, abs_mul, abs_of_pos hpow]
    linarith
  have hself : Decimal.nearest (a.value + b.value) = a.value := by
    rw [Decimal.nearest, hp, hround, ← hn, mul_div_cancel_right₀ _ hpow.ne']
  rw [hself, sub_add_cancel_left, abs_neg]
  linarith [abs_nonneg b.value]

end PropertyFinance.Decimal
