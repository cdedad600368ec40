import PropertyFinance.Proofs.Decimal.HalfEven
import PropertyFinance.Proofs.Decimal.Value

/-! The rounding of exact results. `nearest x` keeps as many of 28 places as the mantissa has room
for. It is monotone and odd and leaves every decimal as it is; its error is half a quantum for
small numbers and relative to the size of the others. A number on the grid of the last place has
only the relative error, so a sum or a difference is never rounded to zero. -/

namespace PropertyFinance.Decimal
set_option autoImplicit false

/-- The smallest positive decimal. -/
def quantum : ℚ := 1 / 10 ^ maxScale

/-- The mantissa of `x`, rounded to `p` places, is below the capacity. -/
def Fits (x : ℚ) (p : Nat) : Prop := |x| * 10 ^ p < capacity - 1 / 2

instance (x : ℚ) : DecidablePred (Fits x) := fun p =>
  inferInstanceAs (Decidable (|x| * 10 ^ p < capacity - 1 / 2))

/-- The places that are kept. -/
def places (x : ℚ) : Nat := Nat.findGreatest (Fits x) maxScale

def nearest (x : ℚ) : ℚ := halfEven (x * 10 ^ places x) / 10 ^ places x

variable {x y : ℚ} {p s : Nat} {a : Decimal}

theorem quantum_pos : 0 < quantum := by norm_num [quantum]

theorem quantum_eq : quantum = 1 / 10000000000000000000000000000 := by
  norm_num [quantum, maxScale]

section Places

theorem places_le (x : ℚ) : places x ≤ maxScale := Nat.findGreatest_le _

theorem Fits.of_abs_le (h : Fits y p) (hxy : |x| ≤ |y|) : Fits x p :=
  lt_of_le_of_lt (mul_le_mul_of_nonneg_right hxy (by positivity)) h

theorem Fits.of_le (h : Fits x s) (hps : p ≤ s) : Fits x p :=
  lt_of_le_of_lt (mul_le_mul_of_nonneg_left (pow_le_pow_right₀ (by norm_num) hps)
    (abs_nonneg x)) h

theorem fits_iff_halfEven_lt (x : ℚ) (p : Nat) :
    Fits x p ↔ halfEven (|x| * 10 ^ p) < (capacity : ℤ) := by
  rw [halfEven_lt_iff_of_even (by decide), Fits]
  push_cast
  rfl

theorem fits_places (h : Fits x 0) : Fits x (places x) :=
  Nat.findGreatest_spec (P := Fits x) (Nat.zero_le _) h

theorem fits_places_of_pos (h : 0 < places x) : Fits x (places x) :=
  Nat.findGreatest_of_ne_zero (P := Fits x) rfl h.ne'

theorem le_places (h : Fits x p) (hp : p ≤ maxScale) : p ≤ places x := Nat.le_findGreatest hp h

theorem not_fits_succ (h : places x < maxScale) : ¬ Fits x (places x + 1) :=
  Nat.findGreatest_is_greatest (Nat.lt_succ_self _) h

theorem places_eq (h : Fits x p) (hp : p ≤ maxScale) (hmax : p = maxScale ∨ ¬ Fits x (p + 1)) :
    places x = p := by
  have hle := le_places h hp
  rcases hmax with rfl | hmax
  · exact le_antisymm (places_le x) hle
  · rcases lt_or_eq_of_le hle with hlt | heq
    · exact absurd ((fits_places (h.of_le (Nat.zero_le _))).of_le hlt) hmax
    · exact heq.symm

theorem places_anti (h : |x| ≤ |y|) : places y ≤ places x :=
  Nat.findGreatest_mono_left (fun _ hp => Fits.of_abs_le hp h) maxScale

@[simp] theorem places_neg (x : ℚ) : places (-x) = places x :=
  le_antisymm (places_anti (abs_neg x).ge) (places_anti (abs_neg x).le)

@[simp] theorem places_abs (x : ℚ) : places |x| = places x :=
  le_antisymm (places_anti (abs_abs x).ge) (places_anti (abs_abs x).le)

end Places

theorem nearest_neg (x : ℚ) : nearest (-x) = -nearest x := by
  rw [nearest, places_neg, neg_mul, halfEven_neg, nearest]
  push_cast
  ring

/-- A number that `p` places and the capacity can hold is not rounded. -/
theorem nearest_eq_self {n : ℤ} (hx : x * 10 ^ p = n) (hn : |n| < capacity) (hp : p ≤ maxScale) :
    nearest x = x := by
  have hfits : Fits x p := by
    have habs : |x| * 10 ^ p = |n| := by
      rw [Int.cast_abs, ← hx, abs_mul, abs_of_pos (by positivity : (0 : ℚ) < 10 ^ p)]
    rw [fits_iff_halfEven_lt, habs, halfEven_intCast]
    exact hn
  have hle := le_places hfits hp
  have hint : x * 10 ^ places x = ((n * 10 ^ (places x - p) : ℤ) : ℚ) := by
    push_cast
    rw [← hx, mul_assoc, ← pow_add, Nat.add_sub_cancel' hle]
  rw [nearest, hint, halfEven_intCast, ← hint]
  exact mul_div_cancel_right₀ _ (by positivity)

theorem value_mul_pow (a : Decimal) : a.value * 10 ^ a.scale = a.signed := by
  rw [value, div_mul_cancel₀ _ (by positivity)]

@[simp] theorem nearest_value (a : Decimal) : nearest a.value = a.value := by
  apply nearest_eq_self (value_mul_pow a) _ a.scale_le
  rw [Int.abs_eq_natAbs, natAbs_signed]
  exact_mod_cast a.mantissa_lt

@[simp] theorem nearest_zero : nearest 0 = 0 := by
  simpa using nearest_value zero

theorem nearest_nonneg (h : 0 ≤ x) : 0 ≤ nearest x := by
  have : (0 : ℚ) ≤ halfEven (x * 10 ^ places x) := by
    exact_mod_cast halfEven_nonneg (by positivity)
  exact div_nonneg this (by positivity)

/-- Fewer places are kept only of a number too large for one more. -/
theorem not_fits_succ_of_lt (h : places y < s) (hs : s ≤ maxScale) :
    (capacity : ℚ) - 1 / 2 ≤ |y| * 10 ^ (places y + 1) :=
  Rat.not_lt.mp (not_fits_succ (lt_of_lt_of_le h hs))

theorem nearest_le_of_fits (hx : 0 ≤ x) (hfits : Fits x (places x)) :
    nearest x ≤ (capacity - 1) / 10 ^ places x := by
  rw [fits_iff_halfEven_lt, abs_of_nonneg hx] at hfits
  have : (halfEven (x * 10 ^ places x) : ℚ) ≤ capacity - 1 := by
    have h : halfEven (x * 10 ^ places x) ≤ (capacity : ℤ) - 1 := by omega
    exact_mod_cast h
  exact div_le_div_of_nonneg_right this (by positivity)

/-- Where a place is lost, the mantissa that is left is at least a tenth of the capacity. -/
theorem capacity_le_nearest (hx : 0 ≤ x) (hlt : places x < maxScale) :
    (capacity : ℚ) / 10 ^ (places x + 1) ≤ nearest x := by
  have h := not_fits_succ_of_lt hlt (le_refl _)
  rw [abs_of_nonneg hx, pow_succ, ← mul_assoc] at h
  have hhalf := (abs_le.mp (abs_halfEven_sub_le (x * 10 ^ places x))).1
  have hround : (7922816251426433759354395034 : ℤ) ≤ halfEven (x * 10 ^ places x) := by
    have : (7922816251426433759354395033 : ℚ) < halfEven (x * 10 ^ places x) := by
      norm_num [capacity] at h
      linarith
    exact_mod_cast this
  have hten : (capacity : ℚ) ≤ halfEven (x * 10 ^ places x) * 10 := by
    have : (7922816251426433759354395034 : ℚ) ≤ halfEven (x * 10 ^ places x) := by
      exact_mod_cast hround
    norm_num [capacity]
    linarith
  rw [nearest, pow_succ, div_le_div_iff₀ (by positivity) (by positivity)]
  calc (capacity : ℚ) * 10 ^ places x
      ≤ halfEven (x * 10 ^ places x) * 10 * 10 ^ places x :=
        mul_le_mul_of_nonneg_right hten (by positivity)
    _ = halfEven (x * 10 ^ places x) * (10 ^ places x * 10) := by ring

theorem nearest_le_nearest_of_nonneg (hx : 0 ≤ x) (hxy : x ≤ y) : nearest x ≤ nearest y := by
  have hle : places y ≤ places x :=
    places_anti (by rwa [abs_of_nonneg hx, abs_of_nonneg (hx.trans hxy)])
  rcases lt_or_eq_of_le hle with hlt | heq
  · calc nearest x ≤ (capacity - 1) / 10 ^ places x :=
          nearest_le_of_fits hx (fits_places_of_pos (by omega))
      _ ≤ capacity / 10 ^ (places y + 1) := by
        have hpow : (10 : ℚ) ^ (places y + 1) ≤ 10 ^ places x :=
          pow_le_pow_right₀ (by norm_num) hlt
        apply div_le_div₀ (by positivity) (by linarith) (by positivity) hpow
      _ ≤ nearest y := capacity_le_nearest (hx.trans hxy) (lt_of_lt_of_le hlt (places_le x))
  · rw [nearest, nearest, heq]
    apply div_le_div_of_nonneg_right _ (by positivity)
    exact_mod_cast halfEven_mono (mul_le_mul_of_nonneg_right hxy (by positivity))

theorem nearest_mono : Monotone nearest := by
  intro x y hxy
  rcases le_total 0 x with hx | hx
  · exact nearest_le_nearest_of_nonneg hx hxy
  · have hx' : nearest x ≤ 0 := by
      have := nearest_nonneg (neg_nonneg.mpr hx)
      rw [nearest_neg] at this
      linarith
    rcases le_total 0 y with hy | hy
    · exact hx'.trans (nearest_nonneg hy)
    · have := nearest_le_nearest_of_nonneg (neg_nonneg.mpr hy) (neg_le_neg hxy)
      rw [nearest_neg, nearest_neg] at this
      linarith

theorem nearest_eq (hfits : Fits x p) (hp : p ≤ maxScale)
    (hmax : p = maxScale ∨ ¬ Fits x (p + 1)) : nearest x = halfEven (x * 10 ^ p) / 10 ^ p := by
  rw [nearest, places_eq hfits hp hmax]

/-- Where rounding reaches the capacity, one more place is dropped. -/
theorem nearest_of_near_capacity (hx : 0 ≤ x) (hp : p ≤ maxScale)
    (hlow : (capacity : ℚ) - 1 / 2 ≤ x * 10 ^ (p + 1)) (hhigh : x * 10 ^ (p + 1) < capacity) :
    nearest x = 7922816251426433759354395034 / 10 ^ p := by
  have hnot : ¬ Fits x (p + 1) := by
    rw [Fits, abs_of_nonneg hx]
    exact Rat.not_lt.mpr hlow
  rw [pow_succ, ← mul_assoc] at hlow hhigh
  have heven : halfEven (x * 10 ^ p) = 7922816251426433759354395034 := by
    apply halfEven_eq_of_abs_lt
    norm_num [capacity] at hlow hhigh
    rw [abs_lt]
    push_cast
    constructor <;> linarith
  have hfits : Fits x p := by
    rw [fits_iff_halfEven_lt, abs_of_nonneg hx, heven]
    decide
  rw [nearest_eq hfits hp (Or.inr hnot), heven]
  norm_num

theorem nearest_le_value (h : x ≤ a.value) : nearest x ≤ a.value := by
  simpa using nearest_mono h

theorem value_le_nearest (h : a.value ≤ x) : a.value ≤ nearest x := by
  simpa using nearest_mono h

theorem nearest_le_scaled {n : ℤ} (hn : n.natAbs < capacity) (hs : s ≤ maxScale)
    (h : x ≤ n / 10 ^ s) : nearest x ≤ n / 10 ^ s := by
  rw [← value_ofScaled hn hs] at h ⊢
  exact nearest_le_value h

theorem scaled_le_nearest {n : ℤ} (hn : n.natAbs < capacity) (hs : s ≤ maxScale)
    (h : n / 10 ^ s ≤ x) : n / 10 ^ s ≤ nearest x := by
  rw [← value_ofScaled hn hs] at h ⊢
  exact value_le_nearest h

section Error

theorem abs_nearest_sub_le_unit (x : ℚ) : |nearest x - x| ≤ 1 / 2 / 10 ^ places x := by
  have h := abs_halfEven_sub_le (x * 10 ^ places x)
  have hpow : (0 : ℚ) < 10 ^ places x := by positivity
  have heq : nearest x - x = (halfEven (x * 10 ^ places x) - x * 10 ^ places x) / 10 ^ places x := by
    rw [nearest, sub_div, mul_div_cancel_right₀ _ hpow.ne']
  rw [heq, abs_div, abs_of_pos hpow]
  exact div_le_div_of_nonneg_right h hpow.le

theorem half_unit_le_of_lt (h : places x < maxScale) :
    1 / 2 / (10 : ℚ) ^ places x ≤ 16 / 25 * quantum * |x| := by
  have hx := not_fits_succ_of_lt h (le_refl _)
  rw [pow_succ, ← mul_assoc] at hx
  rw [div_le_iff₀ (by positivity), quantum_eq]
  norm_num [capacity] at hx
  linarith

/-- Half a quantum, or less than a unit in the 28th digit of a larger number. -/
theorem abs_nearest_sub_le_max (x : ℚ) :
    |nearest x - x| ≤ max (quantum / 2) (16 / 25 * quantum * |x|) := by
  refine (abs_nearest_sub_le_unit x).trans ?_
  rcases lt_or_eq_of_le (places_le x) with h | h
  · exact (half_unit_le_of_lt h).trans (le_max_right _ _)
  · rw [h]
    refine le_trans (le_of_eq ?_) (le_max_left _ _)
    rw [quantum]
    ring

theorem abs_nearest_sub_le (x : ℚ) : |nearest x - x| ≤ quantum * (1 / 2 + 16 / 25 * |x|) := by
  have hq := quantum_pos
  have hx := abs_nonneg x
  refine (abs_nearest_sub_le_max x).trans (max_le ?_ ?_)
  · nlinarith
  · nlinarith

theorem nearest_eq_zero (h : |x| < quantum / 2) : nearest x = 0 := by
  have hfits : Fits x maxScale := by
    rw [Fits, maxScale]
    rw [quantum_eq] at h
    norm_num [capacity]
    linarith
  have hzero : halfEven (x * 10 ^ maxScale) = 0 := by
    apply halfEven_eq_of_abs_lt
    rw [Int.cast_zero, sub_zero, abs_mul, abs_of_pos (by positivity : (0 : ℚ) < 10 ^ maxScale),
      maxScale]
    rw [quantum_eq] at h
    linarith
  rw [nearest_eq hfits (le_refl _) (Or.inl rfl), hzero, Int.cast_zero, zero_div]

theorem nearest_le_two_mul (hx : 0 ≤ x) : nearest x ≤ 2 * x := by
  by_cases hsmall : x < quantum / 2
  · rw [nearest_eq_zero (by rwa [abs_of_nonneg hx])]
    linarith
  · have h := (abs_le.mp (abs_nearest_sub_le_max x)).2
    rw [abs_of_nonneg hx] at h
    rw [Rat.not_lt] at hsmall
    have hrel : 16 / 25 * quantum * x ≤ x := by
      rw [quantum_eq]
      linarith
    linarith [max_le hsmall hrel]

end Error

/-- The numbers with at most 28 places, of any size. -/
def OnGrid (x : ℚ) : Prop := ∃ n : ℤ, x = n * quantum

theorem onGrid_value (a : Decimal) : OnGrid a.value := by
  refine ⟨a.signed * 10 ^ (maxScale - a.scale), ?_⟩
  have hpow : (10 : ℚ) ^ maxScale = 10 ^ a.scale * 10 ^ (maxScale - a.scale) := by
    rw [← pow_add, Nat.add_sub_cancel' a.scale_le]
  rw [value, quantum, hpow]
  push_cast
  field_simp

theorem OnGrid.add (hx : OnGrid x) (hy : OnGrid y) : OnGrid (x + y) := by
  obtain ⟨m, rfl⟩ := hx
  obtain ⟨n, rfl⟩ := hy
  exact ⟨m + n, by push_cast; ring⟩

theorem OnGrid.neg (hx : OnGrid x) : OnGrid (-x) := by
  obtain ⟨m, rfl⟩ := hx
  exact ⟨-m, by push_cast; ring⟩

theorem OnGrid.sub (hx : OnGrid x) (hy : OnGrid y) : OnGrid (x - y) := by
  simpa [sub_eq_add_neg] using hx.add hy.neg

theorem OnGrid.min (hx : OnGrid x) (hy : OnGrid y) : OnGrid (min x y) := by
  rcases min_choice x y with h | h <;> rwa [h]

theorem onGrid_nearest (x : ℚ) : OnGrid (nearest x) := by
  refine ⟨halfEven (x * 10 ^ places x) * 10 ^ (maxScale - places x), ?_⟩
  have hpow : (10 : ℚ) ^ maxScale = 10 ^ places x * 10 ^ (maxScale - places x) := by
    rw [← pow_add, Nat.add_sub_cancel' (places_le x)]
  rw [nearest, quantum, hpow]
  push_cast
  field_simp

theorem OnGrid.quantum_le (hx : OnGrid x) (hpos : 0 < x) : quantum ≤ x := by
  obtain ⟨n, rfl⟩ := hx
  have hn : (0 : ℚ) < n := pos_of_mul_pos_left hpos quantum_pos.le
  have hn' : (1 : ℚ) ≤ n := by
    have : 0 < n := by exact_mod_cast hn
    exact_mod_cast this
  nlinarith [quantum_pos]

theorem OnGrid.mul_pow_eq {n : ℤ} (h : x = n * quantum) : x * 10 ^ maxScale = n := by
  rw [h, quantum, mul_assoc, one_div, inv_mul_cancel₀ (by positivity), mul_one]

/-- Small numbers on the grid are decimals. -/
theorem OnGrid.nearest_eq (hx : OnGrid x) (hlt : |x| < 79 / 10) : nearest x = x := by
  obtain ⟨n, hn⟩ := hx
  have hmul := OnGrid.mul_pow_eq hn
  apply nearest_eq_self hmul _ (le_refl _)
  have habs : (|n| : ℚ) < capacity := by
    rw [← Int.cast_abs, Int.cast_abs, ← hmul, abs_mul,
      abs_of_pos (by positivity : (0 : ℚ) < 10 ^ maxScale)]
    norm_num [maxScale, capacity]
    linarith
  exact_mod_cast habs

/-- Places of a number on the grid are lost only when it is too large for all 28. -/
theorem OnGrid.places_lt (hx : OnGrid x) (hne : nearest x ≠ x) : places x < maxScale := by
  apply lt_of_le_of_ne (places_le x)
  intro h
  obtain ⟨n, hn⟩ := hx
  apply hne
  rw [nearest, h, OnGrid.mul_pow_eq hn, halfEven_intCast, hn, quantum]
  ring

/-- A small number less than half a quantum below the grid is not rounded beyond it. -/
theorem OnGrid.le_nearest (hy : OnGrid y) (hsmall : |y| < 7) (hlt : y - quantum / 2 < x) :
    y ≤ nearest x := by
  have hself := hy.nearest_eq (hsmall.trans (by norm_num))
  rcases le_total y x with h | h
  · rw [← hself]
    exact nearest_mono h
  · have hx : Fits x maxScale := by
      have hy' := abs_lt.mp hsmall
      rw [Fits, maxScale]
      have : |x| < 79 / 10 := by
        rw [quantum_eq] at hlt
        rw [abs_lt]
        constructor <;> linarith
      norm_num [capacity]
      linarith
    have herror := (abs_le.mp (abs_nearest_sub_le_unit x)).1
    rw [le_antisymm (places_le x) (le_places hx (le_refl _))] at herror
    have hhalf : 1 / 2 / (10 : ℚ) ^ maxScale = quantum / 2 := by
      rw [quantum]
      ring
    by_contra hcon
    have := (hy.sub (onGrid_nearest x)).quantum_le (by linarith)
    linarith

theorem OnGrid.abs_nearest_sub_le (hx : OnGrid x) :
    |nearest x - x| ≤ 16 / 25 * quantum * |x| := by
  by_cases h : nearest x = x
  · rw [h, sub_self, abs_zero]
    have := quantum_pos
    positivity
  · exact (abs_nearest_sub_le_unit x).trans (half_unit_le_of_lt (hx.places_lt h))

theorem OnGrid.rounding_le {size : ℚ} (hx : OnGrid x) (hsize : |x| ≤ size) :
    |nearest x - x| ≤ quantum * size := by
  have hround := hx.abs_nearest_sub_le
  have hmul := mul_le_mul_of_nonneg_left hsize quantum_pos.le
  have hpos := mul_nonneg quantum_pos.le (abs_nonneg x)
  linarith

/-- The same bound by the rounded number. -/
theorem OnGrid.abs_nearest_sub_le_nearest (hx : OnGrid x) :
    |nearest x - x| ≤ quantum * |nearest x| := by
  have h := hx.abs_nearest_sub_le
  have htri : |x| ≤ |nearest x| + |nearest x - x| := by
    have := abs_sub_abs_le_abs_sub x (nearest x)
    rw [abs_sub_comm] at this
    linarith
  have hnonneg := abs_nonneg (nearest x - x)
  rw [quantum_eq] at h ⊢
  linarith

theorem OnGrid.nearest_pos (hx : OnGrid x) (hpos : 0 < x) : 0 < nearest x := by
  have h := hx.abs_nearest_sub_le
  rw [abs_of_pos hpos] at h
  have hsmall : 16 / 25 * quantum * x < x := by
    rw [quantum_eq]
    linarith
  linarith [(abs_le.mp h).1]

end PropertyFinance.Decimal
