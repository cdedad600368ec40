import PropertyFinance.Proofs.Decimal.Nearest

/-! What the operations compute: the exact result, rounded once by `nearest`. An operation that
gives nothing had a result beyond the capacity. -/

namespace PropertyFinance
set_option autoImplicit false

theorem le_of_lt_leastDrop {m k n r j : Nat} (h : leastDrop m k n = some r) (hkj : k ≤ j)
    (hjr : j < r) : capacity * tenTo j ≤ m := by
  induction n generalizing k with
  | zero => simp [leastDrop] at h
  | succ n ih =>
    unfold leastDrop at h
    split at h
    case isTrue => have := Option.some.inj h; omega
    case isFalse hm =>
      rcases Nat.eq_or_lt_of_le hkj with rfl | hlt
      · exact Nat.le_of_not_lt hm
      · exact ih h hlt

theorem leastDrop_isSome {m k n j : Nat} (hkj : k ≤ j) (hjn : j < k + n)
    (hm : m < capacity * tenTo j) : ∃ r, leastDrop m k n = some r ∧ r ≤ j := by
  induction n generalizing k with
  | zero => omega
  | succ n ih =>
    unfold leastDrop
    split
    case isTrue => exact ⟨k, rfl, hkj⟩
    case isFalse hk =>
      rcases Nat.eq_or_lt_of_le hkj with rfl | hlt
      · exact absurd hm hk
      · exact ih hlt (by omega)

namespace Decimal

variable {a b c : Decimal} {m s k : Nat} {negative : Bool}

section Fit

theorem scaled_mul_pow (hk : k ≤ s) : (m / 10 ^ s : ℚ) * 10 ^ (s - k) = m / 10 ^ k := by
  have hpow : (10 : ℚ) ^ s = 10 ^ (s - k) * 10 ^ k := by rw [← pow_add, Nat.sub_add_cancel hk]
  rw [hpow]
  field_simp

theorem abs_scaled (m s : Nat) : |(m / 10 ^ s : ℚ)| = m / 10 ^ s := abs_of_nonneg (by positivity)

theorem fits_scaled_iff (hk : k ≤ s) :
    Fits (m / 10 ^ s) (s - k) ↔ roundHalfEven m (tenTo k) < capacity := by
  rw [fits_iff_halfEven_lt, abs_scaled, scaled_mul_pow hk, ← cast_tenTo,
    ← roundHalfEven_eq m (tenTo_pos k), Nat.cast_lt]

theorem not_fits_scaled (hk : k < s) (h : capacity * tenTo k ≤ m) :
    ¬ Fits (m / 10 ^ s) (s - k) := by
  have hm : (capacity * 10 ^ k : ℚ) ≤ m := by
    rw [← cast_tenTo]
    exact_mod_cast h
  rw [Fits, abs_scaled, scaled_mul_pow hk.le, Rat.not_lt]
  have : (capacity : ℚ) ≤ m / 10 ^ k := (le_div_iff₀ (by positivity)).mpr hm
  linarith

theorem nearest_of_carry (hk : k < s) (hs : s - k ≤ maxScale) (hm : m < capacity * tenTo k)
    (hround : roundHalfEven m (tenTo k) = capacity) :
    nearest (m / 10 ^ s) = (roundHalfEven capacity 10 : Nat) / 10 ^ (s - k - 1) := by
  have hsucc : s - k - 1 + 1 = s - k := by omega
  have hnot : ¬ Fits (m / 10 ^ s) (s - k) := by
    rw [fits_scaled_iff hk.le, hround]
    exact Nat.lt_irrefl _
  rw [Fits, abs_scaled, Rat.not_lt] at hnot
  have hhigh : (m / 10 ^ k : ℚ) < capacity := by
    rw [div_lt_iff₀ (by positivity), ← cast_tenTo]
    exact_mod_cast hm
  rw [← scaled_mul_pow hk.le] at hhigh
  rw [show roundHalfEven capacity 10 = 7922816251426433759354395034 by decide]
  apply nearest_of_near_capacity (by positivity) (by omega) <;> rw [hsucc]
  · exact hnot
  · exact hhigh

theorem value_fit (h : fit negative m s = some c) :
    c.value = (if negative then -1 else 1) * nearest (m / 10 ^ s) := by
  unfold fit at h
  obtain ⟨k, hk, h⟩ := Option.bind_eq_some_iff.mp h
  obtain ⟨hlow, hhigh, hm⟩ := leastDrop_le hk
  have hks : k ≤ s := by omega
  dsimp only at h
  split at h
  case isTrue hround =>
    split at h
    case isTrue => simp at h
    case isFalse hsk =>
      have hks' : k < s := by omega
      rw [(value_ofParts h).1, nearest_of_carry hks' (by omega) hm hround]
  case isFalse hround =>
    obtain ⟨hvalue, hlt, hscale⟩ := value_ofParts h
    have hfits := (fits_scaled_iff hks).mpr hlt
    rw [hvalue]
    congr 1
    rcases Nat.eq_zero_or_pos k with rfl | hpos
    · rw [tenTo_zero, show roundHalfEven m 1 = m by simp [roundHalfEven, Nat.mod_one], Nat.sub_zero]
      symm
      apply nearest_eq_self (p := s) (n := m)
      · rw [div_mul_cancel₀ _ (by positivity)]
        simp
      · rw [tenTo_zero, mul_one] at hm
        rw [abs_of_nonneg (by positivity)]
        exact_mod_cast hm
      · simpa using hscale
    · have hmax : s - k = maxScale ∨ ¬ Fits (m / 10 ^ s) (s - k + 1) := by
        rcases Nat.eq_or_lt_of_le hlow with heq | hlt'
        · exact Or.inl (by omega)
        · right
          have hdrop := le_of_lt_leastDrop hk (j := k - 1) (by omega) (by omega)
          have hnot := not_fits_scaled (show k - 1 < s by omega) hdrop
          rwa [show s - (k - 1) = s - k + 1 by omega] at hnot
      rw [nearest_eq hfits hscale hmax, scaled_mul_pow hks, ← cast_tenTo k,
        ← roundHalfEven_eq m (tenTo_pos k)]
      simp

/-- Only a number without room even for its whole part does not fit. -/
theorem fit_isSome (negative : Bool) (h : Fits (m / 10 ^ s) 0) : ∃ c, fit negative m s = some c := by
  have h₀ : roundHalfEven m (tenTo s) < capacity := by
    rwa [← Nat.sub_self s, fits_scaled_iff (le_refl s)] at h
  have hm : m < capacity * tenTo s := by
    rw [Fits, abs_scaled, pow_zero, mul_one] at h
    have hlt : (m : ℚ) < capacity * 10 ^ s := by
      rw [div_lt_iff₀ (by positivity)] at h
      have : (0 : ℚ) < 10 ^ s := by positivity
      linarith
    rw [← cast_tenTo] at hlt
    exact_mod_cast hlt
  obtain ⟨k, hk, hks⟩ := leastDrop_isSome (k := s - maxScale) (n := s + 1 - (s - maxScale))
    (j := s) (by omega) (by omega) hm
  obtain ⟨hlow, -, hmk⟩ := leastDrop_le hk
  unfold fit
  rw [hk, Option.bind_eq_bind, Option.bind_some]
  dsimp only
  split
  case isTrue hround =>
    rw [if_neg (by rintro rfl; omega)]
    have hs : s - k - 1 ≤ maxScale := by omega
    exact ⟨_, dif_pos ⟨by decide, hs⟩⟩
  case isFalse hround =>
    have hle : roundHalfEven m (tenTo k) ≤ capacity := by
      have hpos : (0 : ℚ) < tenTo k := by exact_mod_cast tenTo_pos k
      have hquot : (m / tenTo k : ℚ) ≤ (capacity : ℤ) := by
        rw [div_le_iff₀ hpos]
        exact_mod_cast hmk.le
      have hq := halfEven_mono hquot
      rw [← roundHalfEven_eq m (tenTo_pos k), halfEven_intCast] at hq
      exact_mod_cast hq
    exact ⟨_, dif_pos ⟨by omega, by omega⟩⟩

end Fit

section Add

theorem value_aligned (a b : Decimal) :
    ((a.shifted (max a.scale b.scale - a.scale) + b.shifted (max a.scale b.scale - b.scale) : ℤ) : ℚ)
      = (a.value + b.value) * 10 ^ max a.scale b.scale := by
  push_cast
  rw [shifted_eq, shifted_eq, Nat.add_sub_cancel' (Nat.le_max_left _ _),
    Nat.add_sub_cancel' (Nat.le_max_right _ _), add_mul]

theorem signed_scaled (n : ℤ) (s : Nat) :
    (if decide (n < 0) = true then -1 else 1 : ℚ) * nearest (n.natAbs / 10 ^ s)
      = nearest (n / 10 ^ s) := by
  rw [Nat.cast_natAbs]
  split
  case isTrue h =>
    have hn : n < 0 := of_decide_eq_true h
    rw [abs_of_neg hn, Int.cast_neg, neg_div, nearest_neg]
    ring
  case isFalse h =>
    have hn : 0 ≤ n := by simpa using h
    rw [abs_of_nonneg hn, one_mul]

theorem value_add? (h : a.add? b = some c) : c.value = nearest (a.value + b.value) := by
  unfold add? at h
  split at h
  case isTrue ha =>
    obtain rfl := Option.some.inj h
    rw [isZero_iff.mp ha, zero_add, nearest_value]
  case isFalse =>
    split at h
    case isTrue hb =>
      obtain rfl := Option.some.inj h
      rw [isZero_iff.mp hb, add_zero, nearest_value]
    case isFalse =>
      rw [value_fit h, signed_scaled, value_aligned, mul_div_cancel_right₀ _ (by positivity)]

theorem add?_isSome (h : Fits (a.value + b.value) 0) : ∃ c, a.add? b = some c := by
  unfold add?
  split
  case isTrue => exact ⟨b, rfl⟩
  case isFalse =>
    split
    case isTrue => exact ⟨a, rfl⟩
    case isFalse =>
      apply fit_isSome
      rw [Nat.cast_natAbs, Int.cast_abs, value_aligned]
      refine h.of_abs_le (le_of_eq ?_)
      rw [abs_mul, abs_div, abs_mul, abs_abs, abs_abs]
      rw [mul_div_cancel_right₀ _ (by positivity)]

theorem value_sub? (h : a.sub? b = some c) : c.value = nearest (a.value - b.value) := by
  unfold sub? at h
  split at h
  case isTrue hb =>
    have hb' := isZero_iff.mp hb
    obtain rfl := Option.some.inj h
    split
    case isTrue ha => rw [hb', isZero_iff.mp ha, sub_zero, nearest_zero]
    case isFalse => rw [hb', sub_zero, nearest_value]
  case isFalse =>
    rw [value_add? h, value_negate, sub_eq_add_neg]

end Add

section Multiply

theorem value_eq_sign_mul (a : Decimal) :
    a.value = (if a.negative then -1 else 1) * (a.mantissa / 10 ^ a.scale) := by
  cases h : a.negative <;> simp [value, signed, h, neg_div]

/-- So small a product is below half a quantum. -/
theorem abs_value_mul_lt (ha : a.isShort = true) (hb : b.isShort = true)
    (hs : 47 < a.scale + b.scale) : |a.value * b.value| < quantum / 2 := by
  have ha' : (a.mantissa : ℚ) < 4294967296 := by exact_mod_cast of_decide_eq_true ha
  have hb' : (b.mantissa : ℚ) < 4294967296 := by exact_mod_cast of_decide_eq_true hb
  have hmul : (a.mantissa * b.mantissa : ℚ) ≤ 4294967296 * 4294967296 :=
    mul_le_mul ha'.le hb'.le (by positivity) (by norm_num)
  have hpow : (10 : ℚ) ^ 48 ≤ 10 ^ (a.scale + b.scale) := pow_le_pow_right₀ (by norm_num) hs
  rw [abs_mul, abs_value, abs_value, div_mul_div_comm, ← pow_add]
  calc (a.mantissa * b.mantissa : ℚ) / 10 ^ (a.scale + b.scale)
      ≤ 4294967296 * 4294967296 / 10 ^ 48 :=
        div_le_div₀ (by norm_num) hmul (by norm_num) hpow
    _ < quantum / 2 := by rw [quantum_eq]; norm_num

theorem value_mul? (h : a.mul? b = some c) : c.value = nearest (a.value * b.value) := by
  unfold mul? at h
  split at h
  case isTrue hz =>
    obtain rfl := Option.some.inj h
    rw [Bool.or_eq_true] at hz
    rcases hz with hz | hz <;> simp [isZero_iff.mp hz]
  case isFalse =>
    dsimp only at h
    split at h
    case isTrue hs =>
      obtain rfl := Option.some.inj h
      simp only [Bool.and_eq_true, decide_eq_true_eq] at hs
      rw [value_zero, nearest_eq_zero (abs_value_mul_lt hs.1.1 hs.1.2 hs.2)]
    case isFalse =>
      obtain ⟨d, hd, h⟩ := Option.bind_eq_some_iff.mp h
      have hcd : c.value = d.value := by
        obtain rfl := Option.some.inj h
        split
        case isTrue hz =>
          rw [Bool.and_eq_true] at hz
          rw [value_abs, isZero_iff.mp hz.2, abs_zero]
        case isFalse => rfl
      rw [hcd, value_fit hd, value_eq_sign_mul a, value_eq_sign_mul b]
      have hx : ((a.mantissa * b.mantissa : Nat) : ℚ) / 10 ^ (a.scale + b.scale)
          = a.mantissa / 10 ^ a.scale * (b.mantissa / 10 ^ b.scale) := by
        rw [div_mul_div_comm, ← pow_add]
        push_cast
        rfl
      rw [hx]
      cases a.negative <;> cases b.negative <;> simp [nearest_neg]

end Multiply

end Decimal

end PropertyFinance
