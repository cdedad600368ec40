import PropertyFinance.Proofs.Decimal.Operations

/-! Long division computes the exact quotient rounded once. A quotient under way stands for the
number divided, `Stands`, which every extension by digits keeps; the last step rounds it where no
further digit fits. -/

namespace PropertyFinance.Decimal
set_option autoImplicit false

variable {a b c : Decimal} {x : ℚ} {divisor p : Nat} {d e : Quotient}

/-- The number `x` in units of the scale is the quotient and the remainder still to be divided. -/
structure Quotient.Stands (d : Quotient) (x : ℚ) (divisor : Nat) : Prop where
  remainder_lt : d.remainder < divisor
  quotient_lt : d.quotient < capacity
  scale_le : d.scale ≤ maxScale
  value_eq : x * (10 : ℚ) ^ d.scale = d.quotient + d.remainder / divisor

/-- The quotient is `x` rounded, if its scale is one of a decimal. -/
def Quotient.Rounds (d : Quotient) (x : ℚ) : Prop :=
  0 ≤ d.scale → (d.quotient : ℚ) / 10 ^ d.scale.toNat = nearest x ∧ d.quotient < capacity ∧
    d.scale ≤ maxScale

theorem extension_spec (q : Nat) (scale : Int) (n : Nat) :
    extension q scale n ≤ n ∧
      (extension q scale n = 0 ∨ scale + extension q scale n ≤ maxScale) ∧
      (extension q scale n = 0 → 0 < n → ¬ (scale + 1 ≤ maxScale ∧ q * 10 < capacity)) := by
  induction n with
  | zero => simp [extension]
  | succ n ih =>
    unfold extension
    split
    case isTrue h => exact ⟨le_refl _, Or.inr h.1, by omega⟩
    case isFalse h =>
      refine ⟨by omega, ih.2.1, fun hzero _ => ?_⟩
      rcases Nat.eq_zero_or_pos n with rfl | hpos
      · simpa using h
      · exact ih.2.2 hzero hpos

theorem roundHalfEven_mul_add {q r : Nat} (hr : r < divisor) :
    roundHalfEven (q * divisor + r) divisor
      = if divisor < 2 * r ∨ (2 * r = divisor ∧ q % 2 = 1) then q + 1 else q := by
  have hdiv : (q * divisor + r) / divisor = q := by
    rw [mul_comm, Nat.mul_add_div (by omega), Nat.div_eq_of_lt hr, add_zero]
  have hmod : (q * divisor + r) % divisor = r := by
    rw [mul_comm, Nat.mul_add_mod, Nat.mod_eq_of_lt hr]
  rw [roundHalfEven, hdiv, hmod]

theorem cast_quotient (q : Nat) {r : Nat} (hr : r < divisor) :
    (q + r / divisor : ℚ) = ((q * divisor + r : Nat) : ℚ) / divisor := by
  have : (divisor : ℚ) ≠ 0 := by exact_mod_cast (by omega : divisor ≠ 0)
  push_cast
  field_simp

namespace Quotient.Stands

/-- The last digit is rounded away from the digits and the remainder together. -/
theorem shortened_eq {q r : Nat} (hr : r < divisor) :
    (if 5 < q % 10 ∨ (q % 10 = 5 ∧ (r ≠ 0 ∨ q / 10 % 2 = 1)) then q / 10 + 1 else q / 10)
      = roundHalfEven (q * divisor + r) (10 * divisor) := by
  have hsplit : q * divisor + r = q / 10 * (10 * divisor) + (q % 10 * divisor + r) := by
    conv_lhs => rw [← Nat.div_add_mod q 10]
    ring
  have hlt : q % 10 * divisor + r < 10 * divisor := by
    have : q % 10 ≤ 9 := by omega
    nlinarith
  rw [hsplit, roundHalfEven_mul_add hlt]
  have hup : (5 < q % 10 ∨ (q % 10 = 5 ∧ (r ≠ 0 ∨ q / 10 % 2 = 1))) ↔
      (10 * divisor < 2 * (q % 10 * divisor + r) ∨
        (2 * (q % 10 * divisor + r) = 10 * divisor ∧ q / 10 % 2 = 1)) := by
    have hcases : q % 10 ≤ 4 ∨ q % 10 = 5 ∨ 6 ≤ q % 10 := by omega
    rcases hcases with h | h | h
    · have : q % 10 * divisor ≤ 4 * divisor := Nat.mul_le_mul_right _ h
      omega
    · rw [h]
      omega
    · have : 6 * divisor ≤ q % 10 * divisor := Nat.mul_le_mul_right _ h
      omega
  simp only [hup]

theorem rounds_of_exact (h : d.Stands x divisor) (hzero : d.remainder = 0) : d.Rounds x := by
  intro hscale
  obtain ⟨s, hs⟩ := Int.eq_ofNat_of_zero_le hscale
  have hvalue := h.value_eq
  rw [hzero, hs, zpow_natCast, Nat.cast_zero, zero_div, add_zero] at hvalue
  have hle : s ≤ maxScale := by have := h.scale_le; omega
  refine ⟨?_, h.quotient_lt, h.scale_le⟩
  rw [hs, Int.toNat_natCast, nearest_eq_self (n := d.quotient) (by simpa using hvalue) _ hle,
    ← hvalue, mul_div_cancel_right₀ _ (by positivity)]
  rw [abs_of_nonneg (by positivity)]
  exact_mod_cast h.quotient_lt

theorem fits_iff (hx : 0 ≤ x) {n D s : Nat} (hD : 0 < D) (hn : x * 10 ^ s = n / D) :
    Fits x s ↔ roundHalfEven n D < capacity := by
  rw [fits_iff_halfEven_lt, abs_of_nonneg hx, hn, ← roundHalfEven_eq n hD, Nat.cast_lt]

theorem extended_eq (h : d.Stands x divisor) (p : Nat) :
    x * (10 : ℚ) ^ (d.scale + p)
      = (d.quotient * tenTo p + d.remainder * tenTo p / divisor : Nat)
        + (d.remainder * tenTo p % divisor : Nat) / divisor := by
  have hpos : (0 : ℚ) < divisor := by
    have := h.remainder_lt
    exact_mod_cast (by omega : 0 < divisor)
  have hsplit : ((d.remainder * tenTo p : Nat) : ℚ) = divisor
      * (d.remainder * tenTo p / divisor : Nat) + (d.remainder * tenTo p % divisor : Nat) := by
    exact_mod_cast (Nat.div_add_mod (d.remainder * tenTo p) divisor).symm
  have hdiv : (d.remainder * tenTo p / divisor : Nat)
      + ((d.remainder * tenTo p % divisor : Nat) : ℚ) / divisor
      = ((d.remainder * tenTo p : Nat) : ℚ) / divisor := by
    rw [hsplit]
    field_simp
  rw [zpow_add₀ (by norm_num), ← mul_assoc, h.value_eq, zpow_natCast, Nat.cast_add, add_assoc, hdiv]
  push_cast
  rw [cast_tenTo]
  ring

/-- The digits that were added keep the quotient within a few units of the capacity. -/
theorem shortened_lt (h : d.Stands x divisor) (hp : p ≤ 9)
    (hroom : d.quotient * tenTo p < capacity) :
    roundHalfEven ((d.quotient * tenTo p + d.remainder * tenTo p / divisor) * divisor
      + d.remainder * tenTo p % divisor) (10 * divisor) < capacity := by
  have hpos : 0 < divisor := by have := h.remainder_lt; omega
  rw [← shortened_eq (Nat.mod_lt _ hpos)]
  have hten : tenTo p ≤ 1000000000 := Nat.pow_le_pow_right (by norm_num) hp
  have hdigits : d.remainder * tenTo p / divisor < tenTo p := by
    rw [Nat.div_lt_iff_lt_mul hpos, mul_comm]
    exact Nat.mul_lt_mul_of_pos_left h.remainder_lt (tenTo_pos p)
  unfold capacity at hroom ⊢
  split_ifs <;> omega

/-- A quotient too large for its scale is rounded at the scale below. -/
theorem nearest_of_shortened (hx : 0 ≤ x) {q r s : Nat} (hr : r < divisor) (hs : s ≤ maxScale)
    (hvalue : x * 10 ^ (s + 1) = q + r / divisor) (hq : capacity ≤ q)
    (hlt : roundHalfEven (q * divisor + r) (10 * divisor) < capacity) :
    (roundHalfEven (q * divisor + r) (10 * divisor) : ℚ) / 10 ^ s = nearest x := by
  have hten : 0 < 10 * divisor := by omega
  have hnot : ¬ Fits x (s + 1) := by
    rw [Fits, abs_of_nonneg hx, hvalue, Rat.not_lt]
    have hcap : (capacity : ℚ) ≤ q := by exact_mod_cast hq
    have : (0 : ℚ) ≤ r / divisor := by positivity
    linarith
  have hscaled : x * 10 ^ s = ((q * divisor + r : Nat) : ℚ) / (10 * divisor : Nat) := by
    rw [pow_succ, cast_quotient q hr] at hvalue
    have : x * 10 ^ s = ((q * divisor + r : Nat) : ℚ) / divisor / 10 := by
      rw [← hvalue]
      ring
    rw [this, div_div, mul_comm (divisor : ℚ)]
    push_cast
    rfl
  have hfits := (fits_iff hx hten hscaled).mpr hlt
  rw [nearest_eq hfits hs (Or.inr hnot), hscaled, ← roundHalfEven_eq _ hten]
  simp

theorem extend_spec (h : d.Stands x divisor) (hx : 0 ≤ x) (hp : p ≤ 9)
    (hscale : d.scale + p ≤ maxScale) {last : Bool}
    (he : d.extend divisor p = some (e, last)) :
    (last = false → e.Stands x divisor) ∧ (last = true → e.Rounds x) := by
  have hpos : 0 < divisor := by have := h.remainder_lt; omega
  have hrest : d.remainder * tenTo p % divisor < divisor := Nat.mod_lt _ hpos
  have hvalue := h.extended_eq p
  unfold extend at he
  split at he
  case isTrue => simp at he
  case isFalse hroom =>
    dsimp only at he
    split at he
    case isTrue hlt =>
      simp only [Option.some.injEq, Prod.mk.injEq] at he
      obtain ⟨rfl, rfl⟩ := he
      exact ⟨fun _ => ⟨hrest, hlt, hscale, hvalue⟩, by simp⟩
    case isFalse hlt =>
      split at he
      case isTrue => simp at he
      case isFalse =>
        simp only [Option.some.injEq, Prod.mk.injEq] at he
        obtain ⟨rfl, rfl⟩ := he
        refine ⟨by simp, fun _ hnonneg => ?_⟩
        dsimp only at hnonneg ⊢
        rw [shortened_eq hrest]
        obtain ⟨s, hs⟩ := Int.eq_ofNat_of_zero_le hnonneg
        have hs' : d.scale + p = ((s + 1 : Nat) : ℤ) := by push_cast; omega
        rw [hs', zpow_natCast] at hvalue
        have hround := h.shortened_lt hp (Nat.lt_of_not_le hroom)
        refine ⟨?_, hround, by omega⟩
        rw [hs, Int.toNat_natCast]
        exact nearest_of_shortened hx hrest (by omega) hvalue (Nat.le_of_not_lt hlt) hround

/-- The last digit rounded by the remainder, where the mantissa stays below the capacity. -/
theorem nearest_of_rounded (h : d.Stands x divisor) (hx : 0 ≤ x)
    (hmax : d.scale = maxScale ∨ capacity ≤ d.quotient * 10) {q s : Nat}
    (hq : roundHalfEven (d.quotient * divisor + d.remainder) divisor = q) (hlt : q < capacity)
    (hs : d.scale = s) : (q : ℚ) / 10 ^ s = nearest x := by
  have hpos : 0 < divisor := by have := h.remainder_lt; omega
  have hvalue := h.value_eq
  rw [hs, zpow_natCast] at hvalue
  have hscaled := hvalue.trans (cast_quotient d.quotient h.remainder_lt)
  have hfits := (fits_iff hx hpos hscaled).mpr (hq ▸ hlt)
  have hle : s ≤ maxScale := by have := h.scale_le; omega
  have hstop : s = maxScale ∨ ¬ Fits x (s + 1) := by
    refine hmax.imp (by omega) fun hcap => ?_
    rw [Fits, abs_of_nonneg hx, pow_succ, ← mul_assoc, hvalue, Rat.not_lt]
    have hcap' : (capacity : ℚ) ≤ d.quotient * 10 := by exact_mod_cast hcap
    have : (0 : ℚ) ≤ d.remainder / divisor := by positivity
    linarith
  rw [nearest_eq hfits hle hstop, hscaled, ← roundHalfEven_eq _ hpos, hq]
  simp

/-- Rounded up to the capacity, the quotient loses one more place. -/
theorem nearest_of_carried (h : d.Stands x divisor) (hx : 0 ≤ x)
    (hup : divisor ≤ 2 * d.remainder) (hcap : d.quotient + 1 = capacity) {s : Nat}
    (hs : d.scale = (s + 1 : Nat)) : ((roundHalfUp capacity 1 : Nat) : ℚ) / 10 ^ s = nearest x := by
  have hpos : (0 : ℚ) < divisor := by
    have := h.remainder_lt
    exact_mod_cast (by omega : 0 < divisor)
  have hvalue := h.value_eq
  rw [hs, zpow_natCast] at hvalue
  have hle : s ≤ maxScale := by have := h.scale_le; omega
  have hrem : (d.remainder / divisor : ℚ) < 1 := by
    rw [div_lt_one hpos]
    exact_mod_cast h.remainder_lt
  have hhalf : (1 / 2 : ℚ) ≤ d.remainder / divisor := by
    rw [le_div_iff₀ hpos]
    have : (divisor : ℚ) ≤ 2 * d.remainder := by exact_mod_cast hup
    linarith
  have hq : (d.quotient : ℚ) + 1 = capacity := by exact_mod_cast hcap
  rw [show roundHalfUp capacity 1 = 7922816251426433759354395034 by decide,
    nearest_of_near_capacity hx hle (by linarith) (by linarith)]
  norm_num

theorem round_spec (h : d.Stands x divisor) (hx : 0 ≤ x)
    (hmax : d.scale = maxScale ∨ capacity ≤ d.quotient * 10)
    (he : d.round divisor = some e) : e.Rounds x := by
  have hsplit := roundHalfEven_mul_add (q := d.quotient) h.remainder_lt
  have hquot := h.quotient_lt
  unfold round at he
  split at he
  case isTrue hup =>
    rw [if_pos hup] at hsplit
    split at he
    case isTrue hcap =>
      split at he
      case isTrue => simp at he
      case isFalse =>
        obtain rfl := Option.some.inj he
        intro hnonneg
        dsimp only at hnonneg ⊢
        obtain ⟨s, hs⟩ := Int.eq_ofNat_of_zero_le hnonneg
        have hscale := h.scale_le
        refine ⟨?_, by decide, by omega⟩
        rw [hs, Int.toNat_natCast]
        exact h.nearest_of_carried hx (by omega) hcap (by push_cast; omega)
    case isFalse hcap =>
      obtain rfl := Option.some.inj he
      intro hnonneg
      obtain ⟨s, hs⟩ := Int.eq_ofNat_of_zero_le hnonneg
      have hlt : d.quotient + 1 < capacity := by omega
      dsimp only at hs ⊢
      refine ⟨?_, hlt, h.scale_le⟩
      rw [hs, Int.toNat_natCast, h.nearest_of_rounded hx hmax hsplit hlt hs]
  case isFalse hup =>
    obtain rfl := Option.some.inj he
    rw [if_neg hup] at hsplit
    intro hnonneg
    obtain ⟨s, hs⟩ := Int.eq_ofNat_of_zero_le hnonneg
    refine ⟨?_, hquot, h.scale_le⟩
    rw [hs, Int.toNat_natCast, h.nearest_of_rounded hx hmax hsplit hquot hs]

end Quotient.Stands

theorem rounds_longDivision (hx : 0 ≤ x) {fuel : Nat} {inexact flag : Bool}
    (hd : d.Stands x divisor) (h : longDivision divisor fuel d inexact = some (e, flag)) :
    e.Rounds x := by
  induction fuel generalizing d inexact with
  | zero => simp [longDivision] at h
  | succ fuel ih =>
    unfold longDivision at h
    split at h
    case isTrue hzero =>
      split at h
      case isTrue =>
        simp only [Option.some.injEq, Prod.mk.injEq] at h
        exact h.1 ▸ hd.rounds_of_exact hzero
      case isFalse hneg =>
        obtain ⟨⟨d', last⟩, hext, h⟩ := Option.bind_eq_some_iff.mp h
        have hspec := hd.extend_spec hx (by omega) (by unfold maxScale; omega) hext
        cases last with
        | false => exact ih (hspec.1 rfl) h
        | true =>
          simp only [if_true, Option.some.injEq, Prod.mk.injEq] at h
          exact h.1 ▸ hspec.2 rfl
    case isFalse hrem =>
      dsimp only at h
      set p := if d.scale = maxScale then 0 else extension d.quotient d.scale 9 with hp
      split at h
      case isTrue => simp at h
      case isFalse =>
        obtain ⟨hle, hscale, hstop⟩ := extension_spec d.quotient d.scale 9
        have hdscale := hd.scale_le
        split at h
        case isTrue hzero =>
          obtain ⟨d', hround, h⟩ := Option.bind_eq_some_iff.mp h
          simp only [Option.some.injEq, Prod.mk.injEq] at h
          refine h.1 ▸ hd.round_spec hx ?_ hround
          split_ifs at hp with hfull
          · exact Or.inl hfull
          · have := hstop (hp ▸ hzero) (by norm_num)
            exact Or.inr (by omega)
        case isFalse hne =>
          obtain ⟨⟨d', last⟩, hext, h⟩ := Option.bind_eq_some_iff.mp h
          have hspec := hd.extend_spec hx (by split_ifs at hp <;> omega)
            (by split_ifs at hp <;> omega) hext
          cases last with
          | false => exact ih (hspec.1 rfl) h
          | true =>
            simp only [if_true, Option.some.injEq, Prod.mk.injEq] at h
            exact h.1 ▸ hspec.2 rfl

section Shorten

theorem dropZeros_value (k : Nat) (y : Nat × Nat) :
    ((dropZeros k y).1 : ℚ) / 10 ^ (dropZeros k y).2 = y.1 / 10 ^ y.2 := by
  unfold dropZeros
  split
  case isTrue h =>
    have hmul : (y.1 : ℚ) = 10 ^ k * (y.1 / tenTo k : Nat) := by
      rw [← cast_tenTo]
      exact_mod_cast (Nat.mul_div_cancel' (Nat.dvd_of_mod_eq_zero h.2)).symm
    have hpow : (10 : ℚ) ^ y.2 = 10 ^ k * 10 ^ (y.2 - k) := by
      rw [← pow_add, Nat.add_sub_cancel' h.1]
    dsimp only
    rw [hmul, hpow, mul_div_mul_left _ _ (by positivity)]
  case isFalse => rfl

theorem dropEights_value (fuel : Nat) (y : Nat × Nat) :
    ((dropEights fuel y).1 : ℚ) / 10 ^ (dropEights fuel y).2 = y.1 / 10 ^ y.2 := by
  induction fuel generalizing y with
  | zero => rfl
  | succ fuel ih =>
    obtain ⟨q, s⟩ := y
    unfold dropEights
    split
    case isTrue h =>
      have hdrop : (q / 100000000, s - 8) = dropZeros 8 (q, s) := by
        rw [dropZeros, if_pos ⟨h.2.1, h.2.2⟩]
        rfl
      rw [ih, hdrop, dropZeros_value]
    case isFalse => rfl

theorem shorten_value (q s : Nat) :
    ((shorten q s).1 : ℚ) / 10 ^ (shorten q s).2 = q / 10 ^ s := by
  rw [shorten, dropZeros_value, dropZeros_value, dropZeros_value, dropEights_value]

end Shorten

theorem stands_start (a : Decimal) (hb : b.isZero = false) :
    Quotient.Stands ⟨a.mantissa / b.mantissa, a.mantissa % b.mantissa, a.scale - b.scale⟩
      |a.value / b.value| b.mantissa := by
  have hpos : 0 < b.mantissa := by
    simp only [isZero, beq_eq_false_iff_ne] at hb
    omega
  have hne : (b.mantissa : ℚ) ≠ 0 := by exact_mod_cast hpos.ne'
  refine ⟨Nat.mod_lt _ hpos, ?_, ?_, ?_⟩
  · exact lt_of_le_of_lt (Nat.div_le_self _ _) a.mantissa_lt
  · have := a.scale_le
    dsimp only
    omega
  · dsimp only
    rw [cast_quotient _ (Nat.mod_lt _ hpos), Nat.div_add_mod', abs_div, abs_value, abs_value,
      zpow_sub₀ (by norm_num), zpow_natCast, zpow_natCast]
    field_simp

/-- The quotient of the values, rounded once. -/
theorem value_div? (h : a.div? b = some c) :
    b.value ≠ 0 ∧ c.value = nearest (a.value / b.value) := by
  unfold div? at h
  split at h
  case isTrue => simp at h
  case isFalse hb =>
    rw [Bool.not_eq_true] at hb
    refine ⟨isZero_eq_false_iff.mp hb, ?_⟩
    split at h
    case isTrue ha =>
      obtain rfl := Option.some.inj h
      simp [isZero_iff.mp ha]
    case isFalse =>
      obtain ⟨⟨d, inexact⟩, hdiv, h⟩ := Option.bind_eq_some_iff.mp h
      have hrounds := rounds_longDivision (abs_nonneg _) (stands_start a hb) hdiv
      dsimp only at h
      split at h
      case isTrue => simp at h
      case isFalse hscale =>
        obtain ⟨hvalue, -, -⟩ := hrounds (by omega)
        set y := if inexact = true then shorten d.quotient d.scale.toNat
          else (d.quotient, d.scale.toNat) with hy
        have hyvalue : (y.1 : ℚ) / 10 ^ y.2 = nearest |a.value / b.value| := by
          rw [hy, ← hvalue]
          split
          · exact shorten_value _ _
          · rfl
        have hc := (value_ofParts h).1
        have hsign : (if ((a.negative != b.negative) && y.1 != 0) = true then -1 else 1 : ℚ)
            * (y.1 / 10 ^ y.2) = (if (a.negative != b.negative) = true then -1 else 1) * (y.1 / 10 ^ y.2) := by
          by_cases hzero : y.1 = 0
          · simp [hzero]
          · simp [hzero]
        rw [hc, hsign, hyvalue, abs_div, abs_value, abs_value, value_eq_sign_mul a,
          value_eq_sign_mul b]
        cases a.negative <;> cases b.negative <;> simp [nearest_neg, neg_div, div_neg]

end PropertyFinance.Decimal
