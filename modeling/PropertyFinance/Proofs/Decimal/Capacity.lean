import PropertyFinance.Proofs.Decimal.Checked

/-! When an operation has a result: just when the exact one, rounded to a whole number, is below the
capacity. For sums and products `fit` decides; a long division ends because every extension adds at
least one place, and stops early only beyond the capacity. -/

namespace PropertyFinance
set_option autoImplicit false

namespace Decimal

variable {a b c : Decimal} {x : ℚ} {divisor p : Nat} {d e : Quotient}

theorem abs_value_le (a : Decimal) : |a.value| ≤ capacity - 1 := by
  have hm : (a.mantissa : ℚ) ≤ capacity - 1 := by
    have h := a.mantissa_lt
    have h' : (a.mantissa : ℚ) + 1 ≤ capacity := by exact_mod_cast h
    linarith
  rw [abs_value]
  exact (div_le_self (by positivity) (one_le_pow₀ (by norm_num))).trans hm

theorem fits_of_abs_le (h : |x| ≤ 10 ^ 28) : Fits x 0 := by
  rw [Fits, pow_zero, mul_one]
  norm_num [capacity] at h ⊢
  linarith

theorem fits_of_nonneg (h₀ : 0 ≤ x) (h : x ≤ 10 ^ 28) : Fits x 0 :=
  fits_of_abs_le (by rwa [abs_of_nonneg h₀])

theorem abs_nearest (x : ℚ) : |nearest x| = nearest |x| := by
  rcases le_total 0 x with hx | hx
  · rw [abs_of_nonneg hx, abs_of_nonneg (nearest_nonneg hx)]
  · have := nearest_nonneg (neg_nonneg.mpr hx)
    rw [abs_of_nonpos hx, nearest_neg]
    rw [nearest_neg] at this
    exact abs_of_nonpos (by linarith)

/-- Beyond the capacity no decimal is near. -/
theorem fits_of_nearest_le (h : |nearest x| ≤ |c.value|) : Fits x 0 := by
  by_contra hx
  have hplaces : places |x| = 0 := by
    by_contra hpos
    apply hx
    have hfits := (fits_places_of_pos (Nat.pos_of_ne_zero hpos)).of_le (Nat.zero_le _)
    exact hfits.of_abs_le (abs_abs x).ge
  rw [fits_iff_halfEven_lt, Int.not_lt, pow_zero, mul_one] at hx
  have hlarge : (capacity : ℚ) ≤ nearest |x| := by
    rw [nearest, hplaces, pow_zero, mul_one, div_one]
    exact_mod_cast hx
  rw [← abs_nearest] at hlarge
  linarith [abs_value_le c]

theorem fits_of_value_eq (h : c.value = nearest x) : Fits x 0 := by
  apply fits_of_nearest_le (c := c)
  rw [h]

theorem natCast_le_of_value_eq {n : Nat} (h : c.value = nearest x) (hn : n ≤ x) : n ≤ c.value := by
  have hfits := fits_of_value_eq h
  rw [Fits, pow_zero, mul_one] at hfits
  have hlt : n < capacity := by
    have : (n : ℚ) < capacity := by linarith [le_abs_self x]
    exact_mod_cast this
  have hself : nearest n = n := by
    apply nearest_eq_self (p := 0) (n := n)
    · norm_num
    · rw [abs_of_nonneg (Int.natCast_nonneg n)]
      exact_mod_cast hlt
    · exact Nat.zero_le _
  rw [h, ← hself]
  exact nearest_mono hn

theorem value_ofNat {n : Nat} (h : n < capacity) : (ofNat n).value = n := by
  have hmin : min n (capacity - 1) = n := by omega
  simp [value, signed, ofNat, hmin]

section Long

theorem extension_room (q : Nat) (scale : Int) (n : Nat) (h : extension q scale n ≠ 0) :
    q * tenTo (extension q scale n) < capacity := by
  induction n with
  | zero => exact absurd rfl h
  | succ n ih =>
    unfold extension at h ⊢
    split at h
    case isTrue hroom =>
      rw [if_pos hroom]
      exact hroom.2
    case isFalse hroom =>
      rw [if_neg hroom]
      exact ih h

theorem extension_maximal (q : Nat) (scale : Int) (n : Nat) (h : extension q scale n < n) :
    ¬ (scale + (extension q scale n + 1 : Nat) ≤ maxScale ∧
      q * tenTo (extension q scale n + 1) < capacity) := by
  induction n with
  | zero => exact absurd h (Nat.not_lt_zero _)
  | succ n ih =>
    unfold extension at h ⊢
    split at h
    case isTrue => exact absurd h (lt_irrefl _)
    case isFalse hroom =>
      rw [if_neg hroom]
      rcases Nat.lt_or_eq_of_le (Nat.lt_succ_iff.mp h) with hlt | heq
      · exact ih hlt
      · rw [heq]
        exact hroom

namespace Quotient.Stands

theorem quotient_mul_le (h : d.Stands x divisor) (hp : d.scale + p ≤ 0) :
    (d.quotient * tenTo p : ℚ) ≤ x := by
  have hten : (0 : ℚ) < 10 ^ (d.scale + p) := by positivity
  have hrest : (0 : ℚ) ≤ d.remainder / divisor := by positivity
  have hvalue : x * (10 : ℚ) ^ (d.scale + p) = (d.quotient + d.remainder / divisor) * tenTo p := by
    rw [zpow_add₀ (by norm_num), ← mul_assoc, h.value_eq, zpow_natCast, cast_tenTo]
  have hle : (10 : ℚ) ^ (d.scale + p) ≤ 1 := by
    have := zpow_le_zpow_right₀ (by norm_num : (1 : ℚ) ≤ 10) hp
    rwa [zpow_zero] at this
  have hpos : (0 : ℚ) ≤ tenTo p := by positivity
  have hx : 0 ≤ x := by
    by_contra hneg
    have := mul_neg_of_neg_of_pos (Rat.not_le.mp hneg) hten
    rw [hvalue] at this
    have : (0 : ℚ) ≤ (d.quotient + d.remainder / divisor) * tenTo p := by positivity
    linarith
  calc (d.quotient * tenTo p : ℚ)
      ≤ (d.quotient + d.remainder / divisor) * tenTo p :=
        mul_le_mul_of_nonneg_right (by linarith) hpos
    _ = x * 10 ^ (d.scale + p) := hvalue.symm
    _ ≤ x := mul_le_of_le_one_right hx hle

theorem quotient_mul_lt (h : d.Stands x divisor) (hfits : Fits x 0) (hp : d.scale + p ≤ 0) :
    d.quotient * tenTo p < capacity := by
  have hle := h.quotient_mul_le hp
  rw [Fits, pow_zero, mul_one] at hfits
  have : (d.quotient * tenTo p : ℚ) < capacity := by linarith [le_abs_self x]
  exact_mod_cast this

theorem extend_ends (h : d.Stands x divisor) (hfits : Fits x 0)
    (hroom : d.quotient * tenTo p < capacity) :
    ∃ e last, d.extend divisor p = some (e, last) ∧ (last = false → e.scale = d.scale + p) ∧
      (last = true → 0 ≤ e.scale) := by
  have hvalue := h.extended_eq p
  unfold extend
  rw [if_neg (Nat.not_le.mpr hroom)]
  dsimp only
  split
  case isTrue => exact ⟨_, false, rfl, fun _ => rfl, by simp⟩
  case isFalse hlarge =>
    have hpos : 0 < d.scale + p := by
      by_contra hneg
      rw [Int.not_lt] at hneg
      have hcap : (capacity : ℚ) ≤ x * 10 ^ (d.scale + p) := by
        rw [hvalue]
        have hq : (capacity : ℚ)
            ≤ (d.quotient * tenTo p + d.remainder * tenTo p / divisor : Nat) := by
          exact_mod_cast Nat.le_of_not_lt hlarge
        have : (0 : ℚ) ≤ (d.remainder * tenTo p % divisor : Nat) / divisor := by positivity
        linarith
      have hle : (10 : ℚ) ^ (d.scale + p) ≤ 1 := by
        have := zpow_le_zpow_right₀ (by norm_num : (1 : ℚ) ≤ 10) hneg
        rwa [zpow_zero] at this
      rw [Fits, pow_zero, mul_one] at hfits
      have hx : x * (10 : ℚ) ^ (d.scale + p) ≤ |x| := by
        calc x * (10 : ℚ) ^ (d.scale + p) ≤ |x| * 10 ^ (d.scale + p) :=
              mul_le_mul_of_nonneg_right (le_abs_self x) (by positivity)
          _ ≤ |x| := mul_le_of_le_one_right (abs_nonneg x) hle
      linarith
    rw [if_neg hpos.ne']
    exact ⟨_, true, rfl, by simp, fun _ => by dsimp only; omega⟩

theorem round_ends (h : d.Stands x divisor) (hx : 0 ≤ x) (hfits : Fits x 0) (hscale : 0 ≤ d.scale) :
    ∃ e, d.round divisor = some e ∧ 0 ≤ e.scale := by
  unfold round
  split
  case isFalse => exact ⟨d, rfl, hscale⟩
  case isTrue hup =>
    split
    case isFalse => exact ⟨_, rfl, hscale⟩
    case isTrue hcap =>
      have hne : d.scale ≠ 0 := by
        intro hzero
        have hvalue := h.value_eq
        rw [hzero, zpow_zero, mul_one] at hvalue
        have hpos : (0 : ℚ) < divisor := by
          have := h.remainder_lt
          exact_mod_cast (by omega : 0 < divisor)
        have hhalf : (1 / 2 : ℚ) ≤ d.remainder / divisor := by
          rw [le_div_iff₀ hpos]
          have : (divisor : ℚ) ≤ 2 * d.remainder := by exact_mod_cast (by omega)
          linarith
        have hq : (d.quotient : ℚ) + 1 = capacity := by exact_mod_cast hcap
        rw [Fits, pow_zero, mul_one, abs_of_nonneg hx] at hfits
        linarith
      rw [if_neg hne]
      exact ⟨_, rfl, by dsimp only; omega⟩

end Quotient.Stands

/-- Each extension adds a place, so the fuel covers the places up to the last one. -/
theorem longDivision_ends (hx : 0 ≤ x) (hfits : Fits x 0) {fuel : Nat} (inexact : Bool)
    (hd : d.Stands x divisor) (hfuel : (maxScale : ℤ) < d.scale + fuel) :
    ∃ e flag, longDivision divisor fuel d inexact = some (e, flag) ∧ 0 ≤ e.scale := by
  induction fuel generalizing d inexact with
  | zero =>
    have := hd.scale_le
    omega
  | succ fuel ih =>
    have extended {k : Nat} {flag : Bool} (hk : 0 < k) (hk' : k ≤ 9)
        (hscale : d.scale + k ≤ maxScale) (hroom : d.quotient * tenTo k < capacity) :
        ∃ e flag', (d.extend divisor k >>= fun next =>
          if next.2 then some (next.1, flag) else longDivision divisor fuel next.1 flag)
            = some (e, flag') ∧ 0 ≤ e.scale := by
      obtain ⟨next, last, hext, hmore, hlast⟩ := hd.extend_ends hfits hroom
      rw [hext]
      cases last with
      | true => exact ⟨next, flag, rfl, hlast rfl⟩
      | false =>
        have hstands := (hd.extend_spec hx hk' hscale hext).1 rfl
        exact ih flag hstands (by rw [hmore rfl]; push_cast at hfuel; omega)
    unfold longDivision
    split
    case isTrue hzero =>
      split
      case isTrue hscale => exact ⟨d, inexact, rfl, hscale⟩
      case isFalse hneg =>
        exact extended (by omega) (by omega) (by unfold maxScale; omega)
          (hd.quotient_mul_lt hfits (by omega))
    case isFalse hrem =>
      dsimp only
      obtain ⟨hle, hmax, -⟩ := extension_spec d.quotient d.scale 9
      have hroom := extension_room d.quotient d.scale 9
      have hstop := extension_maximal d.quotient d.scale 9
      generalize hp : (if d.scale = maxScale then 0 else extension d.quotient d.scale 9) = k
      have hscale : ¬ (d.scale < maxScale ∧ k < 9 ∧ d.scale + k < 0) := by
        rintro ⟨hlt, hk, hneg⟩
        rw [if_neg hlt.ne] at hp
        apply hstop (hp ▸ hk)
        rw [hp]
        exact ⟨by unfold maxScale; omega, hd.quotient_mul_lt hfits (by push_cast; omega)⟩
      rw [if_neg hscale]
      split
      case isTrue hzero =>
        obtain ⟨e, hround, hnonneg⟩ := hd.round_ends hx hfits (by
          have := hd.scale_le
          unfold maxScale at *
          omega)
        rw [hround]
        exact ⟨e, true, rfl, hnonneg⟩
      case isFalse hne =>
        split_ifs at hp with hfull
        · exact absurd hp.symm hne
        · subst hp
          exact extended (Nat.pos_of_ne_zero hne) hle (by omega) (hroom hne)

end Long

section Shorten

theorem dropZeros_le (k : Nat) (y : Nat × Nat) :
    (dropZeros k y).1 ≤ y.1 ∧ (dropZeros k y).2 ≤ y.2 := by
  unfold dropZeros
  split
  · exact ⟨Nat.div_le_self _ _, Nat.sub_le _ _⟩
  · exact ⟨le_refl _, le_refl _⟩

theorem dropEights_le (fuel : Nat) (y : Nat × Nat) :
    (dropEights fuel y).1 ≤ y.1 ∧ (dropEights fuel y).2 ≤ y.2 := by
  induction fuel generalizing y with
  | zero => exact ⟨le_refl _, le_refl _⟩
  | succ fuel ih =>
    obtain ⟨q, s⟩ := y
    unfold dropEights
    split
    · obtain ⟨h₁, h₂⟩ := ih (q / 100000000, s - 8)
      exact ⟨h₁.trans (Nat.div_le_self _ _), h₂.trans (Nat.sub_le _ _)⟩
    · exact ⟨le_refl _, le_refl _⟩

theorem shorten_le (q s : Nat) : (shorten q s).1 ≤ q ∧ (shorten q s).2 ≤ s := by
  obtain ⟨h₁, h₁'⟩ := dropEights_le 4 (q, s)
  obtain ⟨h₂, h₂'⟩ := dropZeros_le 4 (dropEights 4 (q, s))
  obtain ⟨h₃, h₃'⟩ := dropZeros_le 2 (dropZeros 4 (dropEights 4 (q, s)))
  obtain ⟨h₄, h₄'⟩ := dropZeros_le 1 (dropZeros 2 (dropZeros 4 (dropEights 4 (q, s))))
  exact ⟨h₄.trans (h₃.trans (h₂.trans h₁)), h₄'.trans (h₃'.trans (h₂'.trans h₁'))⟩

end Shorten

theorem mul?_isSome (h : Fits (a.value * b.value) 0) : ∃ c, a.mul? b = some c := by
  have hprod : ((a.mantissa * b.mantissa : Nat) : ℚ) / 10 ^ (a.scale + b.scale)
      = |a.value * b.value| := by
    rw [abs_mul, abs_value, abs_value, div_mul_div_comm, ← pow_add]
    push_cast
    rfl
  unfold mul?
  split
  case isTrue => exact ⟨zero, rfl⟩
  case isFalse =>
    dsimp only
    split
    case isTrue => exact ⟨zero, rfl⟩
    case isFalse =>
      obtain ⟨d, hd⟩ := fit_isSome (m := a.mantissa * b.mantissa) (s := a.scale + b.scale)
        (a.negative != b.negative) (h.of_abs_le (by rw [hprod, abs_abs]))
      rw [hd]
      exact ⟨_, rfl⟩

theorem sub?_isSome (h : Fits (a.value - b.value) 0) : ∃ c, a.sub? b = some c := by
  unfold sub?
  split
  case isTrue => exact ⟨_, rfl⟩
  case isFalse =>
    apply add?_isSome
    rwa [value_negate, ← sub_eq_add_neg]

theorem div?_isSome (hb : b.value ≠ 0) (h : Fits (a.value / b.value) 0) :
    ∃ c, a.div? b = some c := by
  have hb' := isZero_eq_false_iff.mpr hb
  unfold div?
  rw [hb', if_neg Bool.false_ne_true]
  split
  case isTrue => exact ⟨zero, rfl⟩
  case isFalse =>
    have hfits : Fits |a.value / b.value| 0 := h.of_abs_le (abs_abs _).le
    have hstart := stands_start a hb'
    have hfuel : (maxScale : ℤ) < (a.scale : ℤ) - b.scale + (64 : Nat) := by
      have := b.scale_le
      unfold maxScale at *
      omega
    obtain ⟨d, inexact, hdiv, hscale⟩ :=
      longDivision_ends (abs_nonneg _) hfits false hstart hfuel
    obtain ⟨-, hlt, hmax⟩ := rounds_longDivision (abs_nonneg _) hstart hdiv hscale
    dsimp only
    rw [hdiv, Option.bind_eq_bind, Option.bind_some]
    dsimp only
    rw [if_neg (by omega)]
    have hplaces : d.scale.toNat ≤ maxScale := by omega
    obtain ⟨hq, hs⟩ := shorten_le d.quotient d.scale.toNat
    split
    · exact ⟨_, dif_pos ⟨by omega, by omega⟩⟩
    · exact ⟨_, dif_pos ⟨hlt, hplaces⟩⟩

theorem add?_isSome_iff : (∃ c, a.add? b = some c) ↔ Fits (a.value + b.value) 0 :=
  ⟨fun ⟨_, h⟩ => fits_of_value_eq (value_add? h), add?_isSome⟩

theorem sub?_isSome_iff : (∃ c, a.sub? b = some c) ↔ Fits (a.value - b.value) 0 :=
  ⟨fun ⟨_, h⟩ => fits_of_value_eq (value_sub? h), sub?_isSome⟩

theorem div?_isSome_iff (hb : b.value ≠ 0) :
    (∃ c, a.div? b = some c) ↔ Fits (a.value / b.value) 0 :=
  ⟨fun ⟨_, h⟩ => fits_of_value_eq (value_div? h).2, div?_isSome hb⟩

section Faults
variable {f : Fault}

theorem add_eq_error_iff :
    a.add b = .error f ↔ f = .additionOverflow ∧ ¬ Fits (a.value + b.value) 0 := by
  rw [add, orFault_eq_error, add?_isSome_iff]

theorem sub_eq_error_iff :
    a.sub b = .error f ↔ f = .subtractionOverflow ∧ ¬ Fits (a.value - b.value) 0 := by
  rw [sub, orFault_eq_error, sub?_isSome_iff]

theorem div_eq_error_iff :
    a.div b = .error f ↔ (f = .divisionByZero ∧ b.value = 0) ∨
      (f = .divisionOverflow ∧ b.value ≠ 0 ∧ ¬ Fits (a.value / b.value) 0) := by
  unfold div
  split
  case isTrue hb =>
    have hb' := isZero_iff.mp hb
    constructor
    · intro h
      cases h
      exact Or.inl ⟨rfl, hb'⟩
    · rintro (⟨rfl, -⟩ | ⟨-, hne, -⟩)
      · rfl
      · exact absurd hb' hne
  case isFalse hb =>
    have hb' : b.value ≠ 0 := fun h => hb (isZero_iff.mpr h)
    rw [orFault_eq_error, div?_isSome_iff hb']
    constructor
    · rintro ⟨rfl, hfits⟩
      exact Or.inr ⟨rfl, hb', hfits⟩
    · rintro (⟨-, hzero⟩ | ⟨rfl, -, hfits⟩)
      · exact absurd hzero hb'
      · exact ⟨rfl, hfits⟩

end Faults

theorem sub_isOk (h : Fits (a.value - b.value) 0) : ∃ c, a.sub b = .ok c := by
  obtain ⟨c, hc⟩ := sub?_isSome h
  exact ⟨c, orFault_eq_ok.mpr hc⟩

theorem mul_isOk (h : Fits (a.value * b.value) 0) : ∃ c, a.mul b = .ok c := by
  obtain ⟨c, hc⟩ := mul?_isSome h
  exact ⟨c, orFault_eq_ok.mpr hc⟩

theorem div_isOk (hb : b.value ≠ 0) (h : Fits (a.value / b.value) 0) : ∃ c, a.div b = .ok c := by
  obtain ⟨c, hc⟩ := div?_isSome hb h
  refine ⟨c, ?_⟩
  rw [div, isZero_eq_false_iff.mpr hb, if_neg Bool.false_ne_true]
  exact orFault_eq_ok.mpr hc

/-- The places of the operands do not matter for the value of a result. -/
theorem add_same {a' b' : Decimal} (h : a.add b = .ok c) (ha : a'.value = a.value)
    (hb : b'.value = b.value) : ∃ c', a'.add b' = .ok c' ∧ c'.value = c.value := by
  have hvalue := value_add h
  rw [← ha, ← hb] at hvalue
  obtain ⟨c', hc'⟩ := add_isOk (fits_of_value_eq hvalue)
  exact ⟨c', hc', (value_add hc').trans hvalue.symm⟩

theorem mul_same {a' b' : Decimal} (h : a.mul b = .ok c) (ha : a'.value = a.value)
    (hb : b'.value = b.value) : ∃ c', a'.mul b' = .ok c' ∧ c'.value = c.value := by
  have hvalue := value_mul h
  rw [← ha, ← hb] at hvalue
  obtain ⟨c', hc'⟩ := mul_isOk (fits_of_value_eq hvalue)
  exact ⟨c', hc', (value_mul hc').trans hvalue.symm⟩

end Decimal

open Decimal

theorem percentToRate_isOk (percent : Decimal) : ∃ rate, percentToRate percent = .ok rate := by
  apply div_isOk
  · norm_num [value_hundred]
  · apply Fits.of_abs_le (y := percent.value) (fits_of_value_eq (nearest_value percent).symm)
    rw [value_hundred, abs_div, abs_of_pos (by norm_num : (0 : ℚ) < 100)]
    linarith [abs_nonneg percent.value]

end PropertyFinance
