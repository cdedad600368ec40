import PropertyFinance.Loan
import PropertyFinance.Proofs.Decimal.Outcomes

/-! What a level payment carries, and what it costs to pay that back. Both directions divide by powers
of the same computed growth, so only the roundings of the products and quotients tell them apart. Each
of these is relative, because no quantity on the way is below a millionth. -/

namespace PropertyFinance.Loan
open Decimal
set_option autoImplicit false

section Drift
variable {x u : ℚ} {k : Nat}

/-- What one rounding can do to a number that is not below a millionth. -/
def drift : ℚ := 1 + 1 / 10 ^ 22

theorem one_le_drift_pow (k : Nat) : 1 ≤ drift ^ k := one_le_pow₀ (by norm_num [drift])

theorem abs_nearest_sub_le_drift (hu : 9 / 10 ^ 7 ≤ u) : |nearest u - u| ≤ 6 / 10 ^ 23 * u := by
  refine (abs_nearest_sub_le_max u).trans (max_le ?_ ?_)
  · rw [quantum_eq]
    linarith
  · rw [quantum_eq, abs_of_nonneg (by linarith)]
    linarith

/-- A number that is `j` times smaller drifts `j` times as far. -/
theorem nearest_le_drift_of_small (j : Nat) (hj : 1 ≤ j) (hu : 5 / 10 ^ 7 ≤ j * u)
    (h : x ≤ drift ^ k * u) : nearest x ≤ drift ^ (k + j) * u := by
  have hj' : (1 : ℚ) ≤ j := by exact_mod_cast hj
  have hu₀ : 0 < u := pos_of_mul_pos_right (by linarith : 0 < j * u) (by linarith)
  have hlarge : u ≤ drift ^ k * u := le_mul_of_one_le_left hu₀.le (one_le_drift_pow k)
  generalize hv : drift ^ k * u = v at *
  have hscaled : j * u ≤ j * v := mul_le_mul_of_nonneg_left hlarge (by linarith)
  have hself : v ≤ j * v := le_mul_of_one_le_left (by linarith) hj'
  have hround : nearest v - v ≤ j / 10 ^ 22 * v := by
    refine ((abs_le.mp (abs_nearest_sub_le_max v)).2).trans (max_le ?_ ?_)
    · rw [quantum_eq]
      linarith
    · rw [quantum_eq, abs_of_nonneg (by linarith)]
      linarith
  have hdrift : 1 + j * (1 / 10 ^ 22) ≤ drift ^ j :=
    one_add_mul_le_pow (by norm_num) j
  calc nearest x ≤ nearest v := nearest_mono h
    _ ≤ (1 + j * (1 / 10 ^ 22)) * v := by linarith
    _ ≤ drift ^ j * v := mul_le_mul_of_nonneg_right hdrift (by linarith)
    _ = drift ^ (k + j) * u := by rw [← hv, pow_add]; ring

theorem nearest_le_drift (hu : 1 / 10 ^ 6 ≤ u) (h : x ≤ drift ^ k * u) :
    nearest x ≤ drift ^ (k + 1) * u :=
  nearest_le_drift_of_small 1 le_rfl (by rw [Nat.cast_one, one_mul]; linarith) h

theorem le_drift_nearest (hu : 9 / 10 ^ 7 ≤ u) : u ≤ drift * nearest u := by
  have hround := (abs_le.mp (abs_nearest_sub_le_drift hu)).1
  rw [drift]
  linarith

end Drift

section Rate
variable {percent rate : Decimal}

theorem value_monthlyRate (h : monthlyRate percent = .ok rate) :
    rate.value = nearest (nearest (percent.value / 100) / 12) := by
  obtain ⟨yearly, hyearly, h⟩ := bind_eq_ok.mp h
  rw [(value_div h).2, value_twelve, value_percentToRate hyearly]

theorem monthlyRate_isOk (percent : Decimal) : ∃ rate, monthlyRate percent = .ok rate := by
  obtain ⟨yearly, hyearly⟩ := percentToRate_isOk percent
  obtain ⟨rate, hrate⟩ := div_isOk (a := yearly) (b := .twelve) (by norm_num [value_twelve]) (by
    apply Fits.of_abs_le (y := yearly.value) (fits_of_value_eq (nearest_value yearly).symm)
    rw [value_twelve, abs_div, abs_of_pos (by norm_num : (0 : ℚ) < 12)]
    linarith [abs_nonneg yearly.value])
  refine ⟨rate, ?_⟩
  rw [monthlyRate, hyearly, ok_bind, hrate]

theorem monthlyRate_nonneg (h : monthlyRate percent = .ok rate)
    (hpercent : 0 ≤ percent.value) : 0 ≤ rate.value := by
  have hyear : 0 ≤ nearest (percent.value / 100) := nearest_nonneg (by linarith)
  rw [value_monthlyRate h]
  exact nearest_nonneg (by linarith)

theorem le_monthly_of_le {p : ℚ} (h : 1 / 100 ≤ p) : 83 / 10 ^ 7 ≤ nearest (nearest (p / 100) / 12) := by
  have hyear := scaled_le_nearest (n := 1) (s := 4) (x := p / 100) (by decide) (by decide)
    (by norm_num; linarith)
  have hmonth := scaled_le_nearest (n := 83) (s := 7) (x := nearest (p / 100) / 12) (by decide)
    (by decide) (by norm_num at hyear ⊢; linarith)
  norm_num at hmonth ⊢
  exact hmonth

end Rate

section Compounding
variable {rate factor growth compound : Decimal} {periods k j : Nat}

theorem gives_compoundFrom (rate : Decimal) (periods : Nat) (factor : Decimal) :
    Gives (compoundFrom rate periods factor) fun _ => True := by
  induction periods generalizing factor with
  | zero => exact gives_pure trivial
  | succ periods ih =>
    apply (gives_add .one rate).bind
    intro growth _
    apply (gives_mul factor growth).bind
    intro next _
    exact ih next

theorem gives_compoundFactor (rate : Decimal) (periods : Nat) :
    Gives (compoundFactor rate periods) fun c => compoundFactor rate periods = .ok c :=
  (gives_compoundFrom rate periods .one).with_eq.mono fun _ h => h.1

theorem le_compoundFrom (h : compoundFrom rate periods factor = .ok compound)
    (hrate : 0 ≤ rate.value) (hfactor : 0 ≤ factor.value) : factor.value ≤ compound.value := by
  induction periods generalizing factor with
  | zero =>
    cases h
    exact le_refl _
  | succ periods ih =>
    obtain ⟨growth, hgrowth, h⟩ := bind_eq_ok.mp h
    obtain ⟨next, hnext, h⟩ := bind_eq_ok.mp h
    have hgrow : Decimal.one.value ≤ growth.value := by
      rw [value_add hgrowth]
      apply value_le_nearest
      linarith
    have hmore : factor.value ≤ next.value := by
      rw [value_mul hnext]
      apply value_le_nearest
      rw [value_one] at hgrow
      exact le_mul_of_one_le_right hfactor hgrow
    exact hmore.trans (ih h (hfactor.trans hmore))

/-- Even a rate of one quantum is not lost to the rounding. -/
theorem one_lt_compound (h : compoundFactor rate periods = .ok compound) (hrate : 0 < rate.value)
    (hperiods : 0 < periods) : 1 < compound.value := by
  obtain ⟨periods, rfl⟩ := Nat.exists_eq_succ_of_ne_zero hperiods.ne'
  obtain ⟨growth, hgrowth, h⟩ := bind_eq_ok.mp h
  obtain ⟨next, hnext, h⟩ := bind_eq_ok.mp h
  have hquantum := (onGrid_value rate).quantum_le hrate
  have hgrid : OnGrid (1 + quantum) := by
    rw [← value_one]
    exact (onGrid_value _).add ⟨1, by rw [Int.cast_one, one_mul]⟩
  have hself := hgrid.nearest_eq (by
    rw [quantum_eq]
    norm_num)
  have hgrow : 1 + quantum ≤ growth.value := by
    rw [value_add hgrowth, value_one, ← hself]
    apply nearest_mono
    linarith
  have hnext' : next.value = growth.value := by
    rw [value_mul hnext, value_one, one_mul, nearest_value]
  have hle := le_compoundFrom h hrate.le (by linarith [quantum_pos])
  linarith [quantum_pos]

theorem pow_le_compoundFrom (h : compoundFrom rate periods factor = .ok compound)
    (hj : (j : ℚ) ≤ 1 + rate.value) (hfactor : (k : ℚ) ≤ factor.value) :
    ((k * j ^ periods : Nat) : ℚ) ≤ compound.value := by
  induction periods generalizing factor k with
  | zero =>
    cases h
    rwa [pow_zero, mul_one]
  | succ periods ih =>
    obtain ⟨growth, hgrowth, h⟩ := bind_eq_ok.mp h
    obtain ⟨next, hnext, h⟩ := bind_eq_ok.mp h
    have hgrow : (j : ℚ) ≤ growth.value := by
      have hvalue := value_add hgrowth
      rw [value_one] at hvalue
      exact natCast_le_of_value_eq hvalue hj
    have hmore : ((k * j : Nat) : ℚ) ≤ next.value := by
      apply natCast_le_of_value_eq (value_mul hnext)
      push_cast
      exact mul_le_mul hfactor hgrow (Nat.cast_nonneg j) ((Nat.cast_nonneg k).trans hfactor)
    have hlast := ih h hmore
    rwa [mul_assoc, ← pow_succ'] at hlast

theorem pow_le_compound (h : compoundFactor rate periods = .ok compound)
    (hj : (j : ℚ) ≤ 1 + rate.value) : ((j ^ periods : Nat) : ℚ) ≤ compound.value := by
  have := pow_le_compoundFrom (k := 1) h hj (by rw [value_one, Nat.cast_one])
  rwa [one_mul] at this

/-- Bernoulli's inequality, which the roundings do not break: its bounds are decimals. -/
theorem bernoulli_le_compoundFrom (h : compoundFrom rate periods factor = .ok compound)
    (hrate : 83 / 10 ^ 7 ≤ rate.value) (hperiods : k + periods ≤ 10 ^ 20)
    (hfactor : 1 + k * (8 / 10 ^ 6) ≤ factor.value) :
    1 + (k + periods : Nat) * (8 / 10 ^ 6) ≤ compound.value := by
  induction periods generalizing factor k with
  | zero =>
    cases h
    exact hfactor
  | succ periods ih =>
    obtain ⟨growth, hgrowth, h⟩ := bind_eq_ok.mp h
    obtain ⟨next, hnext, h⟩ := bind_eq_ok.mp h
    have hgrow : 1 + 8 / 10 ^ 6 ≤ growth.value := by
      have := scaled_le_nearest (n := 1000008) (s := 6) (x := 1 + rate.value) (by decide)
        (by decide) (by norm_num at hrate ⊢; linarith)
      rw [value_add hgrowth, value_one]
      norm_num at this ⊢
      linarith
    have hprod : 1 + ((k + 1 : Nat) : ℚ) * (8 / 10 ^ 6) ≤ factor.value * growth.value := by
      have hk : (0 : ℚ) ≤ k := Nat.cast_nonneg k
      calc 1 + ((k + 1 : Nat) : ℚ) * (8 / 10 ^ 6)
          ≤ (1 + k * (8 / 10 ^ 6)) * (1 + 8 / 10 ^ 6) := by
            push_cast
            linarith
        _ ≤ factor.value * growth.value :=
            mul_le_mul hfactor hgrow (by norm_num) (by linarith)
    have hmore : 1 + ((k + 1 : Nat) : ℚ) * (8 / 10 ^ 6) ≤ next.value := by
      have hscaled : 1 + ((k + 1 : Nat) : ℚ) * (8 / 10 ^ 6)
          = ((10 ^ 6 + 8 * (k + 1) : Nat) : ℤ) / 10 ^ 6 := by
        push_cast
        ring
      rw [hscaled] at hprod ⊢
      rw [value_mul hnext]
      apply scaled_le_nearest _ (by decide) hprod
      rw [Int.natAbs_natCast]
      unfold capacity
      omega
    have hlast := ih h (by omega) hmore
    rwa [show k + 1 + periods = k + (periods + 1) by omega] at hlast

theorem bernoulli_le_compound (h : compoundFactor rate periods = .ok compound)
    (hrate : 83 / 10 ^ 7 ≤ rate.value) (hperiods : periods ≤ 10 ^ 20) :
    1 + periods * (8 / 10 ^ 6) ≤ compound.value := by
  have := bernoulli_le_compoundFrom (k := 0) h hrate (by omega) (by rw [value_one]; norm_num)
  rwa [Nat.zero_add] at this

/-- The computed growth over `n` months or more, at a rate that is not next to nothing. -/
structure Compounds (n : Nat) (r c : ℚ) : Prop where
  rate_ge : 83 / 10 ^ 7 ≤ r
  gain_ge : n * (8 / 10 ^ 6) ≤ c - 1

theorem Compounds.one_le {n : Nat} {r c : ℚ} (h : Compounds n r c) : 1 ≤ c := by
  have hn : (0 : ℚ) ≤ n := Nat.cast_nonneg n
  linarith [h.gain_ge]

theorem compounds_of_compoundFactor (h : compoundFactor rate periods = .ok compound)
    (hrate : 83 / 10 ^ 7 ≤ rate.value) (hk : k ≤ periods) (hperiods : periods ≤ 10 ^ 20) :
    Compounds k rate.value compound.value := by
  have hk' : (k : ℚ) ≤ periods := by exact_mod_cast hk
  exact ⟨hrate, by linarith [bernoulli_le_compound h hrate hperiods]⟩

theorem pow_le_compound_of_le (h : compoundFactor rate periods = .ok compound)
    (hk : k ≤ periods) (hj₀ : 0 < j) (hj : j ≤ 1 + rate.value) : ((j ^ k : Nat) : ℚ) ≤ compound.value := by
  have hmono : j ^ k ≤ j ^ periods := Nat.pow_le_pow_right hj₀ hk
  have hmono' : ((j ^ k : Nat) : ℚ) ≤ (j ^ periods : Nat) := by exact_mod_cast hmono
  exact hmono'.trans (pow_le_compound h hj)

/-- Over four months a rate of a million would leave no room for the interest on the growth. -/
theorem rate_lt_of_interest {interest : Decimal} (h : compoundFactor rate periods = .ok compound)
    (hk : 4 ≤ periods) (hinterest : rate.mul compound = .ok interest) : rate.value < 10 ^ 6 := by
  by_contra hlarge
  rw [Rat.not_lt] at hlarge
  have hpow := pow_le_compound_of_le (j := 10 ^ 6) h hk (by norm_num) (by push_cast; linarith)
  have hprod : ((10 ^ 30 : Nat) : ℚ) ≤ rate.value * compound.value := by
    have := mul_le_mul hlarge hpow (Nat.cast_nonneg _) (by linarith)
    push_cast at this ⊢
    linarith
  have hcap := (le_abs_self _).trans (abs_value_le interest)
  have hge := natCast_le_of_value_eq (value_mul hinterest) hprod
  norm_num [capacity] at hcap hge
  linarith

/-- The gain is never much less than the growth, nor than the interest on it. -/
structure Gains (r c : ℚ) : Prop where
  growth_le : c ≤ 4 * 10 ^ 4 * (c - 1)
  interest_le : r * c ≤ 11 * 10 ^ 5 * (c - 1)

theorem gains_of_compoundFactor {interest : Decimal} (h : compoundFactor rate periods = .ok compound)
    (hcompounds : Compounds 4 rate.value compound.value) (hk : 4 ≤ periods)
    (hinterest : rate.mul compound = .ok interest) : Gains rate.value compound.value := by
  have hgain := hcompounds.gain_ge
  push_cast at hgain
  have hle : compound.value ≤ 4 * 10 ^ 4 * (compound.value - 1) := by linarith
  refine ⟨hle, ?_⟩
  rcases lt_or_ge rate.value 1 with hsmall | hlarge
  · have := mul_le_of_le_one_left (by linarith : 0 ≤ compound.value) hsmall.le
    linarith
  · have hrate := (rate_lt_of_interest h hk hinterest).le
    have hgrowth := pow_le_compound_of_le (j := 2) h hk (by norm_num) (by push_cast; linarith)
    norm_num at hgrowth
    have := mul_le_mul_of_nonneg_right hrate (by linarith : 0 ≤ compound.value)
    linarith

theorem nearest_sub_one (h : 1 ≤ compound.value) :
    nearest (compound.value - 1) = compound.value - 1 := by
  have hscaled : (compound.value - 1) * 10 ^ compound.scale
      = ((compound.signed - 10 ^ compound.scale : ℤ) : ℚ) := by
    push_cast
    rw [sub_mul, value_mul_pow, one_mul]
  apply nearest_eq_self hscaled _ compound.scale_le
  have hpow : (0 : ℚ) < 10 ^ compound.scale := by positivity
  have hlt : (compound.signed : ℚ) < capacity := by
    have hle : compound.signed ≤ compound.mantissa := by
      rw [← natAbs_signed compound]
      exact Int.le_natAbs
    have hle' : (compound.signed : ℚ) ≤ compound.mantissa := by exact_mod_cast hle
    have hcap : (compound.mantissa : ℚ) < capacity := by exact_mod_cast compound.mantissa_lt
    linarith
  rw [← Int.cast_lt (R := ℚ), Int.cast_abs, ← hscaled, abs_of_nonneg]
  · rw [sub_mul, value_mul_pow, one_mul]
    push_cast
    linarith
  · exact mul_nonneg (by linarith) hpow.le

end Compounding

section Annuity
variable {payment principal r c : ℚ}

/-- What the principal for a payment is computed as, from the growth over the term. -/
def carried (payment r c : ℚ) : ℚ :=
  nearest (nearest (payment * nearest (c - 1)) / nearest (r * c))

/-- What the payment for a principal is computed as. -/
def levelPayment (principal r c : ℚ) : ℚ :=
  nearest (nearest (nearest (principal * r) * c) / nearest (c - 1))

theorem Compounds.interest_pos {n : Nat} (h : Compounds n r c) : 0 < nearest (r * c) := by
  have hrate : 1 / 10 ^ 6 ≤ r * c := by
    have := mul_le_mul h.rate_ge h.one_le zero_le_one (by linarith [h.rate_ge])
    linarith
  have hround := le_drift_nearest (u := r * c) (by linarith)
  rw [drift] at hround
  linarith

theorem levelPayment_nonneg (hprincipal : 0 ≤ principal) (hr : 0 ≤ r) (hc : 1 ≤ c) :
    0 ≤ levelPayment principal r c := by
  apply nearest_nonneg
  apply div_nonneg
  · exact nearest_nonneg (mul_nonneg (nearest_nonneg (mul_nonneg hprincipal hr)) (by linarith))
  · exact nearest_nonneg (by linarith)

theorem carried_nonneg (hpayment : 0 ≤ payment) (hr : 0 ≤ r) (hc : 1 ≤ c) :
    0 ≤ carried payment r c := by
  apply nearest_nonneg
  apply div_nonneg
  · exact nearest_nonneg (mul_nonneg hpayment (nearest_nonneg (by linarith)))
  · exact nearest_nonneg (mul_nonneg hr (by linarith))

/-- Paying back what a payment carries costs hardly more than the payment. -/
theorem levelPayment_le (hpayment : 66 / 1000 ≤ payment) (h : Compounds 4 r c) (hgains : Gains r c)
    (hexact : nearest (c - 1) = c - 1) (hprincipal : principal ≤ carried payment r c) :
    levelPayment principal r c ≤ drift ^ 14 * payment := by
  have hr : 0 < r := by linarith [h.rate_ge]
  have hc : 0 < c := by linarith [h.one_le]
  have hrc : 0 < r * c := mul_pos hr hc
  have hle := hgains.growth_le
  have hle' := hgains.interest_le
  rw [levelPayment, hexact]
  rw [carried, hexact] at hprincipal
  generalize c - 1 = gain at *
  have hgain₀ : 0 < gain := by linarith [h.one_le]
  have hpaid : 66 / 1000 * gain ≤ payment * gain := mul_le_mul_of_nonneg_right hpayment hgain₀.le
  have hpaid' : 1 / 10 ^ 6 ≤ payment * gain := by linarith [h.one_le]
  have hrate : 1 / 10 ^ 6 ≤ r * c := by
    have := mul_le_mul h.rate_ge h.one_le zero_le_one hr.le
    linarith
  have hshare : 1 / 10 ^ 6 ≤ payment * gain / c := by
    rw [le_div_iff₀ hc]
    linarith
  have hloan : 6 / 10 ^ 8 ≤ payment * gain / (r * c) := by
    rw [le_div_iff₀ hrc]
    linarith
  have hinterest := le_drift_nearest (u := r * c) (by linarith)
  have hinterest₀ := h.interest_pos
  -- the principal
  have hcarries : nearest (payment * gain) ≤ drift ^ 1 * (payment * gain) :=
    nearest_le_drift hpaid' (by rw [pow_zero, one_mul])
  have hquotient : nearest (payment * gain) / nearest (r * c)
      ≤ drift ^ 2 * (payment * gain / (r * c)) := by
    rw [div_le_iff₀ hinterest₀]
    calc nearest (payment * gain) ≤ drift ^ 1 * (payment * gain) := hcarries
      _ = drift * (payment * gain / (r * c)) * (r * c) := by field_simp
      _ ≤ drift * (payment * gain / (r * c)) * (drift * nearest (r * c)) := by
        apply mul_le_mul_of_nonneg_left hinterest
        rw [drift]
        linarith
      _ = drift ^ 2 * (payment * gain / (r * c)) * nearest (r * c) := by ring
  have hcarried := nearest_le_drift_of_small 9 (by norm_num) (by push_cast; linarith) hquotient
  -- the payment for it
  have hinterest' : principal * r ≤ drift ^ 11 * (payment * gain / c) := by
    calc principal * r ≤ drift ^ 11 * (payment * gain / (r * c)) * r :=
          mul_le_mul_of_nonneg_right (hprincipal.trans hcarried) hr.le
      _ = drift ^ 11 * (payment * gain / c) := by field_simp
  have hfirst := nearest_le_drift hshare hinterest'
  have hgrown : nearest (principal * r) * c ≤ drift ^ 12 * (payment * gain) := by
    calc nearest (principal * r) * c ≤ drift ^ 12 * (payment * gain / c) * c :=
          mul_le_mul_of_nonneg_right hfirst hc.le
      _ = drift ^ 12 * (payment * gain) := by field_simp
  have hsecond := nearest_le_drift hpaid' hgrown
  have hthird : nearest (nearest (principal * r) * c) / gain ≤ drift ^ 13 * payment := by
    rw [div_le_iff₀ hgain₀, mul_assoc]
    exact hsecond
  exact nearest_le_drift (by linarith) hthird

theorem straightPayment_le {n : ℚ} (hpayment : 66 / 1000 ≤ payment) (hn : 1 ≤ n)
    (hprincipal : principal ≤ nearest (payment * n)) :
    nearest (principal / n) ≤ drift ^ 14 * payment := by
  have hpaid : 1 / 10 ^ 6 ≤ payment * n := by
    have := mul_le_mul hpayment hn zero_le_one (by linarith)
    linarith
  have hcarried : nearest (payment * n) ≤ drift ^ 1 * (payment * n) :=
    nearest_le_drift hpaid (by rw [pow_zero, one_mul])
  have hshare : principal / n ≤ drift ^ 1 * payment := by
    rw [div_le_iff₀ (by linarith), mul_assoc]
    exact hprincipal.trans hcarried
  have hmore : drift ^ 1 * payment ≤ drift ^ 13 * payment := by
    apply mul_le_mul_of_nonneg_right _ (by linarith)
    exact pow_le_pow_right₀ (by norm_num [drift]) (by norm_num)
  exact nearest_le_drift (by linarith) (hshare.trans hmore)

end Annuity

section MonthsOf
variable {years : UInt32}

theorem monthsOf_eq_mod (years : UInt32) : monthsOf years = years.toNat * 12 % 2 ^ 32 := by
  rw [monthsOf, UInt32.toNat_mul, UInt32.toNat_ofNat]

theorem monthsOf_eq (h : years.toNat * 12 < 2 ^ 32) : monthsOf years = years.toNat * 12 := by
  rw [monthsOf_eq_mod, Nat.mod_eq_of_lt h]

theorem monthsOf_le {y y' : UInt32} (h : y ≤ y') (hlt : y'.toNat * 12 < 2 ^ 32) :
    monthsOf y ≤ monthsOf y' := by
  have hmul : y.toNat * 12 ≤ y'.toNat * 12 := Nat.mul_le_mul_right 12 (UInt32.le_iff_toNat_le.mp h)
  rwa [monthsOf_eq hlt, monthsOf_eq (Nat.lt_of_le_of_lt hmul hlt)]

theorem monthsOf_lt (years : UInt32) : monthsOf years < 2 ^ 32 := (years * 12).toNat_lt

/-- What is left of a product that has wrapped around is a multiple of four. -/
theorem monthsOf_eq_mul (years : UInt32) : monthsOf years = 4 * (3 * years.toNat % 2 ^ 30) := by
  have hwidth : 2 ^ 32 = 4 * 2 ^ 30 := by norm_num
  rw [monthsOf_eq_mod, hwidth, ← Nat.mul_mod_mul_left, Nat.mul_comm, ← Nat.mul_assoc]

theorem four_le_monthsOf (h : monthsOf years ≠ 0) : 4 ≤ monthsOf years := by
  rw [monthsOf_eq_mul] at h ⊢
  have hpos : 0 < 3 * years.toNat % 2 ^ 30 := Nat.pos_of_ne_zero fun hzero => h (by rw [hzero])
  exact Nat.mul_le_mul_left 4 hpos

end MonthsOf

section Computed
variable {rate payment principal : Decimal} {months : Nat} {x y bound pay : ℚ}

/-- A term of at least a month, at a rate that is not negative. -/
structure Payable (rate : Decimal) (months : Nat) : Prop where
  rate_nonneg : 0 ≤ rate.value
  months_pos : 0 < months
  months_lt : months < capacity

/-- A term of at least four months, at no interest or at a rate that is not next to nothing. -/
structure Term (rate : Decimal) (months : Nat) : Prop where
  rate_cases : rate.value = 0 ∨ 83 / 10 ^ 7 ≤ rate.value
  four_le : 4 ≤ months
  months_le : months ≤ 10 ^ 20

/-- The payment `y` is the one computed for the principal `x`. -/
def PaymentFor (rate : Decimal) (months : Nat) (x y : ℚ) : Prop :=
  (rate.value = 0 ∧ y = nearest (x / months)) ∨
  (rate.value ≠ 0 ∧ ∃ c : Decimal, compoundFactor rate months = .ok c ∧
    y = levelPayment x rate.value c.value)

/-- The principal `y` is the one computed for the payment `x`. -/
def PrincipalFor (rate : Decimal) (months : Nat) (x y : ℚ) : Prop :=
  (rate.value = 0 ∧ y = nearest (x * months)) ∨
  (rate.value ≠ 0 ∧ ∃ c : Decimal, compoundFactor rate months = .ok c ∧
    (∃ interest, rate.mul c = .ok interest) ∧ y = carried x rate.value c.value)

theorem Term.payable (h : Term rate months) : Payable rate months := by
  have hfour := h.four_le
  have hmonths := h.months_le
  refine ⟨?_, by omega, ?_⟩
  · rcases h.rate_cases with hrate | hrate <;> linarith
  · unfold capacity
    omega

theorem Term.compounds (h : Term rate months) (hrate : rate.value ≠ 0) {c : Decimal}
    (hc : compoundFactor rate months = .ok c) : Compounds 4 rate.value c.value :=
  compounds_of_compoundFactor hc (h.rate_cases.resolve_left hrate) h.four_le h.months_le

theorem payable_of_years {percent : Decimal} {years : UInt32} (hrate : monthlyRate percent = .ok rate)
    (hpercent : 0 ≤ percent.value) (hmonths : monthsOf years ≠ 0) : Payable rate (monthsOf years) := by
  have hlt := monthsOf_lt years
  refine ⟨monthlyRate_nonneg hrate hpercent, by omega, ?_⟩
  unfold capacity
  omega

theorem Payable.value_months (h : Payable rate months) : (ofNat months).value = months :=
  value_ofNat h.months_lt

theorem Payable.one_lt_compound (h : Payable rate months) (hrate : rate.value ≠ 0) {c : Decimal}
    (hc : compoundFactor rate months = .ok c) : 1 < c.value :=
  Loan.one_lt_compound hc (lt_of_le_of_ne h.rate_nonneg hrate.symm) h.months_pos

/-- No divisor of the two formulas is rounded to zero. -/
theorem Payable.divisors_pos (h : Payable rate months) (hrate : rate.value ≠ 0) {c : Decimal}
    (hc : compoundFactor rate months = .ok c) :
    0 < nearest (c.value - 1) ∧ 0 < nearest (rate.value * c.value) := by
  have hone := h.one_lt_compound hrate hc
  constructor
  · apply OnGrid.nearest_pos _ (by linarith)
    rw [← value_one]
    exact (onGrid_value _).sub (onGrid_value _)
  · apply lt_of_lt_of_le (lt_of_le_of_ne h.rate_nonneg hrate.symm)
    apply value_le_nearest
    exact le_mul_of_one_le_right h.rate_nonneg hone.le

theorem gives_monthlyPayment (h : Payable rate months) (principal : Decimal) :
    Gives (monthlyPayment principal rate months) fun pay =>
      PaymentFor rate months principal.value pay.value := by
  rw [monthlyPayment, if_neg h.months_pos.ne']
  split
  case isTrue hzero =>
    have hvalue := h.value_months
    have hne : (ofNat months).value ≠ 0 := by
      rw [hvalue]
      exact_mod_cast h.months_pos.ne'
    apply (gives_div principal hne).lift.mono
    intro pay hpay
    exact Or.inl ⟨isZero_iff.mp hzero, by rw [hpay, hvalue]⟩
  case isFalse hrate =>
    rw [isZero_iff] at hrate
    apply (gives_compoundFactor rate months).lift.bind
    intro c hc
    have hgain := (h.divisors_pos hrate hc).1
    apply (gives_sub c .one).lift.bind
    intro gain hvalue
    rw [value_one] at hvalue
    rw [← hvalue] at hgain
    rw [isZero_eq_false_iff.mpr hgain.ne', if_neg Bool.false_ne_true]
    apply (gives_mul principal rate).lift.bind
    intro interest hinterest
    apply (gives_mul interest c).lift.bind
    intro grown hgrown
    apply (gives_div grown hgain.ne').lift.mono
    intro pay hpay
    exact Or.inr ⟨hrate, c, hc, by rw [hpay, hgrown, hinterest, hvalue, levelPayment]⟩

theorem gives_principalForPayment (h : Payable rate months) (payment : Decimal) :
    Gives (principalForPayment payment rate months) fun principal =>
      PrincipalFor rate months payment.value principal.value := by
  rw [principalForPayment, if_neg h.months_pos.ne']
  split
  case isTrue hzero =>
    apply (gives_mul payment (ofNat months)).lift.mono
    intro principal hprincipal
    exact Or.inl ⟨isZero_iff.mp hzero, by rw [hprincipal, h.value_months]⟩
  case isFalse hrate =>
    rw [isZero_iff] at hrate
    apply (gives_compoundFactor rate months).lift.bind
    intro c hc
    apply (gives_sub c .one).lift.bind
    intro gain hvalue
    rw [value_one] at hvalue
    apply (gives_mul payment gain).lift.bind
    intro earned hearned
    apply (gives_mul rate c).with_eq.lift.bind
    rintro interest ⟨hfits, hinterest⟩
    have hne : interest.value ≠ 0 := by
      rw [hinterest]
      exact (h.divisors_pos hrate hc).2.ne'
    apply (gives_div earned hne).lift.mono
    intro principal hprincipal
    exact Or.inr ⟨hrate, c, hc, ⟨interest, hfits⟩, by rw [hprincipal, hearned, hinterest, hvalue, carried]⟩

theorem PrincipalFor.nonneg (h : PrincipalFor rate months x y) (hterm : Payable rate months)
    (hx : 0 ≤ x) : 0 ≤ y := by
  rcases h with ⟨-, rfl⟩ | ⟨hrate, c, hc, -, rfl⟩
  · exact nearest_nonneg (mul_nonneg hx (Nat.cast_nonneg _))
  · exact carried_nonneg hx hterm.rate_nonneg (hterm.one_lt_compound hrate hc).le

theorem PrincipalFor.eq_zero (h : PrincipalFor rate months 0 y) : y = 0 := by
  rcases h with ⟨-, rfl⟩ | ⟨-, c, -, -, rfl⟩
  · rw [zero_mul, nearest_zero]
  · rw [carried, zero_mul, nearest_zero, zero_div, nearest_zero]

theorem PaymentFor.nonneg (h : PaymentFor rate months x y) (hterm : Payable rate months)
    (hx : 0 ≤ x) : 0 ≤ y := by
  rcases h with ⟨-, rfl⟩ | ⟨hrate, c, hc, rfl⟩
  · exact nearest_nonneg (div_nonneg hx (Nat.cast_nonneg _))
  · exact levelPayment_nonneg hx hterm.rate_nonneg (hterm.one_lt_compound hrate hc).le

theorem PaymentFor.eq_zero (h : PaymentFor rate months 0 y) : y = 0 := by
  rcases h with ⟨-, rfl⟩ | ⟨-, c, -, rfl⟩
  · rw [zero_div, nearest_zero]
  · rw [levelPayment, zero_mul, nearest_zero, zero_mul, nearest_zero, zero_div, nearest_zero]

/-- The payment for a principal that another payment carries. -/
theorem PaymentFor.le (h : PaymentFor rate months y pay) (hterm : Term rate months)
    (hbound : PrincipalFor rate months x bound) (hx : 66 / 1000 ≤ x) (hy : y ≤ bound) :
    pay ≤ drift ^ 14 * x := by
  rcases h with ⟨hzero, rfl⟩ | ⟨hrate, c, hc, rfl⟩ <;>
    rcases hbound with ⟨hzero', rfl⟩ | ⟨hrate', c', hc', ⟨interest, hinterest⟩, rfl⟩
  · have hfour : (4 : ℚ) ≤ months := by exact_mod_cast hterm.four_le
    exact straightPayment_le hx (by linarith) hy
  · exact absurd hzero hrate'
  · exact absurd hzero' hrate
  · cases hc.symm.trans hc'
    have hcompounds := hterm.compounds hrate hc
    exact levelPayment_le hx hcompounds (gains_of_compoundFactor hc hcompounds hterm.four_le hinterest)
      (nearest_sub_one hcompounds.one_le) hy

end Computed

end PropertyFinance.Loan
