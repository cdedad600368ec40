import PropertyFinance.Proofs.Lending.Amortization

/-! An amortising loan is paid off within a cent. What a payment repays beyond the interest grows from
month to month by the rate, and the computed growth, by which the payment was found, exceeds the exact
one by very little. So the last balance is an error of the payment and of the months, made larger by
the growth over the term. -/

namespace PropertyFinance
open Decimal
set_option autoImplicit false

namespace Loan

section Growth
variable {rate factor : Decimal} {n : Nat} {x : ℚ}

theorem nearest_le_unit_mul (hx : 1 ≤ x) : nearest x ≤ (1 + quantum) * x := by
  have hround := (abs_le.mp (abs_nearest_sub_le_max x)).2
  have hrel : max (quantum / 2) (16 / 25 * quantum * |x|) ≤ quantum * x := by
    rw [abs_of_nonneg (by linarith), quantum_eq]
    apply max_le <;> linarith
  linarith

theorem growth_exact (hrate : 0 ≤ rate.value) (hrate' : rate.value ≤ 1) :
    ∃ growth, Decimal.one.add rate = .ok growth ∧ growth.value = 1 + rate.value := by
  have hgrid : OnGrid (1 + rate.value) := by
    rw [← value_one]
    exact (onGrid_value _).add (onGrid_value _)
  obtain ⟨growth, hgrowth⟩ := add_isOk (a := .one) (b := rate) (by
    rw [value_one]
    exact fits_of_nonneg (by linarith) (by linarith))
  refine ⟨growth, hgrowth, ?_⟩
  rw [value_add hgrowth, value_one]
  apply hgrid.nearest_eq
  rw [abs_of_nonneg (by linarith)]
  linarith

/-- Each period multiplies by the exact growth and one rounding. -/
theorem compoundFrom_isOk (hrate : 0 ≤ rate.value) (hrate' : rate.value ≤ 1)
    (hfactor : 1 ≤ factor.value)
    (hsmall : factor.value * ((1 + quantum) * (1 + rate.value)) ^ n ≤ 10 ^ 28) :
    ∃ c, compoundFrom rate n factor = .ok c ∧
      c.value ≤ factor.value * ((1 + quantum) * (1 + rate.value)) ^ n := by
  obtain ⟨growth, hgrowth, hvalue⟩ := growth_exact hrate hrate'
  have hquantum := quantum_pos
  induction n generalizing factor with
  | zero => exact ⟨factor, rfl, by rw [pow_zero, mul_one]⟩
  | succ n ih =>
    have hone : (1 : ℚ) ≤ (1 + quantum) * (1 + rate.value) :=
      one_le_mul_of_one_le_of_one_le (by linarith) (by linarith)
    have hgrown : 1 ≤ factor.value * growth.value := by
      rw [hvalue]
      exact one_le_mul_of_one_le_of_one_le hfactor (by linarith)
    have hround : (1 + quantum) * (factor.value * growth.value)
          * ((1 + quantum) * (1 + rate.value)) ^ n
        = factor.value * ((1 + quantum) * (1 + rate.value)) ^ (n + 1) := by
      rw [hvalue]
      ring
    have hprod : factor.value * growth.value ≤ 10 ^ 28 := by
      calc factor.value * growth.value
          ≤ (1 + quantum) * (factor.value * growth.value) :=
            le_mul_of_one_le_left (by linarith) (by linarith)
        _ ≤ (1 + quantum) * (factor.value * growth.value)
              * ((1 + quantum) * (1 + rate.value)) ^ n :=
            le_mul_of_one_le_right (mul_nonneg (by linarith) (by linarith)) (one_le_pow₀ hone)
        _ ≤ 10 ^ 28 := hround.trans_le hsmall
    obtain ⟨next, hnext⟩ := mul_isOk (fits_of_nonneg (by linarith) hprod)
    have hnext₁ : 1 ≤ next.value := by
      rw [value_mul hnext, ← value_one]
      apply value_le_nearest
      rwa [value_one]
    have hle : next.value * ((1 + quantum) * (1 + rate.value)) ^ n
        ≤ factor.value * ((1 + quantum) * (1 + rate.value)) ^ (n + 1) := by
      rw [← hround]
      apply mul_le_mul_of_nonneg_right _ (pow_nonneg (by linarith) n)
      rw [value_mul hnext]
      exact nearest_le_unit_mul hgrown
    obtain ⟨c, hc, hc'⟩ := ih hnext₁ (hle.trans hsmall)
    refine ⟨c, ?_, hc'.trans hle⟩
    rw [compoundFrom, hgrowth, ok_bind, hnext, ok_bind, hc]

theorem monthlyRate_mem {percent : Decimal} (h : monthlyRate percent = .ok rate)
    (hpct : 1 / 100 ≤ percent.value ∧ percent.value ≤ 25) :
    83 / 10 ^ 7 ≤ rate.value ∧ rate.value ≤ 20834 / 10 ^ 6 := by
  rw [value_monthlyRate h]
  constructor
  · exact le_monthly_of_le hpct.1
  · have hyear := nearest_le_scaled (n := 25) (s := 2) (x := percent.value / 100) (by decide)
      (by decide) (by norm_num; linarith)
    have hmonth := nearest_le_scaled (n := 20834) (s := 6)
      (x := nearest (percent.value / 100) / 12) (by decide) (by decide)
      (by norm_num at hyear ⊢; linarith)
    norm_num at hmonth ⊢
    exact hmonth

/-- A monthly rate up to two percent or so, over one to forty years. -/
structure Ordinary (r : ℚ) (n : Nat) : Prop where
  rate_ge : 83 / 10 ^ 7 ≤ r
  rate_le : r ≤ 20834 / 10 ^ 6
  year_le : 12 ≤ n
  months_le : n ≤ 480

theorem Ordinary.growth_le {r : ℚ} (h : Ordinary r n) : (1 + r) ^ n ≤ 25000 := by
  have hrate := h.rate_ge
  have hrate' := h.rate_le
  calc (1 + r) ^ n ≤ (1021 / 1000) ^ n := pow_le_pow_left₀ (by linarith) (by linarith) n
    _ ≤ (1021 / 1000) ^ (240 * 2) := pow_le_pow_right₀ (by norm_num) h.months_le
    _ ≤ 25000 := by rw [pow_mul]; norm_num

theorem Ordinary.roundings_le {r : ℚ} (h : Ordinary r n) : (1 + quantum) ^ n ≤ 1 + 1 / 10 ^ 25 := by
  calc (1 + quantum) ^ n ≤ (1 + quantum) ^ (240 * 2) :=
        pow_le_pow_right₀ (by linarith [quantum_pos]) h.months_le
    _ ≤ 1 + 1 / 10 ^ 25 := by rw [pow_mul]; norm_num [quantum_eq]

theorem Ordinary.one_le_growth {r : ℚ} (h : Ordinary r n) : 1 ≤ (1 + r) ^ n :=
  one_le_pow₀ (by linarith [h.rate_ge])

theorem Ordinary.compoundFactor_isOk (h : Ordinary rate.value n) :
    ∃ c, compoundFactor rate n = .ok c ∧ Compounds 12 rate.value c.value ∧
      c.value ≤ (1 + 1 / 10 ^ 25) * (1 + rate.value) ^ n := by
  have hrate := h.rate_ge
  have hrate' := h.rate_le
  have hyear := h.year_le
  have hmonths := h.months_le
  have hpow : ((1 + quantum) * (1 + rate.value)) ^ n ≤ (1 + 1 / 10 ^ 25) * (1 + rate.value) ^ n := by
    rw [mul_pow]
    exact mul_le_mul_of_nonneg_right h.roundings_le (by linarith [h.one_le_growth])
  have hsmall : Decimal.one.value * ((1 + quantum) * (1 + rate.value)) ^ n ≤ 10 ^ 28 := by
    rw [value_one, one_mul]
    linarith [h.growth_le]
  obtain ⟨c, hc, hc'⟩ := compoundFrom_isOk (by linarith) (by linarith) value_one.ge hsmall
  rw [value_one, one_mul] at hc'
  exact ⟨c, hc, compounds_of_compoundFactor hc hrate hyear (by omega), hc'.trans hpow⟩

end Growth

section Payment
variable {principal r x bound : ℚ} {c loanAmount rate : Decimal} {n : Nat}

theorem nearest_near (hx : 0 ≤ x) (hle : x ≤ bound) :
    x - quantum * (1 / 2 + 16 / 25 * bound) ≤ nearest x ∧
      nearest x ≤ x + quantum * (1 / 2 + 16 / 25 * bound) := by
  have hround := abs_le.mp (abs_nearest_sub_le x)
  have hmono : quantum * (1 / 2 + 16 / 25 * |x|) ≤ quantum * (1 / 2 + 16 / 25 * bound) := by
    apply mul_le_mul_of_nonneg_left _ quantum_pos.le
    rw [abs_of_nonneg hx]
    linarith
  constructor <;> linarith

/-- A principal of at most a trillion, with the growth at which it is paid back. -/
structure Moderate (principal r : ℚ) (c : Decimal) : Prop where
  principal_nonneg : 0 ≤ principal
  principal_le : principal ≤ 10 ^ 12
  rate_le : r ≤ 20834 / 10 ^ 6
  growth_le : c.value ≤ 10 ^ 5
  compounds : Compounds 12 r c.value

theorem Moderate.rate_nonneg (h : Moderate principal r c) : 0 ≤ r := by
  linarith [h.compounds.rate_ge]

theorem Moderate.le_gain (h : Moderate principal r c) : c.value ≤ 2 * 10 ^ 4 * (c.value - 1) := by
  have hgain := h.compounds.gain_ge
  push_cast at hgain
  linarith

theorem Moderate.gain_pos (h : Moderate principal r c) : 0 < c.value - 1 := by
  linarith [h.compounds.one_le, h.le_gain]

theorem Moderate.interest_mem (h : Moderate principal r c) :
    0 ≤ principal * r ∧ principal * r ≤ 20834 * 10 ^ 6 := by
  constructor
  · exact mul_nonneg h.principal_nonneg h.rate_nonneg
  · have := mul_le_mul h.principal_le h.rate_le h.rate_nonneg (by norm_num)
    linarith

theorem Moderate.nearest_interest_mem (h : Moderate principal r c) :
    0 ≤ nearest (principal * r) ∧ nearest (principal * r) ≤ 20834 * 10 ^ 6 := by
  obtain ⟨hnonneg, hle⟩ := h.interest_mem
  constructor
  · exact nearest_nonneg hnonneg
  · have := nearest_le_scaled (n := 20834000000) (s := 0) (x := principal * r) (by decide)
      (by decide) (by norm_num at hle ⊢; exact hle)
    norm_num at this ⊢
    exact this

/-- Both bounds grow with the gain `c - 1`, by which the product is divided next. -/
theorem Moderate.grown_mem (h : Moderate principal r c) :
    principal * r * c.value - 6 / 10 ^ 14 * (c.value - 1) ≤ nearest (nearest (principal * r) * c.value) ∧
      nearest (nearest (principal * r) * c.value) ≤ 42 * 10 ^ 13 * (c.value - 1) := by
  obtain ⟨hinterest, hinterest'⟩ := h.interest_mem
  obtain ⟨hnonneg, hle⟩ := h.nearest_interest_mem
  have hone := h.compounds.one_le
  have hgain := h.le_gain
  have hnear := (nearest_near hinterest hinterest').1
  have hlost : (principal * r - 14 / 10 ^ 19) * c.value ≤ nearest (principal * r) * c.value := by
    apply mul_le_mul_of_nonneg_right _ (by linarith)
    rw [quantum_eq] at hnear
    linarith
  have hgrown : nearest (principal * r) * c.value ≤ 20834 * 10 ^ 6 * c.value :=
    mul_le_mul_of_nonneg_right hle (by linarith)
  have hround := nearest_near (mul_nonneg hnonneg (by linarith : 0 ≤ c.value)) hgrown
  rw [quantum_eq] at hround
  constructor <;> linarith [hround.1, hround.2]

theorem Moderate.le_levelPayment (h : Moderate principal r c) :
    principal * r * c.value / (c.value - 1) - 1 / 10 ^ 13 ≤ levelPayment principal r c.value := by
  have hgain := h.gain_pos
  obtain ⟨hge, hle⟩ := h.grown_mem
  have hnonneg := mul_nonneg h.nearest_interest_mem.1 (by linarith [h.compounds.one_le] : 0 ≤ c.value)
  rw [levelPayment, nearest_sub_one h.compounds.one_le]
  have hquotient : principal * r * c.value / (c.value - 1) - 6 / 10 ^ 14
      ≤ nearest (nearest (principal * r) * c.value) / (c.value - 1) := by
    rw [le_div_iff₀ hgain, sub_mul, div_mul_cancel₀ _ hgain.ne']
    exact hge
  have hround := (nearest_near (div_nonneg (nearest_nonneg hnonneg) hgain.le)
    ((div_le_iff₀ hgain).mpr hle)).1
  rw [quantum_eq] at hround
  linarith

theorem Moderate.levelPayment_mem (h : Moderate principal r c) :
    0 ≤ levelPayment principal r c.value ∧ levelPayment principal r c.value ≤ 42 * 10 ^ 13 := by
  constructor
  · exact levelPayment_nonneg h.principal_nonneg h.rate_nonneg h.compounds.one_le
  · have hgain := h.gain_pos
    have hquotient := (div_le_iff₀ hgain).mpr h.grown_mem.2
    have := nearest_le_scaled (n := 420000000000000) (s := 0)
      (x := nearest (nearest (principal * r) * c.value) / (c.value - 1)) (by decide) (by decide)
      (by norm_num at hquotient ⊢; exact hquotient)
    rw [levelPayment, nearest_sub_one h.compounds.one_le]
    norm_num at this ⊢
    exact this

/-- No step of the payment overflows. -/
theorem Moderate.steps_isOk (h : Moderate loanAmount.value rate.value c) :
    ∃ gain interest grown payment, c.sub .one = .ok gain ∧ gain.value ≠ 0 ∧
      loanAmount.mul rate = .ok interest ∧ interest.mul c = .ok grown ∧
      grown.div gain = .ok payment ∧
      payment.value = levelPayment loanAmount.value rate.value c.value := by
  have hone := h.compounds.one_le
  have hgain := h.gain_pos
  have hgrowth := h.growth_le
  obtain ⟨hinterest, hinterest'⟩ := h.interest_mem
  obtain ⟨hnonneg, hle⟩ := h.nearest_interest_mem
  obtain ⟨gain, hsub⟩ := sub_isOk (a := c) (b := .one) (by
    rw [value_one]
    exact fits_of_nonneg hgain.le (by linarith))
  have hsub' := value_sub hsub
  rw [value_one, nearest_sub_one hone] at hsub'
  obtain ⟨interest, hmul⟩ := mul_isOk (fits_of_nonneg hinterest (by linarith))
  have hmul' := value_mul hmul
  rw [← hmul'] at hnonneg hle
  have hproduct : interest.value * c.value ≤ 20834 * 10 ^ 6 * 10 ^ 5 :=
    mul_le_mul hle hgrowth (by linarith) (by norm_num)
  have hproduct₀ : 0 ≤ interest.value * c.value := mul_nonneg hnonneg (by linarith)
  obtain ⟨grown, hgrown⟩ := mul_isOk (fits_of_nonneg hproduct₀ (by linarith))
  have hgrown' := value_mul hgrown
  have hgrown₀ : 0 ≤ grown.value := hgrown' ▸ nearest_nonneg hproduct₀
  have hne : gain.value ≠ 0 := by
    rw [hsub']
    exact hgain.ne'
  have hquotient : grown.value / gain.value ≤ 42 * 10 ^ 13 := by
    rw [hsub', div_le_iff₀ hgain, hgrown', hmul']
    exact h.grown_mem.2
  obtain ⟨payment, hpayment⟩ := div_isOk hne
    (fits_of_nonneg (div_nonneg hgrown₀ (by linarith)) (by linarith))
  refine ⟨gain, interest, grown, payment, hsub, hne, hmul, hgrown, hpayment, ?_⟩
  rw [(value_div hpayment).2, hgrown', hmul', hsub', levelPayment, nearest_sub_one hone]

theorem Moderate.monthlyPayment_isOk (h : Moderate loanAmount.value rate.value c) (hn : n ≠ 0)
    (hc : compoundFactor rate n = .ok c) :
    ∃ payment, monthlyPayment loanAmount rate n = .ok payment ∧
      payment.value = levelPayment loanAmount.value rate.value c.value := by
  have hrate : ¬ rate.isZero = true := by
    rw [isZero_iff]
    linarith [h.compounds.rate_ge]
  obtain ⟨gain, interest, grown, payment, hgain, hne, hinterest, hgrown, hpayment, hvalue⟩ := h.steps_isOk
  refine ⟨payment, ?_, hvalue⟩
  rw [monthlyPayment, if_neg hn, if_neg hrate]
  refine bind_eq_ok.mpr ⟨c, liftM_eq_ok.mpr hc, ?_⟩
  refine bind_eq_ok.mpr ⟨gain, liftM_eq_ok.mpr hgain, ?_⟩
  rw [if_neg (fun hzero => hne (isZero_iff.mp hzero))]
  refine bind_eq_ok.mpr ⟨interest, liftM_eq_ok.mpr hinterest, ?_⟩
  refine bind_eq_ok.mpr ⟨grown, liftM_eq_ok.mpr hgrown, ?_⟩
  exact liftM_eq_ok.mpr hpayment

/-- What the exact growth `g` over the term leaves of the principal. -/
theorem Moderate.left_lt {g payment left : ℚ} (h : Moderate principal r c) (hg : 1 ≤ g)
    (hg' : g ≤ 25000) (hc : c.value ≤ (1 + 1 / 10 ^ 25) * g)
    (hpayment : principal * r * c.value / (c.value - 1) - 1 / 10 ^ 13 ≤ payment)
    (hleft : (payment - 1 / 10 ^ 13 - r * principal) * g ≤ payment - 1 / 10 ^ 13 - r * left) :
    left < 1 / 100 := by
  have hgain := h.gain_pos
  have hrate := h.compounds.rate_ge
  obtain ⟨hinterest, -⟩ := h.interest_mem
  -- the first repayment of the exact payment
  have hfirst : principal * r * c.value / (c.value - 1)
      = principal * r + principal * r / (c.value - 1) := by
    field_simp
    ring
  have hrepaid : principal * r / (c.value - 1) * (c.value - 1) = principal * r :=
    div_mul_cancel₀ _ hgain.ne'
  have hrepaid₀ : 0 ≤ principal * r / (c.value - 1) := div_nonneg hinterest hgain.le
  have hrepaid₁ : principal * r / (c.value - 1) ≤ 2 * 10 ^ 16 * r := by
    rw [div_le_iff₀ hgain]
    have hone : 1 ≤ 2 * 10 ^ 4 * (c.value - 1) := h.compounds.one_le.trans h.le_gain
    calc principal * r ≤ 10 ^ 12 * r * 1 := by
          rw [mul_one]
          exact mul_le_mul_of_nonneg_right h.principal_le h.rate_nonneg
      _ ≤ 10 ^ 12 * r * (2 * 10 ^ 4 * (c.value - 1)) :=
          mul_le_mul_of_nonneg_left hone (by linarith)
      _ = 2 * 10 ^ 16 * r * (c.value - 1) := by ring
  rw [hfirst] at hpayment
  generalize principal * r / (c.value - 1) = repaid at *
  have hshort := mul_le_mul_of_nonneg_right hpayment (by linarith : 0 ≤ g - 1)
  have hexcess : repaid * (c.value - g) ≤ 2 * 10 ^ 16 * r * (25000 / 10 ^ 25) := by
    calc repaid * (c.value - g) ≤ repaid * (25000 / 10 ^ 25) :=
          mul_le_mul_of_nonneg_left (by linarith) hrepaid₀
      _ ≤ 2 * 10 ^ 16 * r * (25000 / 10 ^ 25) := mul_le_mul_of_nonneg_right hrepaid₁ (by norm_num)
  have hsmall : r * left ≤ r * (1 / 1000) := by
    linarith
  have := le_of_mul_le_mul_left hsmall (by linarith)
  linarith

end Payment

end Loan

namespace LoanTerms
variable {loanAmount interestRatePct rate payment balance next out : Decimal} {years : UInt32}
  {terms : LoanTerms} {n : Nat}

/-- Figures of at most a trillion, and what they are paid back with. -/
structure Sized (rate payment balance : Decimal) : Prop where
  covers : Covers rate payment balance
  balance_le : balance.value ≤ 10 ^ 12
  rate_le : rate.value ≤ 20834 / 10 ^ 6
  payment_le : payment.value ≤ 42 * 10 ^ 13

/-- A month's roundings come to less than a ten million millionth. -/
theorem Sized.monthEnd_le (h : Sized rate payment balance)
    (hnext : monthEnd rate payment balance = .ok next) :
    next.value ≤ balance.value * (1 + rate.value) - (payment.value - 1 / 10 ^ 13) := by
  obtain ⟨next', hnext', hvalue, -⟩ := h.covers.monthEnd
  cases hnext.symm.trans hnext'
  have hbalance := h.covers.balance_nonneg
  have hbalance' := h.balance_le
  have hpayment := h.payment_le
  have hinterest₀ := mul_nonneg hbalance h.covers.rate_nonneg
  have hinterest : balance.value * rate.value ≤ 20834 * 10 ^ 6 := by
    have := mul_le_mul hbalance' h.rate_le h.covers.rate_nonneg (by norm_num)
    linarith
  have hround := (Loan.nearest_near hinterest₀ hinterest).2
  have hcovers := h.covers.interest_le
  have hnonneg := nearest_nonneg hinterest₀
  have hround' := (Loan.nearest_near (by linarith) (by linarith :
    payment.value - nearest (balance.value * rate.value) ≤ 42 * 10 ^ 13))
  have hrepaid := nearest_nonneg (by linarith :
    0 ≤ payment.value - nearest (balance.value * rate.value))
  generalize nearest (payment.value - nearest (balance.value * rate.value)) = repaid at *
  have hlast := (abs_le.mp (abs_nearest_sub_le (balance.value - repaid))).2
  have hsize : |balance.value - repaid| ≤ 43 * 10 ^ 13 := by
    rw [quantum_eq] at hround'
    rw [abs_le]
    constructor <;> linarith [hround'.2]
  rw [quantum_eq] at hround hround' hlast
  rw [hvalue]
  linarith [hround'.1]

/-- What is repaid beyond the interest grows by the rate from month to month, until the loan is paid off. -/
theorem Sized.payDown_excess (h : Sized rate payment balance)
    (hout : payDown rate payment n balance = .ok out) :
    out.value = 0 ∨ (payment.value - 1 / 10 ^ 13 - rate.value * balance.value) * (1 + rate.value) ^ n
      ≤ payment.value - 1 / 10 ^ 13 - rate.value * out.value := by
  induction n generalizing balance with
  | zero =>
    cases hout
    right
    rw [pow_zero, mul_one]
  | succ n ih =>
    obtain ⟨next, hnext, -, hle⟩ := h.covers.monthEnd
    rw [payDown_succ, hnext, ok_bind] at hout
    split at hout
    case isTrue =>
      cases hout
      exact Or.inl value_zero
    case isFalse hpos =>
      rw [not_le_zero_iff] at hpos
      have hsized : Sized rate payment next :=
        ⟨h.covers.mono hpos.le hle, hle.trans h.balance_le, h.rate_le, h.payment_le⟩
      refine (ih hsized hout).imp_right (le_trans ?_)
      have hstep := mul_le_mul_of_nonneg_left (h.monthEnd_le hnext) h.covers.rate_nonneg
      rw [pow_succ' (1 + rate.value) n, ← mul_assoc]
      apply mul_le_mul_of_nonneg_right
      · linarith
      · exact pow_nonneg (by linarith [h.covers.rate_nonneg]) n

section Payoff

/-- A loan of up to a trillion, over one to forty years at a hundredth of a percent to 25 percent. -/
structure Customary (loanAmount interestRatePct : Decimal) (years : UInt32) : Prop where
  loanAmount_mem : 0 ≤ loanAmount.value ∧ loanAmount.value ≤ 10 ^ 12
  interestRatePct_mem : 1 / 100 ≤ interestRatePct.value ∧ interestRatePct.value ≤ 25
  years_mem : 1 ≤ years.toNat ∧ years.toNat ≤ 40

theorem Customary.months_lt (h : Customary loanAmount interestRatePct years) :
    years.toNat * 12 < 2 ^ 32 := by
  have := h.years_mem.2
  omega

theorem Customary.ordinary (h : Customary loanAmount interestRatePct years)
    (hrate : Loan.monthlyRate interestRatePct = .ok rate) :
    Loan.Ordinary rate.value (Loan.monthsOf years) := by
  rw [Loan.monthsOf_eq h.months_lt]
  obtain ⟨hge, hle⟩ := Loan.monthlyRate_mem hrate h.interestRatePct_mem
  obtain ⟨hyear, hforty⟩ := h.years_mem
  exact ⟨hge, hle, by omega, by omega⟩

theorem Customary.moderate (h : Customary loanAmount interestRatePct years)
    (hrate : Loan.monthlyRate interestRatePct = .ok rate) :
    ∃ c, Loan.compoundFactor rate (Loan.monthsOf years) = .ok c ∧
      Loan.Moderate loanAmount.value rate.value c ∧
      c.value ≤ (1 + 1 / 10 ^ 25) * (1 + rate.value) ^ Loan.monthsOf years := by
  have hordinary := h.ordinary hrate
  obtain ⟨c, hc, hcompounds, hle⟩ := hordinary.compoundFactor_isOk
  have hgrowth := hordinary.growth_le
  exact ⟨c, hc, ⟨h.loanAmount_mem.1, h.loanAmount_mem.2, hordinary.rate_le, by linarith, hcompounds⟩, hle⟩

theorem Customary.months_ne_zero (h : Customary loanAmount interestRatePct years) :
    Loan.monthsOf years ≠ 0 := by
  have := h.years_mem.1
  rw [Loan.monthsOf_eq h.months_lt]
  omega

theorem Customary.years_ne_zero (h : Customary loanAmount interestRatePct years) : years ≠ 0 := by
  intro hzero
  have := h.years_mem.1
  rw [hzero] at this
  exact absurd this (by decide)

theorem Customary.ofLoan_isOk (h : Customary loanAmount interestRatePct years) :
    ∃ terms, ofLoan loanAmount interestRatePct years = .ok terms := by
  obtain ⟨rate, hrate⟩ := Loan.monthlyRate_isOk interestRatePct
  obtain ⟨c, hc, hmoderate, -⟩ := h.moderate hrate
  obtain ⟨payment, hpayment, hvalue⟩ := hmoderate.monthlyPayment_isOk h.months_ne_zero hc
  obtain ⟨hnonneg, hle⟩ := hmoderate.levelPayment_mem
  obtain ⟨service, hservice⟩ := mul_isOk (a := payment) (b := .twelve) (by
    rw [hvalue, value_twelve]
    exact fits_of_nonneg (by linarith) (by linarith))
  have hloan := h.loanAmount_mem.1
  have hpct := h.interestRatePct_mem.1
  refine ⟨⟨loanAmount, interestRatePct, years, payment, service⟩, ?_⟩
  rw [ofLoan]
  refine unless_reject_eq_ok.mpr ⟨?_, unless_reject_eq_ok.mpr ⟨?_, ?_⟩⟩
  · exact not_lt_zero_iff.mpr hloan
  · exact not_lt_zero_iff.mpr (by linarith)
  · refine bind_eq_ok.mpr ⟨rate, liftM_eq_ok.mpr hrate, ?_⟩
    dsimp only
    rw [if_neg h.years_ne_zero]
    refine bind_eq_ok.mpr ⟨payment, hpayment, ?_⟩
    exact bind_eq_ok.mpr ⟨service, liftM_eq_ok.mpr hservice, rfl⟩

theorem Customary.monthlyPayment_eq (h : Customary loanAmount interestRatePct years)
    (hissued : Issued loanAmount interestRatePct years rate terms) :
    ∃ c, terms.growth = .ok c ∧ Loan.Moderate loanAmount.value rate.value c ∧
      c.value ≤ (1 + 1 / 10 ^ 25) * (1 + rate.value) ^ Loan.monthsOf years ∧
      terms.monthlyPayment.value = Loan.levelPayment loanAmount.value rate.value c.value := by
  obtain ⟨c, hc, hmoderate, hle⟩ := h.moderate hissued.rate_eq
  obtain ⟨payment, hpayment, hvalue⟩ := hmoderate.monthlyPayment_isOk h.months_ne_zero hc
  cases hpayment.symm.trans (hissued.payment_eq h.years_ne_zero)
  refine ⟨c, ?_, hmoderate, hle, hvalue⟩
  rw [growth, hissued.interestRatePct_eq, hissued.rate_eq, ok_bind, hissued.months_eq, hc]

theorem Customary.sized (h : Customary loanAmount interestRatePct years)
    (hissued : Issued loanAmount interestRatePct years rate terms) :
    Sized rate terms.monthlyPayment loanAmount := by
  obtain ⟨c, hc, hmoderate, -, hvalue⟩ := h.monthlyPayment_eq hissued
  have hrate : rate.value ≠ 0 := by linarith [hmoderate.compounds.rate_ge]
  refine ⟨hissued.covers h.years_ne_zero hrate ?_, h.loanAmount_mem.2, hmoderate.rate_le, ?_⟩
  · intro c' hc'
    cases hc.symm.trans hc'
    linarith [hmoderate.growth_le]
  · rw [hvalue]
    exact hmoderate.levelPayment_mem.2

theorem Customary.payDown_lt (h : Customary loanAmount interestRatePct years)
    (hissued : Issued loanAmount interestRatePct years rate terms)
    (hout : payDown rate terms.monthlyPayment (Loan.monthsOf years) loanAmount = .ok out) :
    out.value < 1 / 100 := by
  obtain ⟨c, -, hmoderate, hle, hvalue⟩ := h.monthlyPayment_eq hissued
  have hordinary := h.ordinary hissued.rate_eq
  rcases (h.sized hissued).payDown_excess hout with hzero | hexcess
  · rw [hzero]
    norm_num
  · have hpays := hmoderate.le_levelPayment
    rw [← hvalue] at hpays
    exact hmoderate.left_lt hordinary.one_le_growth hordinary.growth_le hle hpays hexcess

/-- From the end of the term on, less than a cent is left. -/
theorem paid_off_within_cent
    (hloan : 0 ≤ loanAmount.value ∧ loanAmount.value ≤ 10 ^ 12)
    (hpct : 1 / 100 ≤ interestRatePct.value ∧ interestRatePct.value ≤ 25)
    (hyears : 1 ≤ years.toNat ∧ years.toNat ≤ 40) :
    ∃ terms, ofLoan loanAmount interestRatePct years = .ok terms ∧
      ∀ y ≥ years, y.toNat * 12 < 2 ^ 32 →
        ∃ b, terms.balanceAfter y = .ok b ∧ 0 ≤ b.value ∧ b.value < 1 / 100 := by
  have hcustomary : Customary loanAmount interestRatePct years := ⟨hloan, hpct, hyears⟩
  obtain ⟨terms, hterms⟩ := hcustomary.ofLoan_isOk
  obtain ⟨rate, hissued⟩ := issued_of_ofLoan hterms
  refine ⟨terms, hterms, ?_⟩
  intro y hy hlt
  by_cases hzero : loanAmount.value = 0
  · refine ⟨loanAmount, hissued.balanceAfter_of_stays (Or.inr hzero) y, hzero.ge, ?_⟩
    rw [hzero]
    norm_num
  · have hsized := hcustomary.sized hissued
    obtain ⟨b, hb, hnonneg, -⟩ := hsized.covers.payDown (Loan.monthsOf years)
    have hrate : ¬ rate.isZero = true := by
      rw [isZero_iff]
      linarith [(hcustomary.ordinary hissued.rate_eq).rate_ge]
    refine ⟨b, ?_, hnonneg, hcustomary.payDown_lt hissued hb⟩
    rw [hissued.balanceAfter_eq hcustomary.years_ne_zero hzero, if_neg hrate, hissued.months_eq,
      min_eq_right (Loan.monthsOf_le hy hlt), hb]

/-- A trillion over forty years at 25 percent. -/
theorem paid_off_within_cent_largest :
    ∃ terms, ofLoan (.ofScaled (10 ^ 12) 0) (.ofScaled 25 0) 40 = .ok terms ∧
      ∀ y ≥ 40, y.toNat * 12 < 2 ^ 32 →
        ∃ b, terms.balanceAfter y = .ok b ∧ 0 ≤ b.value ∧ b.value < 1 / 100 := by
  apply paid_off_within_cent
  · rw [value_ofScaled (by decide) (by decide)]
    norm_num
  · rw [value_ofScaled (by decide) (by decide)]
    norm_num
  · decide

end Payoff

end LoanTerms

end PropertyFinance
