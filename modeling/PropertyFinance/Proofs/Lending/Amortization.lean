import PropertyFinance.Proofs.Decimal.Places
import PropertyFinance.Proofs.Lending.Annuity

/-! The balance of a loan from year to year. The level payment covers the interest on the whole
principal, because what the interest gains by growing over the term it does not lose again to the
rounding. So a month never adds to the balance, and what covered the interest before covers it after. -/

namespace PropertyFinance
open Decimal
set_option autoImplicit false

namespace Loan

section Payment
variable {principal r : ℚ} {c loanAmount rate payment : Decimal} {months : Nat}

/-- Interest that is not rounded to zero is at least a quantum, and the growth at most `10 ^ 28`. -/
theorem interest_le_levelPayment (hprincipal : 0 ≤ principal) (hr : 0 ≤ r) (hone : 1 < c.value)
    (hc : c.value ≤ 10 ^ 28) : nearest (principal * r) ≤ levelPayment principal r c.value := by
  have hnonneg : 0 ≤ nearest (principal * r) := nearest_nonneg (mul_nonneg hprincipal hr)
  have hgrid : OnGrid (nearest (principal * r)) := onGrid_nearest _
  have hself : nearest (nearest (principal * r)) = nearest (principal * r) := nearest_nearest _
  rw [levelPayment, nearest_sub_one hone.le]
  generalize nearest (principal * r) = interest at *
  rw [← hself]
  apply nearest_mono
  rw [hself, le_div_iff₀ (by linarith)]
  rcases hnonneg.eq_or_lt with hzero | hpos
  · rw [← hzero, zero_mul, zero_mul, nearest_zero]
  · have hquantum := hgrid.quantum_le hpos
    have hlost : max (quantum / 2) (16 / 25 * quantum * |interest * c.value|) ≤ interest := by
      apply max_le
      · linarith [quantum_pos]
      · rw [abs_of_pos (mul_pos hpos (by linarith)), quantum_eq]
        have := mul_le_mul_of_nonneg_left hc hnonneg
        linarith
    have hround := (abs_le.mp (abs_nearest_sub_le_max (interest * c.value))).1
    linarith

theorem months_ne_zero_of_monthlyPayment (h : monthlyPayment loanAmount rate months = .ok payment) :
    months ≠ 0 := by
  rintro rfl
  cases h

theorem monthlyPayment_cases (h : monthlyPayment loanAmount rate months = .ok payment) :
    (rate.value = 0 ∧ payment.value = nearest (loanAmount.value / (ofNat months).value)) ∨
    (rate.value ≠ 0 ∧ ∃ c, compoundFactor rate months = .ok c ∧ c.value ≠ 1 ∧
      payment.value = levelPayment loanAmount.value rate.value c.value) := by
  unfold monthlyPayment at h
  split at h
  case isTrue => exact nomatch h
  case isFalse =>
    split at h
    case isTrue hzero =>
      rw [liftM_eq_ok] at h
      exact Or.inl ⟨isZero_iff.mp hzero, (value_div h).2⟩
    case isFalse hrate =>
      rw [isZero_iff] at hrate
      obtain ⟨c, hc, h⟩ := bind_eq_ok.mp h
      obtain ⟨gain, hgain, h⟩ := bind_eq_ok.mp h
      rw [liftM_eq_ok] at hc hgain
      have hvalue := value_sub hgain
      rw [value_one] at hvalue
      split at h
      case isTrue => exact nomatch h
      case isFalse hne =>
        obtain ⟨interest, hinterest, h⟩ := bind_eq_ok.mp h
        obtain ⟨grown, hgrown, h⟩ := bind_eq_ok.mp h
        rw [liftM_eq_ok] at hinterest hgrown h
        refine Or.inr ⟨hrate, c, hc, ?_, ?_⟩
        · intro hone
          apply hne
          rw [isZero_iff, hvalue, hone, sub_self, nearest_zero]
        · rw [(value_div h).2, value_mul hgrown, value_mul hinterest, hvalue, levelPayment]

theorem one_le_compound (hrate : 0 ≤ rate.value) (h : compoundFactor rate months = .ok c) :
    1 ≤ c.value := by
  have := pow_le_compound (j := 1) h (by push_cast; linarith)
  rwa [one_pow, Nat.cast_one] at this

end Payment

end Loan

namespace LoanTerms

section Months
variable {rate payment balance next a b : Decimal} {m n : Nat}

/-- The balance after one payment. -/
def monthEnd (rate payment balance : Decimal) : Arith Decimal := do
  balance.sub (← payment.sub (← balance.mul rate))

theorem payDown_succ : payDown rate payment (n + 1) balance = (do
    let next ← monthEnd rate payment balance
    if next ≤ Decimal.zero then pure .zero else payDown rate payment n next) := by
  rw [payDown, monthEnd]
  simp only [bind_assoc]

/-- The payment covers the interest on the balance. -/
structure Covers (rate payment balance : Decimal) : Prop where
  rate_nonneg : 0 ≤ rate.value
  balance_nonneg : 0 ≤ balance.value
  interest_le : nearest (balance.value * rate.value) ≤ payment.value

theorem Covers.interest_nonneg (h : Covers rate payment balance) :
    0 ≤ nearest (balance.value * rate.value) :=
  nearest_nonneg (mul_nonneg h.balance_nonneg h.rate_nonneg)

theorem Covers.mono (h : Covers rate payment balance) (hnext : 0 ≤ next.value)
    (hle : next.value ≤ balance.value) : Covers rate payment next := by
  refine ⟨h.rate_nonneg, hnext, le_trans ?_ h.interest_le⟩
  apply nearest_mono
  exact mul_le_mul_of_nonneg_right hle h.rate_nonneg

theorem Covers.monthEnd (h : Covers rate payment balance) :
    ∃ next, monthEnd rate payment balance = .ok next ∧
      next.value = nearest (balance.value
        - nearest (payment.value - nearest (balance.value * rate.value))) ∧
      next.value ≤ balance.value := by
  have hcap := (abs_le.mp (abs_value_le payment)).2
  have hcap' := (abs_le.mp (abs_value_le balance)).2
  have hbalance := h.balance_nonneg
  have hinterest := h.interest_nonneg
  have hle := h.interest_le
  obtain ⟨interest, hmul⟩ := mul_isOk (a := balance) (b := rate) (by
    apply fits_of_nearest_le (c := payment)
    rwa [abs_of_nonneg hinterest, abs_of_nonneg (hinterest.trans hle)])
  rw [← value_mul hmul] at hinterest hle
  obtain ⟨repaid, hrepaid⟩ := sub_isOk (a := payment) (b := interest) (by
    rw [Fits, pow_zero, mul_one, abs_of_nonneg (by linarith)]
    linarith)
  have hvalue := value_sub hrepaid
  have hrepaid₀ : 0 ≤ repaid.value := by
    rw [hvalue]
    exact nearest_nonneg (by linarith)
  have hrepaid₁ : repaid.value ≤ payment.value := by
    rw [hvalue]
    exact nearest_le_value (by linarith)
  obtain ⟨next, hnext⟩ := sub_isOk (a := balance) (b := repaid) (by
    rw [Fits, pow_zero, mul_one]
    apply lt_of_le_of_lt (b := (capacity : ℚ) - 1)
    · rw [abs_le]
      constructor <;> linarith
    · linarith)
  refine ⟨next, ?_, ?_, ?_⟩
  · rw [LoanTerms.monthEnd, hmul, ok_bind, hrepaid, ok_bind, hnext]
  · rw [value_sub hnext, hvalue, value_mul hmul]
  · rw [value_sub hnext]
    exact nearest_le_value (by linarith)

theorem Covers.payDown (h : Covers rate payment balance) (n : Nat) :
    ∃ out, payDown rate payment n balance = .ok out ∧ 0 ≤ out.value ∧
      out.value ≤ balance.value := by
  induction n generalizing balance with
  | zero => exact ⟨balance, rfl, h.balance_nonneg, le_refl _⟩
  | succ n ih =>
    obtain ⟨next, hnext, -, hle⟩ := h.monthEnd
    rw [payDown_succ, hnext, ok_bind]
    split
    case isTrue => exact ⟨.zero, rfl, value_zero.ge, value_zero.trans_le h.balance_nonneg⟩
    case isFalse hpos =>
      rw [not_le_zero_iff] at hpos
      obtain ⟨out, hout, hout₀, hout₁⟩ := ih (h.mono hpos.le hle)
      exact ⟨out, hout, hout₀, hout₁.trans hle⟩

theorem Covers.payDown_zero (h : Covers rate payment balance) (n : Nat) :
    LoanTerms.payDown rate payment n .zero = .ok .zero := by
  cases n with
  | zero => rfl
  | succ n =>
    have hzero : Covers rate payment .zero :=
      h.mono value_zero.ge (value_zero.trans_le h.balance_nonneg)
    obtain ⟨next, hnext, -, hle⟩ := hzero.monthEnd
    rw [payDown_succ, hnext, ok_bind, if_pos (le_iff_value_le.mpr hle)]
    rfl

/-- A run of payments goes on where a shorter one ended. -/
theorem Covers.payDown_add (h : Covers rate payment balance) (m n : Nat) :
    LoanTerms.payDown rate payment (m + n) balance
      = LoanTerms.payDown rate payment m balance >>= LoanTerms.payDown rate payment n := by
  induction m generalizing balance with
  | zero =>
    rw [Nat.zero_add]
    rfl
  | succ m ih =>
    obtain ⟨next, hnext, -, hle⟩ := h.monthEnd
    rw [Nat.succ_add, payDown_succ, payDown_succ, hnext, ok_bind, ok_bind]
    split
    case isTrue => exact (h.payDown_zero n).symm
    case isFalse hpos =>
      rw [not_le_zero_iff] at hpos
      exact ih (h.mono hpos.le hle)

theorem Covers.payDown_anti (h : Covers rate payment balance) (hmn : m ≤ n)
    (ha : LoanTerms.payDown rate payment m balance = .ok a)
    (hb : LoanTerms.payDown rate payment n balance = .ok b) : b.value ≤ a.value := by
  obtain ⟨k, rfl⟩ := Nat.le.dest hmn
  obtain ⟨a', ha', ha₀, ha₁⟩ := h.payDown m
  cases ha.symm.trans ha'
  obtain ⟨b', hb', -, hle⟩ := (h.mono ha₀ ha₁).payDown k
  rw [h.payDown_add, ha, ok_bind] at hb
  cases hb.symm.trans hb'
  exact hle

end Months

section Terms
variable {loanAmount interestRatePct rate payment balance : Decimal} {years : UInt32}
  {terms : LoanTerms} {f : Nat → Arith Decimal} {k n : Nat}

/-- The balance by the number of payments, for a loan with so many of them. -/
structure Falls (f : Nat → Arith Decimal) (loanAmount : Decimal) (n : Nat) : Prop where
  isOk : ∀ k ≤ n, ∃ b, f k = .ok b ∧ 0 ≤ b.value ∧ b.value ≤ loanAmount.value
  anti : ∀ j k a b, j ≤ k → k ≤ n → f j = .ok a → f k = .ok b → b.value ≤ a.value

theorem falls_const (h : 0 ≤ loanAmount.value) (n : Nat) :
    Falls (fun _ => .ok loanAmount) loanAmount n := by
  refine ⟨fun _ _ => ⟨loanAmount, rfl, h, le_refl _⟩, ?_⟩
  intro j k a b _ _ ha hb
  cases ha
  cases hb
  exact le_refl _

theorem Covers.falls (h : Covers rate payment balance) (n : Nat) :
    Falls (fun k => LoanTerms.payDown rate payment k balance) balance n :=
  ⟨fun k _ => h.payDown k, fun _ _ _ _ hjk _ ha hb => h.payDown_anti hjk ha hb⟩

/-- The balance of a loan without interest after `k` of `n` equal payments. -/
def straightLine (loanAmount : Decimal) (k n : Nat) : Arith Decimal := do
  loanAmount.sub (← (← loanAmount.mul (.ofNat k)).div (.ofNat n))

/-- A mantissa of 18 digits has room for the factor. -/
theorem mul_natCast_exact (hm : loanAmount.mantissa < 10 ^ 18) (hk : k ≤ 12 * 2 ^ 32) :
    Fits (loanAmount.value * k) 0 ∧ nearest (loanAmount.value * k) = loanAmount.value * k := by
  have hscaled : loanAmount.value * k * 10 ^ loanAmount.scale = ((loanAmount.signed * k : ℤ) : ℚ) := by
    rw [mul_right_comm, value_mul_pow]
    push_cast
    rfl
  have hsize : |loanAmount.signed * k| ≤ 10 ^ 18 * (12 * 2 ^ 32) := by
    rw [abs_mul, Int.abs_eq_natAbs, natAbs_signed, Nat.abs_cast]
    exact_mod_cast Nat.mul_le_mul hm.le hk
  constructor
  · have hle : |loanAmount.value * k| ≤ |loanAmount.value * k * 10 ^ loanAmount.scale| := by
      rw [abs_mul _ (10 ^ loanAmount.scale : ℚ), abs_of_pos (by positivity : (0 : ℚ) < 10 ^ loanAmount.scale)]
      exact le_mul_of_one_le_right (abs_nonneg _) (one_le_pow₀ (by norm_num))
    have hsize' : ((|loanAmount.signed * k| : ℤ) : ℚ) ≤ 10 ^ 18 * (12 * 2 ^ 32) := by
      exact_mod_cast hsize
    rw [hscaled, ← Int.cast_abs] at hle
    rw [Fits, pow_zero, mul_one]
    apply lt_of_le_of_lt (hle.trans hsize')
    norm_num [capacity]
  · apply nearest_eq_self hscaled _ loanAmount.scale_le
    unfold capacity
    omega

theorem straightLine_isOk (hloan : 0 ≤ loanAmount.value) (hm : loanAmount.mantissa < 10 ^ 18)
    (hn : 0 < n) (hn' : n ≤ 12 * 2 ^ 32) (hk : k ≤ n) :
    ∃ b, straightLine loanAmount k n = .ok b ∧ 0 ≤ b.value ∧ b.value ≤ loanAmount.value ∧
      b.value = nearest (loanAmount.value - nearest (loanAmount.value * k / n)) := by
  have hn₀ : (0 : ℚ) < n := by exact_mod_cast hn
  have hkn : (k : ℚ) ≤ n := by exact_mod_cast hk
  have hvalue {j : Nat} (hj : j ≤ n) : (ofNat j).value = j := by
    apply value_ofNat
    unfold capacity
    omega
  obtain ⟨hfits, hexact⟩ := mul_natCast_exact hm (hk.trans hn')
  have hcap := (abs_le.mp (abs_value_le loanAmount)).2
  have hpart₀ : 0 ≤ loanAmount.value * k / n :=
    div_nonneg (mul_nonneg hloan (Nat.cast_nonneg k)) hn₀.le
  have hpart₁ : loanAmount.value * k / n ≤ loanAmount.value := by
    rw [div_le_iff₀ hn₀]
    exact mul_le_mul_of_nonneg_left hkn hloan
  obtain ⟨due, hdue⟩ := mul_isOk (a := loanAmount) (b := ofNat k) (by rwa [hvalue hk])
  have hdue' : due.value = loanAmount.value * k := by rw [value_mul hdue, hvalue hk, hexact]
  obtain ⟨paid, hpaid⟩ := div_isOk (a := due) (b := ofNat n) (by rw [hvalue le_rfl]; exact hn₀.ne') (by
    rw [hvalue le_rfl, hdue', Fits, pow_zero, mul_one, abs_of_nonneg hpart₀]
    linarith)
  have hpaid' : paid.value = nearest (loanAmount.value * k / n) := by
    rw [(value_div hpaid).2, hvalue le_rfl, hdue']
  have hpaid₀ : 0 ≤ paid.value := hpaid' ▸ nearest_nonneg hpart₀
  have hpaid₁ : paid.value ≤ loanAmount.value := hpaid' ▸ nearest_le_value hpart₁
  obtain ⟨b, hb⟩ := sub_isOk (a := loanAmount) (b := paid) (by
    rw [Fits, pow_zero, mul_one, abs_of_nonneg (by linarith)]
    linarith)
  have hb' := value_sub hb
  refine ⟨b, ?_, ?_, ?_, ?_⟩
  · rw [straightLine, hdue, ok_bind, hpaid, ok_bind, hb]
  · rw [hb']
    exact nearest_nonneg (by linarith)
  · rw [hb']
    exact nearest_le_value (by linarith)
  · rw [hb', hpaid']

theorem falls_straightLine (hloan : 0 ≤ loanAmount.value) (hm : loanAmount.mantissa < 10 ^ 18)
    (hn : 0 < n) (hn' : n ≤ 12 * 2 ^ 32) : Falls (fun k => straightLine loanAmount k n) loanAmount n := by
  constructor
  · intro k hk
    obtain ⟨b, hb, hb₀, hb₁, -⟩ := straightLine_isOk hloan hm hn hn' hk
    exact ⟨b, hb, hb₀, hb₁⟩
  · intro j k a b hjk hk ha hb
    obtain ⟨a', ha', -, -, hvalue⟩ := straightLine_isOk hloan hm hn hn' (hjk.trans hk)
    obtain ⟨b', hb', -, -, hvalue'⟩ := straightLine_isOk hloan hm hn hn' hk
    cases ha.symm.trans ha'
    cases hb.symm.trans hb'
    rw [hvalue, hvalue']
    apply nearest_mono
    apply sub_le_sub_left
    apply nearest_mono
    have hjk' : (j : ℚ) ≤ k := by exact_mod_cast hjk
    exact div_le_div_of_nonneg_right (mul_le_mul_of_nonneg_left hjk' hloan) (Nat.cast_nonneg n)

/-- What a loan is written with. -/
structure Issued (loanAmount interestRatePct : Decimal) (years : UInt32) (rate : Decimal)
    (terms : LoanTerms) : Prop where
  loanAmount_eq : terms.loanAmount = loanAmount
  interestRatePct_eq : terms.interestRatePct = interestRatePct
  years_eq : terms.amortizationYears = years
  loanAmount_nonneg : 0 ≤ loanAmount.value
  interestRate_nonneg : 0 ≤ interestRatePct.value
  rate_eq : Loan.monthlyRate interestRatePct = .ok rate
  payment_eq : years ≠ 0 →
    Loan.monthlyPayment loanAmount rate (Loan.monthsOf years) = .ok terms.monthlyPayment

theorem issued_of_ofLoan (h : ofLoan loanAmount interestRatePct years = .ok terms) :
    ∃ rate, Issued loanAmount interestRatePct years rate terms := by
  unfold ofLoan at h
  obtain ⟨hloan, h⟩ := unless_reject_eq_ok.mp h
  obtain ⟨hpercent, h⟩ := unless_reject_eq_ok.mp h
  rw [not_lt_zero_iff] at hloan hpercent
  obtain ⟨rate, hrate, h⟩ := bind_eq_ok.mp h
  rw [liftM_eq_ok] at hrate
  refine ⟨rate, ?_⟩
  dsimp only at h
  split at h
  case isTrue hzero =>
    obtain ⟨payment, -, h⟩ := bind_eq_ok.mp h
    obtain ⟨service, -, h⟩ := bind_eq_ok.mp h
    cases pure_eq_ok.mp h
    exact ⟨rfl, rfl, rfl, hloan, hpercent, hrate, fun hne => absurd hzero hne⟩
  case isFalse =>
    obtain ⟨payment, hpayment, h⟩ := bind_eq_ok.mp h
    obtain ⟨service, -, h⟩ := bind_eq_ok.mp h
    cases pure_eq_ok.mp h
    exact ⟨rfl, rfl, rfl, hloan, hpercent, hrate, fun _ => hpayment⟩

theorem Issued.months_eq (h : Issued loanAmount interestRatePct years rate terms) :
    terms.months = Loan.monthsOf years := by
  rw [months, h.years_eq]

theorem Issued.balanceAfter_eq (h : Issued loanAmount interestRatePct years rate terms) (hyears : years ≠ 0)
    (hloan : loanAmount.value ≠ 0) (y : UInt32) :
    terms.balanceAfter y =
      if rate.isZero then straightLine loanAmount (min (Loan.monthsOf y) terms.months) terms.months
      else payDown rate terms.monthlyPayment (min (Loan.monthsOf y) terms.months) loanAmount := by
  have hstays : ¬ (terms.amortizationYears = 0 || terms.loanAmount.isZero) = true := by
    rw [Bool.or_eq_true, decide_eq_true_iff, h.years_eq, h.loanAmount_eq, isZero_iff]
    exact not_or.mpr ⟨hyears, hloan⟩
  rw [balanceAfter, if_neg hstays, h.interestRatePct_eq, h.rate_eq, ok_bind, h.loanAmount_eq]
  rfl

theorem Issued.balanceAfter_of_stays (h : Issued loanAmount interestRatePct years rate terms)
    (hstays : years = 0 ∨ loanAmount.value = 0) (y : UInt32) : terms.balanceAfter y = .ok loanAmount := by
  rw [balanceAfter, if_pos, h.loanAmount_eq]
  · rfl
  · rw [Bool.or_eq_true, decide_eq_true_iff, h.years_eq, h.loanAmount_eq, isZero_iff]
    exact hstays

/-- The growth over the whole term. -/
def growth (terms : LoanTerms) : Arith Decimal := do
  Loan.compoundFactor (← Loan.monthlyRate terms.interestRatePct) terms.months

/-- A loan that bears interest is paid back at no less than the interest on all of it. -/
theorem Issued.covers (h : Issued loanAmount interestRatePct years rate terms) (hyears : years ≠ 0)
    (hrate : rate.value ≠ 0) (hgrowth : ∀ c, terms.growth = .ok c → c.value ≤ 10 ^ 28) :
    Covers rate terms.monthlyPayment loanAmount := by
  have hrate₀ := Loan.monthlyRate_nonneg h.rate_eq h.interestRate_nonneg
  refine ⟨hrate₀, h.loanAmount_nonneg, ?_⟩
  rcases Loan.monthlyPayment_cases (h.payment_eq hyears) with ⟨hzero, -⟩ | ⟨-, c, hc, hne, hpayment⟩
  · exact absurd hzero hrate
  · have hone := Loan.one_le_compound hrate₀ hc
    rw [hpayment]
    apply Loan.interest_le_levelPayment h.loanAmount_nonneg hrate₀ (lt_of_le_of_ne hone hne.symm)
    apply hgrowth
    rw [growth, h.interestRatePct_eq, h.rate_eq, ok_bind, h.months_eq, hc]

/-- A loan whose months had wrapped around to none would not have been written. -/
theorem Issued.months_pos (h : Issued loanAmount interestRatePct years rate terms)
    (hyears : years ≠ 0) : 0 < terms.months := by
  rw [h.months_eq]
  exact Nat.pos_of_ne_zero (Loan.months_ne_zero_of_monthlyPayment (h.payment_eq hyears))

theorem Issued.months_le (h : Issued loanAmount interestRatePct years rate terms) :
    terms.months ≤ 12 * 2 ^ 32 := by
  have := Loan.monthsOf_lt years
  rw [h.months_eq]
  omega

theorem Issued.falls (h : Issued loanAmount interestRatePct years rate terms)
    (hm : loanAmount.mantissa < 10 ^ 18)
    (hgrowth : ∀ c, terms.growth = .ok c → c.value ≤ 10 ^ 28) :
    ∃ f, Falls f loanAmount terms.months ∧
      (∀ y, terms.balanceAfter y = f (min (Loan.monthsOf y) terms.months)) ∧
      (years = 0 → ∀ k, f k = .ok loanAmount) := by
  by_cases hstays : years = 0 ∨ loanAmount.value = 0
  · exact ⟨_, falls_const h.loanAmount_nonneg _, h.balanceAfter_of_stays hstays, fun _ _ => rfl⟩
  · obtain ⟨hyears, hloan⟩ := not_or.mp hstays
    have hbalance := h.balanceAfter_eq hyears hloan
    by_cases hrate : rate.isZero
    · simp only [hrate, if_true] at hbalance
      exact ⟨_, falls_straightLine h.loanAmount_nonneg hm (h.months_pos hyears) h.months_le,
        hbalance, fun hzero => absurd hzero hyears⟩
    · simp only [if_neg hrate] at hbalance
      rw [isZero_iff] at hrate
      exact ⟨_, (h.covers hyears hrate hgrowth).falls _, hbalance, fun hzero => absurd hzero hyears⟩

/-- The balance falls from the loan amount to what is left at the end of the term, and stays there,
over the years whose months can be counted. A loan without a term is not paid back. -/
theorem balances_decline (h : ofLoan loanAmount interestRatePct years = .ok terms)
    (hm : loanAmount.mantissa < 10 ^ 18)
    (hgrowth : ∀ c, terms.growth = .ok c → c.value ≤ 10 ^ 28) :
    ∃ balance : UInt32 → Decimal, (∀ y, terms.balanceAfter y = .ok (balance y)) ∧
      (∀ y y', y ≤ y' → y'.toNat * 12 < 2 ^ 32 → 0 ≤ (balance y').value ∧
        (balance y').value ≤ (balance y).value ∧ (balance y).value ≤ loanAmount.value) ∧
      (years ≠ 0 → ∀ y ≥ years, y.toNat * 12 < 2 ^ 32 → balance y = balance years) ∧
      (years = 0 → ∀ y, balance y = loanAmount) := by
  obtain ⟨rate, hissued⟩ := issued_of_ofLoan h
  obtain ⟨f, hfalls, hbalance, hstays⟩ := hissued.falls hm hgrowth
  have hterm (y : UInt32) : min (Loan.monthsOf y) terms.months ≤ terms.months := min_le_right _ _
  choose balance hok hnonneg hle using fun y => hfalls.isOk _ (hterm y)
  refine ⟨balance, fun y => (hbalance y).trans (hok y), ?_, ?_, ?_⟩
  · intro y y' hyy' hlt
    have hmin := min_le_min_right terms.months (Loan.monthsOf_le hyy' hlt)
    exact ⟨hnonneg y', hfalls.anti _ _ _ _ hmin (hterm y') (hok y) (hok y'), hle y⟩
  · intro _ y hy hlt
    have hy' := hok y
    have hlast := hok years
    rw [hissued.months_eq, min_eq_right (Loan.monthsOf_le hy hlt)] at hy'
    rw [hissued.months_eq, min_self] at hlast
    exact Except.ok.inj (hy'.symm.trans hlast)
  · intro hzero y
    exact Except.ok.inj ((hok y).symm.trans (hstays hzero _))

/-- A house over thirty years. -/
theorem balances_decline_house :
    ∃ terms, ofLoan (.ofScaled 750000 0) (.ofScaled 65 1) 30 = .ok terms ∧
      ∃ balance : UInt32 → Decimal, (∀ y, terms.balanceAfter y = .ok (balance y)) ∧
        (∀ y y', y ≤ y' → y'.toNat * 12 < 2 ^ 32 → 0 ≤ (balance y').value ∧
          (balance y').value ≤ (balance y).value ∧ (balance y).value ≤ (ofScaled 750000 0).value) ∧
        ((30 : UInt32) ≠ 0 → ∀ y ≥ 30, y.toNat * 12 < 2 ^ 32 → balance y = balance 30) ∧
        ((30 : UInt32) = 0 → ∀ y, balance y = .ofScaled 750000 0) := by
  obtain ⟨terms, hterms, hcheck⟩ := exists_of_any (x := ofLoan (.ofScaled 750000 0) (.ofScaled 65 1) 30)
    (p := fun terms => terms.growth.toOption.any fun c => decide (c ≤ ofScaled 10 0)) (by decide +kernel)
  obtain ⟨growth, hgrowth, hle⟩ := exists_of_any hcheck
  refine ⟨terms, hterms, balances_decline hterms (by decide) ?_⟩
  intro c hc
  cases hgrowth.symm.trans hc
  rw [decide_eq_true_iff, le_iff_value_le, value_ofScaled (by decide) (by decide)] at hle
  norm_num at hle ⊢
  linarith

end Terms

end LoanTerms

end PropertyFinance
