import PropertyFinance.DebtSizing
import PropertyFinance.Proofs.Lending.Annuity

/-! The sized loan meets the lender's limits. The loan to value is exact, because a limit on it is an
even number of quanta, to which a half is rounded back. The debt coverage is computed from the payment
for the loan, and misses its limit by the roundings of the payment there and back. -/

namespace PropertyFinance
open Decimal Loan
set_option autoImplicit false

def SizedDebt.limit (d : SizedDebt) : SizingTest → Decimal
  | .maxLtv => d.maxByLtv
  | .minDscr => d.maxByDscr
  | .minDebtYield => d.maxByDebtYield

def sizingTests : List SizingTest := [.maxLtv, .minDscr, .minDebtYield]

/-- The loan is the least of the three, named by the first test that sets it, and passes the tests. -/
structure SizedDebt.PassesTests (d : SizedDebt) : Prop where
  le_limit : ∀ test, d.recommendedLoanAmount.value ≤ (d.limit test).value
  limit_eq : d.limit d.bindingTest = d.recommendedLoanAmount
  binds_first : sizingTests.find? (fun test => (d.limit test).Same d.recommendedLoanAmount)
    = some d.bindingTest
  nonneg : 0 ≤ d.recommendedLoanAmount.value
  ltv_le : d.recommendedLtv.value ≤ d.constraints.maxLtv.value
  dscr_ge : ∀ dscr, d.recommendedDscr = some dscr →
    d.constraints.minDscr.value - 1 / 10 ^ 20 ≤ dscr.value

section Tightest
variable {byLtv byDscr byDebtYield : Decimal}

theorem tightest_cases (byLtv byDscr byDebtYield : Decimal) :
    (tightest byLtv byDscr byDebtYield = (.maxLtv, byLtv) ∧
      byLtv.value ≤ byDscr.value ∧ byLtv.value ≤ byDebtYield.value) ∨
    (tightest byLtv byDscr byDebtYield = (.minDscr, byDscr) ∧
      byDscr.value < byLtv.value ∧ byDscr.value ≤ byDebtYield.value) ∨
    (tightest byLtv byDscr byDebtYield = (.minDebtYield, byDebtYield) ∧
      byDebtYield.value < byLtv.value ∧ byDebtYield.value < byDscr.value) := by
  unfold tightest
  dsimp only
  split_ifs with hdscr hyield hyield <;> rw [lt_iff_value_lt] at *
  · exact Or.inr (Or.inr ⟨rfl, by linarith, hyield⟩)
  · exact Or.inr (Or.inl ⟨rfl, hdscr, Rat.not_lt.mp hyield⟩)
  · exact Or.inr (Or.inr ⟨rfl, hyield, by linarith⟩)
  · exact Or.inl ⟨rfl, Rat.not_lt.mp hdscr, Rat.not_lt.mp hyield⟩

theorem tightest_spec {d : SizedDebt}
    (h : tightest d.maxByLtv d.maxByDscr d.maxByDebtYield
      = (d.bindingTest, d.recommendedLoanAmount)) :
    (∀ test, d.recommendedLoanAmount.value ≤ (d.limit test).value) ∧
    d.limit d.bindingTest = d.recommendedLoanAmount ∧
    sizingTests.find? (fun test => (d.limit test).Same d.recommendedLoanAmount)
      = some d.bindingTest := by
  rcases tightest_cases d.maxByLtv d.maxByDscr d.maxByDebtYield with
    ⟨hcase, h₁, h₂⟩ | ⟨hcase, h₁, h₂⟩ | ⟨hcase, h₁, h₂⟩ <;>
    obtain ⟨htest, hloan⟩ := Prod.mk.inj (h.symm.trans hcase) <;> rw [htest, hloan]
  · refine ⟨?_, rfl, List.find?_cons_of_pos (by simp [same_iff_value_eq, SizedDebt.limit])⟩
    intro test
    cases test with
    | maxLtv => exact le_refl _
    | minDscr => exact h₁
    | minDebtYield => exact h₂
  · refine ⟨?_, rfl, ?_⟩
    · intro test
      cases test with
      | maxLtv => exact h₁.le
      | minDscr => exact le_refl _
      | minDebtYield => exact h₂
    · rw [sizingTests, List.find?_cons_of_neg (by simp [same_iff_value_eq, SizedDebt.limit, h₁.ne'])]
      exact List.find?_cons_of_pos (by simp [same_iff_value_eq, SizedDebt.limit])
  · refine ⟨?_, rfl, ?_⟩
    · intro test
      cases test with
      | maxLtv => exact h₁.le
      | minDscr => exact h₂.le
      | minDebtYield => exact le_refl _
    · rw [sizingTests, List.find?_cons_of_neg (by simp [same_iff_value_eq, SizedDebt.limit, h₁.ne']),
        List.find?_cons_of_neg (by simp [same_iff_value_eq, SizedDebt.limit, h₂.ne'])]
      exact List.find?_cons_of_pos (by simp [same_iff_value_eq, SizedDebt.limit])

theorem SizedDebt.passesTests_of {d : SizedDebt}
    (h : tightest d.maxByLtv d.maxByDscr d.maxByDebtYield
      = (d.bindingTest, d.recommendedLoanAmount))
    (hnonneg : ∀ test, 0 ≤ (d.limit test).value)
    (hltv : d.recommendedLoanAmount.value ≤ d.maxByLtv.value →
      d.recommendedLtv.value ≤ d.constraints.maxLtv.value)
    (hdscr : 0 ≤ d.recommendedLoanAmount.value →
      d.recommendedLoanAmount.value ≤ d.maxByDscr.value →
      ∀ dscr, d.recommendedDscr = some dscr →
        d.constraints.minDscr.value - 1 / 10 ^ 20 ≤ dscr.value) : d.PassesTests := by
  obtain ⟨hle, hlimit, hfirst⟩ := tightest_spec h
  have hloan : 0 ≤ d.recommendedLoanAmount.value := by
    rw [← hlimit]
    exact hnonneg d.bindingTest
  exact ⟨hle, hlimit, hfirst, hloan, hltv (hle .maxLtv), hdscr hloan (hle .minDscr)⟩

end Tightest

section Limits
variable {x y cover service : ℚ}

/-- A half is rounded to the even neighbour, so half a quantum too much does no harm. -/
theorem nearest_le_of_even {n : ℤ} (hn : n % 2 = 0) (hy : y = n * quantum) (hsmall : |y| < 7)
    (h : x ≤ y + quantum / 2) : nearest x ≤ y := by
  have hfits : Fits (y + quantum / 2) maxScale := by
    have habs := abs_add_le y (quantum / 2)
    rw [abs_of_pos (by linarith [quantum_pos] : 0 < quantum / 2)] at habs
    rw [Fits, maxScale]
    rw [quantum_eq] at habs ⊢
    norm_num [capacity]
    linarith
  have hscaled : (y + quantum / 2) * 10 ^ maxScale = n + 1 / 2 := by
    rw [add_mul, OnGrid.mul_pow_eq hy, quantum_eq, maxScale]
    norm_num
  have hself : nearest (y + quantum / 2) = y := by
    rw [nearest_eq hfits (le_refl _) (Or.inl rfl), hscaled, halfEven_eq_of_even hn (by norm_num),
      hy, quantum]
    ring
  rw [← hself]
  exact nearest_mono h

structure LenderConstraints.Usual (limits : LenderConstraints) : Prop where
  ltv_even : ∃ n : ℤ, n % 2 = 0 ∧ limits.maxLtv.value = n * quantum
  ltv_pos : 0 < limits.maxLtv.value
  ltv_le : limits.maxLtv.value ≤ 3 / 4
  dscr_ge : 23 / 20 ≤ limits.minDscr.value
  dscr_le : limits.minDscr.value ≤ 5 / 4
  debtYield_pos : 0 < limits.minDebtYield.value

theorem usual_of_scaled {ltv dscr debtYield : ℤ} (hltv : 0 < ltv ∧ ltv ≤ 75)
    (hdscr : 115 ≤ dscr ∧ dscr ≤ 125) (hyield : 0 < debtYield ∧ debtYield ≤ 100) :
    LenderConstraints.Usual ⟨.ofScaled ltv 2, .ofScaled dscr 2, .ofScaled debtYield 2⟩ := by
  have hvalue {n : ℤ} (hn : 0 < n ∧ n ≤ 125) : (ofScaled n 2).value = n / 10 ^ 2 := by
    apply value_ofScaled _ (by decide)
    unfold capacity
    omega
  have hltv' : (0 : ℚ) < ltv ∧ (ltv : ℚ) ≤ 75 := by exact_mod_cast hltv
  have hdscr' : (115 : ℚ) ≤ dscr ∧ (dscr : ℚ) ≤ 125 := by exact_mod_cast hdscr
  have hyield' : (0 : ℚ) < debtYield := by exact_mod_cast hyield.1
  refine ⟨⟨ltv * 10 ^ 26, by omega, ?_⟩, ?_, ?_, ?_, ?_, ?_⟩ <;> dsimp only <;>
    rw [hvalue (by omega)]
  · rw [quantum_eq]
    push_cast
    ring
  all_goals norm_num; linarith

theorem LoanType.constraints_usual (loanType : LoanType) : loanType.constraints.Usual := by
  cases loanType with
  | permanent => exact usual_of_scaled (by decide) (by decide) (by decide)
  | construction => exact usual_of_scaled (by decide) (by decide) (by decide)
  | bridge => exact usual_of_scaled (by decide) (by decide) (by decide)

/-- The loan to value of a loan up to the limit by value. -/
theorem LenderConstraints.Usual.ltv_bound {limits : LenderConstraints} (h : limits.Usual)
    {worth loan : ℚ} (hworth : 1 ≤ worth) (hloan : loan ≤ nearest (worth * limits.maxLtv.value)) :
    nearest (loan / worth) ≤ limits.maxLtv.value := by
  obtain ⟨n, hn, heven⟩ := h.ltv_even
  have hpos := h.ltv_pos
  have hle := h.ltv_le
  apply nearest_le_of_even hn heven (by rw [abs_of_pos hpos]; linarith)
  have hround := (abs_le.mp (abs_nearest_sub_le_max (worth * limits.maxLtv.value))).2
  have hlimit : worth * limits.maxLtv.value ≤ worth * (3 / 4) :=
    mul_le_mul_of_nonneg_left hle (by linarith)
  have hmax : max (quantum / 2) (16 / 25 * quantum * |worth * limits.maxLtv.value|)
      ≤ quantum / 2 * worth := by
    rw [abs_of_pos (mul_pos (by linarith) hpos), quantum_eq]
    apply max_le <;> linarith
  rw [div_le_iff₀ (by linarith)]
  linarith

/-- The coverage of a debt service up to the income over the limit, but for the drift. -/
theorem LenderConstraints.Usual.dscr_bound {limits : LenderConstraints} (h : limits.Usual)
    {noi : ℚ} (hnoi : 1 ≤ noi) (hservice : 0 < service)
    (hle : service ≤ drift ^ 17 * (noi / limits.minDscr.value)) :
    limits.minDscr.value - 1 / 10 ^ 20 ≤ nearest (noi / service) := by
  have hdscr := h.dscr_ge
  have hdscr' := h.dscr_le
  have hgrid : OnGrid (limits.minDscr.value - 1 / 10 ^ 20) := by
    apply (onGrid_value _).sub
    exact ⟨10 ^ 8, by norm_num [quantum_eq]⟩
  have hself := hgrid.nearest_eq (by
    rw [abs_of_pos (by linarith)]
    linarith)
  rw [← hself]
  apply nearest_mono
  rw [le_div_iff₀ hservice]
  calc (limits.minDscr.value - 1 / 10 ^ 20) * service
      ≤ (limits.minDscr.value - 1 / 10 ^ 20) * (drift ^ 17 * (noi / limits.minDscr.value)) :=
        mul_le_mul_of_nonneg_left hle (by linarith)
    _ = (1 - 1 / 10 ^ 20 / limits.minDscr.value) * drift ^ 17 * noi := by field_simp
    _ ≤ 1 * noi := by
      apply mul_le_mul_of_nonneg_right _ (by linarith)
      have hshare : 8 / 10 ^ 21 ≤ 1 / 10 ^ 20 / limits.minDscr.value := by
        rw [le_div_iff₀ (by linarith)]
        linarith
      have hdrift : drift ^ 17 ≤ 1 + 2 / 10 ^ 21 := by norm_num [drift]
      have := one_le_drift_pow 17
      nlinarith
    _ = noi := one_mul noi

end Limits

section Sizing
variable {request : SizingRequest}

/-- A request whose loan is neither tiny nor at next to no interest. -/
structure SizingRequest.Sizable (request : SizingRequest) : Prop where
  worth_ge : 1 ≤ request.propertyValue.value
  noi_cases : request.noi.value = 0 ∨ 1 ≤ request.noi.value
  rate_cases : request.interestRatePct.value = 0 ∨ 1 / 100 ≤ request.interestRatePct.value

theorem monthlyRate_cases {percent rate : Decimal} (hrate : monthlyRate percent = .ok rate)
    (h : percent.value = 0 ∨ 1 / 100 ≤ percent.value) : rate.value = 0 ∨ 83 / 10 ^ 7 ≤ rate.value := by
  rw [value_monthlyRate hrate]
  rcases h with hzero | hpos
  · left
    rw [hzero, zero_div, nearest_zero, zero_div, nearest_zero]
  · exact Or.inr (le_monthly_of_le hpos)

theorem LenderConstraints.Usual.payment_bounds {limits : LenderConstraints} (h : limits.Usual)
    {noi : ℚ} (hnoi : 1 ≤ noi) :
    66 / 1000 ≤ nearest (nearest (noi / limits.minDscr.value) / 12) ∧
      nearest (nearest (noi / limits.minDscr.value) / 12)
        ≤ drift ^ 2 * (noi / limits.minDscr.value / 12) := by
  have hdscr := h.dscr_ge
  have hyearly : 4 / 5 ≤ noi / limits.minDscr.value := by
    rw [le_div_iff₀ (by linarith)]
    linarith [h.dscr_le]
  constructor
  · have hround := scaled_le_nearest (n := 8) (s := 1) (x := noi / limits.minDscr.value)
      (by decide) (by decide) (by norm_num; linarith)
    have hmonth := scaled_le_nearest (n := 66) (s := 3)
      (x := nearest (noi / limits.minDscr.value) / 12) (by decide) (by decide)
      (by norm_num at hround ⊢; linarith)
    norm_num at hmonth ⊢
    exact hmonth
  · have hround : nearest (noi / limits.minDscr.value)
        ≤ drift ^ 1 * (noi / limits.minDscr.value) :=
      nearest_le_drift (by linarith) (by rw [pow_zero, one_mul])
    exact nearest_le_drift (by linarith) (by linarith)

theorem LenderConstraints.Usual.service_le {limits : LenderConstraints} (h : limits.Usual)
    {rate : Decimal} {months : Nat} (hterm : Term rate months) {noi loan bound pay : ℚ}
    (hnoi : 1 ≤ noi)
    (hbound : PrincipalFor rate months (nearest (nearest (noi / limits.minDscr.value) / 12)) bound)
    (hloan : loan ≤ bound) (hpay : PaymentFor rate months loan pay) :
    nearest (pay * 12) ≤ drift ^ 17 * (noi / limits.minDscr.value) := by
  obtain ⟨hge, hle⟩ := h.payment_bounds hnoi
  have hdscr := h.dscr_ge
  have hincome : 4 / 5 ≤ noi / limits.minDscr.value := by
    rw [le_div_iff₀ (by linarith)]
    linarith [h.dscr_le]
  apply nearest_le_drift (by linarith)
  calc pay * 12
      ≤ drift ^ 14 * (drift ^ 2 * (noi / limits.minDscr.value / 12)) * 12 := by
        have hback := hpay.le hterm hbound hge hloan
        have := mul_le_mul_of_nonneg_left hle (zero_le_one.trans (one_le_drift_pow 14))
        linarith
    _ = drift ^ 16 * (noi / limits.minDscr.value) := by ring

/-- The coverage of a loan that the covered payment carries: no income carries no loan, and no loan has
a debt service. -/
theorem LenderConstraints.Usual.coverage_ge {limits : LenderConstraints} (h : limits.Usual)
    {rate : Decimal} {months : Nat} (hterm : Term rate months) {noi loan bound pay : ℚ}
    (hnoi : noi = 0 ∨ 1 ≤ noi)
    (hbound : PrincipalFor rate months (nearest (nearest (noi / limits.minDscr.value) / 12)) bound)
    (hloan₀ : 0 ≤ loan) (hloan : loan ≤ bound) (hpay : PaymentFor rate months loan pay)
    (hservice : nearest (pay * 12) ≠ 0) :
    limits.minDscr.value - 1 / 10 ^ 20 ≤ nearest (noi / nearest (pay * 12)) := by
  rcases hnoi with hzero | hpos
  · exfalso
    apply hservice
    rw [hzero, zero_div, nearest_zero, zero_div, nearest_zero] at hbound
    obtain rfl : loan = 0 := le_antisymm (hloan.trans hbound.eq_zero.le) hloan₀
    rw [hpay.eq_zero, zero_mul, nearest_zero]
  · have hpay₀ := hpay.nonneg hterm.payable hloan₀
    have hservice₀ := nearest_nonneg (mul_nonneg hpay₀ (by norm_num : (0 : ℚ) ≤ 12))
    exact h.dscr_bound hpos (lt_of_le_of_ne hservice₀ hservice.symm)
      (h.service_le hterm hpos hbound hloan hpay)

theorem term_of_years {rate : Decimal} {years : UInt32}
    (hrate : rate.value = 0 ∨ 83 / 10 ^ 7 ≤ rate.value) (hmonths : monthsOf years ≠ 0) :
    Term rate (monthsOf years) :=
  ⟨hrate, four_le_monthsOf hmonths, (monthsOf_lt years).le.trans (by norm_num)⟩

/-- The coverage, if there is a debt service, and what is done with it. -/
theorem gives_dscr {α : Type} (noi service : Decimal) {f : Option Decimal → Outcome α}
    {q : α → Prop}
    (hf : ∀ dscr : Option Decimal, (∀ d, dscr = some d →
      service.value ≠ 0 ∧ d.value = nearest (noi.value / service.value)) → Gives (f dscr) q) :
    Gives (if service.isZero then pure none >>= f
      else do f (← pure (some (← noi.div service)))) q := by
  split
  case isTrue => exact hf none nofun
  case isFalse hne =>
    rw [isZero_iff] at hne
    apply (gives_div noi hne).lift.bind
    intro d hd
    apply hf (some d)
    intro d' hd'
    cases hd'
    exact ⟨hne, hd⟩

structure SizingRequest.Accepted (request : SizingRequest) : Prop where
  worth_pos : 0 < request.propertyValue.value
  noi_nonneg : 0 ≤ request.noi.value
  rate_nonneg : 0 ≤ request.interestRatePct.value
  years_pos : request.amortizationYears ≠ 0

theorem SizingRequest.accepted_of_validate (h : request.validate = .ok ()) : request.Accepted := by
  unfold SizingRequest.validate at h
  rw [unless_reject_eq_ok, unless_reject_eq_ok, unless_reject_eq_ok, lt_iff_value_lt,
    lt_iff_value_lt, le_iff_value_le, value_zero] at h
  obtain ⟨hworth, hnoi, hrate, h⟩ := h
  refine ⟨Rat.not_le.mp hworth, Rat.not_lt.mp hnoi, Rat.not_lt.mp hrate, ?_⟩
  intro hzero
  rw [if_pos hzero] at h
  exact nomatch h

def SizingRequest.months (request : SizingRequest) : Nat := monthsOf request.amortizationYears

/-- The payment that the income covers. -/
def SizingRequest.coveredPayment (request : SizingRequest) : ℚ :=
  nearest (nearest (request.noi.value / request.loanType.constraints.minDscr.value) / 12)

theorem SizingRequest.Accepted.payable {rate : Decimal} (h : request.Accepted)
    (hmonths : request.months ≠ 0) (hrate : monthlyRate request.interestRatePct = .ok rate) :
    Payable rate request.months :=
  payable_of_years hrate h.rate_nonneg hmonths

theorem gives_monthlyRate (percent : Decimal) :
    Gives (monthlyRate percent) fun rate => monthlyRate percent = .ok rate := by
  obtain ⟨rate, hrate⟩ := monthlyRate_isOk percent
  rw [hrate]
  exact rfl

/-- The sized loan has the amounts that its request asks for at a monthly rate. -/
structure SizedDebt.ComputedAt (d : SizedDebt) (request : SizingRequest) (rate : Decimal) : Prop where
  constraints_eq : d.constraints = request.loanType.constraints
  byLtv_eq : d.maxByLtv.value
    = nearest (request.propertyValue.value * request.loanType.constraints.maxLtv.value)
  byDscr : PrincipalFor rate request.months request.coveredPayment d.maxByDscr.value
  byDebtYield_eq : d.maxByDebtYield.value
    = nearest (request.noi.value / request.loanType.constraints.minDebtYield.value)
  tightest_eq : tightest d.maxByLtv d.maxByDscr d.maxByDebtYield
    = (d.bindingTest, d.recommendedLoanAmount)
  ltv_eq : d.recommendedLtv.value
    = nearest (d.recommendedLoanAmount.value / request.propertyValue.value)
  service : ∃ pay, PaymentFor rate request.months d.recommendedLoanAmount.value pay ∧
    d.annualDebtService.value = nearest (pay * 12)
  dscr : ∀ dscr, d.recommendedDscr = some dscr → d.annualDebtService.value ≠ 0 ∧
    dscr.value = nearest (request.noi.value / d.annualDebtService.value)

theorem gives_computed (hvalid : request.validate = .ok ()) (hmonths : request.months ≠ 0) :
    Gives (sizeDebt request) fun a =>
      ∃ rate, monthlyRate request.interestRatePct = .ok rate ∧ a.result.ComputedAt request rate := by
  have haccepted := SizingRequest.accepted_of_validate hvalid
  have husual := request.loanType.constraints_usual
  have hdscr₀ := husual.dscr_ge
  unfold sizeDebt
  rw [hvalid, ok_bind]
  dsimp only
  apply (gives_monthlyRate request.interestRatePct).lift.bind
  intro rate hrate
  have hterm := haccepted.payable hmonths hrate
  rw [← SizingRequest.months]
  apply (gives_mul request.propertyValue _).lift.bind
  intro byLtv hbyLtv
  apply (gives_div request.noi (by linarith)).lift.bind
  intro yearly hyearly
  apply (gives_div yearly (by rw [value_twelve]; norm_num)).lift.bind
  intro payment hpayment
  rw [value_twelve, hyearly] at hpayment
  apply (gives_principalForPayment hterm payment).bind
  intro byDscr hbyDscr
  rw [hpayment] at hbyDscr
  apply (gives_div request.noi husual.debtYield_pos.ne').lift.bind
  intro byDebtYield hbyDebtYield
  generalize hbinding : tightest byLtv byDscr byDebtYield = binding
  obtain ⟨test, loan⟩ := binding
  dsimp only
  apply (gives_monthlyPayment hterm loan).bind
  intro pay hpay
  apply (gives_mul pay .twelve).lift.bind
  intro service hservice
  rw [value_twelve] at hservice
  apply gives_dscr request.noi service
  intro dscr hdscr
  apply (gives_div loan haccepted.worth_pos.ne').lift.bind
  intro ltv hltv
  apply gives_pure
  exact ⟨rate, hrate, rfl, hbyLtv, hbyDscr, hbyDebtYield, hbinding, hltv,
    ⟨pay.value, hpay, hservice⟩, hdscr⟩

theorem SizedDebt.ComputedAt.passesTests {rate : Decimal} {d : SizedDebt} (hd : d.ComputedAt request rate)
    (haccepted : request.Accepted) (hmonths : request.months ≠ 0)
    (hrate : monthlyRate request.interestRatePct = .ok rate) (h : request.Sizable) : d.PassesTests := by
  have husual := request.loanType.constraints_usual
  have hworth := h.worth_ge
  have hdscr₀ := husual.dscr_ge
  have hterm : Term rate request.months := term_of_years (monthlyRate_cases hrate h.rate_cases) hmonths
  refine SizedDebt.passesTests_of hd.tightest_eq ?_ ?_ ?_
  · intro test
    cases test with
    | maxLtv => exact hd.byLtv_eq ▸ nearest_nonneg (mul_nonneg (by linarith) husual.ltv_pos.le)
    | minDscr =>
      apply hd.byDscr.nonneg hterm.payable
      exact nearest_nonneg (div_nonneg
        (nearest_nonneg (div_nonneg haccepted.noi_nonneg (by linarith))) (by norm_num))
    | minDebtYield =>
      exact hd.byDebtYield_eq ▸
        nearest_nonneg (div_nonneg haccepted.noi_nonneg husual.debtYield_pos.le)
  · intro hle
    rw [hd.ltv_eq, hd.constraints_eq]
    exact husual.ltv_bound hworth (hd.byLtv_eq ▸ hle)
  · intro hloan₀ hle dscr hdscr
    obtain ⟨hne, hvalue⟩ := hd.dscr dscr hdscr
    obtain ⟨pay, hpay, hservice⟩ := hd.service
    rw [hservice] at hne hvalue
    rw [hvalue, hd.constraints_eq]
    exact husual.coverage_ge hterm h.noi_cases hd.byDscr hloan₀ hle hpay hne

/-- A loan is never sized over no months. -/
theorem months_ne_zero_of_sizeDebt {a : Analysis SizingBasis SizedDebt} (h : sizeDebt request = .ok a) :
    request.months ≠ 0 := by
  intro hzero
  obtain ⟨_, -, h⟩ := bind_eq_ok.mp h
  obtain ⟨rate, -, h⟩ := bind_eq_ok.mp h
  obtain ⟨byLtv, -, h⟩ := bind_eq_ok.mp h
  obtain ⟨yearly, -, h⟩ := bind_eq_ok.mp h
  obtain ⟨payment, -, h⟩ := bind_eq_ok.mp h
  obtain ⟨byDscr, hbyDscr, -⟩ := bind_eq_ok.mp h
  rw [← SizingRequest.months, hzero] at hbyDscr
  cases hbyDscr

theorem computedAt_of_sizeDebt {a : Analysis SizingBasis SizedDebt} (hvalid : request.validate = .ok ())
    (h : sizeDebt request = .ok a) :
    ∃ rate, monthlyRate request.interestRatePct = .ok rate ∧ a.result.ComputedAt request rate := by
  have hgives := gives_computed hvalid (months_ne_zero_of_sizeDebt h)
  rwa [h] at hgives

/-- What debt sizing gives for the request passes the tests. It gives something unless it overflows, or
the months of the term have wrapped around to none. -/
theorem sizeDebt_passes_tests (hvalid : request.validate = .ok ())
    (hworth : 1 ≤ request.propertyValue.value)
    (hnoi : request.noi.value = 0 ∨ 1 ≤ request.noi.value)
    (hrate : request.interestRatePct.value = 0 ∨ 1 / 100 ≤ request.interestRatePct.value) :
    (∀ a, sizeDebt request = .ok a →
      a.result.constraints = request.loanType.constraints ∧ a.result.PassesTests) ∧
    (monthsOf request.amortizationYears ≠ 0 → ¬ Overflows (sizeDebt request) →
      ∃ a, sizeDebt request = .ok a) := by
  constructor
  · intro a ha
    obtain ⟨rate, hmonthly, hd⟩ := computedAt_of_sizeDebt hvalid ha
    exact ⟨hd.constraints_eq, hd.passesTests (SizingRequest.accepted_of_validate hvalid)
      (months_ne_zero_of_sizeDebt ha) hmonthly ⟨hworth, hnoi, hrate⟩⟩
  · intro hmonths hfits
    obtain ⟨a, ha, -⟩ := (gives_computed hvalid hmonths).of_not_overflows hfits
    exact ⟨a, ha⟩

/-- An office at six percent, on which the debt coverage binds. -/
theorem sizeDebt_passes_tests_office :
    ∃ a, sizeDebt ⟨.ofScaled 500000 0, .ofScaled 10000000 0, .permanent, .ofScaled 6 0, 25⟩ = .ok a ∧
      a.result.constraints = LoanType.permanent.constraints ∧ a.result.PassesTests := by
  have hok : (sizeDebt ⟨.ofScaled 500000 0, .ofScaled 10000000 0, .permanent, .ofScaled 6 0,
      25⟩).isOk = true := by
    decide +kernel
  obtain ⟨htests, hruns⟩ := @sizeDebt_passes_tests
    ⟨.ofScaled 500000 0, .ofScaled 10000000 0, .permanent, .ofScaled 6 0, 25⟩ rfl
    (by rw [value_ofScaled (by decide) (by decide)]; norm_num)
    (Or.inr (by rw [value_ofScaled (by decide) (by decide)]; norm_num))
    (Or.inr (by rw [value_ofScaled (by decide) (by decide)]; norm_num))
  obtain ⟨a, ha⟩ := hruns (by decide) (not_overflows_of_isOk hok)
  exact ⟨a, ha, htests a ha⟩

end Sizing

end PropertyFinance
