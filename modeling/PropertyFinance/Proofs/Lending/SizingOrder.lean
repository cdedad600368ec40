import PropertyFinance.Proofs.Lending.DebtSizing
import PropertyFinance.Proofs.Decimal.Monotonicity

/-! Debt sizing is monotone. A property that is worth more and earns more carries a loan that is at least as
large, by each of the three tests and so by the least of them, whichever of them binds. The growth over
the term depends on nothing but the rate, so both requests divide by the same numbers. -/

namespace PropertyFinance
open Decimal
set_option autoImplicit false

namespace Loan

section Annuity
variable {x x' r c : ℚ}

theorem carried_mono (h : x ≤ x') (hr : 0 ≤ r) (hc : 1 ≤ c) : carried x r c ≤ carried x' r c := by
  have hgain : 0 ≤ nearest (c - 1) := nearest_nonneg (by linarith)
  have hinterest : 0 ≤ nearest (r * c) := nearest_nonneg (mul_nonneg hr (by linarith))
  apply nearest_mono
  apply div_le_div_of_nonneg_right _ hinterest
  apply nearest_mono
  exact mul_le_mul_of_nonneg_right h hgain

theorem levelPayment_mono (h : x ≤ x') (hr : 0 ≤ r) (hc : 1 ≤ c) :
    levelPayment x r c ≤ levelPayment x' r c := by
  have hgain : 0 ≤ nearest (c - 1) := nearest_nonneg (by linarith)
  apply nearest_mono
  apply div_le_div_of_nonneg_right _ hgain
  apply nearest_mono
  apply mul_le_mul_of_nonneg_right _ (by linarith)
  apply nearest_mono
  exact mul_le_mul_of_nonneg_right h hr

end Annuity

section SameRate
variable {rate rate' factor factor' : Decimal} {periods months : Nat} {x x' y y' : ℚ}

theorem compoundFrom_same (hrate : rate.value = rate'.value) (hfactor : factor.value = factor'.value) :
    Agree (compoundFrom rate periods factor) (compoundFrom rate' periods factor')
      fun c c' => c.value = c'.value := by
  induction periods generalizing factor factor' with
  | zero => exact agree_pure hfactor
  | succ periods ih =>
    apply agree_bind
    intro growth growth' hgrowth hgrowth'
    apply agree_bind
    intro next next' hnext hnext'
    apply ih
    rw [value_mul hnext, value_mul hnext', value_add hgrowth, value_add hgrowth', hfactor, hrate]

theorem PrincipalFor.mono (h : PrincipalFor rate months x y) (h' : PrincipalFor rate' months x' y')
    (hrate : rate.value = rate'.value) (hterm : Payable rate months) (hx : x ≤ x') : y ≤ y' := by
  rcases h with ⟨hzero, rfl⟩ | ⟨hne, c, hc, -, rfl⟩ <;>
    rcases h' with ⟨hzero', rfl⟩ | ⟨hne', c', hc', -, rfl⟩
  · exact nearest_mono (mul_le_mul_of_nonneg_right hx (Nat.cast_nonneg _))
  · exact absurd (hrate.symm.trans hzero) hne'
  · exact absurd (hrate.trans hzero') hne
  · rw [← hrate, ← compoundFrom_same hrate rfl c c' hc hc']
    exact carried_mono hx hterm.rate_nonneg (hterm.one_lt_compound hne hc).le

theorem PaymentFor.mono (h : PaymentFor rate months x y) (h' : PaymentFor rate' months x' y')
    (hrate : rate.value = rate'.value) (hterm : Payable rate months) (hx : x ≤ x') : y ≤ y' := by
  rcases h with ⟨hzero, rfl⟩ | ⟨hne, c, hc, rfl⟩ <;>
    rcases h' with ⟨hzero', rfl⟩ | ⟨hne', c', hc', rfl⟩
  · exact nearest_mono (div_le_div_of_nonneg_right hx (Nat.cast_nonneg _))
  · exact absurd (hrate.symm.trans hzero) hne'
  · exact absurd (hrate.trans hzero') hne
  · rw [← hrate, ← compoundFrom_same hrate rfl c c' hc hc']
    exact levelPayment_mono hx hterm.rate_nonneg (hterm.one_lt_compound hne hc).le

end SameRate

end Loan

open Loan

section Sizing
variable {request request' : SizingRequest} {rate rate' : Decimal} {d d' : SizedDebt}

theorem value_tightest {byLtv byDscr byDebtYield loan : Decimal} {test : SizingTest}
    (h : tightest byLtv byDscr byDebtYield = (test, loan)) :
    loan.value = min byLtv.value (min byDscr.value byDebtYield.value) := by
  rcases tightest_cases byLtv byDscr byDebtYield with ⟨hcase, h₁, h₂⟩ | ⟨hcase, h₁, h₂⟩ | ⟨hcase, h₁, h₂⟩ <;>
    obtain ⟨-, rfl⟩ := Prod.mk.inj (h.symm.trans hcase)
  · rw [min_eq_left (le_min h₁ h₂)]
  · rw [min_eq_left h₂, min_eq_right h₁.le]
  · rw [min_eq_right h₂.le, min_eq_right h₁.le]

/-- The same kind of loan on the same terms, on a property that neither earns nor is worth more. -/
structure SizingRequest.AtMost (request request' : SizingRequest) : Prop where
  loanType_eq : request.loanType = request'.loanType
  rate_eq : request.interestRatePct.value = request'.interestRatePct.value
  years_eq : request.amortizationYears = request'.amortizationYears
  noi_le : request.noi ≤ request'.noi
  worth_le : request.propertyValue ≤ request'.propertyValue

structure SizedDebt.AtMost (d d' : SizedDebt) : Prop where
  loan_le : d.recommendedLoanAmount ≤ d'.recommendedLoanAmount
  byLtv_le : d.maxByLtv ≤ d'.maxByLtv
  byDscr_le : d.maxByDscr ≤ d'.maxByDscr
  byDebtYield_le : d.maxByDebtYield ≤ d'.maxByDebtYield
  service_le : d.annualDebtService ≤ d'.annualDebtService

theorem SizingRequest.AtMost.coveredPayment_le (h : request.AtMost request') :
    request.coveredPayment ≤ request'.coveredPayment := by
  have hnoi := le_iff_value_le.mp h.noi_le
  have hdscr := request'.loanType.constraints_usual.dscr_ge
  unfold SizingRequest.coveredPayment
  rw [h.loanType_eq]
  apply nearest_mono
  apply div_le_div_of_nonneg_right _ (by norm_num)
  apply nearest_mono
  exact div_le_div_of_nonneg_right hnoi (by linarith)

theorem SizedDebt.ComputedAt.atMost (hd : d.ComputedAt request rate) (hd' : d'.ComputedAt request' rate')
    (h : request.AtMost request') (hrate : rate.value = rate'.value)
    (hterm : Payable rate request.months) : d.AtMost d' := by
  have husual := request'.loanType.constraints_usual
  have hnoi := le_iff_value_le.mp h.noi_le
  have hworth := le_iff_value_le.mp h.worth_le
  have hmonths : request'.months = request.months := by
    rw [SizingRequest.months, SizingRequest.months, h.years_eq]
  have hbyLtv : d.maxByLtv.value ≤ d'.maxByLtv.value := by
    rw [hd.byLtv_eq, hd'.byLtv_eq, h.loanType_eq]
    exact nearest_mono (mul_le_mul_of_nonneg_right hworth husual.ltv_pos.le)
  have hbyDscr : d.maxByDscr.value ≤ d'.maxByDscr.value :=
    hd.byDscr.mono (hmonths ▸ hd'.byDscr) hrate hterm h.coveredPayment_le
  have hbyDebtYield : d.maxByDebtYield.value ≤ d'.maxByDebtYield.value := by
    rw [hd.byDebtYield_eq, hd'.byDebtYield_eq, h.loanType_eq]
    exact nearest_mono (div_le_div_of_nonneg_right hnoi husual.debtYield_pos.le)
  have hloan : d.recommendedLoanAmount.value ≤ d'.recommendedLoanAmount.value := by
    rw [value_tightest hd.tightest_eq, value_tightest hd'.tightest_eq]
    exact min_le_min hbyLtv (min_le_min hbyDscr hbyDebtYield)
  have hservice : d.annualDebtService.value ≤ d'.annualDebtService.value := by
    obtain ⟨pay, hpay, heq⟩ := hd.service
    obtain ⟨pay', hpay', heq'⟩ := hd'.service
    rw [heq, heq']
    apply nearest_mono
    have := hpay.mono (hmonths ▸ hpay') hrate hterm hloan
    linarith
  refine ⟨?_, ?_, ?_, ?_, ?_⟩ <;> rw [le_iff_value_le]
  · exact hloan
  · exact hbyLtv
  · exact hbyDscr
  · exact hbyDebtYield
  · exact hservice

/-- The loans of both requests are in their order, and there are loans for both unless one of them
overflows, or the months of the term have wrapped around to none. -/
theorem sizeDebt_monotone (hvalid : request.validate = .ok ()) (hvalid' : request'.validate = .ok ())
    (h : request.AtMost request') :
    (∀ a a', sizeDebt request = .ok a → sizeDebt request' = .ok a' → a.result.AtMost a'.result) ∧
    (monthsOf request.amortizationYears ≠ 0 → ¬ Overflows (sizeDebt request) →
      ¬ Overflows (sizeDebt request') →
      ∃ a a', sizeDebt request = .ok a ∧ sizeDebt request' = .ok a') := by
  constructor
  · intro a a' ha ha'
    obtain ⟨rate, hrate, hd⟩ := computedAt_of_sizeDebt hvalid ha
    obtain ⟨rate', hrate', hd'⟩ := computedAt_of_sizeDebt hvalid' ha'
    have hsame : rate.value = rate'.value := by
      rw [value_monthlyRate hrate, value_monthlyRate hrate', h.rate_eq]
    have hterm := (SizingRequest.accepted_of_validate hvalid).payable (months_ne_zero_of_sizeDebt ha) hrate
    exact hd.atMost hd' h hsame hterm
  · intro hmonths hfits hfits'
    have hmonths' : request'.months ≠ 0 := by rwa [SizingRequest.months, ← h.years_eq]
    obtain ⟨a, ha, -⟩ := (gives_computed hvalid hmonths).of_not_overflows hfits
    obtain ⟨a', ha', -⟩ := (gives_computed hvalid' hmonths').of_not_overflows hfits'
    exact ⟨a, a', ha, ha'⟩

/-- An office before and after a letting: the value binds the loan first, the debt coverage then. -/
theorem sizeDebt_monotone_letting :
    ∃ a a', sizeDebt ⟨.ofScaled 500000 0, .ofScaled 5000000 0, .permanent, .ofScaled 6 0, 25⟩ = .ok a ∧
      sizeDebt ⟨.ofScaled 600000 0, .ofScaled 10000000 0, .permanent, .ofScaled 600 2, 25⟩ = .ok a' ∧
      a.result.AtMost a'.result := by
  have hmost : SizingRequest.AtMost
      ⟨.ofScaled 500000 0, .ofScaled 5000000 0, .permanent, .ofScaled 6 0, 25⟩
      ⟨.ofScaled 600000 0, .ofScaled 10000000 0, .permanent, .ofScaled 600 2, 25⟩ := by
    refine ⟨rfl, ?_, rfl, by decide, by decide⟩
    rw [value_ofScaled (by decide) (by decide), value_ofScaled (by decide) (by decide)]
    norm_num
  obtain ⟨horder, hruns⟩ := sizeDebt_monotone rfl rfl hmost
  obtain ⟨a, a', ha, ha'⟩ := hruns (by decide) (not_overflows_of_isOk (by decide +kernel))
    (not_overflows_of_isOk (by decide +kernel))
  exact ⟨a, a', ha, ha', horder a a' ha ha'⟩

end Sizing

end PropertyFinance
