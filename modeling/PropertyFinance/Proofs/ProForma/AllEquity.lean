import PropertyFinance.Proofs.CashFlow.ZeroFlows
import PropertyFinance.Proofs.ProForma.Balance

/-! A deal without debt. The loan formulas run on a principal of zero and give plain zeros, and taking a
zero off a figure changes at most the way a zero is written. So the flows to equity are the flows before
debt, up to the writing of zeros, and the solver finds the same rate for both. -/

namespace PropertyFinance
open Decimal
set_option autoImplicit false

namespace Decimal
variable {a b c d : Decimal}

theorem zero_mul_eq_ok (b : Decimal) : Decimal.zero.mul b = .ok .zero := by
  rw [mul, mul?, if_pos (by rfl)]
  rfl

theorem mul_zero_eq_ok (a : Decimal) : a.mul .zero = .ok .zero := by
  rw [mul, mul?, show Decimal.zero.isZero = true from rfl, Bool.or_true, if_pos rfl]
  rfl

/-- A quotient of zero is the plain zero. -/
theorem div_of_isZero (ha : a.isZero = true) (h : a.div b = .ok c) : c = .zero := by
  unfold div at h
  split at h
  case isTrue => exact nomatch h
  case isFalse hb =>
    rw [div?, if_neg hb, if_pos ha] at h
    exact (Except.ok.inj h).symm

theorem sub_zero_eq_ok (a : Decimal) : a.sub .zero = .ok (if a.isZero then .zero else a) := by
  rw [sub, sub?, if_pos (by rfl)]
  rfl

theorem interchangeable_sub_zero (h : a.sub .zero = .ok b) : Interchangeable b a := by
  rw [sub_zero_eq_ok] at h
  cases h
  split
  case isTrue ha => exact Or.inr ⟨rfl, ha⟩
  case isFalse => exact interchangeable_self a

/-- Two sums of the same numbers are the same decimal, if the second number is the plain zero wherever
the first one is a zero. -/
theorem add_of_sub_zero {a' b' : Decimal} (ha : a.sub .zero = .ok a') (hb : b.sub .zero = .ok b')
    (hzero : a.isZero = true → b = .zero) : a'.add b' = a.add b := by
  rw [sub_zero_eq_ok] at ha hb
  cases ha
  cases hb
  by_cases hza : a.isZero = true
  · obtain rfl := hzero hza
    rw [if_pos hza, add_of_isZero hza]
    rfl
  · rw [if_neg hza]
    rw [Bool.not_eq_true] at hza
    split
    case isTrue hzb => rw [add_isZero hza rfl, add_isZero hza hzb]
    case isFalse => rfl

end Decimal

namespace LoanTerms
variable {interestRatePct : Decimal} {years : UInt32} {terms : LoanTerms}

theorem monthlyPayment_zero {rate payment : Decimal} {months : Nat}
    (h : Loan.monthlyPayment .zero rate months = .ok payment) : payment = .zero := by
  unfold Loan.monthlyPayment at h
  split at h
  case isTrue => exact nomatch h
  case isFalse =>
    split at h
    case isTrue => exact div_of_isZero rfl (liftM_eq_ok.mp h)
    case isFalse =>
      obtain ⟨compound, -, h⟩ := bind_eq_ok.mp h
      obtain ⟨denominator, -, h⟩ := bind_eq_ok.mp h
      split at h
      case isTrue => exact nomatch h
      case isFalse =>
        rw [zero_mul_eq_ok, lift_ok, ok_bind, zero_mul_eq_ok, lift_ok, ok_bind] at h
        exact div_of_isZero rfl (liftM_eq_ok.mp h)

/-- A loan of nothing costs nothing. -/
structure Idle (terms : LoanTerms) : Prop where
  loanAmount_eq : terms.loanAmount = .zero
  monthlyPayment_eq : terms.monthlyPayment = .zero
  annualDebtService_eq : terms.annualDebtService = .zero

theorem idle_of_ofLoan (h : ofLoan .zero interestRatePct years = .ok terms) : terms.Idle := by
  unfold ofLoan at h
  obtain ⟨-, h⟩ := unless_reject_eq_ok.mp h
  obtain ⟨-, h⟩ := unless_reject_eq_ok.mp h
  obtain ⟨rate, -, h⟩ := bind_eq_ok.mp h
  obtain ⟨payment, hpayment, h⟩ : ∃ payment, payment = Decimal.zero ∧ (do
      let service ← (payment.mul .twelve : Outcome Decimal)
      pure (LoanTerms.mk .zero interestRatePct years payment service) : Outcome LoanTerms) = .ok terms := by
    split at h
    case isTrue =>
      rw [zero_mul_eq_ok, lift_ok, ok_bind] at h
      exact ⟨_, rfl, h⟩
    case isFalse =>
      obtain ⟨payment, hpayment, h⟩ := bind_eq_ok.mp h
      exact ⟨payment, monthlyPayment_zero hpayment, h⟩
  rw [hpayment, zero_mul_eq_ok, lift_ok, ok_bind] at h
  cases pure_eq_ok.mp h
  exact ⟨rfl, rfl, rfl⟩

theorem Idle.balanceAfter_eq (h : terms.Idle) (n : UInt32) : terms.balanceAfter n = .ok .zero := by
  unfold balanceAfter
  rw [h.loanAmount_eq, show Decimal.zero.isZero = true from rfl, Bool.or_true, if_pos rfl]
  rfl

end LoanTerms

namespace CapitalStack

/-- Nothing is borrowed, and the equity pays for all. -/
theorem Builds.debt_eq_zero {deal : Deal} {options : CapitalOptions} {stack : CapitalStack}
    (h : Builds deal options stack) (hltv : deal.financing.ltvPct.isZero = true)
    (hnone : options.sources = none) :
    stack.debtSources = .zero ∧ Interchangeable stack.equitySources stack.totalUses := by
  obtain ⟨rate, hrate, hderive⟩ := bind_eq_ok.mp (h.derive_eq hnone).1
  obtain ⟨debt, hdebt, hderive⟩ := bind_eq_ok.mp hderive
  obtain ⟨equity, hequity, hderive⟩ := bind_eq_ok.mp hderive
  obtain ⟨rfl, rfl⟩ := Prod.mk.inj (pure_eq_ok.mp hderive)
  rw [div_of_isZero hltv hrate, mul_zero_eq_ok] at hdebt
  rw [← Except.ok.inj hdebt] at hequity ⊢
  exact ⟨rfl, interchangeable_sub_zero hequity⟩

end CapitalStack

namespace ProForma
variable {deal : Deal} {options : CapitalOptions} {loan : LoanTerms} {p : ProForma}

theorem ratio?_of_isZero {a b : Decimal} (h : b.isZero = true) : ratio? a b = .ok none := if_pos h

/-- What the row of every year has, all the rows have. -/
theorem forall_of_rowsFrom {growth : Growth} {service equity : Decimal} {P : AnnualCashFlow → Prop}
    (hrow : ∀ year rentFactor expenseFactor paid row,
      yearRow deal growth.incomeLoss service equity year rentFactor expenseFactor paid = .ok row → P row)
    {left year : Nat} {rentFactor expenseFactor paid : Decimal} {years : List AnnualCashFlow}
    (h : rowsFrom deal growth service equity left year rentFactor expenseFactor paid = .ok years) :
    ∀ row ∈ years, P row := by
  induction left generalizing year rentFactor expenseFactor paid years with
  | zero =>
    cases pure_eq_ok.mp h
    exact List.forall_mem_nil P
  | succ left ih =>
    rw [rowsFrom_succ] at h
    obtain ⟨rentFactor, -, h⟩ := bind_eq_ok.mp h
    obtain ⟨expenseFactor, -, h⟩ := bind_eq_ok.mp h
    obtain ⟨row, hfirst, h⟩ := bind_eq_ok.mp h
    obtain ⟨rest, hrest, h⟩ := bind_eq_ok.mp h
    cases pure_eq_ok.mp h
    exact List.forall_mem_cons.mpr ⟨hrow _ _ _ _ _ hfirst, ih hrest⟩

/-- A year without debt service: what is earned goes to equity, and there is nothing to cover. -/
structure AnnualCashFlow.Unlevered (row : AnnualCashFlow) : Prop where
  leveredCashFlow_eq : row.noi.sub .zero = .ok row.leveredCashFlow
  dscr_eq : row.dscr = none

theorem unlevered_of_yearRow {incomeLoss equity rentFactor expenseFactor paid : Decimal} {year : Nat}
    {row : AnnualCashFlow}
    (h : yearRow deal incomeLoss .zero equity year rentFactor expenseFactor paid = .ok row) :
    AnnualCashFlow.Unlevered row := by
  unfold yearRow at h
  iterate 11 obtain ⟨_, -, h⟩ := bind_eq_ok.mp h
  obtain ⟨noi, -, h⟩ := bind_eq_ok.mp h
  obtain ⟨levered, hlevered, h⟩ := bind_eq_ok.mp h
  obtain ⟨_, -, h⟩ := bind_eq_ok.mp h
  obtain ⟨_, -, h⟩ := bind_eq_ok.mp h
  rw [ratio?_of_isZero rfl, ok_bind] at h
  cases pure_eq_ok.mp h
  exact ⟨hlevered, rfl⟩

/-- A sale after which no loan is to be repaid. -/
structure ExitAnalysis.Unlevered (exit : ExitAnalysis) : Prop where
  loanPayoff_eq : exit.loanPayoff = .zero
  netProceeds_eq : exit.unleveredNetProceeds.sub .zero = .ok exit.netProceeds
  proceeds_of_isZero : exit.exitNoi.isZero = true → exit.unleveredNetProceeds = .zero

theorem unlevered_of_projectExit {exitNoi : Decimal} {exit : ExitAnalysis} (hloan : loan.Idle)
    (h : projectExit deal loan exitNoi = .ok exit) :
    ExitAnalysis.Unlevered exit ∧ exit.exitNoi = exitNoi := by
  unfold projectExit at h
  obtain ⟨_, -, h⟩ := bind_eq_ok.mp h
  obtain ⟨gross, hgross, h⟩ := bind_eq_ok.mp h
  obtain ⟨_, -, h⟩ := bind_eq_ok.mp h
  obtain ⟨selling, hselling, h⟩ := bind_eq_ok.mp h
  rw [hloan.balanceAfter_eq, ok_bind] at h
  obtain ⟨unlevered, hunlevered, h⟩ := bind_eq_ok.mp h
  obtain ⟨net, hnet, h⟩ := bind_eq_ok.mp h
  cases pure_eq_ok.mp h
  refine ⟨⟨rfl, hnet, fun hzero => ?_⟩, rfl⟩
  cases div_of_isZero hzero hgross
  rw [zero_mul_eq_ok] at hselling
  cases hselling
  rw [sub_zero_eq_ok] at hunlevered
  exact (Except.ok.inj hunlevered).symm

/-- The flows to equity are those before debt, outlay included; the last ones are the same decimal. -/
theorem sameFlows_of_returnFlows {exit : ExitAnalysis} {years : List AnnualCashFlow}
    {outlay outlay' : Decimal} {levered unlevered : List Decimal}
    (houtlay : Interchangeable outlay outlay') (hexit : ExitAnalysis.Unlevered exit)
    (hyears : ∀ row ∈ years, AnnualCashFlow.Unlevered row) (hne : years ≠ [])
    (hlast : ∀ row, years.getLast? = some row → exit.exitNoi = row.noi)
    (h : returnFlows exit years = .ok (levered, unlevered)) :
    Yield.SameFlows (outlay :: levered) (outlay' :: unlevered) := by
  induction years generalizing outlay outlay' levered unlevered with
  | nil => exact absurd rfl hne
  | cons row years ih =>
    obtain ⟨hrow, hyears⟩ := List.forall_mem_cons.mp hyears
    cases years with
    | nil =>
      obtain ⟨last, hlevered, h⟩ := bind_eq_ok.mp h
      obtain ⟨last', hunlevered, h⟩ := bind_eq_ok.mp h
      cases pure_eq_ok.mp h
      rw [add_of_sub_zero hrow.leveredCashFlow_eq hexit.netProceeds_eq
        (hlast row rfl ▸ hexit.proceeds_of_isZero), hunlevered] at hlevered
      cases hlevered
      exact ⟨.cons houtlay (.cons (interchangeable_self _) .nil), rfl⟩
    | cons next years =>
      obtain ⟨⟨levered, unlevered⟩, hrest, h⟩ := bind_eq_ok.mp h
      cases pure_eq_ok.mp h
      have hsame := ih (interchangeable_sub_zero hrow.leveredCashFlow_eq) hyears
        (List.cons_ne_nil _ _) (fun last hmem => hlast last (by rwa [List.getLast?_cons_cons])) hrest
      exact hsame.cons houtlay (List.cons_ne_nil _ _)

namespace Projects
variable (h : Projects deal options loan p) (hltv : deal.financing.ltvPct.isZero = true)
  (hnone : options.sources = none)
include h hltv hnone

theorem idle : loan.Idle := by
  have hloan := h.loan_eq
  rw [((CapitalStack.builds_of_ofDeal h.capital_eq).debt_eq_zero hltv hnone).1] at hloan
  exact LoanTerms.idle_of_ofLoan hloan

theorem years_unlevered : ∀ row ∈ p.years, AnnualCashFlow.Unlevered row := by
  obtain ⟨growth, -, hrows⟩ := bind_eq_ok.mp h.years_eq
  rw [(h.idle hltv hnone).annualDebtService_eq] at hrows
  exact forall_of_rowsFrom (fun _ _ _ _ _ => unlevered_of_yearRow) hrows

theorem sameFlows : Yield.SameFlows p.leveredCashFlows p.unleveredCashFlows := by
  obtain ⟨hexit, hnoi⟩ := unlevered_of_projectExit (h.idle hltv hnone) h.exit_eq
  have hne : p.years ≠ [] := List.ne_nil_of_length_pos (h.years_length ▸ holdYears_pos h.valid)
  have houtlay : Interchangeable p.capital.equitySources.negate p.capital.totalUses.negate :=
    ((CapitalStack.builds_of_ofDeal h.capital_eq).debt_eq_zero hltv hnone).2.negate
  have hlast (row : AnnualCashFlow) (hrow : p.years.getLast? = some row) :
      p.exit.exitNoi = row.noi := by
    rw [hnoi, hrow]
    rfl
  rw [List.eq_cons_of_mem_head? h.equityOutlay, List.eq_cons_of_mem_head? h.totalOutlay]
  exact sameFlows_of_returnFlows houtlay hexit (h.years_unlevered hltv hnone) hne hlast h.flows_eq

theorem leveredIrr_eq : p.metrics.leveredIrr = p.metrics.unleveredIrr := by
  have hmetrics := measures_of_metricsOf h.metrics_eq
  have hne : p.leveredCashFlows ≠ [] := List.ne_nil_of_mem (List.mem_of_mem_head? h.equityOutlay)
  have hrate := Yield.rate?_eq (h.sameFlows hltv hnone) hne
  rw [hmetrics.leveredIrr_eq, hmetrics.unleveredIrr_eq] at hrate
  exact Except.ok.inj hrate

/-- Nothing is measured against a loan that is not there. -/
theorem coverage_eq : p.metrics.dscrYear1 = none ∧ p.metrics.debtYieldYear1 = none := by
  have hmetrics := measures_of_metricsOf h.metrics_eq
  have hyears := h.years_unlevered hltv hnone
  have hyield := hmetrics.debtYield_eq
  rw [hmetrics.dscr_eq]
  unfold debtYield? at hyield
  rw [(h.idle hltv hnone).loanAmount_eq] at hyield
  cases hhead : p.years.head? with
  | none =>
    rw [hhead] at hyield
    exact ⟨rfl, (pure_eq_ok.mp hyield).symm⟩
  | some row =>
    rw [hhead] at hyield
    change ratio? row.noi .zero = _ at hyield
    rw [ratio?_of_isZero rfl] at hyield
    exact ⟨(hyears row (List.mem_of_mem_head? hhead)).dscr_eq, (Except.ok.inj hyield).symm⟩

end Projects

/-- Without debt the partners of a deal earn what the property earns, year by year and as a rate, and no
figure of a loan appears. -/
theorem all_equity_returns_equal {assumptions : Assumptions} {a : Analysis ProFormaBasis ProForma}
    (hltv : assumptions.deal.financing.ltvPct.isZero = true) (hnone : options.sources = none)
    (h : analyse assumptions options = .ok a) :
    List.Forall₂ Decimal.Same a.result.leveredCashFlows a.result.unleveredCashFlows ∧
      a.result.metrics.leveredIrr = a.result.metrics.unleveredIrr ∧
      (∀ row ∈ a.result.years, row.dscr = none) ∧
      a.result.metrics.dscrYear1 = none ∧ a.result.metrics.debtYieldYear1 = none ∧
      a.result.exit.loanPayoff.isZero = true ∧
      a.result.financing.monthlyPayment.isZero = true ∧
      a.result.financing.annualDebtService.isZero = true := by
  obtain ⟨loan, hprojects, hsummary⟩ := summary_of_analyse h
  have hidle := hprojects.idle hltv hnone
  obtain ⟨hdscr, hyield⟩ := hprojects.coverage_eq hltv hnone
  obtain ⟨hexit, -⟩ := unlevered_of_projectExit hidle hprojects.exit_eq
  refine ⟨(hprojects.sameFlows hltv hnone).flows.imp fun _ _ => Interchangeable.same,
    hprojects.leveredIrr_eq hltv hnone,
    fun row hrow => (hprojects.years_unlevered hltv hnone row hrow).dscr_eq, hdscr, hyield, ?_, ?_, ?_⟩
  · rw [hexit.loanPayoff_eq]
    rfl
  · rw [hsummary.financing_eq, hidle.monthlyPayment_eq]
    rfl
  · rw [hsummary.financing_eq, hidle.annualDebtService_eq]
    rfl

/-- The office bought without a loan, on the terms of one at 9% over 25 years. -/
def ownedOffice : Deal := { office with financing := ⟨Decimal.zero.negate, .ofScaled 9 0, 25⟩ }

theorem all_equity_returns_equal_office :
    ∃ a rate, analyse (.ofDeal ownedOffice) ⟨none, some renovation⟩ = .ok a ∧
      a.result.metrics.leveredIrr = some rate ∧ a.result.metrics.unleveredIrr = some rate ∧
      List.Forall₂ Decimal.Same a.result.leveredCashFlows a.result.unleveredCashFlows := by
  obtain ⟨a, ha, hrate⟩ := exists_of_any
    (x := analyse (.ofDeal ownedOffice) ⟨none, some renovation⟩)
    (p := fun a => a.result.metrics.leveredIrr.isSome) (by decide +kernel)
  obtain ⟨rate, hrate⟩ := Option.isSome_iff_exists.mp hrate
  obtain ⟨hflows, hirr, -⟩ := all_equity_returns_equal (by rfl) (by rfl) ha
  exact ⟨a, rate, ha, hrate, hirr ▸ hrate, hflows⟩

end ProForma

end PropertyFinance
