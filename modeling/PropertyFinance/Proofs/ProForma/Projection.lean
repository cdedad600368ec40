import PropertyFinance.ProForma
import PropertyFinance.Proofs.Decimal.Checked

/-! The capital stack, the rows, the metrics and the whole projection taken apart: each figure with the
computation that gave it. -/

namespace PropertyFinance
set_option autoImplicit false

namespace CapitalStack
variable {deal : Deal} {options : CapitalOptions} {stack : CapitalStack}

/-- The lines of the sources, the debt and the equity. -/
def sourcesOf (financing : FinancingTerms) (sources : Option (List CapitalSource))
    (totalUses : Decimal) : Outcome (List (String × Decimal) × Decimal × Decimal) :=
  match sources with
  | some sources => do
    let (debt, equity) ← tally sources .zero .zero
    pure (sources.map fun source => (source.name, source.amount), debt, equity)
  | none => do
    let debt ← totalUses.mul (← percentToRate financing.ltvPct)
    let equity ← totalUses.sub debt
    pure ([(SourceKind.debt.label, debt), ("Sponsor Equity", equity)], debt, equity)

/-- The uses are settled before the sources, and only the sources depend on the financing. -/
structure Builds (deal : Deal) (options : CapitalOptions) (stack : CapitalStack) : Prop where
  purchasePrice_nonneg : ¬ deal.acquisition.purchasePrice < Decimal.zero
  uses_eq : usesOf deal.acquisition options.budget = .ok stack.uses
  totalUses_eq : total stack.uses = .ok stack.totalUses
  sources_eq : sourcesOf deal.financing options.sources stack.totalUses =
    .ok (stack.sources, stack.debtSources, stack.equitySources)
  totalSources_eq : total stack.sources = .ok stack.totalSources
  usesDelta_eq : stack.totalSources.sub stack.totalUses = .ok stack.usesDelta
  isExplicit_eq : stack.isExplicit = options.sources.isSome

theorem ofDeal_eq : ofDeal deal options = (do
    if deal.acquisition.purchasePrice < Decimal.zero then
      rejectField "acquisition.purchase_price" "Purchase price cannot be negative"
    let uses ← usesOf deal.acquisition options.budget
    let totalUses ← total uses
    let (sources, debt, equity) ← sourcesOf deal.financing options.sources totalUses
    let totalSources ← total sources
    let usesDelta ← totalSources.sub totalUses
    pure ⟨sources, uses, totalSources, totalUses, debt, equity, usesDelta, options.sources.isSome⟩) := by
  unfold ofDeal sourcesOf
  cases options.sources <;> simp only [bind_assoc]

theorem builds_of_ofDeal (h : ofDeal deal options = .ok stack) : Builds deal options stack := by
  rw [ofDeal_eq, unless_reject_eq_ok] at h
  obtain ⟨hprice, h⟩ := h
  obtain ⟨uses, huses, h⟩ := bind_eq_ok.mp h
  obtain ⟨totalUses, htotal, h⟩ := bind_eq_ok.mp h
  obtain ⟨⟨sources, debt, equity⟩, hsources, h⟩ := bind_eq_ok.mp h
  obtain ⟨totalSources, htotalSources, h⟩ := bind_eq_ok.mp h
  obtain ⟨usesDelta, hdelta, h⟩ := bind_eq_ok.mp h
  cases pure_eq_ok.mp h
  rw [liftM_eq_ok] at huses htotal htotalSources hdelta
  exact ⟨hprice, huses, htotal, hsources, htotalSources, hdelta, rfl⟩

end CapitalStack

namespace ProForma
variable {years : List AnnualCashFlow} {levered unlevered : List Decimal} {equity loanAmount : Decimal}
  {m : ReturnMetrics}

/-- A factor grows from the second year on. -/
def grown (year : Nat) (factor growth : Decimal) : Arith Decimal :=
  if 1 < year then factor.mul growth else pure factor

theorem rowsFrom_succ (deal : Deal) (growth : Growth) (service equity : Decimal) (left year : Nat)
    (rentFactor expenseFactor paid : Decimal) :
    rowsFrom deal growth service equity (left + 1) year rentFactor expenseFactor paid = (do
      let rentFactor ← grown year rentFactor growth.rent
      let expenseFactor ← grown year expenseFactor growth.expense
      let row ← yearRow deal growth.incomeLoss service equity year rentFactor expenseFactor paid
      let rest ← rowsFrom deal growth service equity left (year + 1) rentFactor expenseFactor
        row.cumulativeCashFlow
      pure (row :: rest)) := by
  rw [rowsFrom]
  unfold grown
  split_ifs <;> rfl

def equityMultiple? (levered : List Decimal) (equity : Decimal) : Arith (Option Decimal) :=
  if Decimal.zero < equity then do
    let distributions ← Decimal.sum ((levered.drop 1).filter fun flow => decide (Decimal.zero < flow))
    pure (some (← distributions.div equity))
  else pure none

def averageCashOnCash? (years : List AnnualCashFlow) : Arith (Option Decimal) :=
  if years.isEmpty then pure none
  else do
    let total ← Decimal.sum (years.map AnnualCashFlow.cashOnCash)
    pure (some (← total.div (.ofNat years.length)))

def debtYield? (years : List AnnualCashFlow) (loanAmount : Decimal) : Arith (Option Decimal) :=
  match years.head? with
  | some first => ratio? first.noi loanAmount
  | none => pure none

/-- Every metric is computed apart from the others. -/
structure Measures (years : List AnnualCashFlow) (levered unlevered : List Decimal)
    (equity loanAmount : Decimal) (m : ReturnMetrics) : Prop where
  equityMultiple_eq : equityMultiple? levered equity = .ok m.equityMultiple
  averageCashOnCash_eq : averageCashOnCash? years = .ok m.averageCashOnCash
  debtYield_eq : debtYield? years loanAmount = .ok m.debtYieldYear1
  leveredIrr_eq : Yield.rate? levered = .ok m.leveredIrr
  unleveredIrr_eq : Yield.rate? unlevered = .ok m.unleveredIrr
  cashOnCash_eq : m.cashOnCashYear1 = years.head?.map AnnualCashFlow.cashOnCash
  dscr_eq : m.dscrYear1 = years.head?.bind AnnualCashFlow.dscr

theorem metricsOf_eq : metricsOf years levered unlevered equity loanAmount = (do
    let equityMultiple ← equityMultiple? levered equity
    let averageCashOnCash ← averageCashOnCash? years
    let debtYieldYear1 ← debtYield? years loanAmount
    let leveredIrr ← Yield.rate? levered
    let unleveredIrr ← Yield.rate? unlevered
    pure {
      leveredIrr, unleveredIrr, equityMultiple
      cashOnCashYear1 := years.head?.map AnnualCashFlow.cashOnCash
      averageCashOnCash
      dscrYear1 := years.head?.bind AnnualCashFlow.dscr
      debtYieldYear1 }) := by
  unfold metricsOf equityMultiple? averageCashOnCash? debtYield?
  cases years.head? <;> split_ifs <;> simp only [bind_assoc, pure_bind]

theorem measures_of_metricsOf (h : metricsOf years levered unlevered equity loanAmount = .ok m) :
    Measures years levered unlevered equity loanAmount m := by
  rw [metricsOf_eq] at h
  obtain ⟨equityMultiple, hmultiple, h⟩ := bind_eq_ok.mp h
  obtain ⟨averageCashOnCash, haverage, h⟩ := bind_eq_ok.mp h
  obtain ⟨debtYieldYear1, hyield, h⟩ := bind_eq_ok.mp h
  obtain ⟨leveredIrr, hlevered, h⟩ := bind_eq_ok.mp h
  obtain ⟨unleveredIrr, hunlevered, h⟩ := bind_eq_ok.mp h
  cases pure_eq_ok.mp h
  exact ⟨hmultiple, haverage, hyield, hlevered, hunlevered, rfl, rfl⟩

/-- The stages of a projection, each on what the stages before it gave. -/
structure Projects (deal : Deal) (options : CapitalOptions) (loan : LoanTerms) (p : ProForma) :
    Prop where
  valid : deal.validate = .ok ()
  capital_eq : CapitalStack.ofDeal deal options = .ok p.capital
  loan_eq : LoanTerms.ofLoan p.capital.debtSources deal.financing.interestRatePct
    deal.financing.amortizationYears = .ok loan
  years_eq : projectYears deal loan p.capital.equitySources = .ok p.years
  exit_eq : projectExit deal loan ((p.years.getLast?.map AnnualCashFlow.noi).getD .zero) = .ok p.exit
  flows_eq : returnFlows p.exit p.years = .ok (p.leveredCashFlows.tail, p.unleveredCashFlows.tail)
  equityOutlay : p.leveredCashFlows.head? = some p.capital.equitySources.negate
  totalOutlay : p.unleveredCashFlows.head? = some p.capital.totalUses.negate
  metrics_eq : metricsOf p.years p.leveredCashFlows p.unleveredCashFlows p.capital.equitySources
    loan.loanAmount = .ok p.metrics

/-- What is told of the stages: the terms of the loan, and the warnings. -/
structure Summary (loan : LoanTerms) (p : ProForma) (warnings : List String) : Prop where
  financing_eq : p.financing = ⟨loan.loanAmount, p.capital.equitySources, loan.interestRatePct,
    loan.amortizationYears, loan.monthlyPayment, loan.annualDebtService, p.exit.loanPayoff⟩
  warnings_eq : warnings = capitalWarnings p.capital ++ returnWarnings p.metrics

theorem summary_of_project {deal : Deal} {options : CapitalOptions} {run : Noted ProForma}
    (h : project deal options = .ok run) :
    ∃ loan, Projects deal options loan run.result ∧ Summary loan run.result run.warnings := by
  obtain ⟨_, hvalid, h⟩ := bind_eq_ok.mp h
  obtain ⟨capital, hcapital, h⟩ := bind_eq_ok.mp h
  obtain ⟨loan, hloan, h⟩ := bind_eq_ok.mp h
  obtain ⟨years, hyears, h⟩ := bind_eq_ok.mp h
  obtain ⟨exit, hexit, h⟩ := bind_eq_ok.mp h
  obtain ⟨⟨levered, unlevered⟩, hflows, h⟩ := bind_eq_ok.mp h
  obtain ⟨metrics, hmetrics, h⟩ := bind_eq_ok.mp h
  cases pure_eq_ok.mp h
  rw [liftM_eq_ok] at hyears hexit hflows hmetrics
  exact ⟨loan, ⟨hvalid, hcapital, hloan, hyears, hexit, hflows, rfl, rfl, hmetrics⟩, rfl, rfl⟩

theorem projects_of_project {deal : Deal} {options : CapitalOptions} {run : Noted ProForma}
    (h : project deal options = .ok run) : ∃ loan, Projects deal options loan run.result := by
  obtain ⟨loan, hprojects, -⟩ := summary_of_project h
  exact ⟨loan, hprojects⟩

theorem summary_of_analyse {assumptions : Assumptions} {options : CapitalOptions}
    {a : Analysis ProFormaBasis ProForma} (h : analyse assumptions options = .ok a) :
    ∃ loan, Projects assumptions.deal options loan a.result ∧ Summary loan a.result a.warnings := by
  obtain ⟨run, hrun, h⟩ := bind_eq_ok.mp h
  cases pure_eq_ok.mp h
  exact summary_of_project hrun

theorem projects_of_analyse {assumptions : Assumptions} {options : CapitalOptions}
    {a : Analysis ProFormaBasis ProForma} (h : analyse assumptions options = .ok a) :
    ∃ loan, Projects assumptions.deal options loan a.result := by
  obtain ⟨loan, hprojects, -⟩ := summary_of_analyse h
  exact ⟨loan, hprojects⟩

theorem rowsFrom_length {deal : Deal} {growth : Growth} {service : Decimal} {left year : Nat}
    {rentFactor expenseFactor paid : Decimal}
    (h : rowsFrom deal growth service equity left year rentFactor expenseFactor paid = .ok years) :
    years.length = left := by
  induction left generalizing year rentFactor expenseFactor paid years with
  | zero =>
    cases pure_eq_ok.mp h
    rfl
  | succ left ih =>
    rw [rowsFrom_succ] at h
    obtain ⟨rentFactor, -, h⟩ := bind_eq_ok.mp h
    obtain ⟨expenseFactor, -, h⟩ := bind_eq_ok.mp h
    obtain ⟨row, -, h⟩ := bind_eq_ok.mp h
    obtain ⟨rest, hrest, h⟩ := bind_eq_ok.mp h
    cases pure_eq_ok.mp h
    rw [List.length_cons, ih hrest]

/-- One row for each year of the hold. -/
theorem Projects.years_length {deal : Deal} {options : CapitalOptions} {loan : LoanTerms}
    {p : ProForma} (h : Projects deal options loan p) :
    p.years.length = deal.acquisition.holdYears.toNat := by
  obtain ⟨growth, -, hrows⟩ := bind_eq_ok.mp h.years_eq
  exact rowsFrom_length hrows

theorem holdYears_pos {deal : Deal} (h : deal.validate = .ok ()) :
    0 < deal.acquisition.holdYears.toNat := by
  unfold Deal.validate at h
  obtain ⟨hyears, -⟩ := unless_reject_eq_ok.mp h
  have hne : deal.acquisition.holdYears.toNat ≠ 0 := by
    intro hzero
    apply hyears
    rw [UInt32.lt_iff_toNat_lt, hzero]
    decide
  omega

theorem exitCapRate_pos {deal : Deal} (h : deal.validate = .ok ()) : 0 < deal.exit.exitCapRatePct.value := by
  unfold Deal.validate at h
  obtain ⟨-, h⟩ := unless_reject_eq_ok.mp h
  obtain ⟨hcap, -⟩ := unless_reject_eq_ok.mp h
  rwa [Decimal.le_iff_value_le, Decimal.value_zero, Rat.not_le] at hcap

end ProForma

end PropertyFinance
