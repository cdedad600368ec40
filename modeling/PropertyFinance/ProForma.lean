import PropertyFinance.Analysis
import PropertyFinance.Assumptions
import PropertyFinance.CapitalStack
import PropertyFinance.CashFlow.Yield
import PropertyFinance.Loan

/-! The pro forma of an acquisition: one row per year of the hold, the sale at its end and the
returns on equity and on total cost. -/

namespace PropertyFinance
set_option autoImplicit false

structure AnnualCashFlow where
  year : Nat
  grossPotentialRent : Decimal
  effectiveGrossIncome : Decimal
  operatingExpenses : Decimal
  noi : Decimal
  debtService : Decimal
  /-- Net operating income less debt service, without the sale. -/
  leveredCashFlow : Decimal
  cumulativeCashFlow : Decimal
  cashOnCash : Decimal
  /-- Absent without debt service. -/
  dscr : Option Decimal
deriving DecidableEq

structure ExitAnalysis where
  exitYear : UInt32
  exitNoi : Decimal
  exitCapRatePct : Decimal
  grossExitValue : Decimal
  sellingCosts : Decimal
  loanPayoff : Decimal
  /-- Proceeds before the loan is repaid. -/
  unleveredNetProceeds : Decimal
  /-- Proceeds to equity. -/
  netProceeds : Decimal
deriving DecidableEq

structure FinancingSummary where
  loanAmount : Decimal
  equityRequired : Decimal
  interestRatePct : Decimal
  amortizationYears : UInt32
  monthlyPayment : Decimal
  annualDebtService : Decimal
  loanBalanceAtExit : Decimal
deriving DecidableEq

structure ReturnMetrics where
  leveredIrr : Option Decimal
  unleveredIrr : Option Decimal
  equityMultiple : Option Decimal
  cashOnCashYear1 : Option Decimal
  averageCashOnCash : Option Decimal
  dscrYear1 : Option Decimal
  debtYieldYear1 : Option Decimal
deriving DecidableEq

inductive Recommendation
  | proceed
  | conditional
  | pass
deriving DecidableEq

def Recommendation.description : Recommendation → String
  | .proceed => "Returns exceed targets with adequate debt coverage"
  | .conditional => "Returns meet minimum thresholds; consider risk factors"
  | .pass => "Returns below investment criteria"

structure ProForma where
  capital : CapitalStack
  financing : FinancingSummary
  years : List AnnualCashFlow
  exit : ExitAnalysis
  /-- Equity paid in, then the yearly flows to equity, the last with the sale. -/
  leveredCashFlows : List Decimal
  /-- The same before debt. -/
  unleveredCashFlows : List Decimal
  metrics : ReturnMetrics
  recommendation : Recommendation
deriving DecidableEq

/-- A pro forma rests on all that was assumed, attached scenarios included. -/
structure ProFormaBasis where
  assumptions : Assumptions
  options : CapitalOptions

namespace Deal

def validate (deal : Deal) : Outcome Unit := do
  if deal.acquisition.holdYears < 1 then
    rejectField "acquisition.hold_years" "Hold period must be at least 1 year"
  if deal.exit.exitCapRatePct ≤ Decimal.zero then
    rejectField "exit.exit_cap_rate_pct" "Exit cap rate must be positive"
  if deal.buildableSf < Decimal.zero then
    rejectField "buildable_sf" "Buildable square footage cannot be negative"

end Deal

namespace ProForma

/-- What stays the same in every year. -/
structure Growth where
  rent : Decimal
  expense : Decimal
  incomeLoss : Decimal

def Growth.ofDeal (deal : Deal) : Arith Growth := do
  let rent ← Decimal.one.add (← percentToRate deal.income.rentGrowthPct)
  let expense ← Decimal.one.add (← percentToRate deal.expenses.expenseGrowthPct)
  let incomeLoss ←
    (← percentToRate deal.income.vacancyPct).add (← percentToRate deal.income.collectionLossPct)
  pure ⟨rent, expense, incomeLoss⟩

/-- Nothing where the divisor is zero. -/
def ratio? (a b : Decimal) : Arith (Option Decimal) :=
  if b.isZero then pure none else do pure (some (← a.div b))

/-- The row of one year, given the factors by which rents and expenses have grown and what the
earlier years have paid. -/
def yearRow (deal : Deal) (incomeLoss debtService equity : Decimal) (year : Nat)
    (rentFactor expenseFactor paidBefore : Decimal) : Arith AnnualCashFlow := do
  let income := deal.income
  let expenses := deal.expenses
  let grossPotentialRent ← (← income.rentPerSf.mul deal.buildableSf).mul rentFactor
  let effectiveGrossIncome ←
    (← grossPotentialRent.mul (← Decimal.one.sub incomeLoss)).add
      (← income.otherIncome.mul rentFactor)
  let operatingExpenses ←
    (← (← expenses.operatingExpensesPerSf.mul deal.buildableSf).mul expenseFactor).add
      (← effectiveGrossIncome.mul (← percentToRate expenses.managementFeePct))
  let noi ← effectiveGrossIncome.sub operatingExpenses
  let leveredCashFlow ← noi.sub debtService
  let cumulativeCashFlow ← paidBefore.add leveredCashFlow
  let cashOnCash := (← ratio? leveredCashFlow equity).getD .zero
  let dscr ← ratio? noi debtService
  pure {
    year, grossPotentialRent, effectiveGrossIncome, operatingExpenses, noi, debtService
    leveredCashFlow, cumulativeCashFlow, cashOnCash, dscr }

/-- The rows of so many more years; factors grow from the second year on. -/
def rowsFrom (deal : Deal) (growth : Growth) (debtService equity : Decimal) :
    Nat → Nat → Decimal → Decimal → Decimal → Arith (List AnnualCashFlow)
  | 0, _, _, _, _ => pure []
  | left + 1, year, rentFactor, expenseFactor, paidBefore => do
    let rentFactor ← if 1 < year then rentFactor.mul growth.rent else pure rentFactor
    let expenseFactor ← if 1 < year then expenseFactor.mul growth.expense else pure expenseFactor
    let row ← yearRow deal growth.incomeLoss debtService equity year rentFactor expenseFactor
      paidBefore
    let rest ← rowsFrom deal growth debtService equity left (year + 1) rentFactor expenseFactor
      row.cumulativeCashFlow
    pure (row :: rest)

def projectYears (deal : Deal) (loan : LoanTerms) (equity : Decimal) :
    Arith (List AnnualCashFlow) := do
  let growth ← Growth.ofDeal deal
  rowsFrom deal growth loan.annualDebtService equity deal.acquisition.holdYears.toNat 1 .one .one
    .zero

def projectExit (deal : Deal) (loan : LoanTerms) (exitNoi : Decimal) : Arith ExitAnalysis := do
  let grossExitValue ← exitNoi.div (← percentToRate deal.exit.exitCapRatePct)
  let sellingCosts ← grossExitValue.mul (← percentToRate deal.exit.sellingCostsPct)
  let loanPayoff ← loan.balanceAfter deal.acquisition.holdYears
  let unleveredNetProceeds ← grossExitValue.sub sellingCosts
  let netProceeds ← unleveredNetProceeds.sub loanPayoff
  pure {
    exitYear := deal.acquisition.holdYears
    exitNoi
    exitCapRatePct := deal.exit.exitCapRatePct
    grossExitValue, sellingCosts, loanPayoff, unleveredNetProceeds, netProceeds }

/-- The yearly flows to equity and before debt, the sale added to the last year. -/
def returnFlows (exit : ExitAnalysis) :
    List AnnualCashFlow → Arith (List Decimal × List Decimal)
  | [] => pure ([], [])
  | [row] => do
    let levered ← row.leveredCashFlow.add exit.netProceeds
    let unlevered ← row.noi.add exit.unleveredNetProceeds
    pure ([levered], [unlevered])
  | row :: rest => do
    let (levered, unlevered) ← returnFlows exit rest
    pure (row.leveredCashFlow :: levered, row.noi :: unlevered)

def metricsOf (years : List AnnualCashFlow) (levered unlevered : List Decimal)
    (equity loanAmount : Decimal) : Arith ReturnMetrics := do
  let equityMultiple ←
    if Decimal.zero < equity then do
      let distributions ←
        Decimal.sum ((levered.drop 1).filter fun flow => decide (Decimal.zero < flow))
      pure (some (← distributions.div equity))
    else pure none
  let averageCashOnCash ←
    if years.isEmpty then pure none
    else do
      let total ← Decimal.sum (years.map AnnualCashFlow.cashOnCash)
      pure (some (← total.div (.ofNat years.length)))
  let debtYieldYear1 ← match years.head? with
    | some first => ratio? first.noi loanAmount
    | none => pure none
  let leveredIrr ← Yield.rate? levered
  let unleveredIrr ← Yield.rate? unlevered
  pure {
    leveredIrr, unleveredIrr, equityMultiple
    cashOnCashYear1 := years.head?.map AnnualCashFlow.cashOnCash
    averageCashOnCash
    dscrYear1 := years.head?.bind AnnualCashFlow.dscr
    debtYieldYear1 }

/-- The levered rate, the equity multiple and the coverage that a grade asks for. -/
structure Threshold where
  irr : Decimal
  multiple : Decimal
  dscr : Decimal

def proceedThreshold : Threshold := ⟨.ofScaled 20 2, .ofScaled 20 1, .ofScaled 125 2⟩

def conditionalThreshold : Threshold := ⟨.ofScaled 15 2, .ofScaled 18 1, .ofScaled 120 2⟩

/-- A deal without debt service has no coverage to fail. -/
def Threshold.isMet (t : Threshold) (irr multiple : Decimal) (dscr : Option Decimal) : Bool :=
  decide (t.irr ≤ irr) && decide (t.multiple ≤ multiple) && dscr.all fun d => decide (t.dscr ≤ d)

def recommend (metrics : ReturnMetrics) : Recommendation :=
  match metrics.leveredIrr, metrics.equityMultiple with
  | some irr, some multiple =>
    if proceedThreshold.isMet irr multiple metrics.dscrYear1 then .proceed
    else if conditionalThreshold.isMet irr multiple metrics.dscrYear1 then .conditional
    else .pass
  | _, _ => .pass

def covenantDscr : Decimal := .ofScaled 12 1

def capitalWarnings (capital : CapitalStack) : List String :=
  warnIf (!capital.isBalanced)
      ("Capital stack unbalanced: sources minus uses = " ++ capital.usesDelta.toText)
    ++ warnIf (decide (capital.equitySources ≤ Decimal.zero))
      "Equity required is zero or negative; equity returns not computable"

def returnWarnings (metrics : ReturnMetrics) : List String :=
  warnIf metrics.leveredIrr.isNone
      "Levered IRR not computable: equity cash flows have no sign change"
    ++ match metrics.dscrYear1 with
      | some dscr =>
        warnIf (decide (dscr < covenantDscr))
          ("Year 1 DSCR of " ++ dscr.toFixed 2 ++ "x is below the 1.20x lender covenant")
      | none => []

/-- The projection with the warnings it gives rise to. -/
def project (deal : Deal) (options : CapitalOptions) : Outcome (Noted ProForma) := do
  deal.validate
  let capital ← CapitalStack.ofDeal deal options
  let loan ← LoanTerms.ofLoan capital.debtSources deal.financing.interestRatePct
    deal.financing.amortizationYears
  let equity := capital.equitySources
  let years ← projectYears deal loan equity
  let exitNoi := (years.getLast?.map AnnualCashFlow.noi).getD .zero
  let exit ← projectExit deal loan exitNoi
  let (levered, unlevered) ← returnFlows exit years
  let leveredCashFlows := equity.negate :: levered
  let unleveredCashFlows := capital.totalUses.negate :: unlevered
  let metrics ← metricsOf years leveredCashFlows unleveredCashFlows equity loan.loanAmount
  pure {
    result := {
      capital
      financing := {
        loanAmount := loan.loanAmount
        equityRequired := equity
        interestRatePct := loan.interestRatePct
        amortizationYears := loan.amortizationYears
        monthlyPayment := loan.monthlyPayment
        annualDebtService := loan.annualDebtService
        loanBalanceAtExit := exit.loanPayoff }
      years, exit, leveredCashFlows, unleveredCashFlows, metrics
      recommendation := recommend metrics }
    warnings := capitalWarnings capital ++ returnWarnings metrics }

/-- Attached scenarios do not bear on the projection. -/
def analyse (assumptions : Assumptions) (options : CapitalOptions) :
    Outcome (Analysis ProFormaBasis ProForma) := do
  let run ← project assumptions.deal options
  pure {
    result := run.result
    methodology := "Acquisition Pro Forma (annual projection, direct-cap exit)"
    basis := ⟨assumptions, options⟩
    warnings := run.warnings }

end ProForma

end PropertyFinance
