import PropertyFinance.Document.Inputs
import PropertyFinance.Waterfall.Distribution

/-! Results as documents, each analysis with its method, its basis and its warnings. -/

namespace PropertyFinance
set_option autoImplicit false

def version : String := "0.1.0"
def precision : String := "rust_decimal_128bit"

namespace Analysis

/-- The time in microseconds is given only where it has been taken. -/
def toJson {B R : Type} (writeBasis : B → Json) (writeResult : R → Json) (elapsed : Option Nat)
    (analysis : Analysis B R) : Json :=
  .object [
    ("result", writeResult analysis.result),
    ("methodology", .text analysis.methodology),
    ("assumptions", writeBasis analysis.basis),
    ("warnings", .ofList Json.text analysis.warnings),
    ("metadata", .object ([("version", .text version)]
      ++ Json.optionalEntry "computation_time_us" Json.nat elapsed
      ++ [("precision", .text precision)]))]

end Analysis

namespace Yield

def toJson (y : Yield) : Json :=
  .object [
    ("rate", y.rate.toJson),
    ("iterations", .nat y.iterations),
    ("converged", .bool y.converged),
    ("method", .ofName YieldMethod.names y.method)]

end Yield

namespace LoanTerms

def toJson (terms : LoanTerms) : Json :=
  .object [
    ("loan_amount", terms.loanAmount.toJson),
    ("interest_rate_pct", terms.interestRatePct.toJson),
    ("amortization_years", .ofCount terms.amortizationYears),
    ("monthly_payment", terms.monthlyPayment.toJson),
    ("annual_debt_service", terms.annualDebtService.toJson)]

end LoanTerms

namespace CapitalStack

def lineToJson (line : String × Decimal) : Json := .array [.text line.1, line.2.toJson]

def toJson (stack : CapitalStack) : Json :=
  .object [
    ("sources", .ofList lineToJson stack.sources),
    ("uses", .ofList lineToJson stack.uses),
    ("total_sources", stack.totalSources.toJson),
    ("total_uses", stack.totalUses.toJson),
    ("debt_sources", stack.debtSources.toJson),
    ("equity_sources", stack.equitySources.toJson),
    ("uses_delta", stack.usesDelta.toJson),
    ("explicit_capital_stack", .bool stack.isExplicit)]

end CapitalStack

namespace LenderConstraints

def toJson (c : LenderConstraints) : Json :=
  .object [
    ("max_ltv", c.maxLtv.toJson),
    ("min_dscr", c.minDscr.toJson),
    ("min_debt_yield", c.minDebtYield.toJson)]

end LenderConstraints

namespace SizedDebt

def toJson (debt : SizedDebt) : Json :=
  .object [
    ("loan_type", .ofName LoanType.names debt.loanType),
    ("constraints", debt.constraints.toJson),
    ("max_by_ltv", debt.maxByLtv.toJson),
    ("max_by_dscr", debt.maxByDscr.toJson),
    ("max_by_debt_yield", debt.maxByDebtYield.toJson),
    ("binding_constraint", .ofName SizingTest.names debt.bindingTest),
    ("recommended_loan_amount", debt.recommendedLoanAmount.toJson),
    ("recommended_ltv", debt.recommendedLtv.toJson),
    ("annual_debt_service", debt.annualDebtService.toJson),
    ("recommended_dscr", .ofRate debt.recommendedDscr)]

end SizedDebt

namespace SizingBasis

def toJson (basis : SizingBasis) : Json :=
  .object [
    ("interest_rate_pct", basis.interestRatePct.toJson),
    ("amortization_years", .ofCount basis.amortizationYears),
    ("payment", .text "level monthly")]

end SizingBasis

namespace AnnualCashFlow

def toJson (row : AnnualCashFlow) : Json :=
  .object [
    ("year", .nat row.year),
    ("gross_potential_rent", row.grossPotentialRent.toJson),
    ("effective_gross_income", row.effectiveGrossIncome.toJson),
    ("operating_expenses", row.operatingExpenses.toJson),
    ("noi", row.noi.toJson),
    ("debt_service", row.debtService.toJson),
    ("levered_cash_flow", row.leveredCashFlow.toJson),
    ("cumulative_cash_flow", row.cumulativeCashFlow.toJson),
    ("cash_on_cash", row.cashOnCash.toJson),
    ("dscr", .ofRate row.dscr)]

end AnnualCashFlow

namespace ExitAnalysis

def toJson (exit : ExitAnalysis) : Json :=
  .object [
    ("exit_year", .ofCount exit.exitYear),
    ("exit_noi", exit.exitNoi.toJson),
    ("exit_cap_rate_pct", exit.exitCapRatePct.toJson),
    ("gross_exit_value", exit.grossExitValue.toJson),
    ("selling_costs", exit.sellingCosts.toJson),
    ("loan_payoff", exit.loanPayoff.toJson),
    ("unlevered_net_proceeds", exit.unleveredNetProceeds.toJson),
    ("net_proceeds", exit.netProceeds.toJson)]

end ExitAnalysis

namespace FinancingSummary

def toJson (s : FinancingSummary) : Json :=
  .object [
    ("loan_amount", s.loanAmount.toJson),
    ("equity_required", s.equityRequired.toJson),
    ("interest_rate_pct", s.interestRatePct.toJson),
    ("amortization_years", .ofCount s.amortizationYears),
    ("monthly_payment", s.monthlyPayment.toJson),
    ("annual_debt_service", s.annualDebtService.toJson),
    ("loan_balance_at_exit", s.loanBalanceAtExit.toJson)]

end FinancingSummary

namespace ReturnMetrics

def toJson (m : ReturnMetrics) : Json :=
  .object [
    ("levered_irr", .ofRate m.leveredIrr),
    ("unlevered_irr", .ofRate m.unleveredIrr),
    ("equity_multiple", .ofRate m.equityMultiple),
    ("cash_on_cash_year1", .ofRate m.cashOnCashYear1),
    ("average_cash_on_cash", .ofRate m.averageCashOnCash),
    ("dscr_year1", .ofRate m.dscrYear1),
    ("debt_yield_year1", .ofRate m.debtYieldYear1)]

end ReturnMetrics

namespace ProForma

def toJson (p : ProForma) : Json :=
  .object [
    ("sources_and_uses", p.capital.toJson),
    ("financing", p.financing.toJson),
    ("annual_cash_flows", .ofList AnnualCashFlow.toJson p.years),
    ("exit_analysis", p.exit.toJson),
    ("levered_cash_flows", .ofDecimals p.leveredCashFlows),
    ("unlevered_cash_flows", .ofDecimals p.unleveredCashFlows),
    ("metrics", p.metrics.toJson),
    ("recommendation", .ofName Recommendation.names p.recommendation)]

end ProForma

namespace ProFormaBasis

def toJson (basis : ProFormaBasis) : Json :=
  .object [("assumptions", basis.assumptions.toJson), ("options", basis.options.toJson)]

end ProFormaBasis

namespace Allocation

def toJson (a : Allocation) : Json :=
  .object [("tier", .text a.tier.label), ("to_lp", a.toLp.toJson), ("to_gp", a.toGp.toJson)]

end Allocation

namespace AnnualDistribution

def toJson (d : AnnualDistribution) : Json :=
  .object [
    ("year", .nat d.year),
    ("total_cash_flow", d.totalCashFlow.toJson),
    ("lp_distribution", d.lpDistribution.toJson),
    ("gp_distribution", d.gpDistribution.toJson),
    ("lp_cumulative", d.lpCumulative.toJson),
    ("gp_cumulative", d.gpCumulative.toJson),
    ("lp_irr", .ofRate d.lpIrr),
    ("active_tier", .text d.activeTier),
    ("tiers", .ofList Allocation.toJson d.allocations)]

end AnnualDistribution

namespace WaterfallResults

def toJson (w : WaterfallResults) : Json :=
  .object [
    ("lp_equity", w.lpEquity.toJson),
    ("gp_equity", w.gpEquity.toJson),
    ("annual_distributions", .ofList AnnualDistribution.toJson w.years),
    ("lp_total_distributions", w.lpTotalDistributions.toJson),
    ("gp_total_distributions", w.gpTotalDistributions.toJson),
    ("lp_irr", .ofRate w.lpIrr),
    ("gp_irr", .ofRate w.gpIrr),
    ("lp_multiple", w.lpMultiple.toJson),
    ("gp_multiple", w.gpMultiple.toJson),
    ("lp_profit_share", w.lpProfitShare.toJson),
    ("gp_profit_share", w.gpProfitShare.toJson)]

end WaterfallResults

namespace WaterfallBasis

def toJson (basis : WaterfallBasis) : Json :=
  .object [
    ("total_equity", basis.terms.totalEquity.toJson),
    ("gp_coinvest_pct", basis.terms.gpCoinvestPct.toJson),
    ("preferred_return_pct", basis.terms.preferredReturnPct.toJson),
    ("catch_up_pct", basis.terms.catchUpPct.toJson),
    ("num_promote_tiers", .nat basis.terms.promoteTiers.length),
    ("hold_years", .nat basis.holdYears)]

end WaterfallBasis

namespace SensitivityGrid

def positionToJson (position : Nat × Nat) : Json := .array [.nat position.1, .nat position.2]

def toJson (g : SensitivityGrid) : Json :=
  .object ([
    ("row_axis", .ofName Axis.names g.rowAxis),
    ("col_axis", .ofName Axis.names g.colAxis),
    ("metric", .ofName Metric.names g.metric),
    ("row_offsets", .ofDecimals g.rowOffsets),
    ("col_offsets", .ofDecimals g.colOffsets),
    ("row_values", .ofDecimals g.rowValues),
    ("col_values", .ofDecimals g.colValues),
    ("row_labels", .ofList Json.text g.rowLabels),
    ("col_labels", .ofList Json.text g.colLabels),
    ("matrix", .ofList (Json.ofList Json.ofRate) g.matrix)]
    ++ Json.optionalEntry "base_case_position" positionToJson g.baseCasePosition
    ++ Json.optionalEntry "base_case_value" Decimal.toJson g.baseCaseValue
    ++ [("failed_cells", .nat g.failedCells)])

end SensitivityGrid

namespace GridBasis

def toJson (basis : GridBasis) : Json :=
  .object [
    ("row_axis", .text basis.rowAxis.name),
    ("row_offset_mode", .ofName OffsetMode.names basis.rowAxis.offsetMode),
    ("col_axis", .text basis.colAxis.name),
    ("col_offset_mode", .ofName OffsetMode.names basis.colAxis.offsetMode),
    ("metric", .text basis.metric.name)]

end GridBasis

namespace WeightedMetrics

def toJson (m : WeightedMetrics) : Json :=
  .object [
    ("levered_irr", .ofRate m.leveredIrr),
    ("equity_multiple", .ofRate m.equityMultiple),
    ("total_probability_pct", m.totalProbabilityPct.toJson)]

end WeightedMetrics

namespace StressResults

def toJson (r : StressResults) : Json :=
  .object [
    ("scenarios", .ofList ScenarioEntry.toJson r.scenarios),
    ("probability_weighted", r.weighted.toJson)]

end StressResults

namespace StressBasis

def toJson (basis : StressBasis) : Json :=
  .object [
    ("num_scenarios", .nat basis.scenarioCount),
    ("bundle", .text (if basis.isAttached then "attached" else "default")),
    ("weighting", .text "sum(probability_pct / 100 * value) over scenarios with a value")]

end StressBasis

end PropertyFinance
