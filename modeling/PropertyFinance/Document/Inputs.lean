import PropertyFinance.Document.Scalars
import PropertyFinance.Stress
import PropertyFinance.Waterfall.Terms

/-! What is assumed and asked for, as documents. Reading undoes writing, and fields that are left
out have their defaults. -/

namespace PropertyFinance
set_option autoImplicit false

namespace AcquisitionTerms

def toJson (terms : AcquisitionTerms) : Json :=
  .object [
    ("purchase_price", terms.purchasePrice.toJson),
    ("closing_costs_pct", terms.closingCostsPct.toJson),
    ("hold_years", .ofCount terms.holdYears)]

def ofJson? (json : Json) : Option AcquisitionTerms := do
  let fields ← Fields.ofJson? ["purchase_price", "closing_costs_pct", "hold_years"] json
  some {
    purchasePrice := ← fields.withDefault "purchase_price" Decimal.ofJson? defaults.purchasePrice
    closingCostsPct :=
      ← fields.withDefault "closing_costs_pct" Decimal.ofJson? defaults.closingCostsPct
    holdYears := ← fields.withDefault "hold_years" Json.readCount defaults.holdYears }

end AcquisitionTerms

namespace FinancingTerms

def toJson (terms : FinancingTerms) : Json :=
  .object [
    ("ltv_pct", terms.ltvPct.toJson),
    ("interest_rate_pct", terms.interestRatePct.toJson),
    ("amortization_years", .ofCount terms.amortizationYears)]

def ofJson? (json : Json) : Option FinancingTerms := do
  let fields ← Fields.ofJson? ["ltv_pct", "interest_rate_pct", "amortization_years"] json
  some {
    ltvPct := ← fields.withDefault "ltv_pct" Decimal.ofJson? defaults.ltvPct
    interestRatePct :=
      ← fields.withDefault "interest_rate_pct" Decimal.ofJson? defaults.interestRatePct
    amortizationYears :=
      ← fields.withDefault "amortization_years" Json.readCount defaults.amortizationYears }

end FinancingTerms

namespace IncomeTerms

def toJson (terms : IncomeTerms) : Json :=
  .object [
    ("rent_per_sf", terms.rentPerSf.toJson),
    ("rent_growth_pct", terms.rentGrowthPct.toJson),
    ("vacancy_pct", terms.vacancyPct.toJson),
    ("collection_loss_pct", terms.collectionLossPct.toJson),
    ("other_income", terms.otherIncome.toJson)]

def ofJson? (json : Json) : Option IncomeTerms := do
  let fields ← Fields.ofJson?
    ["rent_per_sf", "rent_growth_pct", "vacancy_pct", "collection_loss_pct", "other_income"] json
  some {
    rentPerSf := ← fields.withDefault "rent_per_sf" Decimal.ofJson? defaults.rentPerSf
    rentGrowthPct := ← fields.withDefault "rent_growth_pct" Decimal.ofJson? defaults.rentGrowthPct
    vacancyPct := ← fields.withDefault "vacancy_pct" Decimal.ofJson? defaults.vacancyPct
    collectionLossPct :=
      ← fields.withDefault "collection_loss_pct" Decimal.ofJson? defaults.collectionLossPct
    otherIncome := ← fields.withDefault "other_income" Decimal.ofJson? defaults.otherIncome }

end IncomeTerms

namespace ExpenseTerms

def toJson (terms : ExpenseTerms) : Json :=
  .object [
    ("operating_expenses_per_sf", terms.operatingExpensesPerSf.toJson),
    ("expense_growth_pct", terms.expenseGrowthPct.toJson),
    ("management_fee_pct", terms.managementFeePct.toJson)]

def ofJson? (json : Json) : Option ExpenseTerms := do
  let fields ← Fields.ofJson?
    ["operating_expenses_per_sf", "expense_growth_pct", "management_fee_pct"] json
  some {
    operatingExpensesPerSf :=
      ← fields.withDefault "operating_expenses_per_sf" Decimal.ofJson?
        defaults.operatingExpensesPerSf
    expenseGrowthPct :=
      ← fields.withDefault "expense_growth_pct" Decimal.ofJson? defaults.expenseGrowthPct
    managementFeePct :=
      ← fields.withDefault "management_fee_pct" Decimal.ofJson? defaults.managementFeePct }

end ExpenseTerms

namespace ExitTerms

def toJson (terms : ExitTerms) : Json :=
  .object [
    ("exit_cap_rate_pct", terms.exitCapRatePct.toJson),
    ("selling_costs_pct", terms.sellingCostsPct.toJson)]

def ofJson? (json : Json) : Option ExitTerms := do
  let fields ← Fields.ofJson? ["exit_cap_rate_pct", "selling_costs_pct"] json
  some {
    exitCapRatePct :=
      ← fields.withDefault "exit_cap_rate_pct" Decimal.ofJson? defaults.exitCapRatePct
    sellingCostsPct :=
      ← fields.withDefault "selling_costs_pct" Decimal.ofJson? defaults.sellingCostsPct }

end ExitTerms

namespace Deal

def entries (deal : Deal) : List (String × Json) :=
  [("acquisition", deal.acquisition.toJson),
    ("financing", deal.financing.toJson),
    ("income", deal.income.toJson),
    ("expenses", deal.expenses.toJson),
    ("exit", deal.exit.toJson),
    ("buildable_sf", deal.buildableSf.toJson)]

def ofFields? (fields : Fields) : Option Deal := do
  some {
    acquisition := ← fields.withDefault "acquisition" AcquisitionTerms.ofJson? .defaults
    financing := ← fields.withDefault "financing" FinancingTerms.ofJson? .defaults
    income := ← fields.withDefault "income" IncomeTerms.ofJson? .defaults
    expenses := ← fields.withDefault "expenses" ExpenseTerms.ofJson? .defaults
    exit := ← fields.withDefault "exit" ExitTerms.ofJson? .defaults
    buildableSf := ← fields.withDefault "buildable_sf" Decimal.ofJson? .zero }

end Deal

namespace StressScenario

def ofJson? {A : Type} (readAssumptions : Json → Option A) (json : Json) :
    Option (StressScenario A) := do
  let fields ← Fields.ofJson? ["id", "name", "probability_pct", "assumptions"] json
  some {
    id := ← fields.required "id" Json.readText
    name := ← fields.required "name" Json.readText
    probabilityPct := ← fields.required "probability_pct" Decimal.ofJson?
    assumptions := ← fields.required "assumptions" readAssumptions }

end StressScenario

namespace StressBundle

def ofJson? {A : Type} (readAssumptions : Json → Option A) (json : Json) :
    Option (StressBundle A) := do
  let fields ← Fields.ofJson? ["scenarios"] json
  let read := Json.readList (StressScenario.ofJson? readAssumptions)
  some ⟨← fields.required "scenarios" read⟩

end StressBundle

namespace Assumptions

def fieldNames : List String :=
  ["acquisition", "financing", "income", "expenses", "exit", "buildable_sf",
    "stress_scenario_bundle"]

mutual

def toJson : Assumptions → Json
  | ⟨deal, bundle⟩ => .object (deal.entries ++ bundleEntry bundle)

/-- Left out where no scenarios are attached. -/
def bundleEntry : Option (StressBundle Assumptions) → List (String × Json)
  | none => []
  | some bundle => [("stress_scenario_bundle", bundleToJson bundle)]

def bundleToJson : StressBundle Assumptions → Json
  | ⟨scenarios⟩ => .object [("scenarios", .array (scenarioItems scenarios))]

def scenarioItems : List (StressScenario Assumptions) → List Json
  | [] => []
  | s :: rest => scenarioToJson s :: scenarioItems rest

def scenarioToJson : StressScenario Assumptions → Json
  | ⟨id, name, probabilityPct, assumptions⟩ =>
    .object [
      ("id", .text id),
      ("name", .text name),
      ("probability_pct", probabilityPct.toJson),
      ("assumptions", toJson assumptions)]

end

/-- With scenarios attached to scenarios up to so many levels. -/
def ofJsonWithin : Nat → Json → Option Assumptions
  | 0, _ => none
  | levels + 1, json => do
    let fields ← Fields.ofJson? fieldNames json
    let deal ← Deal.ofFields? fields
    let readBundle := Json.readOptional (StressBundle.ofJson? (ofJsonWithin levels))
    some ⟨deal, ← fields.withDefault "stress_scenario_bundle" readBundle none⟩

/-- Attached scenarios lie deeper in the document, so its depth bounds their levels. -/
def ofJson? (json : Json) : Option Assumptions := ofJsonWithin (json.depth + 1) json

end Assumptions

namespace CapitalSource

def toJson (source : CapitalSource) : Json :=
  .object ([
    ("source_kind", .ofName SourceKind.names source.kind),
    ("amount", source.amount.toJson)] ++ Json.optionalEntry "label" Json.text source.label)

def ofJson? (json : Json) : Option CapitalSource := do
  let fields ← Fields.ofJson? ["source_kind", "amount", "label"] json
  some {
    kind := ← fields.required "source_kind" (Json.readName SourceKind.names)
    amount := ← fields.required "amount" Decimal.ofJson?
    label := ← fields.withDefault "label" (Json.readOptional Json.readText) none }

end CapitalSource

namespace DevelopmentBudget

def toJson (budget : DevelopmentBudget) : Json :=
  .object [
    ("hard_costs", budget.hardCosts.toJson),
    ("soft_costs", budget.softCosts.toJson),
    ("contingency_pct", budget.contingencyPct.toJson)]

def ofJson? (json : Json) : Option DevelopmentBudget := do
  let fields ← Fields.ofJson? ["hard_costs", "soft_costs", "contingency_pct"] json
  some {
    hardCosts := ← fields.withDefault "hard_costs" Decimal.ofJson? .zero
    softCosts := ← fields.withDefault "soft_costs" Decimal.ofJson? .zero
    contingencyPct := ← fields.withDefault "contingency_pct" Decimal.ofJson? .zero }

end DevelopmentBudget

namespace CapitalOptions

def toJson (options : CapitalOptions) : Json :=
  .object (Json.optionalEntry "capital_sources" (Json.ofList CapitalSource.toJson) options.sources
    ++ Json.optionalEntry "development_budget" DevelopmentBudget.toJson options.budget)

def readSources : Json → Option (Option (List CapitalSource)) :=
  Json.readOptional (Json.readList CapitalSource.ofJson?)

def readBudget : Json → Option (Option DevelopmentBudget) :=
  Json.readOptional DevelopmentBudget.ofJson?

def ofJson? (json : Json) : Option CapitalOptions := do
  let fields ← Fields.ofJson? ["capital_sources", "development_budget"] json
  some {
    sources := ← fields.withDefault "capital_sources" readSources Option.none
    budget := ← fields.withDefault "development_budget" readBudget Option.none }

end CapitalOptions

namespace PromoteTier

def toJson (tier : PromoteTier) : Json :=
  .object [
    ("hurdle_irr_pct", tier.hurdleIrrPct.toJson),
    ("gp_split_pct", tier.gpSplitPct.toJson)]

def ofJson? (json : Json) : Option PromoteTier := do
  let fields ← Fields.ofJson? ["hurdle_irr_pct", "gp_split_pct"] json
  some {
    hurdleIrrPct := ← fields.required "hurdle_irr_pct" Decimal.ofJson?
    gpSplitPct := ← fields.required "gp_split_pct" Decimal.ofJson? }

end PromoteTier

namespace WaterfallTerms

def toJson (terms : WaterfallTerms) : Json :=
  .object [
    ("total_equity", terms.totalEquity.toJson),
    ("gp_coinvest_pct", terms.gpCoinvestPct.toJson),
    ("preferred_return_pct", terms.preferredReturnPct.toJson),
    ("catch_up_pct", terms.catchUpPct.toJson),
    ("promote_tiers", .ofList PromoteTier.toJson terms.promoteTiers)]

def ofJson? (json : Json) : Option WaterfallTerms := do
  let fields ← Fields.ofJson?
    ["total_equity", "gp_coinvest_pct", "preferred_return_pct", "catch_up_pct", "promote_tiers"]
    json
  some {
    totalEquity := ← fields.required "total_equity" Decimal.ofJson?
    gpCoinvestPct := ← fields.required "gp_coinvest_pct" Decimal.ofJson?
    preferredReturnPct := ← fields.withDefault "preferred_return_pct" Decimal.ofJson? .zero
    catchUpPct := ← fields.withDefault "catch_up_pct" Decimal.ofJson? .zero
    promoteTiers :=
      ← fields.withDefault "promote_tiers" (Json.readList PromoteTier.ofJson?) [] }

end WaterfallTerms

namespace GridRequest

def toJson (request : GridRequest) : Json :=
  .object ([
    ("row_axis", .ofName Axis.names request.rowAxis),
    ("col_axis", .ofName Axis.names request.colAxis),
    ("metric", .ofName Metric.names request.metric)]
    ++ Json.optionalEntry "row_offsets" Json.ofDecimals request.rowOffsets
    ++ Json.optionalEntry "col_offsets" Json.ofDecimals request.colOffsets
    ++ [("options", request.options.toJson)])

def readOffsets : Json → Option (Option (List Decimal)) :=
  Json.readOptional (Json.readList Decimal.ofJson?)

def ofJson? (json : Json) : Option GridRequest := do
  let fields ← Fields.ofJson?
    ["row_axis", "col_axis", "metric", "row_offsets", "col_offsets", "options"] json
  some {
    rowAxis := ← fields.required "row_axis" (Json.readName Axis.names)
    colAxis := ← fields.required "col_axis" (Json.readName Axis.names)
    metric := ← fields.required "metric" (Json.readName Metric.names)
    rowOffsets := ← fields.withDefault "row_offsets" readOffsets none
    colOffsets := ← fields.withDefault "col_offsets" readOffsets none
    options := ← fields.withDefault "options" CapitalOptions.ofJson? .none }

end GridRequest

namespace SizingRequest

def toJson (request : SizingRequest) : Json :=
  .object [
    ("noi", request.noi.toJson),
    ("property_value", request.propertyValue.toJson),
    ("loan_type", .ofName LoanType.names request.loanType),
    ("interest_rate_pct", request.interestRatePct.toJson),
    ("amortization_years", .ofCount request.amortizationYears)]

def ofJson? (json : Json) : Option SizingRequest := do
  let fields ← Fields.ofJson?
    ["noi", "property_value", "loan_type", "interest_rate_pct", "amortization_years"] json
  some {
    noi := ← fields.required "noi" Decimal.ofJson?
    propertyValue := ← fields.required "property_value" Decimal.ofJson?
    loanType := ← fields.withDefault "loan_type" (Json.readName LoanType.names) .permanent
    interestRatePct :=
      ← fields.withDefault "interest_rate_pct" Decimal.ofJson? defaultInterestRatePct
    amortizationYears :=
      ← fields.withDefault "amortization_years" Json.readCount defaultAmortizationYears }

end SizingRequest

namespace YieldOptions

def toJson (options : YieldOptions) : Json :=
  .object [
    ("guess", options.guess.toJson),
    ("max_iterations", .ofCount options.maxIterations),
    ("tolerance", options.tolerance.toJson)]

def ofJson? (json : Json) : Option YieldOptions := do
  let fields ← Fields.ofJson? ["guess", "max_iterations", "tolerance"] json
  some {
    guess := ← fields.required "guess" Decimal.ofJson?
    maxIterations := ← fields.required "max_iterations" Json.readCount
    tolerance := ← fields.required "tolerance" Decimal.ofJson? }

end YieldOptions

namespace ScenarioEntry

def toJson (entry : ScenarioEntry) : Json :=
  .object [
    ("id", .text entry.id),
    ("name", .text entry.name),
    ("probability_pct", entry.probabilityPct.toJson),
    ("levered_irr", .ofRate entry.leveredIrr),
    ("equity_multiple", .ofRate entry.equityMultiple)]

def ofJson? (json : Json) : Option ScenarioEntry := do
  let fields ← Fields.ofJson?
    ["id", "name", "probability_pct", "levered_irr", "equity_multiple"] json
  some {
    id := ← fields.required "id" Json.readText
    name := ← fields.required "name" Json.readText
    probabilityPct := ← fields.required "probability_pct" Decimal.ofJson?
    leveredIrr := ← fields.optional "levered_irr" Decimal.ofJson?
    equityMultiple := ← fields.optional "equity_multiple" Decimal.ofJson? }

end ScenarioEntry

end PropertyFinance
