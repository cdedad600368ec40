import PropertyFinance.Document.Inputs
import PropertyFinance.Proofs.Document.Deletion

/-! The terms of a deal read from their documents. Decimals come back plain, and what has been deleted
has its default. -/

namespace PropertyFinance
set_option autoImplicit false
open Json

namespace AcquisitionTerms

def plain (terms : AcquisitionTerms) : AcquisitionTerms where
  purchasePrice := terms.purchasePrice.plain
  closingCostsPct := terms.closingCostsPct.plain
  holdYears := terms.holdYears

/-- With the defaults of the fields that are dropped. -/
def reset (drop : String → Bool) (terms : AcquisitionTerms) : AcquisitionTerms where
  purchasePrice := if drop "purchase_price" then defaults.purchasePrice else terms.purchasePrice
  closingCostsPct :=
    if drop "closing_costs_pct" then defaults.closingCostsPct else terms.closingCostsPct
  holdYears := if drop "hold_years" then defaults.holdYears else terms.holdYears

theorem proper_toJson (terms : AcquisitionTerms) : terms.toJson.Proper := by
  simp [toJson, Decimal.toJson]

theorem means_prune (terms : AcquisitionTerms) (drop : Deletion) :
    Means ofJson? (terms.toJson.prune drop) (terms.plain.reset (drop [])) := by
  refine Means.record terms.proper_toJson.prune fun fields h => ?_
  simp [h.decimal_pruned "purchase_price" terms.purchasePrice,
    h.decimal_pruned "closing_costs_pct" terms.closingCostsPct,
    h.count_pruned "hold_years" terms.holdYears, reset, plain]

end AcquisitionTerms

namespace FinancingTerms

def plain (terms : FinancingTerms) : FinancingTerms where
  ltvPct := terms.ltvPct.plain
  interestRatePct := terms.interestRatePct.plain
  amortizationYears := terms.amortizationYears

def reset (drop : String → Bool) (terms : FinancingTerms) : FinancingTerms where
  ltvPct := if drop "ltv_pct" then defaults.ltvPct else terms.ltvPct
  interestRatePct :=
    if drop "interest_rate_pct" then defaults.interestRatePct else terms.interestRatePct
  amortizationYears :=
    if drop "amortization_years" then defaults.amortizationYears else terms.amortizationYears

theorem proper_toJson (terms : FinancingTerms) : terms.toJson.Proper := by
  simp [toJson, Decimal.toJson]

theorem means_prune (terms : FinancingTerms) (drop : Deletion) :
    Means ofJson? (terms.toJson.prune drop) (terms.plain.reset (drop [])) := by
  refine Means.record terms.proper_toJson.prune fun fields h => ?_
  simp [h.decimal_pruned "ltv_pct" terms.ltvPct,
    h.decimal_pruned "interest_rate_pct" terms.interestRatePct,
    h.count_pruned "amortization_years" terms.amortizationYears, reset, plain]

end FinancingTerms

namespace IncomeTerms

def plain (terms : IncomeTerms) : IncomeTerms where
  rentPerSf := terms.rentPerSf.plain
  rentGrowthPct := terms.rentGrowthPct.plain
  vacancyPct := terms.vacancyPct.plain
  collectionLossPct := terms.collectionLossPct.plain
  otherIncome := terms.otherIncome.plain

def reset (drop : String → Bool) (terms : IncomeTerms) : IncomeTerms where
  rentPerSf := if drop "rent_per_sf" then defaults.rentPerSf else terms.rentPerSf
  rentGrowthPct := if drop "rent_growth_pct" then defaults.rentGrowthPct else terms.rentGrowthPct
  vacancyPct := if drop "vacancy_pct" then defaults.vacancyPct else terms.vacancyPct
  collectionLossPct :=
    if drop "collection_loss_pct" then defaults.collectionLossPct else terms.collectionLossPct
  otherIncome := if drop "other_income" then defaults.otherIncome else terms.otherIncome

theorem proper_toJson (terms : IncomeTerms) : terms.toJson.Proper := by
  simp [toJson, Decimal.toJson]

theorem means_prune (terms : IncomeTerms) (drop : Deletion) :
    Means ofJson? (terms.toJson.prune drop) (terms.plain.reset (drop [])) := by
  refine Means.record terms.proper_toJson.prune fun fields h => ?_
  simp [h.decimal_pruned "rent_per_sf" terms.rentPerSf,
    h.decimal_pruned "rent_growth_pct" terms.rentGrowthPct,
    h.decimal_pruned "vacancy_pct" terms.vacancyPct,
    h.decimal_pruned "collection_loss_pct" terms.collectionLossPct,
    h.decimal_pruned "other_income" terms.otherIncome, reset, plain]

end IncomeTerms

namespace ExpenseTerms

def plain (terms : ExpenseTerms) : ExpenseTerms where
  operatingExpensesPerSf := terms.operatingExpensesPerSf.plain
  expenseGrowthPct := terms.expenseGrowthPct.plain
  managementFeePct := terms.managementFeePct.plain

def reset (drop : String → Bool) (terms : ExpenseTerms) : ExpenseTerms where
  operatingExpensesPerSf :=
    if drop "operating_expenses_per_sf" then defaults.operatingExpensesPerSf
    else terms.operatingExpensesPerSf
  expenseGrowthPct :=
    if drop "expense_growth_pct" then defaults.expenseGrowthPct else terms.expenseGrowthPct
  managementFeePct :=
    if drop "management_fee_pct" then defaults.managementFeePct else terms.managementFeePct

theorem proper_toJson (terms : ExpenseTerms) : terms.toJson.Proper := by
  simp [toJson, Decimal.toJson]

theorem means_prune (terms : ExpenseTerms) (drop : Deletion) :
    Means ofJson? (terms.toJson.prune drop) (terms.plain.reset (drop [])) := by
  refine Means.record terms.proper_toJson.prune fun fields h => ?_
  simp [h.decimal_pruned "operating_expenses_per_sf" terms.operatingExpensesPerSf,
    h.decimal_pruned "expense_growth_pct" terms.expenseGrowthPct,
    h.decimal_pruned "management_fee_pct" terms.managementFeePct, reset, plain]

end ExpenseTerms

namespace ExitTerms

def plain (terms : ExitTerms) : ExitTerms where
  exitCapRatePct := terms.exitCapRatePct.plain
  sellingCostsPct := terms.sellingCostsPct.plain

def reset (drop : String → Bool) (terms : ExitTerms) : ExitTerms where
  exitCapRatePct := if drop "exit_cap_rate_pct" then defaults.exitCapRatePct else terms.exitCapRatePct
  sellingCostsPct := if drop "selling_costs_pct" then defaults.sellingCostsPct else terms.sellingCostsPct

theorem proper_toJson (terms : ExitTerms) : terms.toJson.Proper := by
  simp [toJson, Decimal.toJson]

theorem means_prune (terms : ExitTerms) (drop : Deletion) :
    Means ofJson? (terms.toJson.prune drop) (terms.plain.reset (drop [])) := by
  refine Means.record terms.proper_toJson.prune fun fields h => ?_
  simp [h.decimal_pruned "exit_cap_rate_pct" terms.exitCapRatePct,
    h.decimal_pruned "selling_costs_pct" terms.sellingCostsPct, reset, plain]

end ExitTerms

namespace Deal

def plain (deal : Deal) : Deal where
  acquisition := deal.acquisition.plain
  financing := deal.financing.plain
  income := deal.income.plain
  expenses := deal.expenses.plain
  exit := deal.exit.plain
  buildableSf := deal.buildableSf.plain

/-- With the defaults of the groups that are deleted, and of the fields that are deleted in others. -/
def reset (drop : Deletion) (deal : Deal) : Deal where
  acquisition :=
    if drop [] "acquisition" then .defaults else deal.acquisition.reset (drop [.entry "acquisition"])
  financing :=
    if drop [] "financing" then .defaults else deal.financing.reset (drop [.entry "financing"])
  income := if drop [] "income" then .defaults else deal.income.reset (drop [.entry "income"])
  expenses := if drop [] "expenses" then .defaults else deal.expenses.reset (drop [.entry "expenses"])
  exit := if drop [] "exit" then .defaults else deal.exit.reset (drop [.entry "exit"])
  buildableSf := if drop [] "buildable_sf" then .zero else deal.buildableSf

@[simp] theorem reset_nothing (deal : Deal) : deal.reset .nothing = deal := rfl

theorem ofFields?_pruned {fields : Fields} {drop : Deletion} {rest : List (String × Json)} (deal : Deal)
    (h : fields.Shows Assumptions.fieldNames (pruneEntries drop (deal.entries ++ rest))) :
    ofFields? fields = some (deal.plain.reset drop) := by
  simp [ofFields?,
    h.withDefault_pruned "acquisition" deal.acquisition.toJson (deal.acquisition.means_prune _),
    h.withDefault_pruned "financing" deal.financing.toJson (deal.financing.means_prune _),
    h.withDefault_pruned "income" deal.income.toJson (deal.income.means_prune _),
    h.withDefault_pruned "expenses" deal.expenses.toJson (deal.expenses.means_prune _),
    h.withDefault_pruned "exit" deal.exit.toJson (deal.exit.means_prune _),
    h.decimal_pruned "buildable_sf" deal.buildableSf, reset, plain]

end Deal

end PropertyFinance
