import PropertyFinance.Failure

/-! What is assumed about an acquisition, and what may replace or enlarge its capital. Percentages
are whole numbers, so 5 stands for 5%. -/

namespace PropertyFinance
set_option autoImplicit false

structure AcquisitionTerms where
  purchasePrice : Decimal
  closingCostsPct : Decimal
  holdYears : UInt32
deriving DecidableEq

structure FinancingTerms where
  ltvPct : Decimal
  interestRatePct : Decimal
  /-- Zero years stand for interest only. -/
  amortizationYears : UInt32
deriving DecidableEq

structure IncomeTerms where
  /-- Rent per square foot and year. -/
  rentPerSf : Decimal
  rentGrowthPct : Decimal
  vacancyPct : Decimal
  collectionLossPct : Decimal
  /-- Grows with the rent. -/
  otherIncome : Decimal
deriving DecidableEq

structure ExpenseTerms where
  operatingExpensesPerSf : Decimal
  expenseGrowthPct : Decimal
  /-- A share of the effective gross income. -/
  managementFeePct : Decimal
deriving DecidableEq

structure ExitTerms where
  exitCapRatePct : Decimal
  sellingCostsPct : Decimal
deriving DecidableEq

structure Deal where
  acquisition : AcquisitionTerms
  financing : FinancingTerms
  income : IncomeTerms
  expenses : ExpenseTerms
  exit : ExitTerms
  buildableSf : Decimal
deriving DecidableEq

def AcquisitionTerms.defaults : AcquisitionTerms where
  purchasePrice := .zero
  closingCostsPct := .two
  holdYears := 5

def FinancingTerms.defaults : FinancingTerms where
  ltvPct := .ofScaled 65 0
  interestRatePct := .ofScaled 65 1
  amortizationYears := 30

def IncomeTerms.defaults : IncomeTerms where
  rentPerSf := .zero
  rentGrowthPct := .ofScaled 3 0
  vacancyPct := .ofScaled 5 0
  collectionLossPct := .zero
  otherIncome := .zero

def ExpenseTerms.defaults : ExpenseTerms := ⟨.zero, .zero, .zero⟩

def ExitTerms.defaults : ExitTerms where
  exitCapRatePct := .ofScaled 6 0
  sellingCostsPct := .two

def Deal.defaults : Deal where
  acquisition := .defaults
  financing := .defaults
  income := .defaults
  expenses := .defaults
  exit := .defaults
  buildableSf := .zero

inductive SourceKind
  | debt
  | lpEquity
  | gpEquity
deriving DecidableEq

namespace SourceKind

def isEquity : SourceKind → Bool
  | .debt => false
  | .lpEquity | .gpEquity => true

def label : SourceKind → String
  | .debt => "Senior Debt"
  | .lpEquity => "LP Equity"
  | .gpEquity => "GP Equity"

end SourceKind

/-- One line of an explicit capital stack. -/
structure CapitalSource where
  kind : SourceKind
  amount : Decimal
  label : Option String
deriving DecidableEq

def CapitalSource.name (source : CapitalSource) : String := source.label.getD source.kind.label

structure DevelopmentBudget where
  hardCosts : Decimal
  softCosts : Decimal
  contingencyPct : Decimal
deriving DecidableEq

namespace DevelopmentBudget

def defaults : DevelopmentBudget := ⟨.zero, .zero, .zero⟩

def contingency (budget : DevelopmentBudget) : Arith Decimal := do
  (← (← budget.hardCosts.add budget.softCosts).mul budget.contingencyPct).div .hundred

def total (budget : DevelopmentBudget) : Arith Decimal := do
  (← budget.hardCosts.add budget.softCosts).add (← budget.contingency)

end DevelopmentBudget

/-- An explicit capital stack, and costs beyond the acquisition. -/
structure CapitalOptions where
  sources : Option (List CapitalSource)
  budget : Option DevelopmentBudget
deriving DecidableEq

def CapitalOptions.none : CapitalOptions := ⟨Option.none, Option.none⟩

end PropertyFinance
