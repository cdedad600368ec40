import PropertyFinance.Analysis
import PropertyFinance.Loan

/-! The largest loan under a lender's limits on loan to value, debt coverage and debt yield. -/

namespace PropertyFinance
set_option autoImplicit false

inductive LoanType
  | permanent
  | construction
  | bridge
deriving DecidableEq

structure LenderConstraints where
  maxLtv : Decimal
  minDscr : Decimal
  minDebtYield : Decimal
deriving DecidableEq

def LoanType.constraints : LoanType → LenderConstraints
  | .permanent => ⟨.ofScaled 75 2, .ofScaled 125 2, .ofScaled 8 2⟩
  | .construction => ⟨.ofScaled 65 2, .ofScaled 120 2, .ofScaled 10 2⟩
  | .bridge => ⟨.ofScaled 70 2, .ofScaled 115 2, .ofScaled 9 2⟩

inductive SizingTest
  | maxLtv
  | minDscr
  | minDebtYield
deriving DecidableEq

structure SizingRequest where
  noi : Decimal
  propertyValue : Decimal
  loanType : LoanType
  interestRatePct : Decimal
  amortizationYears : UInt32
deriving DecidableEq

structure SizedDebt where
  loanType : LoanType
  constraints : LenderConstraints
  maxByLtv : Decimal
  maxByDscr : Decimal
  maxByDebtYield : Decimal
  bindingTest : SizingTest
  recommendedLoanAmount : Decimal
  recommendedLtv : Decimal
  annualDebtService : Decimal
  /-- Absent without debt service. -/
  recommendedDscr : Option Decimal
deriving DecidableEq

structure SizingBasis where
  interestRatePct : Decimal
  amortizationYears : UInt32
deriving DecidableEq

namespace SizingRequest

def defaultInterestRatePct : Decimal := .ofScaled 6 0
def defaultAmortizationYears : UInt32 := 25

def validate (request : SizingRequest) : Outcome Unit := do
  if request.propertyValue ≤ Decimal.zero then
    rejectField "property_value" "Property value must be positive"
  if request.noi < Decimal.zero then rejectField "noi" "NOI cannot be negative"
  if request.interestRatePct < Decimal.zero then
    rejectField "interest_rate_pct" "Interest rate cannot be negative"
  if request.amortizationYears = 0 then
    rejectField "amortization_years" "Amortisation period must be at least 1 year"

end SizingRequest

/-- The least limit and the first test that sets it. -/
def tightest (byLtv byDscr byDebtYield : Decimal) : SizingTest × Decimal :=
  let first := if byDscr < byLtv then (SizingTest.minDscr, byDscr) else (.maxLtv, byLtv)
  if byDebtYield < first.2 then (.minDebtYield, byDebtYield) else first

def sizeDebt (request : SizingRequest) : Outcome (Analysis SizingBasis SizedDebt) := do
  request.validate
  let constraints := request.loanType.constraints
  let monthlyRate ← Loan.monthlyRate request.interestRatePct
  let months := Loan.monthsOf request.amortizationYears
  let maxByLtv ← request.propertyValue.mul constraints.maxLtv
  let maxPayment ← (← request.noi.div constraints.minDscr).div .twelve
  let maxByDscr ← Loan.principalForPayment maxPayment monthlyRate months
  let maxByDebtYield ← request.noi.div constraints.minDebtYield
  let (bindingTest, recommended) := tightest maxByLtv maxByDscr maxByDebtYield
  let annualDebtService ← (← Loan.monthlyPayment recommended monthlyRate months).mul .twelve
  let recommendedDscr ←
    if annualDebtService.isZero then (pure none : Outcome (Option Decimal))
    else do pure (some (← request.noi.div annualDebtService))
  let recommendedLtv ← recommended.div request.propertyValue
  pure {
    result := {
      loanType := request.loanType
      constraints, maxByLtv, maxByDscr, maxByDebtYield, bindingTest
      recommendedLoanAmount := recommended
      recommendedLtv, annualDebtService, recommendedDscr }
    methodology := "Debt Sizing (LTV / DSCR / debt yield)"
    basis := ⟨request.interestRatePct, request.amortizationYears⟩
    warnings := warnIf recommended.isZero "NOI supports no debt under the selected loan type" }

end PropertyFinance
