import PropertyFinance.Failure

/-! Level-payment mortgages: the payment for a principal, the principal for a payment, and the
balance left after some years. -/

namespace PropertyFinance
set_option autoImplicit false

structure LoanTerms where
  loanAmount : Decimal
  interestRatePct : Decimal
  /-- Zero years stand for a loan on which only interest is paid. -/
  amortizationYears : UInt32
  monthlyPayment : Decimal
  annualDebtService : Decimal
deriving DecidableEq

namespace Loan

/-- Years and months are counted in 32 bits; the product wraps around. -/
def monthsOf (years : UInt32) : Nat := (years * 12).toNat

def monthlyRate (interestRatePct : Decimal) : Arith Decimal := do
  (← percentToRate interestRatePct).div .twelve

/-- The start multiplied by `1 + rate` once per period. -/
def compoundFrom (rate : Decimal) : Nat → Decimal → Arith Decimal
  | 0, factor => pure factor
  | periods + 1, factor => do
    compoundFrom rate periods (← factor.mul (← Decimal.one.add rate))

def compoundFactor (rate : Decimal) (periods : Nat) : Arith Decimal :=
  compoundFrom rate periods .one

/-- The level payment: `p * r * (1 + r) ^ n / ((1 + r) ^ n - 1)`. -/
def monthlyPayment (principal rate : Decimal) (months : Nat) : Outcome Decimal := do
  if months = 0 then reject (.divisionByZero "monthly payment with zero months")
  else if rate.isZero then principal.div (.ofNat months)
  else
    let compound ← compoundFactor rate months
    let denominator ← compound.sub .one
    if denominator.isZero then reject (.divisionByZero "mortgage payment denominator")
    else (← (← principal.mul rate).mul compound).div denominator

/-- The principal that a level payment carries. -/
def principalForPayment (payment rate : Decimal) (months : Nat) : Outcome Decimal := do
  if months = 0 then reject (.divisionByZero "loan principal with zero months")
  else if rate.isZero then payment.mul (.ofNat months)
  else
    let compound ← compoundFactor rate months
    (← payment.mul (← compound.sub .one)).div (← rate.mul compound)

end Loan

namespace LoanTerms

def months (terms : LoanTerms) : Nat := Loan.monthsOf terms.amortizationYears

def ofLoan (loanAmount interestRatePct : Decimal) (amortizationYears : UInt32) :
    Outcome LoanTerms := do
  if loanAmount < Decimal.zero then rejectField "loan_amount" "Loan amount cannot be negative"
  if interestRatePct < Decimal.zero then
    rejectField "interest_rate_pct" "Interest rate cannot be negative"
  let rate ← Loan.monthlyRate interestRatePct
  let payment ←
    if amortizationYears = 0 then (loanAmount.mul rate : Outcome Decimal)
    else Loan.monthlyPayment loanAmount rate (Loan.monthsOf amortizationYears)
  pure {
    loanAmount, interestRatePct, amortizationYears
    monthlyPayment := payment
    annualDebtService := ← payment.mul .twelve }

/-- The balance after so many payments; it stops at zero. -/
def payDown (rate payment : Decimal) : Nat → Decimal → Arith Decimal
  | 0, balance => pure balance
  | payments + 1, balance => do
    let balance ← balance.sub (← payment.sub (← balance.mul rate))
    if balance ≤ Decimal.zero then pure .zero else payDown rate payment payments balance

def balanceAfter (terms : LoanTerms) (years : UInt32) : Arith Decimal := do
  if terms.amortizationYears = 0 || terms.loanAmount.isZero then pure terms.loanAmount
  else
    let rate ← Loan.monthlyRate terms.interestRatePct
    let payments := min (Loan.monthsOf years) terms.months
    if rate.isZero then
      let paid ← (← terms.loanAmount.mul (.ofNat payments)).div (.ofNat terms.months)
      terms.loanAmount.sub paid
    else payDown rate terms.monthlyPayment payments terms.loanAmount

end LoanTerms

end PropertyFinance
