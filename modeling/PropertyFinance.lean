import PropertyFinance.CashFlow.PresentValue
import PropertyFinance.Main
import PropertyFinance.Proofs.CashFlow.Convergence
import PropertyFinance.Proofs.Waterfall.Breakdown
import PropertyFinance.Proofs.Waterfall.Conservation
import PropertyFinance.Proofs.Waterfall.Priority
import PropertyFinance.Proofs.CashFlow.Bisection
import PropertyFinance.Proofs.CashFlow.Faults
import PropertyFinance.Proofs.CashFlow.Completeness
import PropertyFinance.Proofs.Decimal.Outcomes
import PropertyFinance.Proofs.Lending.Annuity
import PropertyFinance.Proofs.Lending.DebtSizing
import PropertyFinance.Proofs.Lending.Amortization
import PropertyFinance.Proofs.Lending.Payoff
import PropertyFinance.Proofs.Decimal.Places
import PropertyFinance.Proofs.Waterfall.ExactShares
import PropertyFinance.Proofs.Waterfall.Overpayment
import PropertyFinance.Proofs.Waterfall.Charges
import PropertyFinance.Proofs.Waterfall.PayingYears
import PropertyFinance.Proofs.CashFlow.Discounting
import PropertyFinance.Proofs.Agreement
import PropertyFinance.Proofs.ProForma.PropertySide
import PropertyFinance.Proofs.ProForma.ReportedYield
import PropertyFinance.Proofs.Sensitivity.Pointwise
import PropertyFinance.Proofs.Sensitivity.Transposition
import PropertyFinance.Proofs.ProForma.Divisors
import PropertyFinance.Proofs.Stress.Severity
import PropertyFinance.Proofs.Waterfall.DistributableCash
import PropertyFinance.Proofs.Document.DecimalText
import PropertyFinance.Proofs.Document.Alike
import PropertyFinance.Proofs.Document.Reading
import PropertyFinance.Proofs.Document.Deletion
import PropertyFinance.Proofs.Document.Deals
import PropertyFinance.Proofs.Document.Levels
import PropertyFinance.Proofs.Document.Scenarios
import PropertyFinance.Proofs.Document.RoundTrip
import PropertyFinance.Proofs.Document.JsonText
import PropertyFinance.Proofs.Document.Nesting
import PropertyFinance.Proofs.CommandLine.Adapters
import PropertyFinance.Proofs.Lending.Inversion
import PropertyFinance.Proofs.Lending.SizingOrder
import PropertyFinance.Proofs.Waterfall.Promote
import PropertyFinance.Proofs.Waterfall.CatchUp
import PropertyFinance.Proofs.ProForma.SpelledOut
import PropertyFinance.Proofs.ProForma.AllEquity
import PropertyFinance.Proofs.Waterfall.PariPassu
import PropertyFinance.Proofs.CashFlow.FallingValue
import PropertyFinance.Proofs.CashFlow.LinearError
import PropertyFinance.Proofs.CashFlow.ScaledValue
import PropertyFinance.Proofs.CashFlow.Slope
import PropertyFinance.Proofs.Decimal.Writing
import PropertyFinance.Proofs.Stress.StoredBundle
import PropertyFinance.Proofs.Decimal.ExactSum
import PropertyFinance.Proofs.Document.ZeroSigns
import PropertyFinance.Proofs.ProForma.SourceOrder
import PropertyFinance.Proofs.Stress.WeightedSum
import PropertyFinance.Proofs.Stress.Expectation
import PropertyFinance.Proofs.Lending.Acceptance
