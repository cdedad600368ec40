import PropertyFinance.Deal

/-! A deal with stress scenarios. Scenarios are assumptions again, so they may carry scenarios of
their own. -/

namespace PropertyFinance
set_option autoImplicit false

structure StressScenario (A : Type) where
  id : String
  name : String
  probabilityPct : Decimal
  assumptions : A

/-- The probabilities need not add up to 100. -/
structure StressBundle (A : Type) where
  scenarios : List (StressScenario A)

/-- A deal, with the scenarios attached to it if there are any. -/
structure Assumptions where
  deal : Deal
  bundle : Option (StressBundle Assumptions)

def Assumptions.ofDeal (deal : Deal) : Assumptions := ⟨deal, none⟩

def Assumptions.defaults : Assumptions := .ofDeal .defaults

end PropertyFinance
