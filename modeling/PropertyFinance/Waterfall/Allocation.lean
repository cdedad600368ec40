import PropertyFinance.CashFlow.Yield
import PropertyFinance.Waterfall.Terms

/-! Division of one year's cash by tiers: capital is returned first, then the preferred return is
paid, then the general partner catches up, and what is left is split. Each tier fixes one side and
gives the rest of its cash to the other. -/

namespace PropertyFinance
set_option autoImplicit false

inductive Tier
  | capitalCall
  | returnOfCapital
  | preferredReturn
  | gpCatchUp
  | promote (hurdlePct : Decimal)
  | belowHurdle (hurdlePct : Decimal)
  | proRata
deriving DecidableEq

def Tier.label : Tier → String
  | .capitalCall => "Capital Call"
  | .returnOfCapital => "Return of Capital"
  | .preferredReturn => "Preferred Return"
  | .gpCatchUp => "GP Catch-up"
  | .promote hurdle => "Promote " ++ hurdle.normalize.toText ++ "%+"
  | .belowHurdle hurdle => "Below " ++ hurdle.normalize.toText ++ "% Hurdle"
  | .proRata => "Pro Rata Split"

/-- What one tier pays in one year. -/
structure Allocation where
  tier : Tier
  toLp : Decimal
  toGp : Decimal
deriving DecidableEq

/-- The balances carried from year to year. -/
structure Balances where
  lpUnreturned : Decimal
  gpUnreturned : Decimal
  lpAccruedPref : Decimal
  /-- Paid beyond the return of capital. -/
  lpProfit : Decimal
  gpProfit : Decimal
deriving DecidableEq

/-- A year under division. -/
structure Division where
  balances : Balances
  remaining : Decimal
  /-- Paid to the limited partners so far this year, before the split. -/
  lpPaid : Decimal
  allocations : List Allocation
  /-- The label of the tier that has paid last. -/
  activeTier : String
deriving DecidableEq

namespace Division

def begin (balances : Balances) (cash : Decimal) : Division := ⟨balances, cash, .zero, [], "None"⟩

def record (d : Division) (tier : Tier) (toLp toGp : Decimal) : List Allocation :=
  d.allocations ++ [⟨tier, toLp, toGp⟩]

/-- Interest for the year on the capital not yet returned at its start. -/
def accruePref (terms : WaterfallTerms) (d : Division) : Arith Division := do
  let interest ← d.balances.lpUnreturned.mul (← percentToRate terms.preferredReturnPct)
  let accrued ← d.balances.lpAccruedPref.add interest
  pure { d with balances := { d.balances with lpAccruedPref := accrued } }

/-- Both partners in proportion to their unreturned capital. -/
def returnCapital (d : Division) : Arith Division := do
  let b := d.balances
  let owed ← b.lpUnreturned.add b.gpUnreturned
  if Decimal.zero < d.remaining ∧ Decimal.zero < owed then
    let paid := d.remaining.min owed
    let toLp ←
      if paid.Same owed then pure b.lpUnreturned
      else do (← paid.mul b.lpUnreturned).div owed
    let toGp ← paid.sub toLp
    let lpUnreturned ← b.lpUnreturned.sub toLp
    let gpUnreturned ← b.gpUnreturned.sub toGp
    let remaining ← d.remaining.sub paid
    let lpPaid ← d.lpPaid.add toLp
    pure {
      balances := { b with lpUnreturned, gpUnreturned }
      remaining, lpPaid
      allocations := d.record .returnOfCapital toLp toGp
      activeTier := Tier.returnOfCapital.label }
  else pure d

def payPref (d : Division) : Arith Division := do
  let b := d.balances
  if Decimal.zero < d.remaining ∧ Decimal.zero < b.lpAccruedPref then
    let toLp := d.remaining.min b.lpAccruedPref
    let lpAccruedPref ← b.lpAccruedPref.sub toLp
    let lpProfit ← b.lpProfit.add toLp
    let remaining ← d.remaining.sub toLp
    let lpPaid ← d.lpPaid.add toLp
    pure {
      balances := { b with lpAccruedPref, lpProfit }
      remaining, lpPaid
      allocations := d.record .preferredReturn toLp .zero
      activeTier := Tier.preferredReturn.label }
  else pure d

/-- Up to the target share of all profit, the cash still to be divided counted as profit. -/
def catchUp (terms : WaterfallTerms) (d : Division) : Arith Division := do
  let b := d.balances
  if Decimal.zero < terms.catchUpPct ∧ Decimal.zero < d.remaining then
    let profit ← (← b.lpProfit.add b.gpProfit).add d.remaining
    let shortfall ← (← profit.mul (← percentToRate terms.catchUpPct)).sub b.gpProfit
    if Decimal.zero < shortfall then
      let toGp := d.remaining.min shortfall
      let gpProfit ← b.gpProfit.add toGp
      let remaining ← d.remaining.sub toGp
      pure { d with
        balances := { b with gpProfit }
        remaining
        allocations := d.record .gpCatchUp .zero toGp
        activeTier := Tier.gpCatchUp.label }
    else pure d
  else pure d

/-- The first of the tiers whose hurdle the rate reaches. -/
def firstReached (rate : Decimal) : List PromoteTier → Arith (Option PromoteTier)
  | [] => pure none
  | tier :: rest => do
    if (← percentToRate tier.hurdleIrrPct) ≤ rate then pure (some tier)
    else firstReached rate rest

/-- The tier that sets the split and the general partner's part of the cash. The hurdle test asks
what rate the limited partners would earn if all of it were theirs. -/
def residual (tiers : List PromoteTier) (lpShare : Decimal) (lpFlows : List Decimal)
    (d : Division) : Arith (Tier × Decimal) := do
  match tiers with
  | [] => pure (.proRata, ← d.remaining.sub (← d.remaining.mul lpShare))
  | lowest :: _ =>
    let trial ← d.lpPaid.add d.remaining
    let reached ← match ← Yield.rate? (lpFlows ++ [trial]) with
      | some rate => firstReached rate tiers.reverse
      | none => pure none
    match reached with
    | some tier =>
      pure (.promote tier.hurdleIrrPct, ← d.remaining.mul (← percentToRate tier.gpSplitPct))
    | none =>
      pure (.belowHurdle lowest.hurdleIrrPct,
        ← d.remaining.mul (← percentToRate lowest.gpSplitPct))

def splitRest (tiers : List PromoteTier) (lpShare : Decimal) (lpFlows : List Decimal)
    (d : Division) : Arith Division := do
  let b := d.balances
  if Decimal.zero < d.remaining then
    let (tier, toGp) ← residual tiers lpShare lpFlows d
    let toLp ← d.remaining.sub toGp
    let lpProfit ← b.lpProfit.add toLp
    let gpProfit ← b.gpProfit.add toGp
    pure { d with
      balances := { b with lpProfit, gpProfit }
      allocations := d.record tier toLp toGp
      activeTier := tier.label }
  else pure d

end Division

/-- A year with cash to divide; the tiers are in rising order and the flows are those of the
limited partners before this year. -/
def allocateYear (terms : WaterfallTerms) (tiers : List PromoteTier) (lpShare : Decimal)
    (lpFlows : List Decimal) (balances : Balances) (cash : Decimal) : Arith Division := do
  let d ← (Division.begin balances cash).accruePref terms
  let d ← d.returnCapital
  let d ← d.payPref
  let d ← d.catchUp terms
  d.splitRest tiers lpShare lpFlows

/-- A year without cash: what is called in is shared like the equity. -/
def callCapital (lpShare cash : Decimal) : Arith Allocation := do
  let toLp ← cash.mul lpShare
  pure ⟨.capitalCall, toLp, ← cash.sub toLp⟩

end PropertyFinance
