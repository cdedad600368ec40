import PropertyFinance.Failure

/-! The terms on which a deal's cash is divided between the limited partners, who put in most of
the equity, and the general partner. -/

namespace PropertyFinance
set_option autoImplicit false

/-- A rate of return above which the general partner takes a share of what is left. -/
structure PromoteTier where
  hurdleIrrPct : Decimal
  gpSplitPct : Decimal
deriving DecidableEq

structure WaterfallTerms where
  totalEquity : Decimal
  /-- The general partner's share of the equity. -/
  gpCoinvestPct : Decimal
  /-- Simple yearly interest on the limited partners' unreturned capital. -/
  preferredReturnPct : Decimal
  /-- The general partner's target share of profit; zero for no catch-up. -/
  catchUpPct : Decimal
  /-- In any order. -/
  promoteTiers : List PromoteTier
deriving DecidableEq

def isPercentage (percent : Decimal) : Bool :=
  decide (Decimal.zero ≤ percent) && decide (percent ≤ Decimal.hundred)

namespace WaterfallTerms

def validateTiers : List PromoteTier → Nat → Outcome Unit
  | [], _ => pure ()
  | tier :: rest, i => do
    let name := "promote_tiers[" ++ toString i ++ "]"
    if tier.hurdleIrrPct < Decimal.zero then
      rejectField (name ++ ".hurdle_irr_pct") "Hurdle cannot be negative"
    if !isPercentage tier.gpSplitPct then
      rejectField (name ++ ".gp_split_pct") "GP split must be between 0 and 100"
    validateTiers rest (i + 1)

def validate (terms : WaterfallTerms) : Outcome Unit := do
  if terms.totalEquity < Decimal.zero then
    rejectField "total_equity" "Total equity cannot be negative"
  if !isPercentage terms.gpCoinvestPct then
    rejectField "gp_coinvest_pct" "GP co-invest must be between 0 and 100"
  if terms.preferredReturnPct < Decimal.zero then
    rejectField "preferred_return_pct" "Preferred return cannot be negative"
  if !isPercentage terms.catchUpPct then
    rejectField "catch_up_pct" "Catch-up must be between 0 and 100"
  validateTiers terms.promoteTiers 0

/-- By rising hurdle, equal hurdles in the order given. -/
def orderedTiers (terms : WaterfallTerms) : List PromoteTier :=
  terms.promoteTiers.mergeSort fun a b => decide (a.hurdleIrrPct ≤ b.hurdleIrrPct)

end WaterfallTerms

end PropertyFinance
