import PropertyFinance.Analysis
import PropertyFinance.ProForma
import PropertyFinance.Waterfall.Allocation

/-! The waterfall over all years, and over the cash of a pro forma. -/

namespace PropertyFinance
set_option autoImplicit false

structure AnnualDistribution where
  year : Nat
  totalCashFlow : Decimal
  lpDistribution : Decimal
  gpDistribution : Decimal
  lpCumulative : Decimal
  gpCumulative : Decimal
  /-- The limited partners' rate through this year. -/
  lpIrr : Option Decimal
  /-- The label of the deepest tier that paid in the year. -/
  activeTier : String
  allocations : List Allocation
deriving DecidableEq

structure WaterfallResults where
  lpEquity : Decimal
  gpEquity : Decimal
  years : List AnnualDistribution
  lpTotalDistributions : Decimal
  gpTotalDistributions : Decimal
  lpIrr : Option Decimal
  gpIrr : Option Decimal
  lpMultiple : Decimal
  gpMultiple : Decimal
  /-- Shares of the total profit; both zero without profit. -/
  lpProfitShare : Decimal
  gpProfitShare : Decimal
deriving DecidableEq

structure WaterfallBasis where
  terms : WaterfallTerms
  holdYears : Nat
deriving DecidableEq

namespace Waterfall

/-- The equity of both partners and the limited partners' share, which is all without equity. -/
structure Stakes where
  lpEquity : Decimal
  gpEquity : Decimal
  lpShare : Decimal
deriving DecidableEq

def stakes (terms : WaterfallTerms) : Arith Stakes := do
  let gpEquity ← terms.totalEquity.mul (← percentToRate terms.gpCoinvestPct)
  let lpEquity ← terms.totalEquity.sub gpEquity
  let lpShare ← if terms.totalEquity.isZero then pure .one else lpEquity.div terms.totalEquity
  pure ⟨lpEquity, gpEquity, lpShare⟩

/-- What is carried from one year to the next. -/
structure State where
  balances : Balances
  lpCumulative : Decimal
  gpCumulative : Decimal
  lpFlows : List Decimal
  gpFlows : List Decimal
deriving DecidableEq

def State.start (s : Stakes) : State where
  balances := ⟨s.lpEquity, s.gpEquity, .zero, .zero, .zero⟩
  lpCumulative := .zero
  gpCumulative := .zero
  lpFlows := [s.lpEquity.negate]
  gpFlows := [s.gpEquity.negate]

/-- The payments of one year, the tier it has come to and the balances after it. -/
def divideYear (terms : WaterfallTerms) (tiers : List PromoteTier) (lpShare : Decimal)
    (state : State) (cash : Decimal) : Arith (List Allocation × String × Balances) := do
  if cash ≤ Decimal.zero then
    pure ([← callCapital lpShare cash], Tier.capitalCall.label, state.balances)
  else
    let d ← allocateYear terms tiers lpShare state.lpFlows state.balances cash
    pure (d.allocations, d.activeTier, d.balances)

def stepYear (terms : WaterfallTerms) (tiers : List PromoteTier) (lpShare : Decimal) (year : Nat)
    (state : State) (cash : Decimal) : Arith (AnnualDistribution × State) := do
  let (allocations, activeTier, balances) ← divideYear terms tiers lpShare state cash
  let lpDistribution ← Decimal.sum (allocations.map Allocation.toLp)
  let gpDistribution ← cash.sub lpDistribution
  let lpCumulative ← state.lpCumulative.add lpDistribution
  let gpCumulative ← state.gpCumulative.add gpDistribution
  let lpFlows := state.lpFlows ++ [lpDistribution]
  let gpFlows := state.gpFlows ++ [gpDistribution]
  let lpIrr ← Yield.rate? lpFlows
  pure ({ year, totalCashFlow := cash, lpDistribution, gpDistribution, lpCumulative, gpCumulative
          lpIrr, activeTier, allocations },
    { balances, lpCumulative, gpCumulative, lpFlows, gpFlows })

def runFrom (terms : WaterfallTerms) (tiers : List PromoteTier) (lpShare : Decimal) :
    List Decimal → Nat → State → Arith (List AnnualDistribution × State)
  | [], _, state => pure ([], state)
  | cash :: rest, year, state => do
    let (distribution, state) ← stepYear terms tiers lpShare year state cash
    let (distributions, state) ← runFrom terms tiers lpShare rest (year + 1) state
    pure (distribution :: distributions, state)

def ratioOrZero (a b : Decimal) : Arith Decimal := if b.isZero then pure .zero else a.div b

/-- The limited and the general partners' shares of the profit. -/
def profitShares (lpProfit gpProfit : Decimal) : Arith (Decimal × Decimal) := do
  let total ← lpProfit.add gpProfit
  if Decimal.zero < total then
    let lp ← lpProfit.div total
    let gp ← gpProfit.div total
    pure (lp, gp)
  else pure (.zero, .zero)

/-- Divides a series of yearly cash flows, the first year first. -/
def distribute (terms : WaterfallTerms) (cashFlows : List Decimal) : Outcome WaterfallResults := do
  terms.validate
  let s ← stakes terms
  let (years, final) ← runFrom terms terms.orderedTiers s.lpShare cashFlows 1 (.start s)
  let lpMultiple ← ratioOrZero final.lpCumulative s.lpEquity
  let gpMultiple ← ratioOrZero final.gpCumulative s.gpEquity
  let lpProfit ← final.lpCumulative.sub s.lpEquity
  let gpProfit ← final.gpCumulative.sub s.gpEquity
  let (lpProfitShare, gpProfitShare) ← profitShares lpProfit gpProfit
  let lpIrr ← Yield.rate? final.lpFlows
  let gpIrr ← Yield.rate? final.gpFlows
  pure {
    lpEquity := s.lpEquity
    gpEquity := s.gpEquity
    years
    lpTotalDistributions := final.lpCumulative
    gpTotalDistributions := final.gpCumulative
    lpIrr, gpIrr, lpMultiple, gpMultiple, lpProfitShare, gpProfitShare }

/-- The last flow is increased by the proceeds of the sale. -/
def addProceeds (netProceeds : Decimal) : List Decimal → Arith (List Decimal)
  | [] => pure []
  | [last] => do pure [← last.add netProceeds]
  | flow :: rest => do pure (flow :: (← addProceeds netProceeds rest))

/-- Divides levered cash flows with the sale in the last year. The equity that the pro forma asks
for is compared with the terms, unless it is zero. -/
def analyse (terms : WaterfallTerms) (leveredFlows : List Decimal)
    (netProceeds equityRequired : Decimal) :
    Outcome (Analysis WaterfallBasis WaterfallResults) := do
  if leveredFlows.isEmpty then
    reject (.insufficientData "Pro forma has no annual cash flows to distribute")
  let cashFlows ← addProceeds netProceeds leveredFlows
  let differs := !equityRequired.isZero && decide ¬ terms.totalEquity.Same equityRequired
  let results ← distribute terms cashFlows
  pure {
    result := results
    methodology := "LP/GP Equity Waterfall (ROC, pref, catch-up, IRR promote)"
    basis := ⟨terms, cashFlows.length⟩
    warnings :=
      warnIf differs ("Waterfall equity " ++ terms.totalEquity.toText
          ++ " differs from pro forma equity requirement " ++ equityRequired.toText)
        ++ warnIf results.lpIrr.isNone
          "LP IRR not computable: LP cash flows have no sign change" }

def ofProForma (terms : WaterfallTerms) (proForma : ProForma) :
    Outcome (Analysis WaterfallBasis WaterfallResults) :=
  analyse terms (proForma.years.map AnnualCashFlow.leveredCashFlow) proForma.exit.netProceeds
    proForma.financing.equityRequired

end Waterfall

end PropertyFinance
