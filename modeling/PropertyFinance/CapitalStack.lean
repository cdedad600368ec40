import PropertyFinance.Deal

/-! Sources and uses of funds. Without explicit sources the debt is a share of all uses and the
sponsor's equity is the rest. -/

namespace PropertyFinance
set_option autoImplicit false

structure CapitalStack where
  sources : List (String × Decimal)
  uses : List (String × Decimal)
  totalSources : Decimal
  totalUses : Decimal
  debtSources : Decimal
  equitySources : Decimal
  /-- Sources less uses. -/
  usesDelta : Decimal
  isExplicit : Bool
deriving DecidableEq

namespace CapitalStack

def isBalanced (stack : CapitalStack) : Bool := stack.usesDelta.isZero

/-- A line of the statement, left out if there is nothing to pay. -/
def line (name : String) (amount : Decimal) : List (String × Decimal) :=
  if amount.isZero then [] else [(name, amount)]

def usesOf (acquisition : AcquisitionTerms) (budget : Option DevelopmentBudget) :
    Arith (List (String × Decimal)) := do
  let closingCosts ← acquisition.purchasePrice.mul (← percentToRate acquisition.closingCostsPct)
  let development ← match budget with
    | none => pure []
    | some budget => do pure (line "Development Budget" (← budget.total))
  pure (("Purchase Price", acquisition.purchasePrice)
    :: line "Closing Costs" closingCosts ++ development)

/-- Debt and equity of explicit sources, added in the order of the list. -/
def tally : List CapitalSource → Decimal → Decimal → Outcome (Decimal × Decimal)
  | [], debt, equity => pure (debt, equity)
  | source :: rest, debt, equity => do
    if source.amount < Decimal.zero then
      rejectField ("capital_sources:" ++ source.kind.label)
        "Capital source amount cannot be negative"
    if source.kind.isEquity then tally rest debt (← equity.add source.amount)
    else tally rest (← debt.add source.amount) equity

def total (lines : List (String × Decimal)) : Arith Decimal := Decimal.sum (lines.map Prod.snd)

def ofDeal (deal : Deal) (options : CapitalOptions) : Outcome CapitalStack := do
  if deal.acquisition.purchasePrice < Decimal.zero then
    rejectField "acquisition.purchase_price" "Purchase price cannot be negative"
  let uses ← usesOf deal.acquisition options.budget
  let totalUses ← total uses
  let (sources, debt, equity) ← match options.sources with
    | some sources => do
      let (debt, equity) ← tally sources .zero .zero
      pure (sources.map fun source => (source.name, source.amount), debt, equity)
    | none => do
      let debt ← totalUses.mul (← percentToRate deal.financing.ltvPct)
      let equity ← totalUses.sub debt
      pure ([(SourceKind.debt.label, debt), ("Sponsor Equity", equity)], debt, equity)
  let totalSources ← total sources
  let usesDelta ← totalSources.sub totalUses
  pure {
    sources, uses, totalSources, totalUses
    debtSources := debt
    equitySources := equity
    usesDelta
    isExplicit := options.sources.isSome }

end CapitalStack

end PropertyFinance
