import PropertyFinance.Proofs.Agreement
import PropertyFinance.Proofs.ProForma.Projection
import PropertyFinance.Stress

/-! The property's side of a pro forma: what the deal costs, what it earns before debt and what it is
sold for. The financing enters the same rows and records, but no figure of that side. -/

namespace PropertyFinance
set_option autoImplicit false

/-- What is assumed of the property and its sale. -/
structure PropertyTerms where
  acquisition : AcquisitionTerms
  income : IncomeTerms
  expenses : ExpenseTerms
  exit : ExitTerms
  buildableSf : Decimal

def Deal.property (deal : Deal) : PropertyTerms :=
  ⟨deal.acquisition, deal.income, deal.expenses, deal.exit, deal.buildableSf⟩

/-- The figures of a year before debt. -/
structure OperatingYear where
  year : Nat
  grossPotentialRent : Decimal
  effectiveGrossIncome : Decimal
  operatingExpenses : Decimal
  noi : Decimal
deriving DecidableEq

def AnnualCashFlow.operating (row : AnnualCashFlow) : OperatingYear where
  year := row.year
  grossPotentialRent := row.grossPotentialRent
  effectiveGrossIncome := row.effectiveGrossIncome
  operatingExpenses := row.operatingExpenses
  noi := row.noi

/-- The figures of the sale before the loan is repaid. -/
structure Sale where
  exitNoi : Decimal
  grossExitValue : Decimal
  sellingCosts : Decimal
  unleveredNetProceeds : Decimal
deriving DecidableEq

def ExitAnalysis.sale (exit : ExitAnalysis) : Sale where
  exitNoi := exit.exitNoi
  grossExitValue := exit.grossExitValue
  sellingCosts := exit.sellingCosts
  unleveredNetProceeds := exit.unleveredNetProceeds

structure PropertySide where
  uses : List (String × Decimal)
  totalUses : Decimal
  years : List OperatingYear
  sale : Sale
  unleveredCashFlows : List Decimal
  unleveredIrr : Option Decimal
deriving DecidableEq

def ProForma.propertySide (p : ProForma) : PropertySide where
  uses := p.capital.uses
  totalUses := p.capital.totalUses
  years := p.years.map AnnualCashFlow.operating
  sale := p.exit.sale
  unleveredCashFlows := p.unleveredCashFlows
  unleveredIrr := p.metrics.unleveredIrr

namespace ProForma

variable {deal other : Deal} {options choice : CapitalOptions} {xs ys : List AnnualCashFlow}
  {loan loan' : LoanTerms} {growth : Growth} {left year : Nat}
  {incomeLoss rentFactor expenseFactor exitNoi : Decimal}
  {service service' equity equity' paid paid' : Decimal}

theorem ofDeal_agree (h : deal.property = other.property) (hbudget : options.budget = choice.budget) :
    Agree (CapitalStack.ofDeal deal options) (CapitalStack.ofDeal other choice) fun c d =>
      c.uses = d.uses ∧ c.totalUses = d.totalUses := by
  intro c d hc hd
  have hc := CapitalStack.builds_of_ofDeal hc
  have hd := CapitalStack.builds_of_ofDeal hd
  have hacquisition : deal.acquisition = other.acquisition := congrArg PropertyTerms.acquisition h
  have huses : c.uses = d.uses := by
    apply agree_self _ _ _ hc.uses_eq
    rw [hacquisition, hbudget]
    exact hd.uses_eq
  refine ⟨huses, agree_self _ _ _ hc.totalUses_eq ?_⟩
  rw [huses]
  exact hd.totalUses_eq

/-- Debt service, equity and what was paid before enter a row behind its operating figures. -/
theorem yearRow_agree (h : deal.property = other.property) :
    Agree (yearRow deal incomeLoss service equity year rentFactor expenseFactor paid)
      (yearRow other incomeLoss service' equity' year rentFactor expenseFactor paid')
      fun x y => x.operating = y.operating := by
  obtain ⟨acquisition, financing, income, expenses, exit, buildableSf⟩ := deal
  cases h
  unfold yearRow
  dsimp only
  -- twelve steps up to the NOI, then four on what is left after debt
  iterate 12 refine agree_bind_self fun _ => ?_
  iterate 4 refine agree_bind_any fun _ _ => ?_
  exact agree_pure rfl

theorem rowsFrom_agree (h : deal.property = other.property) :
    Agree (rowsFrom deal growth service equity left year rentFactor expenseFactor paid)
      (rowsFrom other growth service' equity' left year rentFactor expenseFactor paid')
      fun xs ys => xs.map AnnualCashFlow.operating = ys.map AnnualCashFlow.operating := by
  induction left generalizing year rentFactor expenseFactor paid paid' with
  | zero => exact agree_pure rfl
  | succ left ih =>
    rw [rowsFrom_succ, rowsFrom_succ]
    refine agree_bind_self fun rentFactor => ?_
    refine agree_bind_self fun expenseFactor => ?_
    refine (yearRow_agree h).bind fun x y hrow => ?_
    refine ih.bind fun xs ys hrows => ?_
    apply agree_pure
    rw [List.map_cons, List.map_cons, hrow, hrows]

theorem projectYears_agree (h : deal.property = other.property) :
    Agree (projectYears deal loan equity) (projectYears other loan' equity')
      fun xs ys => xs.map AnnualCashFlow.operating = ys.map AnnualCashFlow.operating := by
  obtain ⟨acquisition, financing, income, expenses, exit, buildableSf⟩ := deal
  cases h
  have hsame : Deal.property ⟨other.acquisition, financing, other.income, other.expenses, other.exit,
      other.buildableSf⟩ = other.property := rfl
  exact agree_bind_self fun _ => rowsFrom_agree hsame

theorem projectExit_agree (h : deal.property = other.property) :
    Agree (projectExit deal loan exitNoi) (projectExit other loan' exitNoi)
      fun x y => x.sale = y.sale := by
  obtain ⟨acquisition, financing, income, expenses, exit, buildableSf⟩ := deal
  cases h
  unfold projectExit
  dsimp only
  iterate 4 refine agree_bind_self fun _ => ?_
  refine agree_bind_any fun _ _ => ?_
  refine agree_bind_self fun _ => ?_
  refine agree_bind_any fun _ _ => ?_
  exact agree_pure rfl

theorem noi_operating (xs : List AnnualCashFlow) :
    (xs.map AnnualCashFlow.operating).map OperatingYear.noi = xs.map AnnualCashFlow.noi := by
  rw [List.map_map]
  rfl

theorem returnFlows_agree {exit exit' : ExitAnalysis} (hsale : exit.sale = exit'.sale)
    (h : xs.map AnnualCashFlow.operating = ys.map AnnualCashFlow.operating) :
    Agree (returnFlows exit xs) (returnFlows exit' ys) fun x y => x.2 = y.2 := by
  have hproceeds : exit.unleveredNetProceeds = exit'.unleveredNetProceeds :=
    congrArg Sale.unleveredNetProceeds hsale
  induction xs generalizing ys with
  | nil =>
    obtain rfl := List.map_eq_nil_iff.mp h.symm
    exact agree_pure rfl
  | cons x xs ih =>
    obtain ⟨y, ys, rfl, hrow, hrows⟩ := List.map_eq_cons_iff.mp h.symm
    have hnoi : y.noi = x.noi := congrArg OperatingYear.noi hrow
    -- the last year adds the proceeds, the others their NOI alone
    cases xs with
    | nil =>
      obtain rfl := List.map_eq_nil_iff.mp hrows
      refine agree_bind_any fun _ _ => ?_
      rw [hnoi, hproceeds]
      exact agree_bind_self fun _ => agree_pure rfl
    | cons x' xs =>
      obtain ⟨y', ys, rfl, -, -⟩ := List.map_eq_cons_iff.mp hrows
      refine (ih hrows.symm).bind ?_
      rintro ⟨levered, unlevered⟩ ⟨levered', unlevered'⟩ hflows
      exact agree_pure (congrArg₂ List.cons hnoi.symm hflows)

theorem project_agree (h : deal.property = other.property) (hbudget : options.budget = choice.budget) :
    Agree (project deal options) (project other choice)
      fun m n => m.result.propertySide = n.result.propertySide := by
  unfold project
  dsimp only
  refine agree_bind_any fun _ _ => ?_
  refine (ofDeal_agree h hbudget).bind fun capital capital' hcapital => ?_
  refine agree_bind_any fun loan loan' => ?_
  refine (projectYears_agree h).lift.bind fun years years' hyears => ?_
  have hnoi : years.getLast?.map AnnualCashFlow.noi = years'.getLast?.map AnnualCashFlow.noi := by
    rw [← List.getLast?_map, ← List.getLast?_map, ← noi_operating, hyears, noi_operating]
  rw [hnoi]
  refine (projectExit_agree h).lift.bind fun exit exit' hsale => ?_
  refine (returnFlows_agree hsale hyears).lift.bind fun flows flows' hflows => ?_
  have hseries : capital.totalUses.negate :: flows.2 = capital'.totalUses.negate :: flows'.2 := by
    rw [hcapital.2, hflows]
  have hmetrics : Agree (metricsOf years (capital.equitySources.negate :: flows.1)
      (capital.totalUses.negate :: flows.2) capital.equitySources loan.loanAmount)
      (metricsOf years' (capital'.equitySources.negate :: flows'.1)
      (capital'.totalUses.negate :: flows'.2) capital'.equitySources loan'.loanAmount)
      fun m n => m.unleveredIrr = n.unleveredIrr := by
    intro m n hm hn
    apply agree_self _ _ _ (measures_of_metricsOf hm).unleveredIrr_eq
    rw [hseries]
    exact (measures_of_metricsOf hn).unleveredIrr_eq
  refine hmetrics.lift.bind fun metrics metrics' hirr => ?_
  apply agree_pure
  simp only [propertySide, hcapital.1, hcapital.2, hyears, hsale, hflows, hirr]

/-- Two deals that differ in their financing, their capital sources and their attached scenarios at
most have the same property side. -/
theorem propertySide_eq_of_property {a b : Assumptions} {x y : Analysis ProFormaBasis ProForma}
    (hproperty : a.deal.property = b.deal.property) (hbudget : options.budget = choice.budget)
    (hx : analyse a options = .ok x) (hy : analyse b choice = .ok y) :
    x.result.propertySide = y.result.propertySide := by
  obtain ⟨m, hm, hx⟩ := bind_eq_ok.mp hx
  obtain ⟨n, hn, hy⟩ := bind_eq_ok.mp hy
  cases pure_eq_ok.mp hx
  cases pure_eq_ok.mp hy
  exact project_agree hproperty hbudget m n hm hn

/-- An office bought for a million, to be renovated, and held for three years. -/
def office : Deal where
  acquisition := ⟨.ofScaled 1000000 0, .two, 3⟩
  financing := ⟨.ofScaled 65 0, .ofScaled 6 0, 25⟩
  income := ⟨.ofScaled 25 0, .ofScaled 3 0, .ofScaled 5 0, .one, .ofScaled 1000 0⟩
  expenses := ⟨.ofScaled 6 0, .two, .ofScaled 3 0⟩
  exit := ⟨.ofScaled 65 1, .two⟩
  buildableSf := .ofScaled 5000 0

def renovation : DevelopmentBudget := ⟨.ofScaled 50000 0, .ofScaled 10000 0, .ofScaled 10 0⟩

/-- The same office paid for by its partners alone, with scenarios attached. -/
def unleveredOffice : Assumptions :=
  ⟨{ office with financing := ⟨.zero, .ofScaled 9 0, 0⟩ }, some ⟨[Stress.scenario "base" "Base" .hundred (.ofDeal office)]⟩⟩

def partners : List CapitalSource :=
  [⟨.lpEquity, .ofScaled 900000 0, none⟩, ⟨.gpEquity, .ofScaled 100000 0, some "Sponsor"⟩]

theorem propertySide_eq_of_property_office :
    ∃ x y, analyse (.ofDeal office) ⟨none, some renovation⟩ = .ok x ∧
      analyse unleveredOffice ⟨some partners, some renovation⟩ = .ok y ∧
      x.result.propertySide = y.result.propertySide := by
  have hx : (analyse (.ofDeal office) ⟨none, some renovation⟩).isOk = true := by
    decide +kernel
  have hy : (analyse unleveredOffice ⟨some partners, some renovation⟩).isOk = true := by
    decide +kernel
  obtain ⟨x, hx⟩ := exists_of_isOk hx
  obtain ⟨y, hy⟩ := exists_of_isOk hy
  exact ⟨x, y, hx, hy, propertySide_eq_of_property (by rfl) (by rfl) hx hy⟩

end ProForma

end PropertyFinance
