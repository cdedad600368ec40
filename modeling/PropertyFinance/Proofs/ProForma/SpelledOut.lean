import PropertyFinance.Proofs.ProForma.Balance

/-! A capital stack that follows from the loan-to-value ratio, given as a list of sources. The pro forma
reads debt and equity off either form, so it comes out the same, with other names for the sources. Once
there are explicit sources, the ratio is not read at all. -/

namespace PropertyFinance
open Decimal
set_option autoImplicit false

namespace CapitalStack
variable {deal : Deal} {options : CapitalOptions} {debt equity : Decimal} {kind : SourceKind}
  {debtLabel equityLabel : Option String}

/-- The debt and the equity that the loan-to-value ratio of a deal leads to. -/
def derivedOf (deal : Deal) (budget : Option DevelopmentBudget) : Arith (Decimal × Decimal) := do
  derive deal.financing (← total (← usesOf deal.acquisition budget))

theorem Builds.derivedOf_eq {stack : CapitalStack} (h : Builds deal options stack)
    (hnone : options.sources = none) :
    derivedOf deal options.budget = .ok (stack.debtSources, stack.equitySources) := by
  rw [derivedOf, h.uses_eq, ok_bind, h.totalUses_eq, ok_bind]
  exact (h.derive_eq hnone).1

/-- Debt and equity as a list of two sources. -/
def spellOut (debt equity : Decimal) (kind : SourceKind) (debtLabel equityLabel : Option String) :
    List CapitalSource := [⟨.debt, debt, debtLabel⟩, ⟨kind, equity, equityLabel⟩]

/-- The stack under the names of explicit sources, line by line. The amounts are its own. -/
def renamed (sources : List CapitalSource) (stack : CapitalStack) : CapitalStack :=
  { stack with
    sources := stack.sources.mapIdx fun i line => ((sources.map (·.name)).getD i line.1, line.2)
    isExplicit := true }

theorem tally_spellOut (hdebt : Decimal.zero ≤ debt) (hequity : Decimal.zero ≤ equity)
    (hkind : kind.isEquity = true) :
    tally (spellOut debt equity kind debtLabel equityLabel) .zero .zero = .ok (debt, equity) := by
  have hdebt' : ¬ debt < Decimal.zero := Decimal.not_lt.mpr hdebt
  have hequity' : ¬ equity < Decimal.zero := Decimal.not_lt.mpr hequity
  have hdebtKind : ¬ SourceKind.debt.isEquity = true := by decide
  rw [spellOut, tally, if_neg hdebt', if_neg hdebtKind, add_of_isZero rfl]
  change tally [⟨kind, equity, equityLabel⟩] debt .zero = _
  rw [tally, if_neg hequity', if_pos hkind, add_of_isZero rfl]
  rfl

theorem sourcesOf_spellOut (financing : FinancingTerms) (totalUses : Decimal)
    (hdebt : Decimal.zero ≤ debt) (hequity : Decimal.zero ≤ equity) (hkind : kind.isEquity = true) :
    sourcesOf financing (some (spellOut debt equity kind debtLabel equityLabel)) totalUses =
      .ok ((spellOut debt equity kind debtLabel equityLabel).map fun source =>
        (source.name, source.amount), debt, equity) := by
  unfold sourcesOf
  dsimp only
  rw [tally_spellOut hdebt hequity hkind]
  rfl

/-- Only the amounts are added up, whatever the lines are called. -/
theorem ofDeal_spellOut (hnone : options.sources = none)
    (hderived : derivedOf deal options.budget = .ok (debt, equity))
    (hdebt : Decimal.zero ≤ debt) (hequity : Decimal.zero ≤ equity) (hkind : kind.isEquity = true) :
    ofDeal deal { options with sources := some (spellOut debt equity kind debtLabel equityLabel) } =
      renamed (spellOut debt equity kind debtLabel equityLabel) <$> ofDeal deal options := by
  obtain ⟨uses, huses, hderived⟩ := bind_eq_ok.mp hderived
  obtain ⟨totalUses, htotal, hderived⟩ := bind_eq_ok.mp hderived
  rw [ofDeal_eq, ofDeal_eq, hnone]
  dsimp only
  split
  case isTrue => rfl
  case isFalse =>
    rw [huses, lift_ok, ok_bind, ok_bind, htotal, lift_ok, ok_bind, ok_bind,
      sourcesOf_spellOut _ _ hdebt hequity hkind, sourcesOf_none, hderived]
    simp only [lift_ok, ok_bind, pure_bind, map_bind, map_pure]
    rfl

end CapitalStack

namespace ProForma
variable {deal other : Deal} {options : CapitalOptions} {debt equity : Decimal} {kind : SourceKind}
  {debtLabel equityLabel : Option String}

/-- The projection with the lines of its sources named after explicit sources. -/
def renamed (sources : List CapitalSource) (run : Noted ProForma) : Noted ProForma :=
  { run with result := { run.result with capital := run.result.capital.renamed sources } }

theorem project_spellOut (hnone : options.sources = none)
    (hderived : CapitalStack.derivedOf deal options.budget = .ok (debt, equity))
    (hdebt : Decimal.zero ≤ debt) (hequity : Decimal.zero ≤ equity) (hkind : kind.isEquity = true) :
    project deal { options with sources := some (CapitalStack.spellOut debt equity kind debtLabel equityLabel) } =
      renamed (CapitalStack.spellOut debt equity kind debtLabel equityLabel) <$> project deal options := by
  unfold project
  rw [CapitalStack.ofDeal_spellOut hnone hderived hdebt hequity hkind]
  simp only [map_bind, bind_map_left, map_pure]
  rfl

section Explicit
variable (h : deal.property = other.property)
include h

theorem yearRow_of_property : yearRow deal = yearRow other := by
  obtain ⟨acquisition, financing, income, expenses, exit, buildableSf⟩ := deal
  cases h
  rfl

theorem rowsFrom_of_property : rowsFrom deal = rowsFrom other := by
  funext growth service equity left
  induction left with
  | zero => rfl
  | succ left ih =>
    funext year rentFactor expenseFactor paid
    rw [rowsFrom_succ, rowsFrom_succ, yearRow_of_property h]
    simp only [ih]

theorem projectYears_of_property : projectYears deal = projectYears other := by
  funext loan equity
  rw [projectYears, projectYears, rowsFrom_of_property h]
  obtain ⟨acquisition, financing, income, expenses, exit, buildableSf⟩ := deal
  cases h
  rfl

theorem projectExit_of_property : projectExit deal = projectExit other := by
  obtain ⟨acquisition, financing, income, expenses, exit, buildableSf⟩ := deal
  cases h
  rfl

/-- With explicit sources only the loan's own terms are read of the financing. -/
theorem project_of_property {sources : List CapitalSource} (hsources : options.sources = some sources)
    (hrate : deal.financing.interestRatePct = other.financing.interestRatePct)
    (hyears : deal.financing.amortizationYears = other.financing.amortizationYears) :
    project deal options = project other options := by
  have hvalid : deal.validate = other.validate := by
    obtain ⟨acquisition, financing, income, expenses, exit, buildableSf⟩ := deal
    cases h
    rfl
  have hstack : CapitalStack.ofDeal deal options = CapitalStack.ofDeal other options := by
    have hacquisition : deal.acquisition = other.acquisition := congrArg PropertyTerms.acquisition h
    rw [CapitalStack.ofDeal_eq, CapitalStack.ofDeal_eq, hacquisition, hsources]
    rfl
  unfold project
  rw [hvalid, hstack, hrate, hyears, projectYears_of_property h, projectExit_of_property h]

end Explicit

variable {assumptions : Assumptions}

/-- What is found for the same deal on other grounds: the given ones are echoed instead. -/
def rebased (basis : ProFormaBasis) (analysis : Analysis ProFormaBasis ProForma) :
    Analysis ProFormaBasis ProForma := { analysis with basis }

/-- The analysis with the lines of its sources named after explicit sources. -/
def renamedAnalysis (sources : List CapitalSource) (analysis : Analysis ProFormaBasis ProForma) :
    Analysis ProFormaBasis ProForma :=
  { analysis with
    result := { analysis.result with capital := analysis.result.capital.renamed sources } }

/-- Debt and equity by the loan-to-value ratio, given as sources of their own, lead to the same failure or
to the same pro forma with the sources renamed. Among explicit sources the ratio has no effect. -/
theorem spelled_out_agrees (hnone : options.sources = none)
    (hderived : CapitalStack.derivedOf assumptions.deal options.budget = .ok (debt, equity))
    (hdebt : Decimal.zero ≤ debt) (hequity : Decimal.zero ≤ equity) (hkind : kind.isEquity = true)
    (debtLabel equityLabel : Option String) :
    (let sources := CapitalStack.spellOut debt equity kind debtLabel equityLabel
     let spelledOut : CapitalOptions := { options with sources := some sources }
     analyse assumptions spelledOut =
      (analyse assumptions options).map fun a =>
        rebased ⟨assumptions, spelledOut⟩ (renamedAnalysis sources a)) ∧
    ∀ (other : Assumptions) (sources : List CapitalSource) (budget : Option DevelopmentBudget)
      (ltvPct : Decimal),
      let adjusted : Assumptions := { other with deal := Axis.ltv.set other.deal ltvPct }
      analyse adjusted ⟨some sources, budget⟩ =
        (analyse other ⟨some sources, budget⟩).map (rebased ⟨adjusted, ⟨some sources, budget⟩⟩) := by
  constructor
  · intro sources spelledOut
    unfold analyse
    rw [project_spellOut hnone hderived hdebt hequity hkind]
    cases project assumptions.deal options <;> rfl
  · intro other sources budget ltvPct adjusted
    have hproject : project (Axis.ltv.set other.deal ltvPct) ⟨some sources, budget⟩ =
        project other.deal ⟨some sources, budget⟩ := project_of_property rfl rfl rfl rfl
    unfold analyse
    rw [hproject]
    cases project other.deal ⟨some sources, budget⟩ <;> rfl

/-- The office once more, with the debt and the sponsor's equity of its own stack as sources. -/
theorem spelled_out_agrees_office :
    ∃ stack x, CapitalStack.ofDeal office ⟨none, some renovation⟩ = .ok stack ∧
      Decimal.zero ≤ stack.debtSources ∧ Decimal.zero ≤ stack.equitySources ∧
      analyse (.ofDeal office) ⟨none, some renovation⟩ = .ok x ∧
      ∃ y, analyse (.ofDeal office) ⟨some (CapitalStack.spellOut stack.debtSources stack.equitySources
          .gpEquity none (some "Sponsor")), some renovation⟩ = .ok y ∧
        y.result.metrics = x.result.metrics ∧ y.warnings = x.warnings ∧
        y.result.capital.sources =
          [("Senior Debt", stack.debtSources), ("Sponsor", stack.equitySources)] := by
  obtain ⟨stack, hstack, hfigures⟩ := exists_of_any
    (x := CapitalStack.ofDeal office ⟨none, some renovation⟩)
    (p := fun stack => decide (Decimal.zero ≤ stack.debtSources ∧ Decimal.zero ≤ stack.equitySources ∧
      stack.sources = [("Senior Debt", stack.debtSources), ("Sponsor Equity", stack.equitySources)]))
    (by decide +kernel)
  obtain ⟨hdebt, hequity, hlines⟩ := of_decide_eq_true hfigures
  obtain ⟨x, hx⟩ := exists_of_isOk (x := analyse (.ofDeal office) ⟨none, some renovation⟩)
    (by decide +kernel)
  have hderived : CapitalStack.derivedOf (Assumptions.ofDeal office).deal (some renovation) =
      .ok (stack.debtSources, stack.equitySources) :=
    (CapitalStack.builds_of_ofDeal hstack).derivedOf_eq rfl
  have hnone : (⟨none, some renovation⟩ : CapitalOptions).sources = none := rfl
  have hkind : SourceKind.gpEquity.isEquity = true := rfl
  have hagrees := (spelled_out_agrees hnone hderived hdebt hequity hkind none (some "Sponsor")).1
  dsimp only at hagrees
  rw [hx] at hagrees
  have hcapital : x.result.capital = stack := by
    obtain ⟨_, hprojects, -⟩ := summary_of_analyse hx
    exact Except.ok.inj (hprojects.capital_eq.symm.trans hstack)
  refine ⟨stack, x, hstack, hdebt, hequity, hx, _, hagrees, rfl, rfl, ?_⟩
  change (CapitalStack.renamed _ x.result.capital).sources = _
  rw [hcapital, CapitalStack.renamed, hlines]
  rfl

end ProForma

end PropertyFinance
