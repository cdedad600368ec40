import PropertyFinance.Proofs.ProForma.PropertySide
import PropertyFinance.Proofs.Waterfall.Years

/-! The cash that a waterfall divides and the flows to equity of its pro forma. Both are the yearly
flows with the sale in the last year, put together apart from each other; they are the same numbers,
so the waterfall of a pro forma is the waterfall of its levered flows behind the outlay. -/

namespace PropertyFinance.Waterfall
set_option autoImplicit false

variable {terms : WaterfallTerms} {tiers : List PromoteTier} {lpShare : Decimal}
  {flows levered unlevered : List Decimal} {rows : List AnnualCashFlow} {exit : ExitAnalysis}
  {n : Nat} {state : State} {results : WaterfallResults}

/-- The proceeds go into the same year on both sides. -/
theorem addProceeds_of_returnFlows (h : ProForma.returnFlows exit rows = .ok (levered, unlevered)) :
    addProceeds exit.netProceeds (rows.map AnnualCashFlow.leveredCashFlow) = .ok levered := by
  induction rows generalizing levered unlevered with
  | nil =>
    cases pure_eq_ok.mp h
    rfl
  | cons row rest ih =>
    cases rest with
    | nil =>
      obtain ⟨last, hlast, h⟩ := bind_eq_ok.mp h
      obtain ⟨_, -, h⟩ := bind_eq_ok.mp h
      cases pure_eq_ok.mp h
      exact bind_eq_ok.mpr ⟨last, hlast, rfl⟩
    | cons next rest =>
      obtain ⟨⟨later, _⟩, hrest, h⟩ := bind_eq_ok.mp h
      cases pure_eq_ok.mp h
      exact bind_eq_ok.mpr ⟨later, ih hrest, rfl⟩

theorem addProceeds_length {proceeds : Decimal} {paid : List Decimal}
    (h : addProceeds proceeds flows = .ok paid) : paid.length = flows.length := by
  induction flows generalizing paid with
  | nil =>
    cases pure_eq_ok.mp h
    rfl
  | cons flow rest ih =>
    cases rest with
    | nil =>
      obtain ⟨last, -, h⟩ := bind_eq_ok.mp h
      cases pure_eq_ok.mp h
      rfl
    | cons next rest =>
      obtain ⟨later, hrest, h⟩ := bind_eq_ok.mp h
      cases pure_eq_ok.mp h
      rw [List.length_cons, ih hrest]
      rfl

/-- The years of a run are numbered from its first, each with its cash. -/
theorem years_of_runFrom {years : List AnnualDistribution} {final : State}
    (h : runFrom terms tiers lpShare flows n state = .ok (years, final)) :
    years.map AnnualDistribution.year = List.range' n flows.length ∧
      years.map AnnualDistribution.totalCashFlow = flows := by
  induction flows generalizing n state years final with
  | nil =>
    obtain ⟨rfl, -⟩ := Prod.mk.inj (pure_eq_ok.mp h)
    exact ⟨rfl, rfl⟩
  | cons cash rest ih =>
    obtain ⟨⟨distribution, next⟩, hstep, h⟩ := bind_eq_ok.mp h
    obtain ⟨⟨later, last⟩, hrest, h⟩ := bind_eq_ok.mp h
    obtain ⟨rfl, -⟩ := Prod.mk.inj (pure_eq_ok.mp h)
    obtain ⟨hyear, hcash⟩ := year_of_stepYear hstep
    obtain ⟨hyears, hflows⟩ := ih hrest
    rw [List.map_cons, List.map_cons, hyear, hcash, hyears, hflows]
    exact ⟨rfl, rfl⟩

theorem years_of_distribute (h : distribute terms flows = .ok results) :
    results.years.map AnnualDistribution.year = List.range' 1 flows.length ∧
      results.years.map AnnualDistribution.totalCashFlow = flows := by
  obtain ⟨-, s, final, -, hrun, -⟩ := run_of_distribute h
  exact years_of_runFrom hrun

/-- Once the cash is known, only its division can fail. -/
theorem analyse_result {proceeds equityRequired : Decimal} {paid : List Decimal}
    (hflows : flows ≠ []) (hpaid : addProceeds proceeds flows = .ok paid) :
    (analyse terms flows proceeds equityRequired).map Analysis.result = distribute terms paid := by
  have hnonempty : flows.isEmpty = false := List.isEmpty_eq_false_iff.mpr hflows
  unfold analyse
  rw [hnonempty, if_neg Bool.false_ne_true, hpaid]
  change Except.map _ (distribute terms paid >>= _) = _
  cases distribute terms paid with
  | error failure => rfl
  | ok results => rfl

/-- The waterfall of a pro forma fails as the division of its levered flows behind the outlay does,
or has the same results: one year for each year of the hold, with the flow to equity of that year. -/
theorem ofProForma_divides_levered_flows {assumptions : Assumptions} {options : CapitalOptions}
    {p : Analysis ProFormaBasis ProForma} (h : ProForma.analyse assumptions options = .ok p)
    (terms : WaterfallTerms) :
    (ofProForma terms p.result).map Analysis.result =
        distribute terms p.result.leveredCashFlows.tail ∧
      ∀ analysis, ofProForma terms p.result = .ok analysis →
        analysis.result.years.map AnnualDistribution.year =
            List.range' 1 assumptions.deal.acquisition.holdYears.toNat ∧
          ∀ i < assumptions.deal.acquisition.holdYears.toNat, ∃ year flow,
            analysis.result.years[i]? = some year ∧ p.result.leveredCashFlows[i + 1]? = some flow ∧
              year.year = i + 1 ∧ year.totalCashFlow = flow := by
  obtain ⟨run, hrun, hp⟩ := bind_eq_ok.mp h
  cases pure_eq_ok.mp hp
  obtain ⟨loan, hprojects⟩ := ProForma.projects_of_project hrun
  have hpaid := addProceeds_of_returnFlows hprojects.flows_eq
  have hyears := hprojects.years_length
  have hrows : run.result.years.map AnnualCashFlow.leveredCashFlow ≠ [] := by
    rw [← List.length_pos_iff, List.length_map, hyears]
    exact ProForma.holdYears_pos hprojects.valid
  have hresult : (ofProForma terms run.result).map Analysis.result =
      distribute terms run.result.leveredCashFlows.tail := analyse_result hrows hpaid
  refine ⟨hresult, fun analysis hanalysis => ?_⟩
  have hdistribute : distribute terms run.result.leveredCashFlows.tail = .ok analysis.result := by
    rw [← hresult, hanalysis]
    rfl
  obtain ⟨hnumbers, hcash⟩ := years_of_distribute hdistribute
  have hlength : run.result.leveredCashFlows.tail.length =
      assumptions.deal.acquisition.holdYears.toNat := by
    rw [addProceeds_length hpaid, List.length_map, hyears]
  rw [hlength] at hnumbers
  refine ⟨hnumbers, fun i hi => ?_⟩
  have hi' : i < analysis.result.years.length := by
    have hcount := congrArg List.length hnumbers
    rw [List.length_map, List.length_range'] at hcount
    omega
  have hnumber := congrArg (·[i]?) hnumbers
  have hflow := congrArg (·[i]?) hcash
  simp only [List.getElem?_map, List.getElem?_eq_getElem hi', Option.map_some,
    List.getElem?_range' hi, List.getElem?_tail] at hnumber hflow
  refine ⟨analysis.result.years[i], _, List.getElem?_eq_getElem hi', hflow.symm, ?_, rfl⟩
  rw [Option.some.injEq] at hnumber
  omega

/-- Partners in the renovated office, with a preferred return, a catch-up and one hurdle. -/
def partnership : WaterfallTerms :=
  ⟨.ofScaled 380100 0, .ofScaled 10 0, .ofScaled 8 0, .ofScaled 20 0,
    [⟨.ofScaled 12 0, .ofScaled 30 0⟩]⟩

theorem ofProForma_divides_levered_flows_office :
    ∃ p analysis, ProForma.analyse (.ofDeal ProForma.office) ⟨none, some ProForma.renovation⟩ = .ok p ∧
      ofProForma partnership p.result = .ok analysis ∧
      distribute partnership p.result.leveredCashFlows.tail = .ok analysis.result ∧
      analysis.result.years.map AnnualDistribution.year = [1, 2, 3] := by
  have hruns : (do
      let p ← ProForma.analyse (.ofDeal ProForma.office) ⟨none, some ProForma.renovation⟩
      ofProForma partnership p.result).isOk = true := by
    decide +kernel
  obtain ⟨analysis, hruns⟩ := exists_of_isOk hruns
  obtain ⟨p, hp, hanalysis⟩ := bind_eq_ok.mp hruns
  obtain ⟨hresult, hyears⟩ := ofProForma_divides_levered_flows hp partnership
  refine ⟨p, analysis, hp, hanalysis, ?_, (hyears analysis hanalysis).1⟩
  rw [← hresult, hanalysis]
  rfl

end PropertyFinance.Waterfall
