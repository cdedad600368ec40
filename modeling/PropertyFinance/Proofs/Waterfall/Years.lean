import PropertyFinance.Proofs.Waterfall.Terms
import PropertyFinance.Proofs.Waterfall.Tiers

/-! A run of the waterfall as the list of its years, each with what was carried into it and out of
it. What holds of the start and is kept by every year holds all along the run. -/

namespace PropertyFinance.Waterfall
open Decimal
set_option autoImplicit false

/-- A year between the states before and after it. -/
structure Passage where
  before : State
  year : AnnualDistribution
  after : State
deriving DecidableEq

/-- The years of a run from a state; each begins where the one before ended. -/
def passages (terms : WaterfallTerms) (tiers : List PromoteTier) (lpShare : Decimal) :
    List Decimal → Nat → State → Arith (List Passage)
  | [], _, _ => pure []
  | cash :: rest, year, state => do
    let (distribution, next) ← stepYear terms tiers lpShare year state cash
    pure (⟨state, distribution, next⟩ :: (← passages terms tiers lpShare rest (year + 1) next))

/-- The years of the whole waterfall. -/
def history (terms : WaterfallTerms) (cashFlows : List Decimal) : Arith (List Passage) := do
  let s ← stakes terms
  passages terms terms.orderedTiers s.lpShare cashFlows 1 (.start s)

/-- What one year computes from the cash and the state before it. -/
structure Steps (terms : WaterfallTerms) (tiers : List PromoteTier) (lpShare : Decimal)
    (p : Passage) : Prop where
  divide_eq : divideYear terms tiers lpShare p.before p.year.totalCashFlow =
    .ok (p.year.allocations, p.year.activeTier, p.after.balances)
  lp_eq : Decimal.sum (p.year.allocations.map Allocation.toLp) = .ok p.year.lpDistribution
  gp_eq : p.year.totalCashFlow.sub p.year.lpDistribution = .ok p.year.gpDistribution
  lpCumulative_eq : p.before.lpCumulative.add p.year.lpDistribution = .ok p.after.lpCumulative
  lpFlows_eq : p.after.lpFlows = p.before.lpFlows ++ [p.year.lpDistribution]

variable {terms : WaterfallTerms} {tiers : List PromoteTier} {lpShare cash : Decimal}
  {flows : List Decimal} {n : Nat} {state next : State} {year : AnnualDistribution}
  {results : WaterfallResults}

theorem steps_of_stepYear (h : stepYear terms tiers lpShare n state cash = .ok (year, next)) :
    Steps terms tiers lpShare ⟨state, year, next⟩ := by
  obtain ⟨⟨allocations, activeTier, balances⟩, hdivide, h⟩ := bind_eq_ok.mp h
  obtain ⟨lp, hlp, h⟩ := bind_eq_ok.mp h
  obtain ⟨gp, hgp, h⟩ := bind_eq_ok.mp h
  obtain ⟨lpCumulative, hcumulative, h⟩ := bind_eq_ok.mp h
  obtain ⟨gpCumulative, -, h⟩ := bind_eq_ok.mp h
  obtain ⟨lpIrr, -, h⟩ := bind_eq_ok.mp h
  obtain ⟨rfl, rfl⟩ := Prod.mk.inj (pure_eq_ok.mp h)
  exact ⟨hdivide, hlp, hgp, hcumulative, rfl⟩

theorem passages_of_runFrom {years : List AnnualDistribution} {final : State}
    (h : runFrom terms tiers lpShare flows n state = .ok (years, final)) :
    ∃ ps, passages terms tiers lpShare flows n state = .ok ps ∧ ps.map Passage.year = years := by
  induction flows generalizing n state years final with
  | nil =>
    obtain ⟨rfl, -⟩ := Prod.mk.inj (pure_eq_ok.mp h)
    exact ⟨[], rfl, rfl⟩
  | cons cash rest ih =>
    obtain ⟨⟨distribution, next⟩, hstep, h⟩ := bind_eq_ok.mp h
    obtain ⟨⟨later, last⟩, hrest, h⟩ := bind_eq_ok.mp h
    obtain ⟨rfl, -⟩ := Prod.mk.inj (pure_eq_ok.mp h)
    obtain ⟨ps, hps, rfl⟩ := ih hrest
    refine ⟨⟨state, distribution, next⟩ :: ps, ?_, rfl⟩
    exact bind_eq_ok.mpr ⟨_, hstep, bind_eq_ok.mpr ⟨ps, hps, rfl⟩⟩

/-- The year is the one of that number, with that cash. -/
theorem year_of_stepYear (h : stepYear terms tiers lpShare n state cash = .ok (year, next)) :
    year.year = n ∧ year.totalCashFlow = cash := by
  obtain ⟨⟨allocations, activeTier, balances⟩, -, h⟩ := bind_eq_ok.mp h
  obtain ⟨lp, -, h⟩ := bind_eq_ok.mp h
  obtain ⟨gp, -, h⟩ := bind_eq_ok.mp h
  obtain ⟨lpCumulative, -, h⟩ := bind_eq_ok.mp h
  obtain ⟨gpCumulative, -, h⟩ := bind_eq_ok.mp h
  obtain ⟨lpIrr, -, h⟩ := bind_eq_ok.mp h
  obtain ⟨rfl, -⟩ := Prod.mk.inj (pure_eq_ok.mp h)
  exact ⟨rfl, rfl⟩

/-- The law of a run: what holds of the state before the first year and is kept by every year of the
run holds before each of them. It may depend on the number of the year. -/
theorem forall_passages_numbered {ps : List Passage} {I : Nat → State → Prop}
    (h : passages terms tiers lpShare flows n state = .ok ps) (hstart : I n state)
    (hkeep : ∀ p, p.year.totalCashFlow ∈ flows → I p.year.year p.before →
      Steps terms tiers lpShare p → I (p.year.year + 1) p.after) :
    ∀ p ∈ ps, p.year.totalCashFlow ∈ flows ∧ I p.year.year p.before ∧
      I (p.year.year + 1) p.after ∧ Steps terms tiers lpShare p := by
  induction flows generalizing n state ps with
  | nil =>
    obtain rfl := pure_eq_ok.mp h
    simp
  | cons cash rest ih =>
    obtain ⟨⟨distribution, next⟩, hstep, h⟩ := bind_eq_ok.mp h
    obtain ⟨later, hlater, h⟩ := bind_eq_ok.mp h
    obtain rfl := pure_eq_ok.mp h
    have hsteps := steps_of_stepYear hstep
    obtain ⟨rfl, hcash⟩ := year_of_stepYear hstep
    have hmem : distribution.totalCashFlow ∈ cash :: rest := hcash ▸ List.mem_cons_self
    have hnext := hkeep ⟨state, distribution, next⟩ hmem hstart hsteps
    intro p hp
    rcases List.mem_cons.mp hp with rfl | hp
    · exact ⟨hmem, hstart, hnext, hsteps⟩
    · obtain ⟨hin, hlast⟩ := ih hlater hnext
        (fun p hp => hkeep p (List.mem_cons_of_mem _ hp)) p hp
      exact ⟨List.mem_cons_of_mem _ hin, hlast⟩

/-- The law with the whole past in view. -/
theorem forall_passages_since {ps : List Passage} {I : List AnnualDistribution → State → Prop}
    {past : List AnnualDistribution} (h : passages terms tiers lpShare flows n state = .ok ps)
    (hstart : I past state)
    (hkeep : ∀ past p, I past p.before → Steps terms tiers lpShare p → I (past ++ [p.year]) p.after) :
    ∀ earlier p later, ps = earlier ++ p :: later →
      I (past ++ earlier.map Passage.year) p.before ∧ Steps terms tiers lpShare p := by
  induction flows generalizing n state ps past with
  | nil =>
    obtain rfl := pure_eq_ok.mp h
    simp
  | cons cash rest ih =>
    obtain ⟨⟨distribution, next⟩, hstep, h⟩ := bind_eq_ok.mp h
    obtain ⟨others, hothers, h⟩ := bind_eq_ok.mp h
    obtain rfl := pure_eq_ok.mp h
    have hsteps := steps_of_stepYear hstep
    intro earlier p later hsplit
    cases earlier with
    | nil =>
      obtain ⟨rfl, -⟩ := List.cons.inj hsplit
      exact ⟨by simpa using hstart, hsteps⟩
    | cons first earlier =>
      obtain ⟨rfl, hrest⟩ := List.cons.inj hsplit
      have hlaw := ih hothers (hkeep past _ hstart hsteps) earlier p later hrest
      rwa [List.append_assoc] at hlaw

/-- The run begins in its state, and every year where the one before ended. -/
theorem passages_isChain {ps : List Passage}
    (h : passages terms tiers lpShare flows n state = .ok ps) :
    (∀ p ∈ ps.head?, p.before = state) ∧ ps.IsChain fun p q => p.after = q.before := by
  induction flows generalizing n state ps with
  | nil =>
    obtain rfl := pure_eq_ok.mp h
    simp
  | cons cash rest ih =>
    obtain ⟨⟨distribution, next⟩, -, h⟩ := bind_eq_ok.mp h
    obtain ⟨later, hlater, h⟩ := bind_eq_ok.mp h
    obtain rfl := pure_eq_ok.mp h
    obtain ⟨hfirst, hchain⟩ := ih hlater
    constructor
    · intro p hp
      rw [List.head?_cons, Option.mem_some_iff] at hp
      rw [← hp]
    · rw [List.isChain_cons]
      exact ⟨fun q hq => (hfirst q hq).symm, hchain⟩

/-- The same for what does not depend on the year. -/
theorem forall_passages {ps : List Passage} {I : State → Prop}
    (h : passages terms tiers lpShare flows n state = .ok ps) (hstart : I state)
    (hkeep : ∀ p, I p.before → Steps terms tiers lpShare p → I p.after) :
    ∀ p ∈ ps, I p.before ∧ I p.after ∧ Steps terms tiers lpShare p := by
  intro p hp
  exact (forall_passages_numbered (I := fun _ => I) h hstart (fun p _ => hkeep p) p hp).2

/-- What stands at the end of a run, with all its flows in view. -/
theorem law_of_runFrom {I : List Decimal → State → Prop} {past : List Decimal}
    {years : List AnnualDistribution} {final : State}
    (h : runFrom terms tiers lpShare flows n state = .ok (years, final)) (hstart : I past state)
    (hkeep : ∀ past p, I past p.before → Steps terms tiers lpShare p →
      I (past ++ [p.year.totalCashFlow]) p.after) : I (past ++ flows) final := by
  induction flows generalizing n state years past with
  | nil =>
    obtain ⟨-, rfl⟩ := Prod.mk.inj (pure_eq_ok.mp h)
    rwa [List.append_nil]
  | cons cash rest ih =>
    obtain ⟨⟨distribution, next⟩, hstep, h⟩ := bind_eq_ok.mp h
    obtain ⟨⟨later, last⟩, hrest, h⟩ := bind_eq_ok.mp h
    obtain ⟨-, rfl⟩ := Prod.mk.inj (pure_eq_ok.mp h)
    obtain ⟨-, rfl⟩ := year_of_stepYear hstep
    have hlast := ih hrest (hkeep past ⟨state, distribution, next⟩ hstart (steps_of_stepYear hstep))
    rwa [List.append_assoc] at hlast

/-- The waterfall is a run from the stakes, and its totals are what the run has paid. -/
theorem run_of_distribute (h : distribute terms flows = .ok results) :
    terms.Accepted ∧ ∃ s final, stakes terms = .ok s ∧
      runFrom terms terms.orderedTiers s.lpShare flows 1 (.start s) = .ok (results.years, final) ∧
      results.lpEquity = s.lpEquity ∧ results.gpEquity = s.gpEquity ∧
      results.lpTotalDistributions = final.lpCumulative := by
  obtain ⟨_, hvalid, h⟩ := bind_eq_ok.mp h
  obtain ⟨s, hs, h⟩ := bind_eq_ok.mp h
  obtain ⟨⟨years, final⟩, hrun, h⟩ := bind_eq_ok.mp h
  obtain ⟨lpMultiple, -, h⟩ := bind_eq_ok.mp h
  obtain ⟨gpMultiple, -, h⟩ := bind_eq_ok.mp h
  obtain ⟨lpProfit, -, h⟩ := bind_eq_ok.mp h
  obtain ⟨gpProfit, -, h⟩ := bind_eq_ok.mp h
  obtain ⟨⟨lpShare, gpShare⟩, -, h⟩ := bind_eq_ok.mp h
  obtain ⟨lpIrr, -, h⟩ := bind_eq_ok.mp h
  obtain ⟨gpIrr, -, h⟩ := bind_eq_ok.mp h
  obtain rfl := pure_eq_ok.mp h
  exact ⟨WaterfallTerms.accepted_of_validate hvalid, s, final, liftM_eq_ok.mp hs,
    liftM_eq_ok.mp hrun, rfl, rfl, rfl⟩

theorem cases_of_distribute (h : distribute terms flows = .ok results) :
    terms.Accepted ∧ ∃ s, s.Of terms ∧ results.lpEquity = s.lpEquity ∧
      results.gpEquity = s.gpEquity ∧ ∃ ps, history terms flows = .ok ps ∧
        passages terms terms.orderedTiers s.lpShare flows 1 (.start s) = .ok ps ∧
        results.years = ps.map Passage.year := by
  obtain ⟨hacc, s, final, hs, hrun, hlp, hgp, -⟩ := run_of_distribute h
  obtain ⟨ps, hps, hyears⟩ := passages_of_runFrom hrun
  exact ⟨hacc, s, stakes_of_accepted hacc hs, hlp, hgp, ps, bind_eq_ok.mpr ⟨s, hs, hps⟩, hps,
    hyears.symm⟩

/-- A year that a check finds in a run. -/
theorem exists_passage_of_any (terms : WaterfallTerms) (flows : List Decimal) (check : Passage → Bool)
    (h : (history terms flows).toOption.any (fun ps => ps.any check) = true) :
    ∃ past p later, history terms flows = .ok (past ++ p :: later) ∧ check p = true := by
  obtain ⟨ps, hps, hany⟩ := exists_of_any h
  obtain ⟨p, hp, hcheck⟩ := List.any_eq_true.mp hany
  obtain ⟨past, later, rfl⟩ := List.append_of_mem hp
  exact ⟨past, p, later, hps, hcheck⟩

/-- A year with cash runs through the tiers one after the other. -/
structure Stages (terms : WaterfallTerms) (tiers : List PromoteTier) (lpShare : Decimal)
    (p : Passage) (d₀ d₁ d₂ d₃ d₄ : Division) : Prop where
  accrue : (Division.begin p.before.balances p.year.totalCashFlow).accruePref terms = .ok d₀
  capital : d₀.returnCapital = .ok d₁
  pref : d₁.payPref = .ok d₂
  catchUp : d₂.catchUp terms = .ok d₃
  rest : d₃.splitRest tiers lpShare p.before.lpFlows = .ok d₄
  allocations_eq : p.year.allocations = d₄.allocations
  activeTier_eq : p.year.activeTier = d₄.activeTier
  balances_eq : p.after.balances = d₄.balances

section Reaching
variable {p : Passage} {d₀ d₁ d₂ d₃ d₄ : Division}

/-- A year that has come to the catch-up. -/
def beforeCatchUp (terms : WaterfallTerms) (balances : Balances) (cash : Decimal) : Arith Division := do
  let d ← (Division.begin balances cash).accruePref terms
  let d ← d.returnCapital
  d.payPref

/-- A year that has come to the split of what is left. -/
def beforeSplit (terms : WaterfallTerms) (balances : Balances) (cash : Decimal) : Arith Division := do
  (← beforeCatchUp terms balances cash).catchUp terms

theorem Stages.beforeCatchUp_eq (hs : Stages terms tiers lpShare p d₀ d₁ d₂ d₃ d₄) :
    beforeCatchUp terms p.before.balances p.year.totalCashFlow = .ok d₂ := by
  rw [beforeCatchUp, hs.accrue, ok_bind, hs.capital, ok_bind, hs.pref]

theorem Stages.beforeSplit_eq (hs : Stages terms tiers lpShare p d₀ d₁ d₂ d₃ d₄) :
    beforeSplit terms p.before.balances p.year.totalCashFlow = .ok d₃ := by
  rw [beforeSplit, hs.beforeCatchUp_eq, ok_bind, hs.catchUp]

end Reaching

theorem Stages.start {p : Passage} {d₀ d₁ d₂ d₃ d₄ : Division}
    (hs : Stages terms tiers lpShare p d₀ d₁ d₂ d₃ d₄) :
    d₀.remaining = p.year.totalCashFlow ∧ d₀.lpPaid = .zero ∧ d₀.allocations = [] ∧
      d₀.balances.lpUnreturned = p.before.balances.lpUnreturned ∧
      d₀.balances.gpUnreturned = p.before.balances.gpUnreturned := by
  obtain ⟨hrem, hpaid, hall, hlp, hgp, -, -⟩ := Division.accruePref_cases hs.accrue
  exact ⟨hrem, hpaid, hall, hlp, hgp⟩

/-- A capital call: no cash, and nothing carried changes. -/
structure Calls (lpShare : Decimal) (p : Passage) : Prop where
  cash_nonpos : p.year.totalCashFlow.value ≤ 0
  balances_eq : p.after.balances = p.before.balances
  allocation : ∃ toLp toGp, p.year.allocations = [⟨.capitalCall, toLp, toGp⟩] ∧
    toLp.value = nearest (p.year.totalCashFlow.value * lpShare.value) ∧
    toGp.value = nearest (p.year.totalCashFlow.value - toLp.value)

theorem Steps.cases {p : Passage} (h : Steps terms tiers lpShare p) :
    Calls lpShare p ∨ (0 < p.year.totalCashFlow.value ∧
      ∃ d₀ d₁ d₂ d₃ d₄, Stages terms tiers lpShare p d₀ d₁ d₂ d₃ d₄) := by
  have hdivide := h.divide_eq
  unfold divideYear at hdivide
  split at hdivide
  case isTrue hcall =>
    left
    obtain ⟨a, ha, hdivide⟩ := bind_eq_ok.mp hdivide
    obtain ⟨toLp, hlp, ha⟩ := bind_eq_ok.mp ha
    obtain ⟨toGp, hgp, ha⟩ := bind_eq_ok.mp ha
    obtain rfl := pure_eq_ok.mp ha
    obtain ⟨hallocations, hlater⟩ := Prod.mk.inj (pure_eq_ok.mp hdivide)
    obtain ⟨-, hbalances⟩ := Prod.mk.inj hlater
    rw [le_iff_value_le, value_zero] at hcall
    exact ⟨hcall, hbalances.symm, toLp, toGp, hallocations.symm, value_mul hlp, value_sub hgp⟩
  case isFalse hcash =>
    right
    obtain ⟨d₄, hd, hdivide⟩ := bind_eq_ok.mp hdivide
    obtain ⟨hallocations, hlater⟩ := Prod.mk.inj (pure_eq_ok.mp hdivide)
    obtain ⟨hactive, hbalances⟩ := Prod.mk.inj hlater
    obtain ⟨d₀, h₀, hd⟩ := bind_eq_ok.mp hd
    obtain ⟨d₁, h₁, hd⟩ := bind_eq_ok.mp hd
    obtain ⟨d₂, h₂, hd⟩ := bind_eq_ok.mp hd
    obtain ⟨d₃, h₃, hd⟩ := bind_eq_ok.mp hd
    rw [not_le_zero_iff] at hcash
    exact ⟨hcash, d₀, d₁, d₂, d₃, d₄, h₀, h₁, h₂, h₃, hd, hallocations.symm, hactive.symm,
      hbalances.symm⟩

theorem Steps.stages {p : Passage} (h : Steps terms tiers lpShare p)
    (hcash : 0 < p.year.totalCashFlow.value) :
    ∃ d₀ d₁ d₂ d₃ d₄, Stages terms tiers lpShare p d₀ d₁ d₂ d₃ d₄ := by
  rcases h.cases with hcall | ⟨-, hstages⟩
  · exact absurd hcash (not_lt_of_ge hcall.cash_nonpos)
  · exact hstages

end PropertyFinance.Waterfall
