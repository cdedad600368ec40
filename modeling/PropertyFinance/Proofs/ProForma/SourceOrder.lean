import PropertyFinance.Proofs.CashFlow.ZeroFlows
import PropertyFinance.Proofs.Decimal.ExactSum
import PropertyFinance.Proofs.Document.ZeroSigns
import PropertyFinance.Proofs.ProForma.Balance

/-! Explicit sources in another order. Debt, equity and the total are exact sums over the same list, so
the order shows in the writing of a zero at most. All that a loan of nothing hands on is its sign, to the
last flow; it is the same in every order unless one of the loans is a negative zero. -/

namespace PropertyFinance
open Decimal
set_option autoImplicit false

namespace CapitalStack
variable {sources permuted : List CapitalSource} {deal : Deal} {budget : Option DevelopmentBudget}
  {debt equity d e : Decimal}

/-- The amounts of the sources of these kinds. -/
def amountsOf (kinds : List SourceKind) (sources : List CapitalSource) : List Decimal :=
  (sources.filter fun source => kinds.contains source.kind).map CapitalSource.amount

/-- A debt that is no negative zero, in whatever order it is added up. -/
def DebtUnsigned (sources : List CapitalSource) : Prop := Unsigned (amountsOf [.debt] sources)

theorem amountsOf_perm (h : sources.Perm permuted) (kinds : List SourceKind) :
    (amountsOf kinds sources).Perm (amountsOf kinds permuted) := (h.filter _).map _

theorem isAmount_of_mem_amountsOf {kinds : List SourceKind}
    (h : ∀ source ∈ sources, IsAmount source.amount) : ∀ x ∈ amountsOf kinds sources, IsAmount x :=
  List.forall_mem_map.mpr fun source hsource => h source (List.mem_filter.mp hsource).1

/-- Every source is debt or equity. -/
theorem exactSum_amounts (sources : List CapitalSource) :
    exactSum (sources.map CapitalSource.amount) =
      exactSum (amountsOf [.debt] sources) + exactSum (amountsOf [.lpEquity, .gpEquity] sources) := by
  induction sources with
  | nil => exact (add_zero 0).symm
  | cons source rest ih =>
    obtain ⟨kind, amount, label⟩ := source
    rw [List.map_cons, exactSum_cons, ih]
    cases kind <;> simp [amountsOf, exactSum_cons] <;> ring

/-- The tally adds up debt and equity apart. -/
theorem tally_eq (hnonneg : ∀ source ∈ sources, 0 ≤ source.amount.value)
    (hdebt : (amountsOf [.debt] sources).foldlM Decimal.add debt = .ok d)
    (hequity : (amountsOf [.lpEquity, .gpEquity] sources).foldlM Decimal.add equity = .ok e) :
    tally sources debt equity = .ok (d, e) := by
  induction sources generalizing debt equity with
  | nil =>
    cases hdebt
    cases hequity
    rfl
  | cons source rest ih =>
    obtain ⟨hamount, hrest⟩ := List.forall_mem_cons.mp hnonneg
    rw [tally, if_neg (not_lt_zero_iff.mpr hamount)]
    obtain ⟨kind, amount, label⟩ := source
    cases kind with
    | debt =>
      obtain ⟨next, hnext, hdebt⟩ := bind_eq_ok.mp hdebt
      change (liftM (debt.add amount) >>= fun next => tally rest next equity) = _
      rw [hnext, lift_ok, ok_bind]
      exact ih hrest hdebt hequity
    | lpEquity | gpEquity =>
      obtain ⟨next, hnext, hequity⟩ := bind_eq_ok.mp hequity
      change (liftM (equity.add amount) >>= fun next => tally rest debt next) = _
      rw [hnext, lift_ok, ok_bind]
      exact ih hrest hdebt hequity

/-- What the sources come to. -/
structure Totals (sources : List CapitalSource) (debt equity all : Decimal) : Prop where
  tally_eq : tally sources .zero .zero = .ok (debt, equity)
  total_eq : total (sources.map fun source => (source.name, source.amount)) = .ok all
  debt : IsTotal (amountsOf [.debt] sources) debt
  equity : IsTotal (amountsOf [.lpEquity, .gpEquity] sources) equity
  all : IsTotal (sources.map CapitalSource.amount) all

theorem exists_totals (hamounts : ∀ source ∈ sources, IsAmount source.amount)
    (hsize : exactSum (sources.map CapitalSource.amount) < 10 ^ 18) :
    ∃ debt equity all, Totals sources debt equity all := by
  have hdebts : ∀ x ∈ amountsOf [.debt] sources, IsAmount x := isAmount_of_mem_amountsOf hamounts
  have hequities : ∀ x ∈ amountsOf [.lpEquity, .gpEquity] sources, IsAmount x :=
    isAmount_of_mem_amountsOf hamounts
  have hdebt₀ := (exactSum_amount hdebts).1
  have hequity₀ := (exactSum_amount hequities).1
  have hparts := exactSum_amounts sources
  obtain ⟨debt, hdebt, hdebtTotal⟩ := sum_total hdebts (by linarith)
  obtain ⟨equity, hequity, hequityTotal⟩ := sum_total hequities (by linarith)
  obtain ⟨all, hall, hallTotal⟩ := sum_total (List.forall_mem_map.mpr hamounts) hsize
  refine ⟨debt, equity, all, tally_eq (fun source hsource => (hamounts source hsource).nonneg) hdebt hequity,
    ?_, hdebtTotal, hequityTotal, hallTotal⟩
  rw [total, List.map_map]
  exact hall

/-- Stacks that differ in the writing of zeros. The uses are the same. -/
structure SameStack (s t : CapitalStack) : Prop where
  debt : Twin s.debtSources t.debtSources
  equity : Interchangeable s.equitySources t.equitySources
  totalUses_eq : s.totalUses = t.totalUses
  usesDelta_eq : s.usesDelta = t.usesDelta

theorem ofDeal_matches (hperm : sources.Perm permuted)
    (hamounts : ∀ source ∈ sources, IsAmount source.amount)
    (hsize : exactSum (sources.map CapitalSource.amount) < 10 ^ 18) (hsigns : DebtUnsigned sources) :
    Matches SameStack (ofDeal deal ⟨some sources, budget⟩) (ofDeal deal ⟨some permuted, budget⟩) := by
  obtain ⟨debt, equity, all, h⟩ := exists_totals hamounts hsize
  rw [exactSum_perm (hperm.map _)] at hsize
  obtain ⟨debt', equity', all', h'⟩ :=
    exists_totals (fun source hsource => hamounts source (hperm.mem_iff.mpr hsource)) hsize
  have hdebt : Twin debt debt' :=
    h.debt.twin (isAmount_of_mem_amountsOf hamounts) hsigns (h'.debt.perm (amountsOf_perm hperm _).symm)
  have hequity : Interchangeable equity equity' :=
    h.equity.interchangeable (isAmount_of_mem_amountsOf hamounts)
      (h'.equity.perm (amountsOf_perm hperm _).symm)
  have hall : Interchangeable all all' :=
    h.all.interchangeable (List.forall_mem_map.mpr hamounts) (h'.all.perm (hperm.map _).symm)
  rw [ofDeal_eq, ofDeal_eq]
  split
  case isTrue => exact .error _
  case isFalse =>
    refine matches_bind_self fun uses _ => matches_bind_self fun totalUses _ => ?_
    dsimp only [sourcesOf]
    rw [h.tally_eq, h'.tally_eq, ok_bind, ok_bind, pure_bind, pure_bind]
    dsimp only
    rw [h.total_eq, h'.total_eq, lift_ok, lift_ok, ok_bind, ok_bind, hall.sub_eq]
    exact matches_bind_self fun usesDelta _ => .ok ⟨hdebt, hequity, rfl, rfl⟩

end CapitalStack

namespace LoanTerms
variable {d d' : Decimal}

/-- Terms that differ in the writing of the loan amount at most. -/
structure SameLoan (s t : LoanTerms) : Prop where
  loanAmount : Twin s.loanAmount t.loanAmount
  rest_eq : { s with loanAmount := t.loanAmount } = t

theorem monthlyPayment_eq (h : Interchangeable d d') : Loan.monthlyPayment d = Loan.monthlyPayment d' := by
  funext rate months
  simp only [Loan.monthlyPayment, h.mul_eq, h.div_eq]

theorem ofLoan_matches (h : Twin d d') (interestRatePct : Decimal) (years : UInt32) :
    Matches SameLoan (ofLoan d interestRatePct years) (ofLoan d' interestRatePct years) := by
  simp only [ofLoan, lt_iff_value_lt, h.interchangeable.value_eq, h.interchangeable.mul_eq,
    monthlyPayment_eq h.interchangeable]
  split
  case isTrue => exact .error _
  case isFalse =>
    split
    case isTrue => exact .error _
    case isFalse =>
      refine matches_bind_self fun rate _ => ?_
      split
      case isTrue =>
        exact matches_bind_self fun payment _ => matches_bind_self fun service _ => .ok ⟨h, rfl⟩
      case isFalse =>
        exact matches_bind_self fun payment _ => matches_bind_self fun service _ => .ok ⟨h, rfl⟩

theorem SameLoan.annualDebtService_eq {s t : LoanTerms} (h : SameLoan s t) :
    s.annualDebtService = t.annualDebtService := by
  rw [← h.rest_eq]

theorem SameLoan.balanceAfter {s t : LoanTerms} (h : SameLoan s t) (years : UInt32) :
    Matches Twin (s.balanceAfter years) (t.balanceAfter years) := by
  obtain ⟨htwin, hrest⟩ := h
  obtain ⟨heq | ⟨hs, ht⟩, hnegative⟩ := htwin
  · rw [← heq] at hrest
    rw [← hrest]
    exact matches_self twin_self _
  · unfold LoanTerms.balanceAfter
    rw [hs, ht, Bool.or_true, Bool.or_true, if_pos rfl, if_pos rfl]
    exact .ok ⟨Or.inr ⟨hs, ht⟩, hnegative⟩

end LoanTerms

namespace ProForma
variable {deal : Deal} {loan loan' : LoanTerms} {equity equity' : Decimal} {exit exit' : ExitAnalysis}

theorem ratio?_eq {b b' : Decimal} (h : Interchangeable b b') (a : Decimal) : ratio? a b = ratio? a b' := by
  rcases h with rfl | ⟨hb, hb'⟩
  · rfl
  · rw [ratio?, ratio?, if_pos hb, if_pos hb']

theorem rowsFrom_eq (h : Interchangeable equity equity') (growth : Growth) (service : Decimal) :
    rowsFrom deal growth service equity = rowsFrom deal growth service equity' := by
  funext left
  induction left with
  | zero => rfl
  | succ left ih =>
    funext year rentFactor expenseFactor paid
    simp only [rowsFrom_succ, yearRow, ratio?_eq h, ih]

theorem projectYears_eq (hloan : loan.SameLoan loan') (h : Interchangeable equity equity') :
    projectYears deal loan equity = projectYears deal loan' equity' := by
  simp only [projectYears, hloan.annualDebtService_eq, rowsFrom_eq h]

/-- Sales after which the same loan, or none, is paid off. -/
structure SameExit (exit exit' : ExitAnalysis) : Prop where
  netProceeds : Twin exit.netProceeds exit'.netProceeds
  unleveredNetProceeds_eq : exit.unleveredNetProceeds = exit'.unleveredNetProceeds

theorem projectExit_matches (h : loan.SameLoan loan') (exitNoi : Decimal) :
    Matches SameExit (projectExit deal loan exitNoi) (projectExit deal loan' exitNoi) := by
  unfold projectExit
  refine matches_bind_self fun cap _ => matches_bind_self fun gross _ => matches_bind_self fun share _ =>
    matches_bind_self fun costs _ => ?_
  refine (h.balanceAfter _).bind fun payoff payoff' hpayoff => matches_bind_self fun unlevered _ => ?_
  exact (hpayoff.sub unlevered).bind fun net net' hnet => .ok ⟨hnet, rfl⟩

/-- The flows of a year or more, apart from the outlays. -/
structure SameReturns (flows flows' : List Decimal × List Decimal) : Prop where
  levered : Yield.SameFlows flows.1 flows'.1
  levered_ne_nil : flows.1 ≠ []
  unlevered_eq : flows.2 = flows'.2

theorem returnFlows_matches (h : SameExit exit exit') {years : List AnnualCashFlow} (hne : years ≠ []) :
    Matches SameReturns (returnFlows exit years) (returnFlows exit' years) := by
  induction years with
  | nil => exact absurd rfl hne
  | cons row years ih =>
    cases years with
    | nil =>
      refine (h.netProceeds.add row.leveredCashFlow).bind fun levered levered' hlevered => ?_
      rw [h.unleveredNetProceeds_eq]
      refine matches_bind_self fun unlevered _ => .ok ⟨⟨?_, ?_⟩, List.cons_ne_nil _ _, rfl⟩
      · exact .cons hlevered.interchangeable .nil
      · exact congrArg some hlevered.negative_eq
    | cons next years =>
      refine (ih (List.cons_ne_nil _ _)).bind fun flows flows' hflows => .ok ⟨?_, List.cons_ne_nil _ _, ?_⟩
      · exact hflows.levered.cons (interchangeable_self _) hflows.levered_ne_nil
      · exact congrArg (row.noi :: ·) hflows.unlevered_eq

theorem positives_eq {xs ys : List Decimal} (h : List.Forall₂ Interchangeable xs ys) :
    xs.filter (fun x => decide (zero < x)) = ys.filter fun y => decide (zero < y) := by
  induction h with
  | nil => rfl
  | @cons x y xs ys hxy _ ih =>
    by_cases hpos : zero < x
    · rw [← hxy.eq_of_pos hpos, List.filter_cons, List.filter_cons, ih]
    · have hpos' : ¬ zero < y := by rwa [zero_lt_iff, ← hxy.value_eq, ← zero_lt_iff]
      rw [List.filter_cons_of_neg (by simpa using hpos), List.filter_cons_of_neg (by simpa using hpos'), ih]

theorem metricsOf_eq_of_same {years : List AnnualCashFlow} {levered levered' unlevered : List Decimal}
    {loanAmount loanAmount' : Decimal} (hlevered : Yield.SameFlows levered levered') (hne : levered ≠ [])
    (hequity : Interchangeable equity equity') (hloan : Interchangeable loanAmount loanAmount') :
    metricsOf years levered unlevered equity loanAmount =
      metricsOf years levered' unlevered equity' loanAmount' := by
  have hmultiple : equityMultiple? levered equity = equityMultiple? levered' equity' := by
    unfold equityMultiple?
    rw [positives_eq (List.forall₂_drop 1 hlevered.flows)]
    by_cases hpos : zero < equity
    · rw [hequity.eq_of_pos hpos]
    · have hpos' : ¬ zero < equity' := by rwa [zero_lt_iff, ← hequity.value_eq, ← zero_lt_iff]
      rw [if_neg hpos, if_neg hpos']
  have hyield : debtYield? years loanAmount = debtYield? years loanAmount' := by
    simp only [debtYield?, ratio?_eq hloan]
  rw [metricsOf_eq, metricsOf_eq, hmultiple, hyield, Yield.rate?_eq hlevered hne]

/-- The figures that do not depend on the order of the sources. -/
structure SameFigures (p q : ProForma) : Prop where
  loanAmount : p.financing.loanAmount.Same q.financing.loanAmount
  equityRequired : p.financing.equityRequired.Same q.financing.equityRequired
  usesDelta_eq : p.capital.usesDelta = q.capital.usesDelta
  years_eq : p.years = q.years
  leveredCashFlows : List.Forall₂ Decimal.Same p.leveredCashFlows q.leveredCashFlows
  unleveredCashFlows_eq : p.unleveredCashFlows = q.unleveredCashFlows
  metrics_eq : p.metrics = q.metrics

theorem project_matches {sources permuted : List CapitalSource} {budget : Option DevelopmentBudget}
    (hperm : sources.Perm permuted) (hamounts : ∀ source ∈ sources, IsAmount source.amount)
    (hsize : exactSum (sources.map CapitalSource.amount) < 10 ^ 18)
    (hsigns : CapitalStack.DebtUnsigned sources) :
    Matches (fun m n => SameFigures m.result n.result) (project deal ⟨some sources, budget⟩)
      (project deal ⟨some permuted, budget⟩) := by
  refine matches_bind_self fun _ hvalid => ?_
  refine (CapitalStack.ofDeal_matches hperm hamounts hsize hsigns).bind fun stack stack' hstack => ?_
  refine (LoanTerms.ofLoan_matches hstack.debt _ _).bind fun loan loan' hloan => ?_
  have hequity := hstack.equity
  dsimp only
  rw [projectYears_eq hloan hequity, hstack.totalUses_eq]
  refine matches_bind_self fun years hyears => ?_
  have hne : years ≠ [] := by
    obtain ⟨growth, -, hrows⟩ := bind_eq_ok.mp (liftM_eq_ok.mp hyears)
    exact List.ne_nil_of_length_pos (rowsFrom_length hrows ▸ holdYears_pos hvalid)
  refine (projectExit_matches hloan _).lift.bind fun exit exit' hexit => ?_
  refine (returnFlows_matches hexit hne).lift.bind fun flows flows' hflows => ?_
  have hlevered := hflows.levered.cons hequity.negate hflows.levered_ne_nil
  rw [metricsOf_eq_of_same hlevered (List.cons_ne_nil _ _) hequity hloan.loanAmount.interchangeable,
    hflows.unlevered_eq]
  refine matches_bind_self fun metrics _ => .ok ?_
  exact ⟨hloan.loanAmount.interchangeable.same, hequity.same, hstack.usesDelta_eq, rfl,
    hlevered.flows.imp fun _ _ => Interchangeable.same, rfl, rfl⟩

/-- Explicit sources are split into debt and equity without loss. Listing them in another order leads to the
same failure or to the same figures, unless the loans come to nothing and one of them is a negative zero;
no document gives such a loan with ten places at most (`CapitalSource.unsigned_of_ofJson?`). -/
theorem sources_add_up_in_any_order {sources : List CapitalSource}
    (hamounts : ∀ source ∈ sources, IsAmount source.amount)
    (hsize : exactSum (sources.map CapitalSource.amount) < 10 ^ 18) (assumptions : Assumptions)
    (budget : Option DevelopmentBudget) :
    (∀ stack, CapitalStack.ofDeal assumptions.deal ⟨some sources, budget⟩ = .ok stack →
      stack.totalSources.value = stack.debtSources.value + stack.equitySources.value ∧
      stack.debtSources.value = exactSum (CapitalStack.amountsOf [.debt] sources) ∧
      stack.equitySources.value = exactSum (CapitalStack.amountsOf [.lpEquity, .gpEquity] sources)) ∧
    (CapitalStack.DebtUnsigned sources → ∀ permuted, sources.Perm permuted →
      Matches (fun a b => SameFigures a.result b.result) (analyse assumptions ⟨some sources, budget⟩)
        (analyse assumptions ⟨some permuted, budget⟩)) := by
  constructor
  · intro stack hstack
    have hbuilds := CapitalStack.builds_of_ofDeal hstack
    obtain ⟨debt, equity, all, h⟩ := CapitalStack.exists_totals hamounts hsize
    obtain ⟨parts, hparts, hsources⟩ := bind_eq_ok.mp hbuilds.sources_eq
    rw [h.tally_eq] at hparts
    cases hparts
    obtain ⟨hlines, hparts⟩ := Prod.mk.inj (pure_eq_ok.mp hsources)
    obtain ⟨hdebt, hequity⟩ := Prod.mk.inj hparts
    have hall := hbuilds.totalSources_eq
    rw [← hlines, h.total_eq] at hall
    rw [← hdebt, ← hequity, ← Except.ok.inj hall, h.debt.value_eq, h.equity.value_eq, h.all.value_eq]
    exact ⟨CapitalStack.exactSum_amounts sources, rfl, rfl⟩
  · intro hsigns permuted hperm
    exact (project_matches hperm hamounts hsize hsigns).bind fun m n h => .ok h

/-- A loan, two partners, and a second loan of which nothing has been drawn. -/
def syndicate : List CapitalSource :=
  [⟨.lpEquity, .ofScaled 30000025 2, none⟩, ⟨.debt, .ofScaled 650000 0, none⟩,
    ⟨.gpEquity, .ofScaled 1360007500 4, some "Sponsor"⟩, ⟨.debt, .ofScaled 0 3, some "Mezzanine"⟩]

/-- The sources as their documents give them, in the order of the list and in the other one. -/
theorem sources_add_up_in_any_order_syndicate :
    ∃ a b, analyse (.ofDeal office) ⟨some syndicate, some renovation⟩ = .ok a ∧
      analyse (.ofDeal office) ⟨some syndicate.reverse, some renovation⟩ = .ok b ∧
      a.result.capital.totalSources.value =
        a.result.capital.debtSources.value + a.result.capital.equitySources.value ∧
      SameFigures a.result b.result := by
  have hread : ∀ source ∈ syndicate, CapitalSource.ofJson? source.toJson = some source ∧
      zero ≤ source.amount ∧ source.amount.scale ≤ 10 := by decide +kernel
  have hnonneg : ∀ source ∈ syndicate, 0 ≤ source.amount.value := by
    intro source hsource
    exact zero_le_iff.mp (hread source hsource).2.1
  have hamounts : ∀ source ∈ syndicate, IsAmount source.amount := fun source hsource =>
    isAmount_of_scale_le (hnonneg source hsource) (hread source hsource).2.2
  have hsigns : CapitalStack.DebtUnsigned syndicate := by
    refine Or.inr (List.forall_mem_map.mpr fun source hdebt => ?_)
    have hsource := (List.mem_filter.mp hdebt).1
    obtain ⟨hjson, -, hscale⟩ := hread source hsource
    exact CapitalSource.unsigned_of_ofJson? hjson (hnonneg source hsource) hscale
  have hsize : exactSum (syndicate.map CapitalSource.amount) < 10 ^ 18 := by
    simp only [syndicate, exactSum, List.map_cons, List.map_nil, List.sum_cons, List.sum_nil]
    iterate 4 rw [value_ofScaled (by decide) (by decide)]
    norm_num
  obtain ⟨a, ha⟩ := exists_of_isOk (x := analyse (.ofDeal office) ⟨some syndicate, some renovation⟩)
    (by decide +kernel)
  obtain ⟨b, hb⟩ := exists_of_isOk (x := analyse (.ofDeal office) ⟨some syndicate.reverse, some renovation⟩)
    (by decide +kernel)
  obtain ⟨hsplit, horder⟩ :=
    sources_add_up_in_any_order hamounts hsize (.ofDeal office) (some renovation)
  obtain ⟨_, hprojects⟩ := projects_of_analyse ha
  have hfigures := horder hsigns _ (List.reverse_perm _).symm
  rw [ha, hb] at hfigures
  cases hfigures with
  | ok h => exact ⟨a, b, ha, hb, (hsplit _ hprojects.capital_eq).1, h⟩

/-- A site whose rents are gone after the first year, held until it is worth nothing. -/
def vacated : Deal where
  acquisition := ⟨.ofScaled 1000000 0, .zero, 17⟩
  financing := ⟨.zero, .zero, 0⟩
  income := ⟨.ofScaled 10 0, .ofScaled (-100) 0, .zero, .zero, .zero⟩
  expenses := ⟨.zero, .zero, .zero⟩
  exit := ⟨.ofScaled 5 0, .zero⟩
  buildableSf := .ofScaled 1000 0

/-- Two loans of nothing, and the second one is a negative zero. -/
def undrawn : List CapitalSource :=
  [⟨.debt, .zero, none⟩, ⟨.debt, zero.negate, none⟩, ⟨.lpEquity, .ofScaled 1000000 0, none⟩]

/-- The loans the other way round. -/
def undrawnSwapped : List CapitalSource :=
  [⟨.debt, zero.negate, none⟩, ⟨.debt, .zero, none⟩, ⟨.lpEquity, .ofScaled 1000000 0, none⟩]

/-- The levered rate is not the same if loans of nothing, a negative zero among them, change places: the last
flow is a zero too, and its sign steers the search for a root. -/
theorem levered_rate_depends_on_negative_zero :
    undrawn.Perm undrawnSwapped ∧
    (∀ source ∈ undrawn, 0 ≤ source.amount.value ∧ source.amount.scale ≤ 10) ∧
    exactSum (undrawn.map CapitalSource.amount) < 10 ^ 18 ∧
    ∃ a b r s, analyse (.ofDeal vacated) ⟨some undrawn, none⟩ = .ok a ∧
      analyse (.ofDeal vacated) ⟨some undrawnSwapped, none⟩ = .ok b ∧
      a.result.metrics.leveredIrr = some r ∧ b.result.metrics.leveredIrr = some s ∧ ¬ r.Same s := by
  have hread : ∀ source ∈ undrawn, zero ≤ source.amount ∧ source.amount.scale ≤ 10 := by decide
  have hsum : exactSum (undrawn.map CapitalSource.amount) < 10 ^ 18 := by
    have hnegative : zero.negate.value = 0 := by rw [value_negate, value_zero, neg_zero]
    simp only [undrawn, exactSum, List.map_cons, List.map_nil, List.sum_cons, List.sum_nil, value_zero,
      hnegative]
    rw [value_ofScaled (by decide) (by decide)]
    norm_num
  obtain ⟨a, ha, hrate⟩ := exists_of_any (x := analyse (.ofDeal vacated) ⟨some undrawn, none⟩)
    (p := fun a => decide (a.result.metrics.leveredIrr = some (.ofScaled (-99) 2))) (by decide +kernel)
  obtain ⟨b, hb, hrate'⟩ := exists_of_any (x := analyse (.ofDeal vacated) ⟨some undrawnSwapped, none⟩)
    (p := fun b => decide (b.result.metrics.leveredIrr =
      some (.ofScaled (-9889635498249319311980798374) 28))) (by decide +kernel)
  refine ⟨.swap _ _ _, fun source hsource => ?_, hsum, a, b, _, _, ha, hb, of_decide_eq_true hrate,
    of_decide_eq_true hrate', by decide⟩
  exact (hread source hsource).imp_left zero_le_iff.mp

end ProForma

end PropertyFinance
