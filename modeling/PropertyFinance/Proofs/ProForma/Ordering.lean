import PropertyFinance.Proofs.Decimal.Monotonicity
import PropertyFinance.Proofs.ProForma.Projection

/-! A deal against a weaker one, whose rents grow less, which stands empty more or is sold at a higher
cap rate. Year by year the weaker deal has less income; if no fee depends on the income it also has less
net operating income, and at the sale a lower value unless that income is negative. -/

namespace PropertyFinance
open Decimal
set_option autoImplicit false

/-- The vacancy and the collection loss as one rate, before its own rounding. -/
def IncomeTerms.lossRate (income : IncomeTerms) : ℚ :=
  nearest (income.vacancyPct.value / 100) + nearest (income.collectionLossPct.value / 100)

/-- The financing may be any. -/
structure Deal.Weaker (worse better : Deal) : Prop where
  holdYears_eq : worse.acquisition.holdYears = better.acquisition.holdYears
  rentPerSf_eq : worse.income.rentPerSf = better.income.rentPerSf
  collectionLoss_eq : worse.income.collectionLossPct = better.income.collectionLossPct
  otherIncome_eq : worse.income.otherIncome = better.income.otherIncome
  expenses_eq : worse.expenses = better.expenses
  buildableSf_eq : worse.buildableSf = better.buildableSf
  rentGrowth_le : worse.income.rentGrowthPct.value ≤ better.income.rentGrowthPct.value
  vacancy_le : better.income.vacancyPct.value ≤ worse.income.vacancyPct.value
  exitCapRate_le : better.exit.exitCapRatePct.value ≤ worse.exit.exitCapRatePct.value

/-- Rents and other income are not negative, rents never fall by more than all, and not more than the
whole income is lost. -/
structure Deal.Earning (deal : Deal) : Prop where
  rentPerSf_nonneg : 0 ≤ deal.income.rentPerSf.value
  buildableSf_nonneg : 0 ≤ deal.buildableSf.value
  otherIncome_nonneg : 0 ≤ deal.income.otherIncome.value
  rentGrowth_ge : -100 ≤ deal.income.rentGrowthPct.value
  lossRate_le : deal.income.lossRate ≤ 1

/-- A deal that is not the weaker one earns as well. -/
theorem Deal.Weaker.earning {worse better : Deal} (h : worse.Weaker better) (hworse : worse.Earning) :
    better.Earning where
  rentPerSf_nonneg := h.rentPerSf_eq ▸ hworse.rentPerSf_nonneg
  buildableSf_nonneg := h.buildableSf_eq ▸ hworse.buildableSf_nonneg
  otherIncome_nonneg := h.otherIncome_eq ▸ hworse.otherIncome_nonneg
  rentGrowth_ge := hworse.rentGrowth_ge.trans h.rentGrowth_le
  lossRate_le := by
    refine le_trans ?_ hworse.lossRate_le
    rw [IncomeTerms.lossRate, IncomeTerms.lossRate, h.collectionLoss_eq]
    apply add_le_add_left
    apply nearest_mono
    linarith [h.vacancy_le]

namespace ProForma
variable {worse better : Deal} {options : CapitalOptions} {loan loan' : LoanTerms} {p p' : ProForma}
  {growth growth' : Growth} {left year : Nat} {fee : ℚ}
  {incomeLoss incomeLoss' rentFactor rentFactor' expenseFactor exitNoi exitNoi' : Decimal}
  {service service' equity equity' paid paid' : Decimal}

/-- What one year of the weaker deal yields against the same year of the other. -/
structure EarnsLess (fee service service' : ℚ) (row row' : AnnualCashFlow) : Prop where
  income_le : row.effectiveGrossIncome.value ≤ row'.effectiveGrossIncome.value
  noi_le : fee = 0 → row.noi.value ≤ row'.noi.value
  levered_le : fee = 0 → service' ≤ service → row.leveredCashFlow.value ≤ row'.leveredCashFlow.value

/-- Rents grow and income is lost. -/
structure GrowsLess (growth growth' : Growth) : Prop where
  rent_le : NonnegLe growth.rent growth'.rent
  expense_eq : growth.expense = growth'.expense
  incomeLoss_le : growth'.incomeLoss.value ≤ growth.incomeLoss.value
  incomeLoss_le_one : growth.incomeLoss.value ≤ 1

theorem rentGrowth_nonnegLe (hweaker : worse.Weaker better) (hearning : worse.Earning) {x y : Decimal}
    (hx : percentToRate worse.income.rentGrowthPct = .ok x)
    (hy : percentToRate better.income.rentGrowthPct = .ok y) :
    Agree (Decimal.one.add x) (Decimal.one.add y) NonnegLe := by
  intro rent rent' hrent hrent'
  have hle := percentToRate_monotone hweaker.rentGrowth_le x y hx hy
  refine ⟨?_, add_monotone (le_refl _) hle rent rent' hrent hrent'⟩
  have hwhole : Decimal.one.negate.value ≤ x.value := by
    rw [value_percentToRate hx]
    apply value_le_nearest
    rw [value_negate, value_one]
    linarith [hearning.rentGrowth_ge]
  rw [value_negate, value_one] at hwhole
  rw [value_add hrent, value_one]
  exact nearest_nonneg (by linarith)

theorem growsLess_ofDeal (hweaker : worse.Weaker better) (hearning : worse.Earning) :
    Agree (Growth.ofDeal worse) (Growth.ofDeal better) GrowsLess := by
  unfold Growth.ofDeal
  rw [hweaker.expenses_eq, hweaker.collectionLoss_eq]
  refine agree_bind fun rate rate' hrate hrate' => ?_
  refine (rentGrowth_nonnegLe hweaker hearning hrate hrate').bind fun rent rent' hrent => ?_
  refine agree_bind_self fun _ => ?_
  refine agree_bind_self fun expense => ?_
  refine agree_bind fun vacancy vacancy' hvacancy hvacancy' => ?_
  refine agree_bind fun collection collection' hcollection hcollection' => ?_
  cases hcollection.symm.trans hcollection'
  refine agree_bind fun loss loss' hloss hloss' => ?_
  apply agree_pure
  refine ⟨hrent, rfl, ?_, ?_⟩
  · have hle := percentToRate_monotone hweaker.vacancy_le vacancy' vacancy hvacancy' hvacancy
    exact add_monotone hle (le_refl _) loss' loss hloss' hloss
  · have hle := hearning.lossRate_le
    rw [IncomeTerms.lossRate, hweaker.collectionLoss_eq, ← value_percentToRate hvacancy,
      ← value_percentToRate hcollection] at hle
    dsimp only
    rw [value_add hloss, ← value_one]
    apply nearest_le_value
    rwa [value_one]

/-- Figures of the year before the net operating income need the fee to tell them apart. -/
theorem yearRow_earnsLess (hweaker : worse.Weaker better) (hearning : worse.Earning)
    (hrent : NonnegLe rentFactor rentFactor') (hloss : incomeLoss'.value ≤ incomeLoss.value)
    (hloss' : incomeLoss.value ≤ 1) :
    Agree (yearRow worse incomeLoss service equity year rentFactor expenseFactor paid)
      (yearRow better incomeLoss' service' equity' year rentFactor' expenseFactor paid')
      (EarnsLess worse.expenses.managementFeePct.value service.value service'.value) := by
  unfold yearRow
  dsimp only
  rw [hweaker.rentPerSf_eq, hweaker.buildableSf_eq, hweaker.otherIncome_eq, hweaker.expenses_eq]
  have hrent₀ := hearning.rentPerSf_nonneg
  have hsf₀ := hearning.buildableSf_nonneg
  have hother₀ := hearning.otherIncome_nonneg
  rw [hweaker.rentPerSf_eq] at hrent₀
  rw [hweaker.buildableSf_eq] at hsf₀
  rw [hweaker.otherIncome_eq] at hother₀
  refine ((nonnegLe_self hrent₀).mul (nonnegLe_self hsf₀)).bind fun base base' hbase => ?_
  refine (hbase.mul hrent).bind fun gross gross' hgross => ?_
  have hkept : Agree (Decimal.one.sub incomeLoss) (Decimal.one.sub incomeLoss') NonnegLe := by
    intro x y hx hy
    refine ⟨?_, sub_monotone (le_refl _) hloss x y hx hy⟩
    rw [value_sub hx, value_one]
    exact nearest_nonneg (by linarith)
  refine hkept.bind fun kept kept' hkept => ?_
  refine (hgross.mul hkept).bind fun collected collected' hcollected => ?_
  refine ((nonnegLe_self hother₀).mul hrent).bind fun other other' hother => ?_
  refine (hcollected.add hother).bind fun income income' hincome => ?_
  refine agree_bind_self fun _ => ?_
  refine agree_bind_self fun operating => ?_
  refine agree_bind fun rate rate' hrate hrate' => ?_
  cases hrate.symm.trans hrate'
  refine agree_bind fun managed managed' hmanaged hmanaged' => ?_
  -- a fee of nothing is nothing of any income
  have hfee (hzero : better.expenses.managementFeePct.value = 0) : managed.value = 0 ∧ managed'.value = 0 := by
    have hrate₀ := value_percentToRate hrate
    rw [hzero, zero_div, nearest_zero] at hrate₀
    rw [value_mul hmanaged, value_mul hmanaged', hrate₀, mul_zero, mul_zero, nearest_zero]
    exact ⟨rfl, rfl⟩
  refine agree_bind fun expenses expenses' hexpenses hexpenses' => ?_
  refine agree_bind fun noi noi' hnoi hnoi' => ?_
  have hnoi_le (hzero : better.expenses.managementFeePct.value = 0) : noi.value ≤ noi'.value := by
    obtain ⟨hm, hm'⟩ := hfee hzero
    apply sub_monotone hincome.le (le_of_eq _) noi noi' hnoi hnoi'
    rw [value_add hexpenses, value_add hexpenses', hm, hm']
  refine agree_bind fun levered levered' hlevered hlevered' => ?_
  iterate 3 refine agree_bind_any fun _ _ => ?_
  apply agree_pure
  refine ⟨hincome.le, hnoi_le, ?_⟩
  intro hzero hservice
  exact sub_monotone (hnoi_le hzero) hservice levered levered' hlevered hlevered'

theorem grown_nonnegLe (hrent : NonnegLe rentFactor rentFactor') (hgrowth : GrowsLess growth growth') :
    Agree (grown year rentFactor growth.rent) (grown year rentFactor' growth'.rent) NonnegLe := by
  unfold grown
  split
  · exact hrent.mul hgrowth.rent_le
  · exact agree_pure hrent

/-- The induction is on the years left; the rent factors stay in order, the expense factors equal. -/
theorem rowsFrom_earnsLess (hweaker : worse.Weaker better) (hearning : worse.Earning)
    (hgrowth : GrowsLess growth growth') (hrent : NonnegLe rentFactor rentFactor') :
    Agree (rowsFrom worse growth service equity left year rentFactor expenseFactor paid)
      (rowsFrom better growth' service' equity' left year rentFactor' expenseFactor paid')
      (List.Forall₂ (EarnsLess worse.expenses.managementFeePct.value service.value service'.value)) := by
  induction left generalizing year rentFactor rentFactor' expenseFactor paid paid' with
  | zero => exact agree_pure List.Forall₂.nil
  | succ left ih =>
    rw [rowsFrom_succ, rowsFrom_succ, hgrowth.expense_eq]
    refine (grown_nonnegLe hrent hgrowth).bind fun factor factor' hfactor => ?_
    refine agree_bind_self fun expenseFactor => ?_
    refine (yearRow_earnsLess hweaker hearning hfactor hgrowth.incomeLoss_le
      hgrowth.incomeLoss_le_one).bind fun row row' hrow => ?_
    refine (ih hfactor).bind fun rest rest' hrest => ?_
    exact agree_pure (List.Forall₂.cons hrow hrest)

theorem projectYears_earnsLess (hweaker : worse.Weaker better) (hearning : worse.Earning) :
    Agree (projectYears worse loan equity) (projectYears better loan' equity')
      (List.Forall₂ (EarnsLess worse.expenses.managementFeePct.value loan.annualDebtService.value
        loan'.annualDebtService.value)) := by
  unfold projectYears
  rw [hweaker.holdYears_eq]
  refine (growsLess_ofDeal hweaker hearning).bind fun growth growth' hgrowth => ?_
  apply rowsFrom_earnsLess hweaker hearning hgrowth
  exact nonnegLe_self (by rw [value_one]; norm_num)

theorem projectExit_le (hweaker : worse.Weaker better) (hcap : 0 < better.exit.exitCapRatePct.value)
    (hnoi : NonnegLe exitNoi exitNoi') :
    Agree (projectExit worse loan exitNoi) (projectExit better loan' exitNoi')
      fun x y => x.grossExitValue.value ≤ y.grossExitValue.value := by
  unfold projectExit
  refine agree_bind fun rate rate' hrate hrate' => ?_
  have hrates : NonnegLe rate' rate := by
    refine ⟨?_, percentToRate_monotone hweaker.exitCapRate_le rate' rate hrate' hrate⟩
    rw [value_percentToRate hrate']
    exact nearest_nonneg (by linarith)
  refine (hnoi.div hrates).bind fun gross gross' hgross => ?_
  iterate 5 refine agree_bind_any fun _ _ => ?_
  exact agree_pure hgross

/-- The figure of each year is at most that of the same year. -/
def YearByYear (figure : AnnualCashFlow → Decimal) (p p' : ProForma) : Prop :=
  List.Forall₂ (fun row row' => (figure row).value ≤ (figure row').value) p.years p'.years

def lastNoi (p : ProForma) : Decimal := (p.years.getLast?.map AnnualCashFlow.noi).getD .zero

theorem YearByYear.lastNoi_le (h : YearByYear AnnualCashFlow.noi p p') :
    (lastNoi p).value ≤ (lastNoi p').value := by
  have hreverse := List.rel_reverse h
  unfold lastNoi
  rw [List.getLast?_eq_head?_reverse, List.getLast?_eq_head?_reverse]
  generalize p.years.reverse = rows at hreverse ⊢
  generalize p'.years.reverse = rows' at hreverse ⊢
  cases hreverse with
  | nil => exact le_refl _
  | cons hrow _ => exact hrow

variable {options' : CapitalOptions}

theorem Projects.earnsLess (h : Projects worse options loan p) (h' : Projects better options' loan' p')
    (hweaker : worse.Weaker better) (hearning : worse.Earning) :
    List.Forall₂ (EarnsLess worse.expenses.managementFeePct.value loan.annualDebtService.value
      loan'.annualDebtService.value) p.years p'.years :=
  projectYears_earnsLess hweaker hearning _ _ h.years_eq h'.years_eq

theorem Projects.income_le (h : Projects worse options loan p) (h' : Projects better options' loan' p')
    (hweaker : worse.Weaker better) (hearning : worse.Earning) :
    YearByYear AnnualCashFlow.effectiveGrossIncome p p' :=
  (h.earnsLess h' hweaker hearning).imp fun _ _ hrow => hrow.income_le

theorem Projects.noi_le (h : Projects worse options loan p) (h' : Projects better options' loan' p')
    (hweaker : worse.Weaker better) (hearning : worse.Earning)
    (hfee : worse.expenses.managementFeePct.value = 0) : YearByYear AnnualCashFlow.noi p p' :=
  (h.earnsLess h' hweaker hearning).imp fun _ _ hrow => hrow.noi_le hfee

theorem loan_eq_of_financing (hacquisition : worse.acquisition = better.acquisition)
    (hfinancing : worse.financing = better.financing) (h : Projects worse options loan p)
    (h' : Projects better options loan' p') : loan = loan' := by
  have hcapital : p.capital = p'.capital := by
    have hcapital := h.capital_eq
    unfold CapitalStack.ofDeal at hcapital
    rw [hacquisition, hfinancing] at hcapital
    exact Except.ok.inj (hcapital.symm.trans h'.capital_eq)
  have hloan := h.loan_eq
  rw [hcapital, hfinancing] at hloan
  exact Except.ok.inj (hloan.symm.trans h'.loan_eq)

theorem Projects.levered_le (h : Projects worse options loan p) (h' : Projects better options loan' p')
    (hweaker : worse.Weaker better) (hearning : worse.Earning)
    (hfee : worse.expenses.managementFeePct.value = 0)
    (hacquisition : worse.acquisition = better.acquisition)
    (hfinancing : worse.financing = better.financing) :
    YearByYear AnnualCashFlow.leveredCashFlow p p' := by
  cases loan_eq_of_financing hacquisition hfinancing h h'
  exact (h.earnsLess h' hweaker hearning).imp fun _ _ hrow => hrow.levered_le hfee (le_refl _)

theorem Projects.grossExitValue_le (h : Projects worse options loan p)
    (h' : Projects better options' loan' p') (hweaker : worse.Weaker better)
    (hnoi : YearByYear AnnualCashFlow.noi p p') (hnonneg : 0 ≤ (lastNoi p).value) :
    p.exit.grossExitValue.value ≤ p'.exit.grossExitValue.value :=
  projectExit_le hweaker (exitCapRate_pos h'.valid) ⟨hnonneg, hnoi.lastNoi_le⟩ _ _ h.exit_eq h'.exit_eq

end ProForma

end PropertyFinance
