import PropertyFinance.Stress
import PropertyFinance.Proofs.Decimal.Capacity
import PropertyFinance.Proofs.ProForma.Ordering
import PropertyFinance.Proofs.Sensitivity.Sweep

/-! The default scenarios in the order of their severity. Each is the deal with its rent growth, vacancy
and exit cap rate shifted, every shift to the worse of the next, and the severe shift still leaves some
rent to collect. -/

namespace PropertyFinance
open Decimal
set_option autoImplicit false

namespace Decimal

theorem abs_nearest_sub_le_half (x : ℚ) : |nearest x - x| ≤ 1 / 2 := by
  refine (abs_nearest_sub_le_unit x).trans ?_
  exact div_le_self (by norm_num) (one_le_pow₀ (by norm_num))

/-- The hundredth part of a decimal keeps two places. -/
theorem abs_nearest_hundredth_sub_le (a : Decimal) :
    |nearest (a.value / 100) - a.value / 100| ≤ 1 / 200 := by
  have hfits : Fits (a.value / 100) 2 := by
    rw [Fits, abs_div, abs_of_pos (by norm_num : (0 : ℚ) < 100)]
    linarith [abs_value_le a]
  have hplaces : (10 : ℚ) ^ 2 ≤ 10 ^ places (a.value / 100) :=
    pow_le_pow_right₀ (by norm_num) (le_places hfits (by decide))
  refine (abs_nearest_sub_le_unit _).trans ?_
  rw [div_le_iff₀ (by positivity)]
  linarith

theorem value_ofScaled_eq {n : Int} {s : Nat} {q : ℚ}
    (h : n.natAbs < capacity ∧ s ≤ maxScale ∧ (n : ℚ) / 10 ^ s = q) : (ofScaled n s).value = q := by
  rw [value_ofScaled h.1 h.2.1, h.2.2]

end Decimal

theorem Axis.shift_absolute {axis : Axis} {deal shifted : Deal} {offset : Decimal} (q : ℚ)
    (h : axis.shift deal offset = .ok shifted) (haxis : axis.offsetMode = .absolute)
    (hoffset : offset.value = q) :
    ∃ value : Decimal, value.value = nearest ((axis.baseValue deal).value + q) ∧
      shifted = axis.set deal value := by
  rw [shift_eq] at h
  obtain ⟨value, hvalue, h⟩ := bind_eq_ok.mp h
  refine ⟨value, ?_, (pure_eq_ok.mp h).symm⟩
  unfold settingAt at hvalue
  split at hvalue
  case isTrue hzero =>
    cases pure_eq_ok.mp hvalue
    rw [← hoffset, isZero_iff.mp hzero, add_zero, nearest_value]
  case isFalse =>
    rw [offsetValue, haxis] at hvalue
    rw [← hoffset]
    exact value_add hvalue

namespace Stress
variable {deal x y : Deal} {g v c g' v' c' : ℚ}

/-- A variant with this rent growth, vacancy and exit cap rate; its financing may be another. -/
structure Varies (deal variant : Deal) (g v c : ℚ) : Prop where
  acquisition_eq : variant.acquisition = deal.acquisition
  rentPerSf_eq : variant.income.rentPerSf = deal.income.rentPerSf
  collectionLoss_eq : variant.income.collectionLossPct = deal.income.collectionLossPct
  otherIncome_eq : variant.income.otherIncome = deal.income.otherIncome
  expenses_eq : variant.expenses = deal.expenses
  buildableSf_eq : variant.buildableSf = deal.buildableSf
  rentGrowth_eq : variant.income.rentGrowthPct.value = g
  vacancy_eq : variant.income.vacancyPct.value = v
  exitCapRate_eq : variant.exit.exitCapRatePct.value = c

theorem varies_self (deal : Deal) : Varies deal deal deal.income.rentGrowthPct.value
    deal.income.vacancyPct.value deal.exit.exitCapRatePct.value :=
  ⟨rfl, rfl, rfl, rfl, rfl, rfl, rfl, rfl, rfl⟩

theorem Varies.weaker (hx : Varies deal x g v c) (hy : Varies deal y g' v' c') (hgrowth : g ≤ g')
    (hvacancy : v' ≤ v) (hcap : c' ≤ c) : x.Weaker y where
  holdYears_eq := by rw [hx.acquisition_eq, hy.acquisition_eq]
  rentPerSf_eq := by rw [hx.rentPerSf_eq, hy.rentPerSf_eq]
  collectionLoss_eq := by rw [hx.collectionLoss_eq, hy.collectionLoss_eq]
  otherIncome_eq := by rw [hx.otherIncome_eq, hy.otherIncome_eq]
  expenses_eq := by rw [hx.expenses_eq, hy.expenses_eq]
  buildableSf_eq := by rw [hx.buildableSf_eq, hy.buildableSf_eq]
  rentGrowth_le := by rwa [hx.rentGrowth_eq, hy.rentGrowth_eq]
  vacancy_le := by rwa [hx.vacancy_eq, hy.vacancy_eq]
  exitCapRate_le := by rwa [hx.exitCapRate_eq, hy.exitCapRate_eq]

theorem varies_downside (h : downside deal = .ok x) :
    Varies deal x (nearest (deal.income.rentGrowthPct.value + -1))
      (nearest (deal.income.vacancyPct.value + 3))
      (nearest (deal.exit.exitCapRatePct.value + 1 / 2)) ∧ x.financing = deal.financing := by
  obtain ⟨grown, hgrown, h⟩ := bind_eq_ok.mp h
  obtain ⟨vacant, hvacant, h⟩ := bind_eq_ok.mp h
  obtain ⟨growth, hgrowth, rfl⟩ := Axis.shift_absolute (-1) hgrown rfl (value_ofScaled_eq ⟨by decide, by decide, by norm_num⟩)
  obtain ⟨vacancy, hvacancy, rfl⟩ := Axis.shift_absolute 3 hvacant rfl (value_ofScaled_eq ⟨by decide, by decide, by norm_num⟩)
  obtain ⟨cap, hcap, rfl⟩ := Axis.shift_absolute (1 / 2) h rfl (value_ofScaled_eq ⟨by decide, by decide, by norm_num⟩)
  exact ⟨⟨rfl, rfl, rfl, rfl, rfl, rfl, hgrowth, hvacancy, hcap⟩, rfl⟩

theorem varies_upside (h : upside deal = .ok x) :
    Varies deal x (nearest (deal.income.rentGrowthPct.value + 1))
      (max (nearest (deal.income.vacancyPct.value - 1)) 0)
      (nearest (deal.exit.exitCapRatePct.value + -1 / 4)) ∧ x.financing = deal.financing := by
  obtain ⟨grown, hgrown, h⟩ := bind_eq_ok.mp h
  obtain ⟨vacancy, hvacancy, h⟩ := bind_eq_ok.mp h
  obtain ⟨growth, hgrowth, rfl⟩ := Axis.shift_absolute 1 hgrown rfl value_one
  obtain ⟨cap, hcap, rfl⟩ := Axis.shift_absolute (-1 / 4) h rfl (value_ofScaled_eq ⟨by decide, by decide, by norm_num⟩)
  have hvacant : vacancy.value = nearest (deal.income.vacancyPct.value - 1) := by
    rw [value_sub hvacancy, value_one]
    rfl
  refine ⟨⟨rfl, rfl, rfl, rfl, rfl, rfl, hgrowth, ?_, hcap⟩, rfl⟩
  rw [← hvacant, ← value_zero]
  exact value_max vacancy .zero

theorem varies_severeDownside (h : severeDownside deal = .ok x) :
    Varies deal x (nearest (deal.income.rentGrowthPct.value + -2))
      (nearest (deal.income.vacancyPct.value + 7))
      (nearest (deal.exit.exitCapRatePct.value + 1)) := by
  obtain ⟨grown, hgrown, h⟩ := bind_eq_ok.mp h
  obtain ⟨vacant, hvacant, h⟩ := bind_eq_ok.mp h
  obtain ⟨sold, hsold, h⟩ := bind_eq_ok.mp h
  obtain ⟨growth, hgrowth, rfl⟩ := Axis.shift_absolute (-2) hgrown rfl (value_ofScaled_eq ⟨by decide, by decide, by norm_num⟩)
  obtain ⟨vacancy, hvacancy, rfl⟩ := Axis.shift_absolute 7 hvacant rfl (value_ofScaled_eq ⟨by decide, by decide, by norm_num⟩)
  obtain ⟨cap, hcap, rfl⟩ := Axis.shift_absolute 1 hsold rfl value_one
  obtain ⟨interest, -, rfl⟩ := Axis.shift_absolute (3 / 2) h rfl (value_ofScaled_eq ⟨by decide, by decide, by norm_num⟩)
  exact ⟨rfl, rfl, rfl, rfl, rfl, rfl, hgrowth, hvacancy, hcap⟩

/-- What the shifts need of a deal. -/
structure Stressable (deal : Deal) : Prop where
  rentPerSf_nonneg : 0 ≤ deal.income.rentPerSf.value
  buildableSf_nonneg : 0 ≤ deal.buildableSf.value
  otherIncome_nonneg : 0 ≤ deal.income.otherIncome.value
  vacancy_nonneg : 0 ≤ deal.income.vacancyPct.value
  loss_le : deal.income.vacancyPct.value + deal.income.collectionLossPct.value ≤ 90
  rentGrowth_ge : -98 ≤ deal.income.rentGrowthPct.value

theorem Stressable.earning_severe (hdeal : Stressable deal)
    (h : Varies deal x (nearest (deal.income.rentGrowthPct.value + -2))
      (nearest (deal.income.vacancyPct.value + 7)) c) : x.Earning where
  rentPerSf_nonneg := h.rentPerSf_eq ▸ hdeal.rentPerSf_nonneg
  buildableSf_nonneg := h.buildableSf_eq ▸ hdeal.buildableSf_nonneg
  otherIncome_nonneg := h.otherIncome_eq ▸ hdeal.otherIncome_nonneg
  rentGrowth_ge := by
    have hwhole : hundred.negate.value ≤ nearest (deal.income.rentGrowthPct.value + -2) := by
      apply value_le_nearest
      rw [value_negate, value_hundred]
      linarith [hdeal.rentGrowth_ge]
    rwa [h.rentGrowth_eq, ← value_hundred, ← value_negate]
  lossRate_le := by
    have hvacancy := (abs_le.mp (abs_nearest_sub_le_half (deal.income.vacancyPct.value + 7))).2
    have hvacant := (abs_le.mp (abs_nearest_hundredth_sub_le x.income.vacancyPct)).2
    have hlost := (abs_le.mp (abs_nearest_hundredth_sub_le deal.income.collectionLossPct)).2
    rw [IncomeTerms.lossRate, h.collectionLoss_eq]
    rw [← h.vacancy_eq] at hvacancy
    linarith [hdeal.loss_le]

/-- The four deals of the default bundle, each weaker than the next. -/
structure Graded (severe down base up : Deal) : Prop where
  severe_down : severe.Weaker down
  down_base : down.Weaker base
  base_up : base.Weaker up
  earning : severe.Earning
  acquisition_down : down.acquisition = base.acquisition
  acquisition_up : up.acquisition = base.acquisition
  financing_down : down.financing = base.financing
  financing_up : up.financing = base.financing

theorem Stressable.graded {down up severe : Deal} (hdeal : Stressable deal)
    (hdown : downside deal = .ok down) (hup : upside deal = .ok up)
    (hsevere : severeDownside deal = .ok severe) : Graded severe down deal up := by
  obtain ⟨hdown, hfinancing⟩ := varies_downside hdown
  obtain ⟨hup, hfinancing'⟩ := varies_upside hup
  have hsevere := varies_severeDownside hsevere
  refine ⟨?_, ?_, ?_, hdeal.earning_severe hsevere, hdown.acquisition_eq, hup.acquisition_eq,
    hfinancing, hfinancing'⟩
  · apply hsevere.weaker hdown <;> apply nearest_mono <;> linarith
  · apply hdown.weaker (varies_self deal)
    · apply nearest_le_value
      linarith
    · apply value_le_nearest
      linarith
    · apply value_le_nearest
      linarith
  · apply (varies_self deal).weaker hup
    · apply value_le_nearest
      linarith
    · apply max_le _ hdeal.vacancy_nonneg
      apply nearest_le_value
      linarith
    · apply nearest_le_value
      linarith

section Bundle
variable {assumptions varied : Assumptions} {bundle : StressBundle Assumptions}

/-- A variant keeps the bundle that is attached, if there is one. -/
theorem vary_eq_ok {change : Deal → Arith Deal} : vary change assumptions = .ok varied ↔
    ∃ deal, change assumptions.deal = .ok deal ∧ { assumptions with deal } = varied := by
  simp only [vary, bind_eq_ok, pure_eq_ok]

/-- The bundle that is dropped first is attached to none of the scenarios. -/
theorem scenarios_of_defaultBundle (h : defaultBundle assumptions = .ok bundle) :
    ∃ down up severe, downside assumptions.deal = .ok down ∧ upside assumptions.deal = .ok up ∧
      severeDownside assumptions.deal = .ok severe ∧ bundle.scenarios = [
        scenario "base" "Base Case" (.ofScaled 50 0) (.ofDeal assumptions.deal),
        scenario "downside" "Downside" (.ofScaled 25 0) (.ofDeal down),
        scenario "upside" "Upside" (.ofScaled 15 0) (.ofDeal up),
        scenario "severe_downside" "Severe Downside" (.ofScaled 10 0) (.ofDeal severe)] := by
  obtain ⟨_, hvaried, h⟩ := bind_eq_ok.mp h
  obtain ⟨down, hdown, rfl⟩ := vary_eq_ok.mp hvaried
  obtain ⟨_, hvaried, h⟩ := bind_eq_ok.mp h
  obtain ⟨up, hup, rfl⟩ := vary_eq_ok.mp hvaried
  obtain ⟨_, hvaried, h⟩ := bind_eq_ok.mp h
  obtain ⟨severe, hsevere, rfl⟩ := vary_eq_ok.mp hvaried
  cases pure_eq_ok.mp h
  exact ⟨down, up, severe, hdown, hup, hsevere, rfl⟩

theorem graded_of_defaultBundle (hdeal : Stressable assumptions.deal)
    (h : defaultBundle assumptions = .ok bundle) :
    ∃ down up severe, Graded severe down assumptions.deal up ∧
      bundle.scenarios.map StressScenario.assumptions
        = [.ofDeal assumptions.deal, .ofDeal down, .ofDeal up, .ofDeal severe] := by
  obtain ⟨down, up, severe, hdown, hup, hsevere, hscenarios⟩ := scenarios_of_defaultBundle h
  exact ⟨down, up, severe, hdeal.graded hdown hup hsevere, by rw [hscenarios]; rfl⟩

end Bundle

section Ordered
open ProForma
variable {assumptions : Assumptions} {options : CapitalOptions} {bundle : StressBundle Assumptions}
  {base down up severe : Analysis ProFormaBasis ProForma}

theorem map_analyse_eq (scenarios : List (StressScenario Assumptions)) (options : CapitalOptions) :
    scenarios.map (fun s => analyse s.assumptions options)
      = (scenarios.map StressScenario.assumptions).map (analyse · options) := by
  rw [List.map_map]
  rfl

/-- The default scenarios in the order of their severity. -/
theorem defaultBundle_ordered (hdeal : Stressable assumptions.deal)
    (hbundle : defaultBundle assumptions = .ok bundle)
    (hruns : bundle.scenarios.map (fun s => analyse s.assumptions options)
      = [.ok base, .ok down, .ok up, .ok severe]) :
    [severe, down, base, up].IsChain (fun a b =>
      YearByYear AnnualCashFlow.effectiveGrossIncome a.result b.result) ∧
    (assumptions.deal.expenses.managementFeePct.value = 0 →
      [severe, down, base, up].IsChain (fun a b =>
        YearByYear AnnualCashFlow.noi a.result b.result) ∧
      [down, base, up].IsChain (fun a b =>
        YearByYear AnnualCashFlow.leveredCashFlow a.result b.result) ∧
      (0 ≤ (lastNoi severe.result).value → [severe, down, base, up].IsChain (fun a b =>
        a.result.exit.grossExitValue.value ≤ b.result.exit.grossExitValue.value))) := by
  obtain ⟨downDeal, upDeal, severeDeal, hgraded, hdeals⟩ := graded_of_defaultBundle hdeal hbundle
  rw [map_analyse_eq, hdeals] at hruns
  simp only [List.map_cons, List.map_nil, List.cons.injEq, and_true] at hruns
  obtain ⟨hbase, hdown, hup, hsevere⟩ := hruns
  obtain ⟨_, hbase⟩ := projects_of_analyse hbase
  obtain ⟨_, hdown⟩ := projects_of_analyse hdown
  obtain ⟨_, hup⟩ := projects_of_analyse hup
  obtain ⟨_, hsevere⟩ := projects_of_analyse hsevere
  have earning_severe := hgraded.earning
  have earning_down := hgraded.severe_down.earning earning_severe
  have earning_base := hgraded.down_base.earning earning_down
  simp only [List.isChain_cons_cons, List.isChain_singleton, and_true]
  refine ⟨⟨hsevere.income_le hdown hgraded.severe_down earning_severe,
    hdown.income_le hbase hgraded.down_base earning_down,
    hbase.income_le hup hgraded.base_up earning_base⟩, ?_⟩
  intro hfee
  have fee_down : downDeal.expenses.managementFeePct.value = 0 := by
    rw [hgraded.down_base.expenses_eq]
    exact hfee
  have fee_severe : severeDeal.expenses.managementFeePct.value = 0 := by
    rw [hgraded.severe_down.expenses_eq]
    exact fee_down
  have noi_severe := hsevere.noi_le hdown hgraded.severe_down earning_severe fee_severe
  have noi_down := hdown.noi_le hbase hgraded.down_base earning_down fee_down
  have noi_base := hbase.noi_le hup hgraded.base_up earning_base hfee
  refine ⟨⟨noi_severe, noi_down, noi_base⟩, ⟨?_, ?_⟩, ?_⟩
  · exact hdown.levered_le hbase hgraded.down_base earning_down fee_down hgraded.acquisition_down
      hgraded.financing_down
  · exact hbase.levered_le hup hgraded.base_up earning_base hfee hgraded.acquisition_up.symm
      hgraded.financing_up.symm
  · intro hnonneg
    have nonneg_down := hnonneg.trans noi_severe.lastNoi_le
    have nonneg_base := nonneg_down.trans noi_down.lastNoi_le
    exact ⟨hsevere.grossExitValue_le hdown hgraded.severe_down noi_severe hnonneg,
      hdown.grossExitValue_le hbase hgraded.down_base noi_down nonneg_down,
      hbase.grossExitValue_le hup hgraded.base_up noi_base nonneg_base⟩

/-- A shop that its owner manages. -/
def shop : Deal where
  acquisition := ⟨.ofScaled 800000 0, .two, 2⟩
  financing := ⟨.ofScaled 60 0, .ofScaled 6 0, 25⟩
  income := ⟨.ofScaled 22 0, .ofScaled 3 0, .ofScaled 5 0, .one, .ofScaled 1200 0⟩
  expenses := ⟨.ofScaled 5 0, .two, .zero⟩
  exit := ⟨.ofScaled 7 0, .two⟩
  buildableSf := .ofScaled 4000 0

theorem shop_stressable : Stressable shop := by
  have hwhole {n : Int} (hn : n.natAbs < capacity) : (ofScaled n 0).value = n :=
    value_ofScaled_eq ⟨hn, by decide, by norm_num⟩
  refine ⟨?_, ?_, ?_, ?_, ?_, ?_⟩ <;> simp only [shop, value_one] <;> rw [hwhole (by decide)] <;>
    norm_num

theorem defaultBundle_ordered_shop :
    ∃ bundle base down up severe, defaultBundle (.ofDeal shop) = .ok bundle ∧
      bundle.scenarios.map (fun s => analyse s.assumptions .none)
        = [.ok base, .ok down, .ok up, .ok severe] ∧
      [severe, down, base, up].IsChain (fun a b =>
        YearByYear AnnualCashFlow.effectiveGrossIncome a.result b.result) ∧
      [severe, down, base, up].IsChain (fun a b =>
        YearByYear AnnualCashFlow.noi a.result b.result) ∧
      [down, base, up].IsChain (fun a b =>
        YearByYear AnnualCashFlow.leveredCashFlow a.result b.result) ∧
      [severe, down, base, up].IsChain (fun a b =>
        a.result.exit.grossExitValue.value ≤ b.result.exit.grossExitValue.value) := by
  obtain ⟨bundle, hbundle, hcheck⟩ := exists_of_any (x := defaultBundle (.ofDeal shop)) (p := fun bundle =>
    (bundle.scenarios.map StressScenario.assumptions).all fun assumptions =>
      (analyse assumptions .none).toOption.any fun a => decide (Decimal.zero ≤ lastNoi a.result))
    (by decide +kernel)
  have hshop : Stressable (Assumptions.ofDeal shop).deal := shop_stressable
  obtain ⟨downDeal, upDeal, severeDeal, -, hdeals⟩ := graded_of_defaultBundle hshop hbundle
  rw [hdeals] at hcheck
  simp only [List.all_cons, List.all_nil, Bool.and_true, Bool.and_eq_true] at hcheck
  obtain ⟨hbase, hdown, hup, hsevere⟩ := hcheck
  obtain ⟨base, hbase, -⟩ := exists_of_any hbase
  obtain ⟨down, hdown, -⟩ := exists_of_any hdown
  obtain ⟨up, hup, -⟩ := exists_of_any hup
  obtain ⟨severe, hsevere, hnonneg⟩ := exists_of_any hsevere
  have hruns : bundle.scenarios.map (fun s => analyse s.assumptions .none)
      = [.ok base, .ok down, .ok up, .ok severe] := by
    rw [map_analyse_eq, hdeals, List.map_cons, List.map_cons, List.map_cons, List.map_cons, List.map_nil,
      hbase, hdown, hup, hsevere]
  rw [decide_eq_true_iff, zero_le_iff] at hnonneg
  obtain ⟨hincome, hrest⟩ := defaultBundle_ordered hshop hbundle hruns
  obtain ⟨hnoi, hlevered, hexit⟩ := hrest value_zero
  exact ⟨bundle, base, down, up, severe, hbundle, hruns, hincome, hnoi, hlevered, hexit hnonneg⟩

end Ordered

end Stress

end PropertyFinance
