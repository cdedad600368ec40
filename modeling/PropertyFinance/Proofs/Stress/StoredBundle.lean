import PropertyFinance.Proofs.Decimal.Writing
import PropertyFinance.Proofs.Document.Scenarios
import PropertyFinance.Proofs.Stress.Severity
import PropertyFinance.Service

/-! The default bundle attached to a deal, written to its document and read again. No shift gives a zero
a sign, so that the scenarios come back as they were, and the test of the attached bundle takes the
same course as that of the default one. -/

namespace PropertyFinance
set_option autoImplicit false

namespace Decimal
variable {a b c : Decimal}

theorem plain_add (ha : a.plain = a) (hb : b.plain = b) (h : a.add b = .ok c) : c.plain = c := by
  have h := orFault_eq_ok.mp h
  by_cases hza : a.isZero = true
  · rw [add?, if_pos hza] at h
    exact Option.some.inj h ▸ hb
  · by_cases hzb : b.isZero = true
    · rw [add?, if_neg hza, if_pos hzb] at h
      exact Option.some.inj h ▸ ha
    · rw [plain_eq_self_iff]
      rintro ⟨hnegative, hzero⟩
      have hneg := value_neg_of_add? (Bool.eq_false_iff.mpr hza) (Bool.eq_false_iff.mpr hzb) h hnegative
      exact absurd (isZero_iff.mp hzero) hneg.ne

theorem plain_sub (ha : a.plain = a) (hb : b.isZero = false) (h : a.sub b = .ok c) : c.plain = c := by
  have h := orFault_eq_ok.mp h
  rw [sub?, hb, if_neg Bool.false_ne_true] at h
  exact plain_add (b := b.negate) ha (plain_of_isZero_eq_false hb) (orFault_eq_ok.mpr h)

theorem plain_max (ha : a.plain = a) (hb : b.plain = b) : (a.max b).plain = a.max b := by
  unfold Decimal.max
  split
  case isTrue => exact hb
  case isFalse => exact ha

end Decimal

namespace Axis
variable {axis : Axis} {deal shifted : Deal} {value offset : Decimal}

theorem baseValue_plain (axis : Axis) (deal : Deal) :
    axis.baseValue deal.plain = (axis.baseValue deal).plain := by
  cases axis <;> rfl

theorem set_plain (axis : Axis) (deal : Deal) (value : Decimal) :
    (axis.set deal value).plain = axis.set deal.plain value.plain := by
  cases axis <;> rfl

theorem plain_set (hdeal : deal.plain = deal) (hvalue : value.plain = value) :
    (axis.set deal value).plain = axis.set deal value := by
  rw [set_plain, hdeal, hvalue]

theorem plain_shift (hdeal : deal.plain = deal) (haxis : axis.offsetMode = .absolute)
    (hoffset : offset.plain = offset) (h : axis.shift deal offset = .ok shifted) :
    shifted.plain = shifted := by
  rw [shift_eq] at h
  obtain ⟨value, hvalue, h⟩ := bind_eq_ok.mp h
  cases pure_eq_ok.mp h
  have hbase : (axis.baseValue deal).plain = axis.baseValue deal := by rw [← baseValue_plain, hdeal]
  apply plain_set hdeal
  unfold settingAt at hvalue
  split at hvalue
  case isTrue =>
    cases pure_eq_ok.mp hvalue
    exact hbase
  case isFalse =>
    rw [offsetValue, haxis] at hvalue
    exact Decimal.plain_add hbase hoffset hvalue

end Axis

namespace Stress
variable {deal variant : Deal} {bundle : StressBundle Assumptions} {assumptions : Assumptions}

theorem plain_downside (hdeal : deal.plain = deal) (h : downside deal = .ok variant) :
    variant.plain = variant := by
  obtain ⟨grown, hgrown, h⟩ := bind_eq_ok.mp h
  obtain ⟨vacant, hvacant, h⟩ := bind_eq_ok.mp h
  exact Axis.plain_shift (Axis.plain_shift (Axis.plain_shift hdeal rfl rfl hgrown) rfl rfl hvacant) rfl rfl h

theorem plain_upside (hdeal : deal.plain = deal) (h : upside deal = .ok variant) :
    variant.plain = variant := by
  obtain ⟨grown, hgrown, h⟩ := bind_eq_ok.mp h
  obtain ⟨vacancy, hvacancy, h⟩ := bind_eq_ok.mp h
  have hplain := Axis.plain_shift hdeal rfl rfl hgrown
  have hbase : grown.income.vacancyPct.plain = grown.income.vacancyPct :=
    (Axis.vacancy.baseValue_plain grown).symm.trans (congrArg Axis.vacancy.baseValue hplain)
  have hvacant := Decimal.plain_max (Decimal.plain_sub hbase rfl hvacancy) (b := .zero) rfl
  exact Axis.plain_shift (Axis.plain_set hplain hvacant) rfl rfl h

theorem plain_severeDownside (hdeal : deal.plain = deal) (h : severeDownside deal = .ok variant) :
    variant.plain = variant := by
  obtain ⟨grown, hgrown, h⟩ := bind_eq_ok.mp h
  obtain ⟨vacant, hvacant, h⟩ := bind_eq_ok.mp h
  obtain ⟨sold, hsold, h⟩ := bind_eq_ok.mp h
  exact Axis.plain_shift (Axis.plain_shift (Axis.plain_shift (Axis.plain_shift hdeal rfl rfl hgrown) rfl rfl
    hvacant) rfl rfl hsold) rfl rfl h

theorem bundle_eq_none_of_defaultBundle (h : defaultBundle assumptions = .ok bundle) :
    ∀ s ∈ bundle.scenarios, s.assumptions.bundle = none := by
  obtain ⟨down, up, severe, -, -, -, hscenarios⟩ := scenarios_of_defaultBundle h
  rw [hscenarios]
  simp [scenario, Assumptions.ofDeal]

/-- What is attached is dropped before the bundle is built, so the deal alone decides. -/
theorem defaultBundle_congr {other : Assumptions} (h : other.deal = assumptions.deal) :
    defaultBundle other = defaultBundle assumptions := by
  have hbase : { other with bundle := none } = { assumptions with bundle := none } :=
    congrArg (Assumptions.mk · none) h
  rw [defaultBundle, hbase]
  rfl

theorem plain_scenario {id name : String} {probabilityPct : Decimal}
    (hprobability : probabilityPct.plain = probabilityPct) (hdeal : deal.plain = deal) :
    Assumptions.plainScenario (scenario id name probabilityPct (.ofDeal deal)) =
      scenario id name probabilityPct (.ofDeal deal) := by
  rw [scenario, Assumptions.ofDeal, Assumptions.plainScenario, Assumptions.plain, Assumptions.plainAttached,
    hprobability, hdeal]

theorem plain_defaultBundle (hdeal : assumptions.deal.plain = assumptions.deal)
    (h : defaultBundle assumptions = .ok bundle) :
    Assumptions.plainBundle bundle = bundle := by
  obtain ⟨down, up, severe, hdown, hup, hsevere, hscenarios⟩ := scenarios_of_defaultBundle h
  obtain ⟨scenarios⟩ := bundle
  cases hscenarios
  simp only [Assumptions.plainBundle, Assumptions.plainScenarios]
  rw [plain_scenario rfl hdeal, plain_scenario rfl (plain_downside hdeal hdown),
    plain_scenario rfl (plain_upside hdeal hup), plain_scenario rfl (plain_severeDownside hdeal hsevere)]

/-- What a test reports, but for the basis it names. -/
def report (analysis : Analysis StressBasis StressResults) : StressResults × List String :=
  (analysis.result, analysis.warnings)

/-- The bundle that is attached is the bundle that is run by default. -/
theorem run_attached (hbundle : defaultBundle ⟨deal, none⟩ = .ok bundle) (options : CapitalOptions) :
    report <$> run ⟨deal, some bundle⟩ options = report <$> run ⟨deal, none⟩ options := by
  have hattached : bundleOf ⟨deal, some bundle⟩ = .ok bundle := rfl
  have hdefault : bundleOf ⟨deal, none⟩ = .ok bundle := hbundle
  simp only [run, hattached, hdefault, map_bind, apply_ite (Functor.map report), map_pure, report]

theorem run_of_defaultBundle_error {f : Fault} (h : defaultBundle ⟨deal, none⟩ = .error f)
    (options : CapitalOptions) : run ⟨deal, none⟩ options = .error (.fault f) := by
  have hdefault : bundleOf ⟨deal, none⟩ = .error f := h
  simp only [run, hdefault]
  rfl

theorem attachBundle_none (deal : Deal) : attachBundle ⟨deal, none⟩ =
    defaultBundle ⟨deal, none⟩ >>= fun bundle => pure ⟨deal, some bundle⟩ := rfl

/-- A deal to which its default bundle is attached comes back from its document, and the test that is
then run reports what it reports for the deal itself. A bundle is attached once only, and what is built
for a deal does not depend on one that it has. -/
theorem stored_bundle_runs_as_default (assumptions : Assumptions) (options : CapitalOptions) :
    (assumptions.plain = assumptions → assumptions.bundle = none →
      (∀ f, attachBundle assumptions = .error f → run assumptions options = .error (.fault f)) ∧
      ∀ attached, attachBundle assumptions = .ok attached →
        ∃ stored, Assumptions.ofJson? attached.toJson = some stored ∧
          report <$> run stored options = report <$> run assumptions options) ∧
    (attachBundle assumptions >>= attachBundle) = attachBundle assumptions ∧
    (∀ bundle, defaultBundle { assumptions with bundle } = defaultBundle assumptions ∧
      Service.bundleRun { assumptions with bundle } = Service.bundleRun assumptions) ∧
    ∀ bundle, defaultBundle assumptions = .ok bundle →
      ∀ s ∈ bundle.scenarios, s.assumptions.bundle = none := by
  obtain ⟨deal, attached?⟩ := assumptions
  refine ⟨?_, ?_, ?_, fun bundle => bundle_eq_none_of_defaultBundle⟩
  · rintro hplain hnone
    obtain rfl : attached? = none := hnone
    have hdeal : deal.plain = deal := congrArg Assumptions.deal hplain
    rw [attachBundle_none]
    cases hbundle : defaultBundle ⟨deal, none⟩ with
    | error f =>
      refine ⟨?_, nofun⟩
      rintro _ ⟨⟩
      exact run_of_defaultBundle_error hbundle options
    | ok bundle =>
      refine ⟨nofun, ?_⟩
      rintro _ ⟨⟩
      have hstored : (Assumptions.mk deal (some bundle)).plain = ⟨deal, some bundle⟩ := by
        rw [Assumptions.plain, Assumptions.plainAttached, hdeal, plain_defaultBundle hdeal hbundle]
      refine ⟨⟨deal, some bundle⟩, ?_, run_attached hbundle options⟩
      have hmeans := (Assumptions.mk deal (some bundle)).means
      rw [hstored] at hmeans
      exact hmeans.read_eq
  · cases attached? with
    | some bundle => rfl
    | none =>
      rw [attachBundle_none]
      cases defaultBundle ⟨deal, none⟩ with
      | error f => rfl
      | ok bundle => rfl
  · intro bundle
    have hsame : defaultBundle ⟨deal, bundle⟩ = defaultBundle ⟨deal, attached?⟩ := defaultBundle_congr rfl
    exact ⟨hsame, by rw [Service.bundleRun, Service.bundleRun, hsame]⟩

/-- The shop, with the scenarios of which none fails. -/
theorem stored_bundle_runs_as_default_shop :
    ∃ attached stored x, attachBundle (.ofDeal shop) = .ok attached ∧ attached.bundle.isSome = true ∧
      Assumptions.ofJson? attached.toJson = some stored ∧ run (.ofDeal shop) .none = .ok x ∧
      report <$> run stored .none = .ok (report x) := by
  obtain ⟨attached, hattached, hsome⟩ := exists_of_any (x := attachBundle (.ofDeal shop))
    (p := fun attached => attached.bundle.isSome) (by decide +kernel)
  obtain ⟨x, hx⟩ := exists_of_isOk (x := run (.ofDeal shop) .none) (by decide +kernel)
  have hplain : (Assumptions.ofDeal shop).plain = .ofDeal shop := rfl
  obtain ⟨stored, hstored, hrun⟩ :=
    ((stored_bundle_runs_as_default (.ofDeal shop) .none).1 hplain rfl).2 attached hattached
  exact ⟨attached, stored, x, hattached, hsome, hstored, hx, by rw [hrun, hx]; rfl⟩

end Stress

end PropertyFinance
