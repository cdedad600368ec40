import PropertyFinance.Proofs.CashFlow.Completeness
import PropertyFinance.Proofs.ProForma.Projection

/-! The levered rate that a pro forma reports. It is the solver's answer without the remark on how it was
found, so where Newton's method stalls and there is no bracket it is the last rate tried, and the
recommendation rests on it like on any other. -/

namespace PropertyFinance
open Decimal
set_option autoImplicit false

namespace Yield
variable {flows : List Decimal} {options : YieldOptions} {s : Yield}

/-- Newton's method ends at a rate that it has not accepted, and bisection finds none. -/
structure Unsettled (flows : List Decimal) (options : YieldOptions) (rate : Decimal) : Prop where
  stalled : ∃ n, newton flows options.tolerance options.maxIterations.toNat 0
    (options.guess.clamp floorRate ceilingRate) = .ok (.stalled rate n)
  unbracketed : bisect flows options.tolerance = .ok none

theorem converged_eq_false_iff (h : solve flows options = .ok (some s)) :
    s.converged = false ↔ Unsettled flows options s.rate := by
  unfold solve at h
  split at h
  case isFalse => exact nomatch pure_eq_ok.mp h
  case isTrue =>
    obtain ⟨descent, hdescent, h⟩ := bind_eq_ok.mp h
    cases descent with
    | root rate iterations =>
      cases h
      constructor
      · intro hfalse
        exact nomatch hfalse
      · rintro ⟨⟨n, hstalled⟩, -⟩
        exact nomatch hdescent.symm.trans hstalled
    | stalled rate iterations =>
      obtain ⟨found, hfound, h⟩ := bind_eq_ok.mp h
      cases found with
      | none =>
        cases h
        exact ⟨fun _ => ⟨⟨iterations, hdescent⟩, hfound⟩, fun _ => rfl⟩
      | some s =>
        cases h
        rcases bisect_ends flows options.tolerance with ⟨t, ht, hbisected, -⟩ | ⟨hnone, -⟩
        · cases hfound.symm.trans ht
          rw [hbisected.converged_eq]
          constructor
          · intro hfalse
            exact nomatch hfalse
          · rintro ⟨-, hnone⟩
            exact nomatch hfound.symm.trans hnone
        · exact nomatch hfound.symm.trans hnone

/-- The solver finds the rate under its default options, by either method. -/
def Verified (flows : List Decimal) (rate : Decimal) : Prop :=
  ∃ s, solve flows defaults = .ok (some s) ∧ s.converged = true ∧ s.rate = rate

theorem verified_iff (h : solve flows defaults = .ok (some s)) :
    Verified flows s.rate ↔ ¬ Unsettled flows defaults s.rate := by
  rw [← converged_eq_false_iff h, Bool.not_eq_false]
  constructor
  · rintro ⟨s', hs', hconverged, -⟩
    cases h.symm.trans hs'
    exact hconverged
  · intro hconverged
    exact ⟨s, h, hconverged, rfl⟩

theorem verified_of_signsDiffer (h : solve flows defaults = .ok (some s))
    (hlen : flows.length < 2 ^ 32) (hsize : magnitude flows ≤ 10 ^ 27) (hsigns : SignsDiffer flows) :
    Verified flows s.rate := by
  refine ⟨s, h, ?_, rfl⟩
  rw [(solve_shape h).converged_iff]
  intro hmethod
  rcases (solve_shape h).of_bestEffort hmethod with hsame | hoverflow
  · exact hsame hsigns
  · exact not_overflowsAt hlen hsize hoverflow

end Yield

namespace ProForma
open Yield
variable {assumptions : Assumptions} {options : CapitalOptions}
  {a : Analysis ProFormaBasis ProForma} {metrics : ReturnMetrics}

theorem isMet_iff {t : Threshold} {irr multiple : Decimal} {dscr : Option Decimal} :
    t.isMet irr multiple dscr = true ↔ t.irr.value ≤ irr.value ∧ t.multiple.value ≤ multiple.value ∧
      ∀ d ∈ dscr, t.dscr.value ≤ d.value := by
  simp only [Threshold.isMet, Bool.and_eq_true, decide_eq_true_eq, Option.all_eq_true, le_iff_value_le,
    and_assoc, Option.mem_def]

theorem conditional_of_proceed {irr multiple : Decimal} {dscr : Option Decimal}
    (h : proceedThreshold.isMet irr multiple dscr = true) :
    conditionalThreshold.isMet irr multiple dscr = true := by
  have hirr : conditionalThreshold.irr.value ≤ proceedThreshold.irr.value :=
    le_iff_value_le.mp (by decide)
  have hmultiple : conditionalThreshold.multiple.value ≤ proceedThreshold.multiple.value :=
    le_iff_value_le.mp (by decide)
  have hdscr : conditionalThreshold.dscr.value ≤ proceedThreshold.dscr.value :=
    le_iff_value_le.mp (by decide)
  rw [isMet_iff] at h ⊢
  obtain ⟨h₁, h₂, h₃⟩ := h
  exact ⟨hirr.trans h₁, hmultiple.trans h₂, fun d hd => hdscr.trans (h₃ d hd)⟩

/-- A recommended deal reports a rate and a multiple, and they meet the lower thresholds. -/
theorem recommend_ne_pass (h : recommend metrics ≠ .pass) :
    ∃ irr multiple, metrics.leveredIrr = some irr ∧ metrics.equityMultiple = some multiple ∧
      conditionalThreshold.isMet irr multiple metrics.dscrYear1 = true := by
  unfold recommend at h
  split at h
  case h_2 => exact absurd rfl h
  case h_1 irr multiple hirr hmultiple =>
    refine ⟨irr, multiple, hirr, hmultiple, ?_⟩
    split at h
    case isTrue hproceed => exact conditional_of_proceed hproceed
    case isFalse =>
      split at h
      case isTrue hmet => exact hmet
      case isFalse => exact absurd rfl h

theorem recommendation_of_analyse (h : analyse assumptions options = .ok a) :
    a.result.recommendation = recommend a.result.metrics := by
  obtain ⟨run, hrun, h⟩ := bind_eq_ok.mp h
  cases pure_eq_ok.mp h
  obtain ⟨_, -, hrun⟩ := bind_eq_ok.mp hrun
  obtain ⟨capital, -, hrun⟩ := bind_eq_ok.mp hrun
  obtain ⟨loan, -, hrun⟩ := bind_eq_ok.mp hrun
  obtain ⟨years, -, hrun⟩ := bind_eq_ok.mp hrun
  obtain ⟨exit, -, hrun⟩ := bind_eq_ok.mp hrun
  obtain ⟨flows, -, hrun⟩ := bind_eq_ok.mp hrun
  obtain ⟨metrics, -, hrun⟩ := bind_eq_ok.mp hrun
  cases pure_eq_ok.mp hrun
  rfl

/-- The solver's answer for the levered flows, of which only the rate is kept. -/
theorem solve_of_analyse (h : analyse assumptions options = .ok a) :
    ∃ answer, solve a.result.leveredCashFlows defaults = .ok answer ∧
      a.result.metrics.leveredIrr = answer.map Yield.rate := by
  obtain ⟨loan, hprojects⟩ := projects_of_analyse h
  have hrate := (measures_of_metricsOf hprojects.metrics_eq).leveredIrr_eq
  obtain ⟨answer, hanswer, hrate⟩ := bind_eq_ok.mp hrate
  exact ⟨answer, hanswer, (pure_eq_ok.mp hrate).symm⟩

/-- What stands behind the levered rate of a pro forma. -/
structure ReportsYield (p : ProForma) : Prop where
  none_iff : p.metrics.leveredIrr = none ↔ changesSign p.leveredCashFlows = false
  verified_iff : ∀ r, p.metrics.leveredIrr = some r →
    (Verified p.leveredCashFlows r ↔ ¬ Unsettled p.leveredCashFlows defaults r)
  verified_of_bracket : ∀ r, p.metrics.leveredIrr = some r → p.leveredCashFlows.length < 2 ^ 32 →
    magnitude p.leveredCashFlows ≤ 10 ^ 27 → SignsDiffer p.leveredCashFlows →
    Verified p.leveredCashFlows r
  recommended : p.recommendation ≠ .pass → ∃ irr multiple, p.metrics.leveredIrr = some irr ∧
    p.metrics.equityMultiple = some multiple ∧
    conditionalThreshold.isMet irr multiple p.metrics.dscrYear1 = true

/-- A rate is reported for all flows of both signs. It is a verified one unless the solver is unsettled,
which it is not where the bracket shows both signs. A recommendation always rests on the rate. -/
theorem reportsYield_of_analyse (h : analyse assumptions options = .ok a) : ReportsYield a.result := by
  obtain ⟨answer, hanswer, hirr⟩ := solve_of_analyse h
  have hsolved {r : Decimal} (hr : a.result.metrics.leveredIrr = some r) :
      ∃ s, solve a.result.leveredCashFlows defaults = .ok (some s) ∧ s.rate = r := by
    rw [hirr, Option.map_eq_some_iff] at hr
    obtain ⟨s, rfl, hs⟩ := hr
    exact ⟨s, hanswer, hs⟩
  refine ⟨?_, ?_, ?_, ?_⟩
  · rw [hirr, Option.map_eq_none_iff]
    exact solve_eq_none_iff hanswer
  · intro r hr
    obtain ⟨s, hs, rfl⟩ := hsolved hr
    exact Yield.verified_iff hs
  · intro r hr hlen hsize hsigns
    obtain ⟨s, hs, rfl⟩ := hsolved hr
    exact verified_of_signsDiffer hs hlen hsize hsigns
  · intro hrecommended
    rw [recommendation_of_analyse h] at hrecommended
    exact recommend_ne_pass hrecommended

/-- A warehouse whose rents fall by 30 percent a year. -/
def fadingWarehouse : Deal where
  acquisition := ⟨.ofScaled 1000000 0, .two, 5⟩
  financing := ⟨.ofScaled 80 0, .ofScaled 5 0, 0⟩
  income := ⟨.ofScaled 60 0, .ofScaled (-30) 0, .ofScaled 5 0, .one, .zero⟩
  expenses := ⟨.ofScaled 5 0, .zero, .ofScaled 3 0⟩
  exit := ⟨.ofScaled 10 0, .two⟩
  buildableSf := .ofScaled 5000 0

/-- It is sold after a year, before the rents fall. -/
def soldWarehouse : Deal :=
  { fadingWarehouse with acquisition := { fadingWarehouse.acquisition with holdYears := 1 } }

theorem reportsYield_of_analyse_sold :
    ∃ a, analyse (.ofDeal soldWarehouse) .none = .ok a ∧ ReportsYield a.result := by
  have hok : (analyse (.ofDeal soldWarehouse) .none).isOk = true := by
    decide +kernel
  obtain ⟨a, ha⟩ := exists_of_isOk hok
  exact ⟨a, ha, reportsYield_of_analyse ha⟩

/-- The last rate tried does get recommended. It is not a root by the solver's own test. -/
theorem unverified_rate_recommended :
    ∃ a r, analyse (.ofDeal fadingWarehouse) .none = .ok a ∧ a.result.metrics.leveredIrr = some r ∧
      ¬ Verified a.result.leveredCashFlows r ∧
      isWithin a.result.leveredCashFlows defaults.tolerance r = .ok false ∧
      a.result.recommendation = .proceed ∧ a.warnings = [] := by
  obtain ⟨a, ha, hcheck⟩ := exists_of_any (x := analyse (.ofDeal fadingWarehouse) .none) (p := fun a =>
    (a.result.metrics.leveredIrr.any fun r =>
      (isWithin a.result.leveredCashFlows defaults.tolerance r).toOption.any (! ·)) &&
    ((solve a.result.leveredCashFlows defaults).toOption.any fun found => found.all (!·.converged)) &&
    decide (a.result.recommendation = .proceed ∧ a.warnings = [])) (by decide +kernel)
  rw [Bool.and_eq_true, Bool.and_eq_true, decide_eq_true_iff, Option.any_eq_true] at hcheck
  obtain ⟨⟨⟨r, hr, hwithin⟩, hsolve⟩, hrecommended⟩ := hcheck
  obtain ⟨within, hwithin, hoff⟩ := exists_of_any hwithin
  rw [Bool.not_eq_true'] at hoff
  refine ⟨a, r, ha, hr, ?_, hoff ▸ hwithin, hrecommended⟩
  rintro ⟨s, hs, hconverged, -⟩
  obtain ⟨found, hfound, hall⟩ := exists_of_any hsolve
  cases hs.symm.trans hfound
  rw [Option.all_some, hconverged] at hall
  exact nomatch hall

end ProForma

end PropertyFinance
