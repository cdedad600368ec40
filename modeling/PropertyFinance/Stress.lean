import PropertyFinance.Axis
import PropertyFinance.ProForma
import PropertyFinance.Sensitivity

/-! Stress scenarios: four variants of a deal unless others are attached, their returns, and the
returns weighted by the probabilities. -/

namespace PropertyFinance
set_option autoImplicit false

structure ScenarioEntry where
  id : String
  name : String
  probabilityPct : Decimal
  leveredIrr : Option Decimal
  equityMultiple : Option Decimal
deriving DecidableEq

structure WeightedMetrics where
  leveredIrr : Option Decimal
  equityMultiple : Option Decimal
  totalProbabilityPct : Decimal
deriving DecidableEq

structure StressResults where
  scenarios : List ScenarioEntry
  weighted : WeightedMetrics
deriving DecidableEq

structure StressBasis where
  scenarioCount : Nat
  isAttached : Bool
deriving DecidableEq

def StressBundle.totalProbability {A : Type} (bundle : StressBundle A) : Arith Decimal :=
  Decimal.sum (bundle.scenarios.map StressScenario.probabilityPct)

namespace Stress

def downside (deal : Deal) : Arith Deal := do
  let deal ← Axis.rentGrowth.shift deal (.ofScaled (-1) 0)
  let deal ← Axis.vacancy.shift deal (.ofScaled 3 0)
  Axis.exitCapRate.shift deal (.ofScaled 5 1)

/-- Vacancy falls by one point, but not below zero. -/
def upside (deal : Deal) : Arith Deal := do
  let deal ← Axis.rentGrowth.shift deal .one
  let vacancy := (← deal.income.vacancyPct.sub .one).max .zero
  Axis.exitCapRate.shift (Axis.vacancy.set deal vacancy) (.ofScaled (-25) 2)

def severeDownside (deal : Deal) : Arith Deal := do
  let deal ← Axis.rentGrowth.shift deal (.ofScaled (-2) 0)
  let deal ← Axis.vacancy.shift deal (.ofScaled 7 0)
  let deal ← Axis.exitCapRate.shift deal .one
  Axis.interestRate.shift deal (.ofScaled 15 1)

/-- The deal is changed; what is attached to it stays attached. -/
def vary (change : Deal → Arith Deal) (assumptions : Assumptions) : Arith Assumptions := do
  pure { assumptions with deal := ← change assumptions.deal }

def scenario (id name : String) (probabilityPct : Decimal) (assumptions : Assumptions) :
    StressScenario Assumptions :=
  ⟨id, name, probabilityPct, assumptions⟩

/-- The assumptions as they are and three variants of them. An attached bundle is dropped first, or
each scenario would carry it. -/
def defaultBundle (assumptions : Assumptions) : Arith (StressBundle Assumptions) := do
  let base := { assumptions with bundle := none }
  let down ← vary downside base
  let up ← vary upside base
  let severe ← vary severeDownside base
  pure ⟨[
    scenario "base" "Base Case" (.ofScaled 50 0) base,
    scenario "downside" "Downside" (.ofScaled 25 0) down,
    scenario "upside" "Upside" (.ofScaled 15 0) up,
    scenario "severe_downside" "Severe Downside" (.ofScaled 10 0) severe]⟩

/-- An attached bundle is kept. -/
def attachBundle (assumptions : Assumptions) : Arith Assumptions := do
  match assumptions.bundle with
  | some _ => pure assumptions
  | none => pure { assumptions with bundle := some (← defaultBundle assumptions) }

def bundleOf (assumptions : Assumptions) : Arith (StressBundle Assumptions) :=
  match assumptions.bundle with
  | some bundle => pure bundle
  | none => defaultBundle assumptions

/-- The share-weighted values added up from the left, over the entries that have one. -/
def weigh (value : ScenarioEntry → Option Decimal) : List ScenarioEntry → Option Decimal →
    Arith (Option Decimal)
  | [], total => pure total
  | entry :: rest, total => do
    match value entry with
    | none => weigh value rest total
    | some v =>
      let share ← (← percentToRate entry.probabilityPct).mul v
      match total with
      | none => weigh value rest (some share)
      | some t => weigh value rest (some (← t.add share))

def weightedMetrics (entries : List ScenarioEntry) : Arith WeightedMetrics := do
  let leveredIrr ← weigh ScenarioEntry.leveredIrr entries none
  let equityMultiple ← weigh ScenarioEntry.equityMultiple entries none
  let totalProbabilityPct ← Decimal.sum (entries.map ScenarioEntry.probabilityPct)
  pure ⟨leveredIrr, equityMultiple, totalProbabilityPct⟩

def validate : List (StressScenario Assumptions) → Outcome Unit
  | [] => pure ()
  | s :: rest => do
    if s.probabilityPct < Decimal.zero then
      rejectField ("scenario:" ++ s.id ++ " probability_pct") "Probability cannot be negative"
    validate rest

/-- The entry of one scenario, without values and with a warning if its run is rejected. -/
def runScenario (options : CapitalOptions) (s : StressScenario Assumptions) :
    Arith (Noted ScenarioEntry) := do
  match ← settle (ProForma.project s.assumptions.deal options) with
  | .ok run =>
    let metrics := run.result.metrics
    pure ⟨⟨s.id, s.name, s.probabilityPct, metrics.leveredIrr, metrics.equityMultiple⟩, []⟩
  | .error cause =>
    pure ⟨⟨s.id, s.name, s.probabilityPct, none, none⟩,
      ["Scenario '" ++ s.name ++ "' failed: " ++ cause.message]⟩

def run (assumptions : Assumptions) (options : CapitalOptions) :
    Outcome (Analysis StressBasis StressResults) := do
  let bundle ← bundleOf assumptions
  if bundle.scenarios.isEmpty then
    reject (.insufficientData "Stress scenario bundle has no scenarios")
  validate bundle.scenarios
  let runs ← (bundle.scenarios.mapM (runScenario options) : Arith (List (Noted ScenarioEntry)))
  let entries := runs.map Noted.result
  let weighted ← weightedMetrics entries
  pure {
    result := ⟨entries, weighted⟩
    methodology := "Probability-Weighted Stress Scenarios"
    basis := ⟨entries.length, assumptions.bundle.isSome⟩
    warnings := runs.flatMap Noted.warnings
      ++ warnIf (decide ¬ weighted.totalProbabilityPct.Same .hundred)
        ("Scenario probabilities sum to " ++ weighted.totalProbabilityPct.toText ++ "%, not 100%") }

end Stress

end PropertyFinance
