import PropertyFinance.Document.Results
import PropertyFinance.Json.Reader

/-! The analyses as functions from a JSON text to a JSON value. In the text a known field may stand
only once in its record. -/

namespace PropertyFinance
set_option autoImplicit false

/-- A deal and what may replace its capital. -/
structure DealInput where
  assumptions : Assumptions
  options : CapitalOptions

structure YieldInput where
  cashFlows : List Decimal
  options : Option YieldOptions

structure WaterfallInput where
  terms : WaterfallTerms
  assumptions : Assumptions
  options : CapitalOptions

structure GridInput where
  assumptions : Assumptions
  request : GridRequest

namespace DealInput

def ofJson? (json : Json) : Option DealInput := do
  let fields ← Fields.ofJson? ["assumptions", "options"] json
  some {
    assumptions := ← fields.required "assumptions" Assumptions.ofJson?
    options := ← fields.withDefault "options" CapitalOptions.ofJson? .none }

end DealInput

namespace YieldInput

def ofJson? (json : Json) : Option YieldInput := do
  let fields ← Fields.ofJson? ["cash_flows", "options"] json
  some {
    cashFlows := ← fields.required "cash_flows" (Json.readList Decimal.ofJson?)
    options := ← fields.withDefault "options" (Json.readOptional YieldOptions.ofJson?) none }

end YieldInput

namespace WaterfallInput

def ofJson? (json : Json) : Option WaterfallInput := do
  let fields ← Fields.ofJson? ["structure", "assumptions", "options"] json
  some {
    terms := ← fields.required "structure" WaterfallTerms.ofJson?
    assumptions := ← fields.required "assumptions" Assumptions.ofJson?
    options := ← fields.withDefault "options" CapitalOptions.ofJson? .none }

end WaterfallInput

namespace GridInput

def ofJson? (json : Json) : Option GridInput := do
  let fields ← Fields.ofJson? ["assumptions", "request"] json
  some {
    assumptions := ← fields.required "assumptions" Assumptions.ofJson?
    request := ← fields.required "request" GridRequest.ofJson? }

end GridInput

inductive ServiceError
  /-- The text is not JSON or not of the expected shape. -/
  | malformed
  | failed (cause : Failure)
deriving DecidableEq

namespace Service

abbrev Reply := Except ServiceError Json

/-- Reads the text and runs the analysis on it. -/
def serve {A : Type} (read : Json → Option A) (run : A → Outcome Json) (text : String) : Reply :=
  match (Json.ofText? text).bind read with
  | none => .error .malformed
  | some input => (run input).mapError .failed

def yieldRun (input : YieldInput) : Outcome Json := do
  let y ← Yield.solve input.cashFlows (input.options.getD Yield.defaults)
  pure (.object [
    ("irr", .ofRate (y.map Yield.rate)),
    ("solution", .ofOption Yield.toJson y)])

def proFormaRun (input : DealInput) : Outcome Json := do
  let analysis ← ProForma.analyse input.assumptions input.options
  pure (analysis.toJson ProFormaBasis.toJson ProForma.toJson none)

def sizingRun (request : SizingRequest) : Outcome Json := do
  let analysis ← sizeDebt request
  pure (analysis.toJson SizingBasis.toJson SizedDebt.toJson none)

/-- The warnings of the pro forma come after those of the waterfall. -/
def waterfallRun (input : WaterfallInput) : Outcome Json := do
  let proForma ← ProForma.analyse input.assumptions input.options
  let analysis ← Waterfall.ofProForma input.terms proForma.result
  let analysis := { analysis with warnings := analysis.warnings ++ proForma.warnings }
  pure (analysis.toJson WaterfallBasis.toJson WaterfallResults.toJson none)

def gridRun (input : GridInput) : Outcome Json := do
  let analysis ← Sensitivity.build input.assumptions.deal input.request
  pure (analysis.toJson GridBasis.toJson SensitivityGrid.toJson none)

def stressRun (input : DealInput) : Outcome Json := do
  let analysis ← Stress.run input.assumptions input.options
  pure (analysis.toJson StressBasis.toJson StressResults.toJson none)

def bundleRun (assumptions : Assumptions) : Outcome Json := do
  let bundle ← Stress.defaultBundle assumptions
  pure (Assumptions.bundleToJson bundle)

def computeYield : String → Reply := serve YieldInput.ofJson? yieldRun
def computeProForma : String → Reply := serve DealInput.ofJson? proFormaRun
def computeSizing : String → Reply := serve SizingRequest.ofJson? sizingRun
def computeWaterfall : String → Reply := serve WaterfallInput.ofJson? waterfallRun
def computeGrid : String → Reply := serve GridInput.ofJson? gridRun
def computeStress : String → Reply := serve DealInput.ofJson? stressRun
def computeBundle : String → Reply := serve Assumptions.ofJson? bundleRun

/-- The functions by name. -/
def functions : List (String × (String → Reply)) :=
  [("compute_irr", computeYield),
    ("compute_pro_forma", computeProForma),
    ("size_debt", computeSizing),
    ("compute_waterfall", computeWaterfall),
    ("sensitivity_grid", computeGrid),
    ("stress_scenarios", computeStress),
    ("stress_scenario_bundle", computeBundle)]

end Service

end PropertyFinance
