import PropertyFinance.CommandLine.Command
import PropertyFinance.CommandLine.Documents
import PropertyFinance.Service

/-! Running a command on its document, and the ways in which the program ends. -/

namespace PropertyFinance
set_option autoImplicit false

/-- A deal alone, or under `assumptions` beside what replaces its capital. -/
def DealInput.ofDocument? (json : Json) : Option DealInput :=
  match json.get? "assumptions" with
  | none => do some ⟨← Assumptions.ofJson? json, .none⟩
  | some _ => do
    let fields ← Fields.ofJson? ["assumptions", "capital_sources", "development_budget"] json
    some {
      assumptions := ← fields.required "assumptions" Assumptions.ofJson?
      options := {
        sources := ← fields.withDefault "capital_sources" CapitalOptions.readSources none
        budget := ← fields.withDefault "development_budget" CapitalOptions.readBudget none } }

/-- The terms of the waterfall stand in the document of the deal. -/
def WaterfallInput.ofDocument? (json : Json) : Option WaterfallInput := do
  let fields ← Fields.ofJson? ["structure"] json
  let terms ← fields.required "structure" WaterfallTerms.ofJson?
  let deal ← DealInput.ofDocument? json
  some ⟨terms, deal.assumptions, deal.options⟩

def flowsOfDocument? (json : Json) : Option (List Decimal) := do
  let fields ← Fields.ofJson? ["cash_flows"] json
  fields.required "cash_flows" (Json.readList Decimal.ofJson?)

def yieldWarnings : Option Yield → List String
  | none => ["Cash flows have no sign change; IRR undefined"]
  | some y =>
    warnIf (!y.converged)
      ("IRR did not converge after " ++ toString y.iterations
        ++ " iterations; rate is a best-effort estimate")

def analyseYield (flows : List Decimal) (options : YieldOptions) :
    Arith (Analysis YieldOptions (Option Yield)) := do
  let y ← Yield.solve flows options
  pure {
    result := y
    methodology := "Internal Rate of Return (Newton-Raphson with bisection fallback)"
    basis := options
    warnings := yieldWarnings y }

def yieldToJson (y : Option Yield) : Json :=
  .object (("irr", .ofRate (y.map Yield.rate)) :: Json.optionalEntry "solution" Yield.toJson y)

/-- The warnings of the waterfall come after those of the pro forma, whose equity replaces that of
the terms if asked for. -/
def analyseWaterfall (input : WaterfallInput) (equityFromProForma : Bool) :
    Outcome (Analysis WaterfallBasis WaterfallResults) := do
  let proForma ← ProForma.analyse input.assumptions input.options
  let terms :=
    if equityFromProForma then
      { input.terms with totalEquity := proForma.result.financing.equityRequired }
    else input.terms
  let analysis ← Waterfall.ofProForma terms proForma.result
  pure { analysis with warnings := proForma.warnings ++ analysis.warnings }

namespace CommandLine

inductive CommandError
  /-- Nothing was given to work on. -/
  | missingInput (advice : String)
  | document (cause : DocumentError)
  /-- The document is not of the shape that is needed. -/
  | unfitDocument
  | failed (cause : Failure)
deriving DecidableEq

abbrev Attempt := Except CommandError

instance : MonadLift Outcome Attempt where
  monadLift x := x.mapError CommandError.failed

/-- A result as a document, given the microseconds it took. -/
abbrev Report := Nat → Json

def Report.ofAnalysis {B R : Type} (writeBasis : B → Json) (writeResult : R → Json)
    (analysis : Analysis B R) : Report :=
  fun elapsed => analysis.toJson writeBasis writeResult (some elapsed)

/-- The result in a format, its entries in the order of their names. -/
def Report.print (report : Report) (format : OutputFormat) (elapsed : Nat) : String :=
  format.render ((report elapsed).normal.getD .null)

/-- The document as what is needed, or advice where there is none. -/
def readAs {A : Type} (read : Json → Option A) (advice : String) : Option Json → Attempt A
  | none => .error (.missingInput advice)
  | some json =>
    match read json with
    | some a => .ok a
    | none => .error .unfitDocument

namespace YieldArguments

def options (args : YieldArguments) : YieldOptions where
  guess := args.guess.getD Yield.defaults.guess
  maxIterations := args.maxIterations.getD Yield.defaults.maxIterations
  tolerance := args.tolerance.getD Yield.defaults.tolerance

def run (args : YieldArguments) (document : Option Json) : Attempt Report := do
  let flows ← match args.cashFlows with
    | some flows => pure flows
    | none =>
      readAs flowsOfDocument? "--cash-flows is required (or provide --input / stdin)" document
  let analysis ← (analyseYield flows args.options : Outcome _)
  pure (.ofAnalysis YieldOptions.toJson yieldToJson analysis)

end YieldArguments

namespace ProFormaArguments

def override (args : ProFormaArguments) (assumptions : Assumptions) : Assumptions :=
  let acquisition := assumptions.deal.acquisition
  let holdYears := args.holdYears.getD acquisition.holdYears
  { assumptions with
    deal := { assumptions.deal with acquisition := { acquisition with holdYears } } }

def run (args : ProFormaArguments) (document : Option Json) : Attempt Report := do
  let deal ← readAs DealInput.ofDocument?
    "--input <deal.json> or stdin required for the pro forma" document
  let analysis ← ProForma.analyse (args.override deal.assumptions) deal.options
  pure (.ofAnalysis ProFormaBasis.toJson ProForma.toJson analysis)

end ProFormaArguments

namespace WaterfallArguments

def run (args : WaterfallArguments) (document : Option Json) : Attempt Report := do
  let input ← readAs WaterfallInput.ofDocument?
    "--input <waterfall.json> or stdin required for the waterfall" document
  let analysis ← analyseWaterfall input args.equityFromProForma
  pure (.ofAnalysis WaterfallBasis.toJson WaterfallResults.toJson analysis)

end WaterfallArguments

namespace GridArguments

def request (args : GridArguments) (options : CapitalOptions) : GridRequest where
  rowAxis := args.rowAxis
  colAxis := args.colAxis
  metric := args.metric
  rowOffsets := args.rowOffsets
  colOffsets := args.colOffsets
  options := options

def run (args : GridArguments) (document : Option Json) : Attempt Report := do
  let deal ← readAs DealInput.ofDocument?
    "--input <deal.json> or stdin required for sensitivity analysis" document
  let analysis ← Sensitivity.build deal.assumptions.deal (args.request deal.options)
  pure (.ofAnalysis GridBasis.toJson SensitivityGrid.toJson analysis)

end GridArguments

namespace StressArguments

def run (args : StressArguments) (document : Option Json) : Attempt Report := do
  let deal ← readAs DealInput.ofDocument?
    "--input <deal.json> or stdin required for stress scenarios" document
  if args.bundleOnly then
    let bundle ← (Stress.bundleOf deal.assumptions : Outcome _)
    pure fun _ => Assumptions.bundleToJson bundle
  else
    let analysis ← Stress.run deal.assumptions deal.options
    pure (.ofAnalysis StressBasis.toJson StressResults.toJson analysis)

end StressArguments

namespace SizingArguments

/-- What the options ask for, if they give both the income and the value. -/
def request? (args : SizingArguments) : Option SizingRequest := do
  some {
    noi := ← args.noi
    propertyValue := ← args.propertyValue
    loanType := args.loanType
    interestRatePct := args.interestRatePct
    amortizationYears := args.amortizationYears }

/-- A named file counts before the options, and these before the standard input. -/
def source (args : SizingArguments) : Source :=
  match args.input, args.request? with
  | none, some _ => .arguments
  | input, _ => .ofInput input

def run (args : SizingArguments) (document : Option Json) : Attempt Report := do
  let request ← match document, args.request? with
    | none, some request => pure request
    | _, _ =>
      readAs SizingRequest.ofJson?
        "--noi and --property-value are required (or provide --input)" document
  let analysis ← sizeDebt request
  pure (.ofAnalysis SizingBasis.toJson SizedDebt.toJson analysis)

end SizingArguments

namespace Command

def source : Command → Source
  | .irr args => if args.cashFlows.isSome then .arguments else .ofInput args.input
  | .proForma args => .ofInput args.input
  | .waterfall args => .ofInput args.input
  | .sensitivity args => .ofInput args.input
  | .stress args => .ofInput args.input
  | .sizeDebt args => args.source

def runOn : Command → Option Json → Attempt Report
  | .irr args => args.run
  | .proForma args => args.run
  | .waterfall args => args.run
  | .sensitivity args => args.run
  | .stress args => args.run
  | .sizeDebt args => args.run

def run (command : Command) (around : Surroundings) : Attempt Report :=
  match fetch around command.source with
  | .ok document => command.runOn document
  | .error cause => .error (.document cause)

end Command

/-- How the program ends. -/
inductive Exit
  /-- What is printed, given the microseconds the run took. -/
  | success (output : Nat → String)
  | failure (message : String)
  | misuse (error : UsageError)
  | crash (fault : Fault)

def Exit.status : Exit → UInt8
  | .success _ => 0
  | .failure _ => 1
  | .misuse _ => 2
  | .crash _ => 101

def CommandError.exit : CommandError → Exit
  | .missingInput advice => .failure advice
  | .document cause => .failure cause.message
  | .unfitDocument => .failure "The document does not have the expected shape"
  | .failed (.rejected cause) => .failure cause.message
  | .failed (.fault fault) => .crash fault

def Invocation.source : Invocation → Source
  | .version => .arguments
  | .run command _ => command.source

def Invocation.execute (around : Surroundings) : Invocation → Exit
  | .version => .success fun _ => "creu " ++ PropertyFinance.version ++ "\n"
  | .run command format =>
    match command.run around with
    | .error cause => cause.exit
    | .ok report => .success (report.print format)

/-- The program on its arguments. -/
def execute (args : List String) (around : Surroundings) : Exit :=
  match Invocation.ofArguments args with
  | .error cause => .misuse cause
  | .ok invocation => invocation.execute around

end CommandLine

end PropertyFinance
