import PropertyFinance.Axis
import PropertyFinance.ProForma

/-! A grid over two assumptions: the pro forma is run anew for every pair of offsets and one of its
metrics is read into the cell. A cell whose run is rejected stays empty and gives a warning. -/

namespace PropertyFinance
set_option autoImplicit false

inductive Metric
  | leveredIrr
  | unleveredIrr
  | equityMultiple
  | cashOnCashYear1
deriving DecidableEq

namespace Metric

def all : List Metric := [leveredIrr, unleveredIrr, equityMultiple, cashOnCashYear1]

def name : Metric → String
  | leveredIrr => "levered_irr"
  | unleveredIrr => "unlevered_irr"
  | equityMultiple => "equity_multiple"
  | cashOnCashYear1 => "cash_on_cash_year1"

def label : Metric → String
  | leveredIrr => "Levered IRR"
  | unleveredIrr => "Unlevered IRR"
  | equityMultiple => "Equity Multiple"
  | cashOnCashYear1 => "Cash-on-Cash (Year 1)"

def extract (metric : Metric) (proForma : ProForma) : Option Decimal :=
  match metric with
  | leveredIrr => proForma.metrics.leveredIrr
  | unleveredIrr => proForma.metrics.unleveredIrr
  | equityMultiple => proForma.metrics.equityMultiple
  | cashOnCashYear1 => proForma.metrics.cashOnCashYear1

def ofName? (text : String) : Option Metric :=
  all.find? fun metric => metric.name == lookupKey text

def ofText (text : String) : Outcome Metric :=
  match ofName? text with
  | some metric => pure metric
  | none => rejectField "metric" ("Unknown sensitivity metric '" ++ text ++ "'")

end Metric

structure GridRequest where
  rowAxis : Axis
  colAxis : Axis
  metric : Metric
  /-- The axis's own offsets where absent. -/
  rowOffsets : Option (List Decimal)
  colOffsets : Option (List Decimal)
  options : CapitalOptions
deriving DecidableEq

structure SensitivityGrid where
  rowAxis : Axis
  colAxis : Axis
  metric : Metric
  rowOffsets : List Decimal
  colOffsets : List Decimal
  rowValues : List Decimal
  colValues : List Decimal
  rowLabels : List String
  colLabels : List String
  matrix : List (List (Option Decimal))
  /-- Row and column of the cell with zero offsets. -/
  baseCasePosition : Option (Nat × Nat)
  baseCaseValue : Option Decimal
  failedCells : Nat
deriving DecidableEq

structure GridBasis where
  rowAxis : Axis
  colAxis : Axis
  metric : Metric
deriving DecidableEq

/-- The answer or the reason for rejecting the input, where no fault occurs. -/
def settle {α : Type} : Outcome α → Arith (Except Rejection α)
  | .ok a => .ok (.ok a)
  | .error (.rejected cause) => .ok (.error cause)
  | .error (.fault cause) => .error cause

namespace Sensitivity

/-- A cell, or why it stayed empty. -/
abbrev Cell := Except Rejection (Option Decimal)

def Cell.value : Cell → Option Decimal
  | .ok value => value
  | .error _ => none

def Cell.isFailed : Cell → Bool
  | .ok _ => false
  | .error _ => true

def resolveOffsets (axis : Axis) (custom : Option (List Decimal)) (field : String) :
    Outcome (List Decimal) := do
  let offsets := custom.getD axis.offsets
  if offsets.isEmpty then
    rejectField field ("At least one offset is required for " ++ axis.label)
  pure offsets

def runCell (request : GridRequest) (deal : Deal) (colOffset : Decimal) : Arith Cell := do
  let shifted ← request.colAxis.shift deal colOffset
  let run ← settle (ProForma.project shifted request.options)
  pure (run.map fun noted => request.metric.extract noted.result)

def runRow (request : GridRequest) (deal : Deal) (colOffsets : List Decimal)
    (rowOffset : Decimal) : Arith (List Cell) := do
  let shifted ← request.rowAxis.shift deal rowOffset
  colOffsets.mapM (runCell request shifted)

def cellWarning (request : GridRequest) (rowValue colValue : Decimal) (cause : Rejection) :
    String :=
  "Cell (" ++ request.rowAxis.label ++ " = " ++ request.rowAxis.formatValue rowValue ++ ", "
    ++ request.colAxis.label ++ " = " ++ request.colAxis.formatValue colValue ++ ") failed: "
    ++ cause.message

/-- The warnings of a row, one for each failed cell. -/
def rowWarnings (request : GridRequest) (rowValue : Decimal) (colValues : List Decimal)
    (cells : List Cell) : List String :=
  (colValues.zip cells).filterMap fun (colValue, cell) =>
    match cell with
    | .ok _ => none
    | .error cause => some (cellWarning request rowValue colValue cause)

def gridWarnings (request : GridRequest) (rowValues colValues : List Decimal)
    (cells : List (List Cell)) : List String :=
  (rowValues.zip cells).flatMap fun (rowValue, row) => rowWarnings request rowValue colValues row

/-- The first zero offsets of both axes. -/
def basePosition (rowOffsets colOffsets : List Decimal) : Option (Nat × Nat) := do
  let row ← rowOffsets.findIdx? Decimal.isZero
  let col ← colOffsets.findIdx? Decimal.isZero
  some (row, col)

def valueAt (matrix : List (List (Option Decimal))) (position : Nat × Nat) : Option Decimal :=
  (matrix[position.1]?.bind fun row => row[position.2]?).join

def build (deal : Deal) (request : GridRequest) : Outcome (Analysis GridBasis SensitivityGrid) := do
  if request.rowAxis = request.colAxis then
    rejectField "col_axis"
      ("Row and column axes must differ (both are " ++ request.rowAxis.name ++ ")")
  let rowOffsets ← resolveOffsets request.rowAxis request.rowOffsets "row_offsets"
  let colOffsets ← resolveOffsets request.colAxis request.colOffsets "col_offsets"
  let rowValues ← (rowOffsets.mapM (request.rowAxis.offsetValue deal) : Arith (List Decimal))
  let colValues ← (colOffsets.mapM (request.colAxis.offsetValue deal) : Arith (List Decimal))
  let cells ← (rowOffsets.mapM (runRow request deal colOffsets) : Arith (List (List Cell)))
  let matrix := cells.map fun row => row.map Cell.value
  let baseCasePosition := basePosition rowOffsets colOffsets
  pure {
    result := {
      rowAxis := request.rowAxis
      colAxis := request.colAxis
      metric := request.metric
      rowOffsets, colOffsets, rowValues, colValues
      rowLabels := rowValues.map request.rowAxis.formatValue
      colLabels := colValues.map request.colAxis.formatValue
      matrix, baseCasePosition
      baseCaseValue := baseCasePosition.bind (valueAt matrix)
      failedCells := cells.flatten.countP Cell.isFailed }
    methodology := "2-Way Sensitivity Grid (pro forma re-run per cell)"
    basis := ⟨request.rowAxis, request.colAxis, request.metric⟩
    warnings := gridWarnings request rowValues colValues cells
      ++ warnIf baseCasePosition.isNone
        "Offsets do not include zero on both axes; grid has no base case" }

end Sensitivity

end PropertyFinance
