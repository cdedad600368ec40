import PropertyFinance.Proofs.ProForma.PropertySide
import PropertyFinance.Proofs.Sensitivity.Sweep

/-! A grid holds, cell by cell, what the pro forma gives for the pair of values: its metric, or nothing
and a warning where it is rejected. The cell of the zero offsets is the deal as it stands. -/

namespace PropertyFinance
set_option autoImplicit false

/-- The metric of a pro forma, nothing if there is none. -/
def Metric.ofRun (metric : Metric) : Outcome (Analysis ProFormaBasis ProForma) → Option Decimal
  | .ok analysis => metric.extract analysis.result
  | .error _ => none

/-- Why a run was rejected. -/
def rejection? {α : Type} : Outcome α → Option Rejection
  | .error (.rejected cause) => some cause
  | _ => none

/-- The pro forma of the assumptions with the two swept values replaced. -/
def GridRequest.runAt (request : GridRequest) (assumptions : Assumptions) (row col : Decimal) :
    Outcome (Analysis ProFormaBasis ProForma) :=
  ProForma.analyse { assumptions with deal := request.dealAt assumptions.deal row col } request.options

/-- The first place in a list that holds a zero, of whatever sign and scale. -/
def FirstZero (offsets : List Decimal) (i : Nat) : Prop :=
  (∃ offset, offsets[i]? = some offset ∧ offset.value = 0) ∧
    ∀ k < i, ∀ offset, offsets[k]? = some offset → offset.value ≠ 0

theorem findIdx?_isZero {offsets : List Decimal} {i : Nat} :
    offsets.findIdx? Decimal.isZero = some i ↔ FirstZero offsets i := by
  rw [List.findIdx?_eq_some_iff_getElem]
  constructor
  · rintro ⟨hi, hzero, hbefore⟩
    refine ⟨⟨_, List.getElem?_eq_getElem hi, Decimal.isZero_iff.mp hzero⟩, ?_⟩
    intro k hk offset hoffset hvalue
    obtain ⟨hlen, rfl⟩ := List.getElem?_eq_some_iff.mp hoffset
    exact hbefore k hk (Decimal.isZero_iff.mpr hvalue)
  · rintro ⟨⟨offset, hoffset, hvalue⟩, hbefore⟩
    obtain ⟨hi, rfl⟩ := List.getElem?_eq_some_iff.mp hoffset
    refine ⟨hi, Decimal.isZero_iff.mpr hvalue, ?_⟩
    intro k hk hzero
    have hlen : k < offsets.length := by omega
    exact hbefore k hk _ (List.getElem?_eq_getElem hlen) (Decimal.isZero_iff.mp hzero)

namespace Sensitivity
variable {deal : Deal} {request : GridRequest} {assumptions : Assumptions}
  {rows cols rowValues colValues rowOffsets colOffsets : List Decimal}
  {analysis : Analysis GridBasis SensitivityGrid}

/-- A grid as a table of pro formas over the values that the two axes take. -/
structure Pointwise (assumptions : Assumptions) (request : GridRequest) (rows cols : List Decimal)
    (grid : SensitivityGrid) (warnings : List String) : Prop where
  rowOffsets_eq : grid.rowOffsets = request.rowOffsets.getD request.rowAxis.offsets
  colOffsets_eq : grid.colOffsets = request.colOffsets.getD request.colAxis.offsets
  rowValues_eq : grid.rowOffsets.mapM (request.rowAxis.offsetValue assumptions.deal) = .ok grid.rowValues
  colValues_eq : grid.colOffsets.mapM (request.colAxis.offsetValue assumptions.deal) = .ok grid.colValues
  /-- The values that the axes take are the ones shown, up to the scale. -/
  rows_same : List.Forall₂ Decimal.Same rows grid.rowValues
  cols_same : List.Forall₂ Decimal.Same cols grid.colValues
  /-- Each cell's deal has its pair of values. -/
  baseValues_eq : ∀ row col, request.rowAxis.baseValue (request.dealAt assumptions.deal row col) = row ∧
    request.colAxis.baseValue (request.dealAt assumptions.deal row col) = col
  /-- Nothing else of the deal differs: with the two base values put back it is the deal as it was. -/
  restores : ∀ row col, request.dealAt (request.dealAt assumptions.deal row col)
    (request.rowAxis.baseValue assumptions.deal) (request.colAxis.baseValue assumptions.deal) =
      assumptions.deal
  matrix_length : grid.matrix.length = grid.rowOffsets.length
  row_length : ∀ cells ∈ grid.matrix, cells.length = grid.colOffsets.length
  matrix_eq : grid.matrix = rows.map fun row => cols.map fun col =>
    request.metric.ofRun (request.runAt assumptions row col)
  /-- Every run ends with a pro forma or a rejection. -/
  settles : ∀ row ∈ rows, ∀ col ∈ cols, ∀ f, request.runAt assumptions row col ≠ .error (.fault f)
  failedCells_eq : grid.failedCells = (rows ×ˢ cols).countP fun cell =>
    (rejection? (request.runAt assumptions cell.1 cell.2)).isSome
  /-- Row by row a warning for each rejected run, then one if an axis has no zero offset. -/
  warnings_eq : warnings =
    ((grid.rowValues.zip rows).flatMap fun row => (grid.colValues.zip cols).filterMap fun col =>
      (rejection? (request.runAt assumptions row.2 col.2)).map (cellWarning request row.1 col.1)) ++
    if (∃ offset ∈ grid.rowOffsets, offset.isZero) ∧ ∃ offset ∈ grid.colOffsets, offset.isZero then []
    else ["Offsets do not include zero on both axes; grid has no base case"]
  basePosition_iff : ∀ r c, grid.baseCasePosition = some (r, c) ↔
    FirstZero grid.rowOffsets r ∧ FirstZero grid.colOffsets c
  baseValue_eq : grid.baseCaseValue = grid.baseCasePosition.bind fun _ =>
    request.metric.ofRun (ProForma.analyse assumptions request.options)

def Cell.cause? : Cell → Option Rejection
  | .ok _ => none
  | .error cause => some cause

theorem Cell.isFailed_eq (cell : Cell) : cell.isFailed = cell.cause?.isSome := by
  cases cell <;> rfl

theorem cellOf_value (row col : Decimal) :
    (cellOf request (request.dealAt assumptions.deal row col)).value =
      request.metric.ofRun (request.runAt assumptions row col) := by
  unfold cellOf GridRequest.runAt ProForma.analyse
  cases ProForma.project (request.dealAt assumptions.deal row col) request.options with
  | ok run => rfl
  | error failure => cases failure <;> rfl

theorem cellOf_cause? (row col : Decimal) :
    (cellOf request (request.dealAt assumptions.deal row col)).cause? =
      rejection? (request.runAt assumptions row col) := by
  unfold cellOf GridRequest.runAt ProForma.analyse
  cases ProForma.project (request.dealAt assumptions.deal row col) request.options with
  | ok run => rfl
  | error failure => cases failure <;> rfl

theorem runAt_ne_fault {row col : Decimal} {f : Fault}
    (h : Settles request (request.dealAt assumptions.deal row col)) :
    request.runAt assumptions row col ≠ .error (.fault f) := by
  unfold GridRequest.runAt ProForma.analyse
  cases hrun : ProForma.project (request.dealAt assumptions.deal row col) request.options with
  | ok run => exact nofun
  | error failure =>
    rintro ⟨⟩
    exact h f hrun

theorem rowWarnings_map (request : GridRequest) (shown : Decimal) (colValues cols : List Decimal)
    (cell : Decimal → Cell) :
    rowWarnings request shown colValues (cols.map cell) =
      (colValues.zip cols).filterMap fun col =>
        (cell col.2).cause?.map (cellWarning request shown col.1) := by
  unfold rowWarnings
  rw [List.zip_map_right, List.filterMap_map]
  refine List.filterMap_congr fun col _ => ?_
  dsimp only [Function.comp_apply, Prod.map, id]
  cases cell col.2 <;> rfl

theorem gridWarnings_map (request : GridRequest) (rowValues colValues rows cols : List Decimal)
    (cell : Decimal → Decimal → Cell) :
    gridWarnings request rowValues colValues (rows.map fun row => cols.map (cell row)) =
      (rowValues.zip rows).flatMap fun row => (colValues.zip cols).filterMap fun col =>
        (cell row.2 col.2).cause?.map (cellWarning request row.1 col.1) := by
  unfold gridWarnings
  rw [List.zip_map_right, List.flatMap_map]
  refine List.flatMap_congr fun row _ => ?_
  exact rowWarnings_map request row.1 colValues cols (cell row.2)

theorem basePosition_eq_some_iff {r c : Nat} : basePosition rowOffsets colOffsets = some (r, c) ↔
    FirstZero rowOffsets r ∧ FirstZero colOffsets c := by
  unfold basePosition
  rw [← findIdx?_isZero, ← findIdx?_isZero]
  simp only [Option.bind_eq_bind, Option.bind_eq_some_iff, Option.some.injEq, Prod.mk.injEq]
  constructor
  · rintro ⟨_, hr, _, hc, rfl, rfl⟩
    exact ⟨hr, hc⟩
  · rintro ⟨hr, hc⟩
    exact ⟨r, hr, c, hc, rfl, rfl⟩

theorem basePosition_isSome_iff : (basePosition rowOffsets colOffsets).isSome ↔
    (∃ offset ∈ rowOffsets, offset.isZero) ∧ ∃ offset ∈ colOffsets, offset.isZero := by
  unfold basePosition
  rw [← List.any_eq_true, ← List.any_eq_true, ← List.findIdx?_isSome, ← List.findIdx?_isSome]
  cases rowOffsets.findIdx? Decimal.isZero with
  | none => simp
  | some r => cases colOffsets.findIdx? Decimal.isZero <;> simp

theorem getElem?_of_firstZero {axis : Axis} {offsets settings : List Decimal} {i : Nat}
    (h : offsets.mapM (axis.settingAt deal) = .ok settings) (hzero : FirstZero offsets i) :
    settings[i]? = some (axis.baseValue deal) := by
  obtain ⟨⟨offset, hoffset, hvalue⟩, -⟩ := hzero
  obtain ⟨hi, rfl⟩ := List.getElem?_eq_some_iff.mp hoffset
  obtain ⟨hlen, hall⟩ := List.forall₂_iff_get.mp (mapM_eq_ok.mp h)
  have hi' : i < settings.length := by omega
  have hsetting : axis.settingAt deal offsets[i] = .ok settings[i] := hall i hi hi'
  rw [Axis.settingAt, if_pos (Decimal.isZero_iff.mpr hvalue)] at hsetting
  rw [List.getElem?_eq_getElem hi', pure_eq_ok.mp hsetting]

theorem dealAt_base (request : GridRequest) (deal : Deal) :
    request.dealAt deal (request.rowAxis.baseValue deal) (request.colAxis.baseValue deal) = deal := by
  rw [GridRequest.dealAt, Axis.set_baseValue, Axis.set_baseValue]

theorem runAt_base (request : GridRequest) (assumptions : Assumptions) :
    request.runAt assumptions (request.rowAxis.baseValue assumptions.deal)
      (request.colAxis.baseValue assumptions.deal) = ProForma.analyse assumptions request.options := by
  cases assumptions
  rw [GridRequest.runAt, dealAt_base]

theorem valueAt_map {f : Decimal → Decimal → Option Decimal} {r c : Nat} {row col : Decimal}
    (hr : rows[r]? = some row) (hc : cols[c]? = some col) :
    valueAt (rows.map fun row => cols.map (f row)) (r, c) = f row col := by
  simp only [valueAt, List.getElem?_map, hr, hc, Option.map_some, Option.bind_some, Option.join_some]

theorem tabulate_matrix : (tabulate assumptions.deal request rowValues colValues rows cols).result.matrix =
    rows.map fun row => cols.map fun col => request.metric.ofRun (request.runAt assumptions row col) := by
  simp only [tabulate, List.map_map, Function.comp_def, cellOf_value]

theorem tabulate_failedCells :
    (tabulate assumptions.deal request rowValues colValues rows cols).result.failedCells =
      (rows ×ˢ cols).countP fun cell =>
        (rejection? (request.runAt assumptions cell.1 cell.2)).isSome := by
  simp only [tabulate, flatten_map_map, List.countP_map, Function.comp_def, Cell.isFailed_eq,
    cellOf_cause?]

/-- The cell of the first zero offsets is the pro forma of the deal as it stands. -/
theorem tabulate_baseCaseValue (h : Swept assumptions.deal request rowValues colValues rows cols) :
    (tabulate assumptions.deal request rowValues colValues rows cols).result.baseCaseValue =
      (basePosition request.rowSweep request.colSweep).bind fun _ =>
        request.metric.ofRun (ProForma.analyse assumptions request.options) := by
  change (basePosition request.rowSweep request.colSweep).bind (valueAt
    (tabulate assumptions.deal request rowValues colValues rows cols).result.matrix) = _
  refine Option.bind_congr fun position hposition => ?_
  obtain ⟨hr, hc⟩ := basePosition_eq_some_iff.mp hposition
  rw [tabulate_matrix, valueAt_map (getElem?_of_firstZero h.rows_eq hr)
    (getElem?_of_firstZero h.cols_eq hc), runAt_base]

theorem tabulate_warnings : (tabulate assumptions.deal request rowValues colValues rows cols).warnings =
    ((rowValues.zip rows).flatMap fun row => (colValues.zip cols).filterMap fun col =>
      (rejection? (request.runAt assumptions row.2 col.2)).map (cellWarning request row.1 col.1)) ++
    if (∃ offset ∈ request.rowSweep, offset.isZero) ∧ ∃ offset ∈ request.colSweep, offset.isZero then []
    else ["Offsets do not include zero on both axes; grid has no base case"] := by
  simp only [tabulate, gridWarnings_map, cellOf_cause?, ← basePosition_isSome_iff, warnIf]
  cases basePosition request.rowSweep request.colSweep <;> rfl

theorem pointwise_of_build (h : build assumptions.deal request = .ok analysis) :
    ∃ rows cols, Pointwise assumptions request rows cols analysis.result analysis.warnings := by
  obtain ⟨rowValues, colValues, rows, cols, hswept, rfl⟩ := build_eq_ok_iff.mp h
  refine ⟨rows, cols, ?_⟩
  constructor
  case rowOffsets_eq | colOffsets_eq => rfl
  case rowValues_eq => exact hswept.rowValues_eq
  case colValues_eq => exact hswept.colValues_eq
  case rows_same => exact hswept.rows_same
  case cols_same => exact hswept.cols_same
  case baseValues_eq => exact hswept.baseValues
  case restores =>
    intro row col
    rw [hswept.dealAt_dealAt, dealAt_base]
  case matrix_length =>
    rw [tabulate_matrix, List.length_map, hswept.rows_length]
    rfl
  case row_length =>
    intro cells hcells
    rw [tabulate_matrix] at hcells
    obtain ⟨row, -, rfl⟩ := List.mem_map.mp hcells
    rw [List.length_map, hswept.cols_length]
    rfl
  case matrix_eq => exact tabulate_matrix
  case settles => exact fun row hrow col hcol f => runAt_ne_fault (hswept.settles row hrow col hcol)
  case failedCells_eq => exact tabulate_failedCells
  case warnings_eq => exact tabulate_warnings
  case basePosition_iff => exact fun r c => basePosition_eq_some_iff
  case baseValue_eq => exact tabulate_baseCaseValue hswept

/-- Cap rates below zero are rejected; the columns hold two zeros, the first of them negative. -/
def officeGrid : GridRequest where
  rowAxis := .exitCapRate
  colAxis := .ltv
  metric := .leveredIrr
  rowOffsets := some [.ofScaled (-7) 0, .zero]
  colOffsets := some [.ofScaled 5 0, Decimal.zero.negate, .zero]
  options := ⟨none, none⟩

theorem pointwise_of_build_office : ∃ analysis rows cols,
    build ProForma.office officeGrid = .ok analysis ∧ analysis.result.failedCells = 3 ∧
      Pointwise (.ofDeal ProForma.office) officeGrid rows cols analysis.result analysis.warnings := by
  have h : (build ProForma.office officeGrid).toOption.map (fun a => a.result.failedCells) =
      some 3 := by decide +kernel
  cases hbuild : build ProForma.office officeGrid with
  | error failure =>
    rw [hbuild] at h
    cases h
  | ok analysis =>
    rw [hbuild] at h
    have hpointwise : ∃ rows cols, Pointwise (.ofDeal ProForma.office) officeGrid rows cols
        analysis.result analysis.warnings := pointwise_of_build hbuild
    obtain ⟨rows, cols, hpointwise⟩ := hpointwise
    exact ⟨analysis, rows, cols, rfl, Option.some.inj h, hpointwise⟩

end Sensitivity

end PropertyFinance
