import PropertyFinance.Proofs.Decimal.Capacity
import PropertyFinance.Sensitivity

/-! The sweep of a grid taken apart. Each offset is settled to the value its axis takes, so that a grid
is a table over two lists of values; the axes differ, so the second of them is settled on the deal as
it was. -/

namespace PropertyFinance
set_option autoImplicit false

section Traverse
variable {ε α β γ : Type} {f : α → Except ε β} {xs : List α} {ys : List β}

theorem mapM_eq_ok : xs.mapM f = .ok ys ↔ List.Forall₂ (fun x y => f x = .ok y) xs ys := by
  induction xs generalizing ys with
  | nil =>
    rw [List.mapM_nil, pure_eq_ok, List.forall₂_nil_left_iff]
    exact eq_comm
  | cons x xs ih =>
    rw [List.mapM_cons, List.forall₂_cons_left_iff, bind_eq_ok]
    constructor
    · rintro ⟨y, hy, h⟩
      obtain ⟨rest, hrest, h⟩ := bind_eq_ok.mp h
      cases pure_eq_ok.mp h
      exact ⟨y, rest, hy, ih.mp hrest, rfl⟩
    · rintro ⟨y, rest, hy, hrest, rfl⟩
      exact ⟨y, hy, bind_eq_ok.mpr ⟨rest, ih.mpr hrest, rfl⟩⟩

/-- A traversal in two stages, the first of which succeeded. -/
theorem mapM_bind (h : xs.mapM f = .ok ys) (g : β → Except ε γ) :
    (xs.mapM fun x => f x >>= g) = ys.mapM g := by
  induction xs generalizing ys with
  | nil =>
    cases h
    rfl
  | cons x xs ih =>
    rw [List.mapM_cons] at h
    obtain ⟨y, hy, h⟩ := bind_eq_ok.mp h
    obtain ⟨rest, hrest, h⟩ := bind_eq_ok.mp h
    cases pure_eq_ok.mp h
    rw [List.mapM_cons, List.mapM_cons, hy, ok_bind, ih hrest]

theorem mapM_eq_ok_map {p : α → Prop} {g : α → β} (h : ∀ x y, f x = .ok y ↔ p x ∧ y = g x) :
    xs.mapM f = .ok ys ↔ (∀ x ∈ xs, p x) ∧ ys = xs.map g := by
  induction xs generalizing ys with
  | nil =>
    rw [List.mapM_nil, pure_eq_ok]
    exact ⟨fun h => ⟨nofun, h.symm⟩, fun h => h.2.symm⟩
  | cons x xs ih =>
    rw [List.mapM_cons, bind_eq_ok, List.forall_mem_cons]
    constructor
    · rintro ⟨y, hy, h'⟩
      obtain ⟨rest, hrest, h'⟩ := bind_eq_ok.mp h'
      cases pure_eq_ok.mp h'
      obtain ⟨hp, rfl⟩ := (h x y).mp hy
      obtain ⟨hall, rfl⟩ := ih.mp hrest
      exact ⟨⟨hp, hall⟩, rfl⟩
    · rintro ⟨⟨hp, hall⟩, rfl⟩
      refine ⟨g x, (h x _).mpr ⟨hp, rfl⟩, ?_⟩
      exact bind_eq_ok.mpr ⟨xs.map g, ih.mpr ⟨hall, rfl⟩, rfl⟩

theorem flatten_map_map (xs : List α) (ys : List β) (f : α → β → γ) :
    (xs.map fun x => ys.map (f x)).flatten = (xs ×ˢ ys).map fun pair => f pair.1 pair.2 := by
  change _ = (xs.flatMap fun x => ys.map (Prod.mk x)).map _
  rw [List.map_flatMap, ← List.flatMap_def]
  simp only [List.map_map, Function.comp_def]

end Traverse

namespace Axis
variable {axis other : Axis} {deal : Deal} {offset value : Decimal}

/-- The value that an axis takes at an offset: a zero offset keeps the value there is. -/
def settingAt (axis : Axis) (deal : Deal) (offset : Decimal) : Arith Decimal :=
  if offset.isZero then pure (axis.baseValue deal) else axis.offsetValue deal offset

@[simp] theorem set_baseValue (axis : Axis) (deal : Deal) : axis.set deal (axis.baseValue deal) = deal := by
  cases axis <;> rfl

@[simp] theorem set_set (axis : Axis) (deal : Deal) (v w : Decimal) :
    axis.set (axis.set deal v) w = axis.set deal w := by
  cases axis <;> rfl

theorem shift_eq (axis : Axis) (deal : Deal) (offset : Decimal) :
    axis.shift deal offset = axis.settingAt deal offset >>= fun value => pure (axis.set deal value) := by
  unfold shift settingAt
  split
  · rw [pure_bind, set_baseValue]
  · rfl

theorem settingAt_set (h : axis ≠ other) (deal : Deal) (value offset : Decimal) :
    axis.settingAt (other.set deal value) offset = axis.settingAt deal offset := by
  simp only [settingAt, offsetValue, baseValue_set_of_ne h]

/-- A zero offset moves nothing, by whichever rule it is applied. -/
theorem offsetValue_same_of_zero (hzero : offset.isZero = true)
    (h : axis.offsetValue deal offset = .ok value) : (axis.baseValue deal).Same value := by
  rw [Decimal.same_iff_value_eq]
  have hoffset := Decimal.isZero_iff.mp hzero
  unfold offsetValue at h
  split at h
  · rw [Decimal.value_add h, hoffset, add_zero, Decimal.nearest_value]
  · obtain ⟨rate, hrate, h⟩ := bind_eq_ok.mp h
    obtain ⟨growth, hgrowth, h⟩ := bind_eq_ok.mp h
    rw [Decimal.value_mul h, Decimal.value_add hgrowth, value_percentToRate hrate, hoffset, zero_div,
      Decimal.nearest_zero, add_zero, Decimal.nearest_value, Decimal.value_one, mul_one,
      Decimal.nearest_value]

theorem settingAt_of_offsetValue (h : axis.offsetValue deal offset = .ok value) :
    ∃ setting, axis.settingAt deal offset = .ok setting ∧ setting.Same value := by
  unfold settingAt
  split
  case isTrue hzero => exact ⟨_, rfl, offsetValue_same_of_zero hzero h⟩
  case isFalse => exact ⟨value, h, rfl⟩

theorem exists_settings {offsets values : List Decimal}
    (h : offsets.mapM (axis.offsetValue deal) = .ok values) :
    ∃ settings, offsets.mapM (axis.settingAt deal) = .ok settings ∧
      List.Forall₂ Decimal.Same settings values := by
  rw [mapM_eq_ok] at h
  induction h with
  | nil => exact ⟨[], rfl, .nil⟩
  | cons hvalue _ ih =>
    obtain ⟨setting, hsetting, hsame⟩ := settingAt_of_offsetValue hvalue
    obtain ⟨settings, hsettings, hall⟩ := ih
    refine ⟨setting :: settings, ?_, .cons hsame hall⟩
    rw [List.mapM_cons, hsetting, ok_bind, hsettings]
    rfl

theorem settings_same {offsets settings values : List Decimal}
    (hvalues : offsets.mapM (axis.offsetValue deal) = .ok values)
    (hsettings : offsets.mapM (axis.settingAt deal) = .ok settings) :
    List.Forall₂ Decimal.Same settings values := by
  obtain ⟨settings', hsettings', hsame⟩ := exists_settings hvalues
  cases hsettings.symm.trans hsettings'
  exact hsame

end Axis

namespace GridRequest

/-- The offsets of the rows: the axis's own unless others are asked for. -/
def rowSweep (request : GridRequest) : List Decimal := request.rowOffsets.getD request.rowAxis.offsets

def colSweep (request : GridRequest) : List Decimal := request.colOffsets.getD request.colAxis.offsets

/-- The deal with the two swept values replaced. -/
def dealAt (request : GridRequest) (deal : Deal) (row col : Decimal) : Deal :=
  request.colAxis.set (request.rowAxis.set deal row) col

end GridRequest

namespace Sensitivity
variable {deal : Deal} {request : GridRequest} {cell : Cell} {cells : List (List Cell)}
  {rows cols rowValues colValues : List Decimal} {analysis : Analysis GridBasis SensitivityGrid}

def reading (request : GridRequest) (deal : Deal) : Arith Cell := do
  let run ← settle (ProForma.project deal request.options)
  pure (run.map fun noted => request.metric.extract noted.result)

/-- The run ends with a pro forma or a rejection. -/
def Settles (request : GridRequest) (deal : Deal) : Prop :=
  ∀ f, ProForma.project deal request.options ≠ .error (.fault f)

def cellOf (request : GridRequest) (deal : Deal) : Cell :=
  match ProForma.project deal request.options with
  | .ok noted => .ok (request.metric.extract noted.result)
  | .error (.rejected cause) => .error cause
  | .error (.fault _) => .ok none

theorem reading_eq_ok :
    reading request deal = .ok cell ↔ Settles request deal ∧ cell = cellOf request deal := by
  unfold reading Settles cellOf
  cases ProForma.project deal request.options with
  | ok noted => exact ⟨fun h => ⟨nofun, (Except.ok.inj h).symm⟩, fun h => congrArg _ h.2.symm⟩
  | error failure =>
    cases failure with
    | rejected cause => exact ⟨fun h => ⟨nofun, (Except.ok.inj h).symm⟩, fun h => congrArg _ h.2.symm⟩
    | fault f => exact ⟨fun h => (nomatch h), fun h => absurd rfl (h.1 f)⟩

theorem runCell_eq (request : GridRequest) (deal : Deal) : runCell request deal = fun offset =>
    request.colAxis.settingAt deal offset >>= fun col =>
      reading request (request.colAxis.set deal col) := by
  funext offset
  unfold runCell
  rw [Axis.shift_eq, bind_assoc]
  rfl

theorem runRow_eq (hne : request.rowAxis ≠ request.colAxis)
    (hcols : request.colSweep.mapM (request.colAxis.settingAt deal) = .ok cols) :
    runRow request deal request.colSweep = fun offset =>
      request.rowAxis.settingAt deal offset >>= fun row =>
        cols.mapM fun col => reading request (request.dealAt deal row col) := by
  funext offset
  unfold runRow
  rw [Axis.shift_eq, bind_assoc]
  refine bind_congr fun row => ?_
  rw [pure_bind, runCell_eq]
  -- the columns are settled on the moved deal, whose value on their axis is still the old one
  simp only [Axis.settingAt_set hne.symm]
  exact mapM_bind hcols _

/-- The cells are a table over the settings of both axes, provided no run of them faults. -/
theorem cells_eq_ok (hne : request.rowAxis ≠ request.colAxis)
    (hrows : request.rowSweep.mapM (request.rowAxis.settingAt deal) = .ok rows)
    (hcols : request.colSweep.mapM (request.colAxis.settingAt deal) = .ok cols) :
    request.rowSweep.mapM (runRow request deal request.colSweep) = .ok cells ↔
      (∀ row ∈ rows, ∀ col ∈ cols, Settles request (request.dealAt deal row col)) ∧
        cells = rows.map fun row => cols.map fun col => cellOf request (request.dealAt deal row col) := by
  rw [runRow_eq hne hcols, mapM_bind hrows]
  exact mapM_eq_ok_map fun row _ => mapM_eq_ok_map fun col _ => reading_eq_ok

/-- The settings of a sweep that succeeds. -/
structure Swept (deal : Deal) (request : GridRequest) (rowValues colValues rows cols : List Decimal) :
    Prop where
  axes_ne : request.rowAxis ≠ request.colAxis
  rowSweep_ne : request.rowSweep ≠ []
  colSweep_ne : request.colSweep ≠ []
  rowValues_eq : request.rowSweep.mapM (request.rowAxis.offsetValue deal) = .ok rowValues
  colValues_eq : request.colSweep.mapM (request.colAxis.offsetValue deal) = .ok colValues
  rows_eq : request.rowSweep.mapM (request.rowAxis.settingAt deal) = .ok rows
  cols_eq : request.colSweep.mapM (request.colAxis.settingAt deal) = .ok cols
  settles : ∀ row ∈ rows, ∀ col ∈ cols, Settles request (request.dealAt deal row col)

namespace Swept

theorem rows_same (h : Swept deal request rowValues colValues rows cols) :
    List.Forall₂ Decimal.Same rows rowValues := Axis.settings_same h.rowValues_eq h.rows_eq

theorem cols_same (h : Swept deal request rowValues colValues rows cols) :
    List.Forall₂ Decimal.Same cols colValues := Axis.settings_same h.colValues_eq h.cols_eq

theorem rows_length (h : Swept deal request rowValues colValues rows cols) :
    rows.length = request.rowSweep.length := (mapM_eq_ok.mp h.rows_eq).length_eq.symm

theorem cols_length (h : Swept deal request rowValues colValues rows cols) :
    cols.length = request.colSweep.length := (mapM_eq_ok.mp h.cols_eq).length_eq.symm

theorem baseValues (h : Swept deal request rowValues colValues rows cols) (row col : Decimal) :
    request.rowAxis.baseValue (request.dealAt deal row col) = row ∧
      request.colAxis.baseValue (request.dealAt deal row col) = col := by
  unfold GridRequest.dealAt
  rw [Axis.baseValue_set_of_ne h.axes_ne, Axis.baseValue_set, Axis.baseValue_set]
  exact ⟨rfl, rfl⟩

theorem dealAt_dealAt (h : Swept deal request rowValues colValues rows cols)
    (row col row' col' : Decimal) :
    request.dealAt (request.dealAt deal row col) row' col' = request.dealAt deal row' col' := by
  unfold GridRequest.dealAt
  rw [Axis.set_comm h.axes_ne, Axis.set_set, Axis.set_set]

end Swept

/-- The table of a sweep, with its warnings. -/
def tabulate (deal : Deal) (request : GridRequest) (rowValues colValues rows cols : List Decimal) :
    Analysis GridBasis SensitivityGrid :=
  let cells := rows.map fun row => cols.map fun col => cellOf request (request.dealAt deal row col)
  let matrix := cells.map fun row => row.map Cell.value
  let baseCasePosition := basePosition request.rowSweep request.colSweep
  { result := {
      rowAxis := request.rowAxis
      colAxis := request.colAxis
      metric := request.metric
      rowOffsets := request.rowSweep
      colOffsets := request.colSweep
      rowValues, colValues
      rowLabels := rowValues.map request.rowAxis.formatValue
      colLabels := colValues.map request.colAxis.formatValue
      matrix, baseCasePosition
      baseCaseValue := baseCasePosition.bind (valueAt matrix)
      failedCells := cells.flatten.countP Cell.isFailed }
    methodology := "2-Way Sensitivity Grid (pro forma re-run per cell)"
    basis := ⟨request.rowAxis, request.colAxis, request.metric⟩
    warnings := gridWarnings request rowValues colValues cells
      ++ warnIf baseCasePosition.isNone
        "Offsets do not include zero on both axes; grid has no base case" }

theorem resolveOffsets_eq_ok {axis : Axis} {custom : Option (List Decimal)} {field : String}
    {offsets : List Decimal} : resolveOffsets axis custom field = .ok offsets ↔
      custom.getD axis.offsets ≠ [] ∧ offsets = custom.getD axis.offsets := by
  unfold resolveOffsets
  dsimp only
  rw [unless_reject_eq_ok, pure_eq_ok, List.isEmpty_iff, eq_comm (a := offsets)]

theorem build_eq_ok_iff : build deal request = .ok analysis ↔
    ∃ rowValues colValues rows cols, Swept deal request rowValues colValues rows cols ∧
      analysis = tabulate deal request rowValues colValues rows cols := by
  unfold build
  rw [unless_reject_eq_ok]
  constructor
  · rintro ⟨hne, h⟩
    obtain ⟨rowSweep, hrow, h⟩ := bind_eq_ok.mp h
    obtain ⟨colSweep, hcol, h⟩ := bind_eq_ok.mp h
    obtain ⟨hrowne, rfl⟩ := resolveOffsets_eq_ok.mp hrow
    obtain ⟨hcolne, rfl⟩ := resolveOffsets_eq_ok.mp hcol
    obtain ⟨rowValues, hrowValues, h⟩ := bind_eq_ok.mp h
    obtain ⟨colValues, hcolValues, h⟩ := bind_eq_ok.mp h
    obtain ⟨cells, hcells, h⟩ := bind_eq_ok.mp h
    rw [liftM_eq_ok] at hrowValues hcolValues hcells
    obtain ⟨rows, hrows, -⟩ := Axis.exists_settings hrowValues
    obtain ⟨cols, hcols, -⟩ := Axis.exists_settings hcolValues
    obtain ⟨hsettles, rfl⟩ := (cells_eq_ok hne hrows hcols).mp hcells
    exact ⟨rowValues, colValues, rows, cols,
      ⟨hne, hrowne, hcolne, hrowValues, hcolValues, hrows, hcols, hsettles⟩, (pure_eq_ok.mp h).symm⟩
  · rintro ⟨rowValues, colValues, rows, cols, h, rfl⟩
    refine ⟨h.axes_ne, ?_⟩
    have hcells := (cells_eq_ok h.axes_ne h.rows_eq h.cols_eq).mpr ⟨h.settles, rfl⟩
    refine bind_eq_ok.mpr ⟨_, resolveOffsets_eq_ok.mpr ⟨h.rowSweep_ne, rfl⟩, ?_⟩
    refine bind_eq_ok.mpr ⟨_, resolveOffsets_eq_ok.mpr ⟨h.colSweep_ne, rfl⟩, ?_⟩
    refine bind_eq_ok.mpr ⟨_, liftM_eq_ok.mpr h.rowValues_eq, ?_⟩
    refine bind_eq_ok.mpr ⟨_, liftM_eq_ok.mpr h.colValues_eq, ?_⟩
    exact bind_eq_ok.mpr ⟨_, liftM_eq_ok.mpr hcells, rfl⟩

end Sensitivity

end PropertyFinance
