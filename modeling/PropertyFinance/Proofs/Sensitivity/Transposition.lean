import Mathlib.Data.Multiset.Bind
import PropertyFinance.Proofs.Sensitivity.Sweep

/-! A grid with its axes exchanged is the same grid read by columns. The two axes write different values
of the deal, so it does not matter which of them is moved first. -/

namespace PropertyFinance
set_option autoImplicit false

def GridRequest.transpose (request : GridRequest) : GridRequest where
  rowAxis := request.colAxis
  colAxis := request.rowAxis
  metric := request.metric
  rowOffsets := request.colOffsets
  colOffsets := request.rowOffsets
  options := request.options

/-- The cell in a row and a column of the matrix, itself empty where the run was rejected. -/
def SensitivityGrid.cell? (grid : SensitivityGrid) (r c : Nat) : Option (Option Decimal) :=
  grid.matrix[r]?.bind fun row => row[c]?

namespace Sensitivity
variable {deal : Deal} {request : GridRequest} {rows cols rowValues colValues : List Decimal}

/-- The second grid is the first with rows and columns exchanged. -/
structure IsTranspose (grid other : SensitivityGrid) : Prop where
  rowAxis_eq : other.rowAxis = grid.colAxis
  colAxis_eq : other.colAxis = grid.rowAxis
  metric_eq : other.metric = grid.metric
  rowOffsets_eq : other.rowOffsets = grid.colOffsets
  colOffsets_eq : other.colOffsets = grid.rowOffsets
  rowValues_eq : other.rowValues = grid.colValues
  colValues_eq : other.colValues = grid.rowValues
  rowLabels_eq : other.rowLabels = grid.colLabels
  colLabels_eq : other.colLabels = grid.rowLabels
  cell_eq : ∀ r c, other.cell? c r = grid.cell? r c
  failedCells_eq : other.failedCells = grid.failedCells
  basePosition_eq : other.baseCasePosition = grid.baseCasePosition.map Prod.swap
  baseValue_eq : other.baseCaseValue = grid.baseCaseValue

/-- What becomes of a request when its axes are exchanged: the grid is transposed, with as many
warnings, or there is no grid for either of them. -/
inductive Mirrored : (x y : Outcome (Analysis GridBasis SensitivityGrid)) → Prop
  | grid {a b : Analysis GridBasis SensitivityGrid} (transposed : IsTranspose a.result b.result)
    (warnings_length : b.warnings.length = a.warnings.length) : Mirrored (.ok a) (.ok b)
  | rejected (cause cause' : Rejection) : Mirrored (.error (.rejected cause)) (.error (.rejected cause'))
  | fault (f f' : Fault) : Mirrored (.error (.fault f)) (.error (.fault f'))

section Table
variable {α β γ : Type}

theorem entry_map_map (xs : List α) (ys : List β) (f : α → β → γ) (r c : Nat) :
    ((xs.map fun x => ys.map (f x))[r]?.bind fun row => row[c]?) =
      xs[r]?.bind fun x => ys[c]?.map (f x) := by
  rw [List.getElem?_map, Option.bind_map]
  exact Option.bind_congr fun x _ => List.getElem?_map

theorem entry_map_map_comm (xs : List α) (ys : List β) (f : α → β → γ) (r c : Nat) :
    ((ys.map fun y => xs.map fun x => f x y)[c]?.bind fun row => row[r]?) =
      (xs.map fun x => ys.map (f x))[r]?.bind fun row => row[c]? := by
  rw [entry_map_map, entry_map_map]
  cases xs[r]? <;> cases ys[c]? <;> rfl

theorem countP_product_comm (xs : List α) (ys : List β) (p : α → β → Bool) :
    (ys ×ˢ xs).countP (fun pair => p pair.2 pair.1) = (xs ×ˢ ys).countP fun pair => p pair.1 pair.2 := by
  have hperm : ((xs ×ˢ ys).map Prod.swap).Perm (ys ×ˢ xs) := by
    rw [← Multiset.coe_eq_coe, ← Multiset.map_coe, ← Multiset.coe_product, ← Multiset.coe_product]
    exact Multiset.map_swap_product _ _
  rw [← hperm.countP_eq, List.countP_map]
  rfl

theorem countP_flatten_comm (xs : List α) (ys : List β) (f : α → β → γ) (p : γ → Bool) :
    (ys.map fun y => xs.map fun x => f x y).flatten.countP p =
      (xs.map fun x => ys.map (f x)).flatten.countP p := by
  rw [flatten_map_map, flatten_map_map, List.countP_map, List.countP_map]
  exact countP_product_comm xs ys fun x y => p (f x y)

end Table

theorem basePosition_swap (rowOffsets colOffsets : List Decimal) :
    basePosition colOffsets rowOffsets = (basePosition rowOffsets colOffsets).map Prod.swap := by
  unfold basePosition
  cases rowOffsets.findIdx? Decimal.isZero <;> cases colOffsets.findIdx? Decimal.isZero <;> rfl

theorem basePosition_transpose (request : GridRequest) :
    basePosition request.transpose.rowSweep request.transpose.colSweep =
      (basePosition request.rowSweep request.colSweep).map Prod.swap :=
  basePosition_swap request.rowSweep request.colSweep

theorem dealAt_transpose (hne : request.rowAxis ≠ request.colAxis) (deal : Deal) (row col : Decimal) :
    request.transpose.dealAt deal col row = request.dealAt deal row col :=
  Axis.set_comm hne deal row col

theorem Swept.transpose (h : Swept deal request rowValues colValues rows cols) :
    Swept deal request.transpose colValues rowValues cols rows where
  axes_ne := h.axes_ne.symm
  rowSweep_ne := h.colSweep_ne
  colSweep_ne := h.rowSweep_ne
  rowValues_eq := h.colValues_eq
  colValues_eq := h.rowValues_eq
  rows_eq := h.cols_eq
  cols_eq := h.rows_eq
  settles := by
    intro col hcol row hrow
    rw [dealAt_transpose h.axes_ne]
    exact h.settles row hrow col hcol

theorem length_rowWarnings {shown : Decimal} {cells : List Cell}
    (h : cells.length = colValues.length) :
    (rowWarnings request shown colValues cells).length = cells.countP Cell.isFailed := by
  have hcells : (colValues.zip cells).map Prod.snd = cells := List.map_snd_zip h.le
  conv_rhs => rw [← hcells, List.countP_map]
  unfold rowWarnings
  rw [List.length_filterMap_eq_countP]
  refine List.countP_congr fun pair _ => ?_
  obtain ⟨shown, cell⟩ := pair
  cases cell <;> rfl

theorem length_gridWarnings {cells : List (List Cell)} (h : cells.length = rowValues.length)
    (hrow : ∀ row ∈ cells, row.length = colValues.length) :
    (gridWarnings request rowValues colValues cells).length =
      cells.flatten.countP Cell.isFailed := by
  have hcells : (rowValues.zip cells).map Prod.snd = cells := List.map_snd_zip h.le
  conv_rhs => rw [List.countP_flatten, ← hcells, List.map_map]
  unfold gridWarnings
  rw [List.length_flatMap]
  refine congrArg List.sum (List.map_congr_left fun pair hpair => ?_)
  exact length_rowWarnings (hrow pair.2 (List.of_mem_zip hpair).2)

theorem tabulate_warnings_length (h : Swept deal request rowValues colValues rows cols) :
    (tabulate deal request rowValues colValues rows cols).warnings.length =
      (tabulate deal request rowValues colValues rows cols).result.failedCells +
        if (basePosition request.rowSweep request.colSweep).isNone then 1 else 0 := by
  have hlength : ∀ row ∈ (rows.map fun row => cols.map fun col =>
      cellOf request (request.dealAt deal row col)), row.length = colValues.length := by
    intro row hrow
    obtain ⟨_, -, rfl⟩ := List.mem_map.mp hrow
    rw [List.length_map, h.cols_same.length_eq]
  have hrows : (rows.map fun row => cols.map fun col =>
      cellOf request (request.dealAt deal row col)).length = rowValues.length := by
    rw [List.length_map, h.rows_same.length_eq]
  unfold tabulate
  rw [List.length_append, length_gridWarnings hrows hlength]
  cases basePosition request.rowSweep request.colSweep <;> rfl

theorem tabulate_baseCaseValue_eq (deal : Deal) (request : GridRequest)
    (rowValues colValues rows cols : List Decimal) :
    (tabulate deal request rowValues colValues rows cols).result.baseCaseValue =
      (basePosition request.rowSweep request.colSweep).bind fun position =>
        ((tabulate deal request rowValues colValues rows cols).result.cell? position.1 position.2).join :=
  rfl

theorem cells_transpose (hne : request.rowAxis ≠ request.colAxis) (deal : Deal)
    (rows cols : List Decimal) :
    (cols.map fun col => rows.map fun row =>
      cellOf request.transpose (request.transpose.dealAt deal col row)) =
      cols.map fun col => rows.map fun row => cellOf request (request.dealAt deal row col) := by
  simp only [dealAt_transpose hne]
  rfl

theorem cell?_transpose (hne : request.rowAxis ≠ request.colAxis) (r c : Nat) :
    (tabulate deal request.transpose colValues rowValues cols rows).result.cell? c r =
      (tabulate deal request rowValues colValues rows cols).result.cell? r c := by
  unfold SensitivityGrid.cell? tabulate
  rw [cells_transpose hne]
  simp only [List.map_map, Function.comp_def]
  exact entry_map_map_comm rows cols
    (fun row col => (cellOf request (request.dealAt deal row col)).value) r c

theorem isTranspose_tabulate (h : Swept deal request rowValues colValues rows cols) :
    IsTranspose (tabulate deal request rowValues colValues rows cols).result
      (tabulate deal request.transpose colValues rowValues cols rows).result := by
  constructor
  case cell_eq => exact cell?_transpose h.axes_ne
  case failedCells_eq =>
    unfold tabulate
    rw [cells_transpose h.axes_ne]
    exact countP_flatten_comm rows cols _ Cell.isFailed
  case basePosition_eq => exact basePosition_transpose request
  case baseValue_eq =>
    rw [tabulate_baseCaseValue_eq, tabulate_baseCaseValue_eq, basePosition_transpose, Option.bind_map]
    refine Option.bind_congr fun position _ => ?_
    exact congrArg Option.join (cell?_transpose h.axes_ne position.1 position.2)
  all_goals rfl

theorem mirrored_tabulate (h : Swept deal request rowValues colValues rows cols) :
    Mirrored (.ok (tabulate deal request rowValues colValues rows cols))
      (.ok (tabulate deal request.transpose colValues rowValues cols rows)) := by
  have htranspose := isTranspose_tabulate h
  refine .grid htranspose ?_
  rw [tabulate_warnings_length h.transpose, tabulate_warnings_length h, htranspose.failedCells_eq,
    basePosition_transpose, Option.isNone_map]

/-- The requests that are accepted: two different axes, with an offset for each. -/
def Accepted (request : GridRequest) : Prop :=
  request.rowAxis ≠ request.colAxis ∧ request.rowSweep ≠ [] ∧ request.colSweep ≠ []

theorem Accepted.transpose (h : Accepted request) : Accepted request.transpose :=
  ⟨h.1.symm, h.2.2, h.2.1⟩

def IsRejected {α : Type} (x : Outcome α) : Prop := ∃ cause, x = .error (.rejected cause)

section Rejected
variable {α β : Type} {f : α → Outcome β}

theorem IsRejected.bind {x : Outcome α} (h : IsRejected x) : IsRejected (x >>= f) := by
  obtain ⟨cause, rfl⟩ := h
  exact ⟨cause, rfl⟩

/-- Decimal operations may fault but reject nothing. -/
theorem IsRejected.of_lift_bind {x : Arith α} (h : IsRejected ((liftM x : Outcome α) >>= f)) :
    ∃ a, IsRejected (f a) := by
  cases x with
  | ok a => exact ⟨a, h⟩
  | error fault =>
    obtain ⟨cause, h⟩ := h
    cases h

end Rejected

theorem resolveOffsets_isRejected {axis : Axis} {custom : Option (List Decimal)} {field : String}
    (h : custom.getD axis.offsets = []) : IsRejected (resolveOffsets axis custom field) := by
  unfold resolveOffsets
  dsimp only
  rw [h, if_pos List.isEmpty_nil]
  exact ⟨_, rfl⟩

theorem not_isRejected_build (h : Accepted request) (deal : Deal) :
    ¬ IsRejected (build deal request) := by
  obtain ⟨haxes, hrows, hcols⟩ := h
  intro hbuild
  unfold build at hbuild
  rw [if_neg haxes, resolveOffsets_eq_ok.mpr ⟨hrows, rfl⟩, ok_bind,
    resolveOffsets_eq_ok.mpr ⟨hcols, rfl⟩, ok_bind] at hbuild
  obtain ⟨rowValues, hbuild⟩ := hbuild.of_lift_bind
  obtain ⟨colValues, hbuild⟩ := hbuild.of_lift_bind
  obtain ⟨cells, hbuild⟩ := hbuild.of_lift_bind
  obtain ⟨cause, hbuild⟩ := hbuild
  cases hbuild

theorem isRejected_build (h : ¬ Accepted request) (deal : Deal) : IsRejected (build deal request) := by
  unfold build
  by_cases haxes : request.rowAxis = request.colAxis
  · rw [if_pos haxes]
    exact ⟨_, rfl⟩
  rw [if_neg haxes]
  by_cases hrows : request.rowSweep = []
  · exact (resolveOffsets_isRejected hrows).bind
  rw [resolveOffsets_eq_ok.mpr ⟨hrows, rfl⟩, ok_bind]
  by_cases hcols : request.colSweep = []
  · exact (resolveOffsets_isRejected hcols).bind
  exact absurd ⟨haxes, hrows, hcols⟩ h

/-- Exchanging the axes of an accepted request transposes its grid, or leaves it with a fault. -/
theorem build_transpose_of_accepted (h : Accepted request) (deal : Deal) :
    Mirrored (build deal request) (build deal request.transpose) := by
  cases hbuild : build deal request with
  | ok analysis =>
    obtain ⟨rowValues, colValues, rows, cols, hswept, rfl⟩ := build_eq_ok_iff.mp hbuild
    have hother := build_eq_ok_iff.mpr ⟨_, _, _, _, hswept.transpose, rfl⟩
    rw [hother]
    exact mirrored_tabulate hswept
  | error failure =>
    cases failure with
    | rejected cause => exact absurd ⟨cause, hbuild⟩ (not_isRejected_build h deal)
    | fault f =>
      cases hother : build deal request.transpose with
      | ok analysis =>
        -- a grid of the exchanged request would transpose back to one of this request
        obtain ⟨rowValues, colValues, rows, cols, hswept, -⟩ := build_eq_ok_iff.mp hother
        have hback : build deal request = _ := build_eq_ok_iff.mpr ⟨_, _, _, _, hswept.transpose, rfl⟩
        rw [hbuild] at hback
        cases hback
      | error failure =>
        cases failure with
        | rejected cause => exact absurd ⟨cause, hother⟩ (not_isRejected_build h.transpose deal)
        | fault f' => exact .fault f f'

theorem build_transpose (deal : Deal) (request : GridRequest) :
    Mirrored (build deal request) (build deal request.transpose) := by
  by_cases h : Accepted request
  · exact build_transpose_of_accepted h deal
  · have hother : ¬ Accepted request.transpose := fun hback => h hback.transpose
    obtain ⟨cause, hrejected⟩ := isRejected_build h deal
    obtain ⟨cause', hrejected'⟩ := isRejected_build hother deal
    rw [hrejected, hrejected']
    exact .rejected cause cause'

end Sensitivity

end PropertyFinance
