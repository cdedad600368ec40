import PropertyFinance.Json.Writer

/-! The text of a value where there is room for one line only. -/

namespace PropertyFinance.Report
set_option autoImplicit false

/-- The parts of a result that are shown as rows, in the order of preference. -/
def rowSections : List String :=
  ["annual_cash_flows", "annual_distributions", "scenarios", "sources"]

mutual

/-- A dash for no value; the items of an array are separated by commas. -/
def cellText : Json → String
  | .text s => s
  | .number n => Json.numeralText n
  | .bool b => if b then "true" else "false"
  | .array items => String.intercalate ", " (cellTexts items)
  | .object entries => (Json.object entries).render
  | .null | .unreadable => "-"

def cellTexts : List Json → List String
  | [] => []
  | item :: rest => cellText item :: cellTexts rest

end

/-- As in a cell, but nothing for no value, and arrays as JSON. -/
def fieldText : Json → String
  | .text s => s
  | .number n => Json.numeralText n
  | .bool b => if b then "true" else "false"
  | .null | .unreadable => ""
  | value => value.render

def items : Option Json → List Json
  | some (.array xs) => xs
  | _ => []

/-- The texts of the items under a name. -/
def labels (text : Json → String) (entries : List (String × Json)) (name : String) : List String :=
  (items (entries.lookup name)).map text

/-- The text under a name, empty if there is none. -/
def textAt (text : Json → String) (entries : List (String × Json)) (name : String) : String :=
  ((entries.lookup name).map text).getD ""

/-- The rows of objects that share the names of the first. -/
def objectRows (text : Json → String) (headers : List String) (rows : List Json) :
    List (List String) :=
  rows.filterMap fun row =>
    match row with
    | .object entries => some (headers.map (textAt text entries))
    | _ => none

/-- One row per row of the matrix, with its label in front. -/
def matrixRows (text : Json → String) (rowLabels : List String) (rows : List Json) :
    List (List String) :=
  rows.zipIdx.map fun (row, i) => rowLabels.getD i "" :: (items (some row)).map text

end PropertyFinance.Report
