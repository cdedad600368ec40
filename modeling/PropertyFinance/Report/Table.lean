import PropertyFinance.Report.Cell
import PropertyFinance.Text.Width

/-! Results as tables with a line around every row. Cells are padded to the width of their column
on the screen. -/

namespace PropertyFinance.Report
set_option autoImplicit false

/-- The lines of a cell. -/
def cellLines (s : String) : List (List Char) :=
  go s.toList []
where
  go : List Char → List Char → List (List Char)
    | [], done => [done.reverse]
    | '\n' :: rest, done => done.reverse :: go rest []
    | c :: rest, done => go rest (c :: done)

def cellWidth (s : String) : Nat := ((cellLines s).map Width.ofChars).foldl max 0

/-- The width of each column, over all rows. -/
def columnWidths : List (List String) → List Nat
  | [] => []
  | row :: rest => widen (row.map cellWidth) (columnWidths rest)
where
  widen : List Nat → List Nat → List Nat
    | a :: as, b :: bs => max a b :: widen as bs
    | as, [] => as
    | [], bs => bs

def border (widths : List Nat) : List Char :=
  '+' :: widths.flatMap fun w => List.replicate (w + 2) '-' ++ ['+']

def padded (width : Nat) (line : List Char) : List Char :=
  ' ' :: line ++ List.replicate (width - Width.ofChars line + 1) ' '

/-- The screen lines of one row. A row with too few cells is filled up with empty ones. -/
def rowLines (widths : List Nat) (row : List String) : List (List Char) :=
  let cells := widths.zipIdx.map fun (w, i) => (w, cellLines (row.getD i ""))
  let height := (cells.map fun c => c.2.length).foldl max 1
  (List.range height).map fun i =>
    '|' :: cells.flatMap fun (w, lines) => padded w (lines.getD i []) ++ ['|']

/-- A table as one text with a line end after it. -/
def drawTable (rows : List (List String)) : String :=
  let widths := columnWidths rows
  let edge := border widths
  let lines := edge :: rows.flatMap fun row => rowLines widths row ++ [edge]
  String.ofList (lines.flatMap fun line => line ++ ['\n'])

def fieldTable (entries : List (String × Json)) : String :=
  drawTable (["Field", "Value"] :: entries.map fun (name, value) => [name, cellText value])

def rowTable : List Json → String
  | [] => "(empty)\n"
  | .object first :: rest =>
    let headers := first.map Prod.fst
    drawTable (headers :: objectRows cellText headers (.object first :: rest))
  | rows => String.join (rows.map fun row => cellText row ++ "\n")

/-- Whether a value is an array whose first item is an object or an array. -/
def isRowArray : Json → Bool
  | .array (first :: _) => first.isObject || first.isArray
  | _ => false

/-- The words of a name, each with a capital. -/
def heading (name : String) : String :=
  String.ofList (go name.toList true)
where
  go : List Char → Bool → List Char
    | [], _ => []
    | '_' :: rest, _ => ' ' :: go rest true
    | c :: rest, begins => (if begins then c.toUpper else c) :: go rest false

def titled (name body : String) : String := "\n" ++ heading name ++ "\n" ++ body

/-- The grid with its row labels down the side and its column labels across. -/
def gridTable (entries : List (String × Json)) : String :=
  let corner := textAt cellText entries "row_axis" ++ " \\ " ++ textAt cellText entries "col_axis"
  let header := corner :: labels cellText entries "col_labels"
  let rows := matrixRows cellText (labels cellText entries "row_labels")
    (items (entries.lookup "matrix"))
  let metric := match entries.lookup "metric" with
    | some metric => "Metric: " ++ cellText metric ++ "\n"
    | none => ""
  metric ++ drawTable (header :: rows)

/-- Plain fields first, then nested objects, then arrays of rows. -/
def resultTable : Json → String
  | .object entries =>
    if (entries.lookup "matrix").isSome then gridTable entries
    else
      let plain := entries.filter fun (name, value) =>
        !value.isObject && !rowSections.contains name && !isRowArray value
      let nested := entries.map fun (name, value) =>
        match value with
        | .object inner => titled name (fieldTable inner)
        | _ => ""
      let rows := entries.map fun (name, value) =>
        if isRowArray value then titled name (rowTable (items (some value))) else ""
      (if plain.isEmpty then "" else fieldTable plain) ++ String.join nested ++ String.join rows
  | result => cellText result ++ "\n"

def warningLines (warnings : List Json) : String :=
  if warnings.isEmpty then ""
  else "\nWarnings:\n" ++ String.join (warnings.map fun w =>
    match w with
    | .text s => "  - " ++ s ++ "\n"
    | _ => "")

/-- The warnings and the method, after the result. -/
def notes (entries : List (String × Json)) : String :=
  warningLines (items (entries.lookup "warnings")) ++
    match entries.lookup "methodology" with
    | some (.text s) => "\nMethodology: " ++ s ++ "\n"
    | _ => ""

def tables : Json → String
  | .object entries =>
    match entries.lookup "result" with
    | some result => resultTable result ++ notes entries
    | none => fieldTable entries
  | .array rows => rowTable rows
  | value => value.render ++ "\n"

end PropertyFinance.Report
