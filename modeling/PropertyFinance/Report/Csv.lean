import PropertyFinance.Report.Cell

/-! Results as comma-separated records. -/

namespace PropertyFinance.Report
set_option autoImplicit false

def needsQuotes (cs : List Char) : Bool :=
  cs.any fun c => c == ',' || c == '"' || c == '\n' || c == '\r'

/-- Quotes inside a quoted field are doubled. -/
def csvField (s : String) : List Char :=
  let cs := s.toList
  if needsQuotes cs then
    '"' :: cs.flatMap (fun c => if c = '"' then ['"', '"'] else [c]) ++ ['"']
  else cs

/-- A record of one empty field is written as a pair of quotes. -/
def csvRecord (fields : List String) : String :=
  if fields = [""] then "\"\"\n"
  else String.ofList (List.intercalate [','] (fields.map csvField) ++ ['\n'])

def csvRecords (records : List (List String)) : String := String.join (records.map csvRecord)

def csvFields (entries : List (String × Json)) : String :=
  csvRecords (["field", "value"] :: entries.map fun (name, value) => [name, fieldText value])

def csvRows : List Json → String
  | .object first :: rest =>
    let headers := first.map Prod.fst
    csvRecords (headers :: objectRows fieldText headers (.object first :: rest))
  | rows => csvRecords (rows.map fun row => [fieldText row])

def csvGrid (entries : List (String × Json)) (matrix : List Json) : String :=
  let header := textAt fieldText entries "row_axis" :: labels fieldText entries "col_values"
  csvRecords (header :: matrixRows fieldText (labels fieldText entries "row_values") matrix)

/-- The first section that has rows. -/
def sectionRows (entries : List (String × Json)) : Option (List Json) :=
  rowSections.findSome? fun name =>
    match entries.lookup name with
    | some (.array (first :: rest)) => if first.isObject then some (first :: rest) else none
    | _ => none

def csvResult (entries : List (String × Json)) : String :=
  match entries.lookup "matrix" with
  | some (.array matrix) => csvGrid entries matrix
  | _ =>
    match sectionRows entries with
    | some rows => csvRows rows
    | none => csvFields entries

def csv : Json → String
  | .object entries =>
    match entries.lookup "result" with
    | some (.object result) => csvResult result
    | some other => csvRecord [fieldText other]
    | none => csvFields entries
  | .array rows => csvRows rows
  | value => csvRecord [fieldText value]

end PropertyFinance.Report
