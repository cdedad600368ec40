import PropertyFinance.Report.Csv
import PropertyFinance.Report.Headline
import PropertyFinance.Report.Table

/-! The forms in which a result is printed. -/

namespace PropertyFinance
set_option autoImplicit false

inductive OutputFormat
  | json
  | table
  | csv
  | minimal
deriving DecidableEq

def OutputFormat.names : List (String × OutputFormat) :=
  [("json", .json), ("table", .table), ("csv", .csv), ("minimal", .minimal)]

def OutputFormat.render : OutputFormat → Json → String
  | .json, value => value.renderIndented ++ "\n"
  | .table, value => Report.tables value
  | .csv, value => Report.csv value
  | .minimal, value => Report.headline value

end PropertyFinance
