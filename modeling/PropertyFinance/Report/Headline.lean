import PropertyFinance.Report.Cell

/-! The one figure of a result that matters most. -/

namespace PropertyFinance.Report
set_option autoImplicit false

/-- The names of such figures, the most telling first. -/
def headlineNames : List String :=
  ["irr", "levered_irr", "lp_irr", "recommended_loan_amount", "base_case_value", "equity_multiple"]

/-- The value under a name in an object or, so many levels down, in the objects inside it. -/
def findValue (name : String) : Nat → Json → Option Json
  | levels, .object entries =>
    match entries.lookup name with
    | some value => if value.isNull then search name levels entries else some value
    | none => search name levels entries
  | _, _ => none
where
  search (name : String) : Nat → List (String × Json) → Option Json
    | 0, _ => none
    | levels + 1, entries => (entries.map Prod.snd).findSome? (findValue name levels)

def headline (value : Json) : String :=
  let result := (value.get? "result").getD value
  match headlineNames.findSome? (findValue · 2 result), result with
  | some found, _ => cellText found ++ "\n"
  | none, .object ((name, first) :: _) => name ++ ": " ++ cellText first ++ "\n"
  | none, result => cellText result ++ "\n"

end PropertyFinance.Report
