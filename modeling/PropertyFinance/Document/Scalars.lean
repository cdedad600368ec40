import PropertyFinance.DebtSizing
import PropertyFinance.Json.Fields
import PropertyFinance.Sensitivity

/-! Decimals and names in documents. A decimal is written as a string with all its places, and read
from a string or from a number. -/

namespace PropertyFinance
set_option autoImplicit false

namespace Decimal

def toJson (a : Decimal) : Json := .text a.toText

/-- A number that is not a 64-bit integer is read from its shortest digits. -/
def ofNumeral? : Numeral → Option Decimal
  | .integer n => ofParts? (decide (n < 0)) n.natAbs 0
  | .real x => readPlain x.toChars

def ofJson? : Json → Option Decimal
  | .text s => ofText? s
  | .number n => ofNumeral? n
  | _ => none

end Decimal

def SourceKind.names : List (String × SourceKind) :=
  [("DEBT", .debt), ("LP_EQUITY", .lpEquity), ("GP_EQUITY", .gpEquity)]

def LoanType.names : List (String × LoanType) :=
  [("permanent", .permanent), ("construction", .construction), ("bridge", .bridge)]

def SizingTest.names : List (String × SizingTest) :=
  [("max_ltv", .maxLtv), ("min_dscr", .minDscr), ("min_debt_yield", .minDebtYield)]

def Axis.names : List (String × Axis) := Axis.all.map fun axis => (axis.name, axis)

def Metric.names : List (String × Metric) := Metric.all.map fun metric => (metric.name, metric)

def OffsetMode.names : List (String × OffsetMode) :=
  [("absolute", .absolute), ("relative", .relative)]

def Recommendation.names : List (String × Recommendation) :=
  [("proceed", .proceed), ("conditional", .conditional), ("pass", .pass)]

def YieldMethod.names : List (String × YieldMethod) :=
  [("newton_raphson", .newtonRaphson), ("bisection", .bisection), ("best_effort", .bestEffort)]

/-- The loan type of a name in any letter case. -/
def LoanType.ofText (text : String) : Outcome LoanType :=
  let key := text.map Char.toLower
  match LoanType.names.lookup key with
  | some loanType => pure loanType
  | none => rejectField "loan_type" ("Unknown loan type '" ++ key ++ "'")

namespace Json

def ofName {A : Type} [DecidableEq A] (choices : List (String × A)) (a : A) : Json :=
  text (nameOf choices a)

def ofCount (n : UInt32) : Json := nat n.toNat

def ofDecimals (xs : List Decimal) : Json := ofList Decimal.toJson xs

def ofRate (rate : Option Decimal) : Json := ofOption Decimal.toJson rate

end Json

end PropertyFinance
