import PropertyFinance.CommandLine.Options
import PropertyFinance.DebtSizing
import PropertyFinance.Document.Scalars
import PropertyFinance.Report.Format
import PropertyFinance.Sensitivity

/-! The commands and their options. The format of the output and the amount of logging are asked for
before the command or after it. -/

namespace PropertyFinance.CommandLine
set_option autoImplicit false

structure YieldArguments where
  input : Option String
  cashFlows : Option (List Decimal)
  guess : Option Decimal
  maxIterations : Option UInt32
  tolerance : Option Decimal
deriving DecidableEq

structure ProFormaArguments where
  input : Option String
  holdYears : Option UInt32
deriving DecidableEq

structure WaterfallArguments where
  input : Option String
  equityFromProForma : Bool
deriving DecidableEq

structure GridArguments where
  input : Option String
  rowAxis : Axis
  colAxis : Axis
  metric : Metric
  rowOffsets : Option (List Decimal)
  colOffsets : Option (List Decimal)
deriving DecidableEq

structure StressArguments where
  input : Option String
  bundleOnly : Bool
deriving DecidableEq

structure SizingArguments where
  input : Option String
  noi : Option Decimal
  propertyValue : Option Decimal
  loanType : LoanType
  interestRatePct : Decimal
  amortizationYears : UInt32
deriving DecidableEq

inductive Command
  | irr (arguments : YieldArguments)
  | proForma (arguments : ProFormaArguments)
  | waterfall (arguments : WaterfallArguments)
  | sensitivity (arguments : GridArguments)
  | stress (arguments : StressArguments)
  | sizeDebt (arguments : SizingArguments)
deriving DecidableEq

/-- What is asked of the program. -/
inductive Invocation
  | version
  | run (command : Command) (format : OutputFormat)
deriving DecidableEq

/-- A whole number below `2 ^ 32`, with or without a sign. -/
def readCount (text : String) : Option UInt32 :=
  let (negative, digits) := match text.toList with
    | '-' :: digits => (true, digits)
    | '+' :: digits => (false, digits)
    | digits => (false, digits)
  let n := Digits.toNat digits
  if digits.isEmpty || !digits.all Char.isDigit then none
  else if 4294967296 ≤ n || (negative && n != 0) then none
  else some (UInt32.ofNat n)

def readFormat (text : String) : Option OutputFormat := OutputFormat.names.lookup text

def readLoanType (text : String) : Option LoanType := (LoanType.ofText text).toOption

namespace Command

def readIrr (given : Given) : Usage Command := do
  pure (.irr {
    input := ← given.value? "input" some
    cashFlows := ← given.list? "cash-flows" Decimal.ofText?
    guess := ← given.value? "guess" Decimal.ofText?
    maxIterations := ← given.value? "max-iterations" readCount
    tolerance := ← given.value? "tolerance" Decimal.ofText? })

def readProForma (given : Given) : Usage Command := do
  pure (.proForma {
    input := ← given.value? "input" some
    holdYears := ← given.value? "hold-years" readCount })

def readWaterfall (given : Given) : Usage Command := do
  pure (.waterfall {
    input := ← given.value? "input" some
    equityFromProForma := ← given.flag "equity-from-pro-forma" })

def readSensitivity (given : Given) : Usage Command := do
  pure (.sensitivity {
    input := ← given.value? "input" some
    rowAxis := ← given.valueOr "row-axis" Axis.ofName? .exitCapRate
    colAxis := ← given.valueOr "col-axis" Axis.ofName? .rentGrowth
    metric := ← given.valueOr "metric" Metric.ofName? .leveredIrr
    rowOffsets := ← given.list? "row-offsets" Decimal.ofText?
    colOffsets := ← given.list? "col-offsets" Decimal.ofText? })

def readStress (given : Given) : Usage Command := do
  pure (.stress {
    input := ← given.value? "input" some
    bundleOnly := ← given.flag "bundle-only" })

def readSizeDebt (given : Given) : Usage Command := do
  pure (.sizeDebt {
    input := ← given.value? "input" some
    noi := ← given.value? "noi" Decimal.ofText?
    propertyValue := ← given.value? "property-value" Decimal.ofText?
    loanType := ← given.valueOr "loan-type" readLoanType .permanent
    interestRatePct :=
      ← given.valueOr "interest-rate-pct" Decimal.ofText? SizingRequest.defaultInterestRatePct
    amortizationYears :=
      ← given.valueOr "amortization-years" readCount SizingRequest.defaultAmortizationYears })

end Command

/-- What may stand behind the name of a command, and how it is read. -/
structure CommandForm where
  options : List OptionSpec
  read : Given → Usage (OutputFormat → Invocation)

def flagOption (name : String) : OptionSpec := ⟨name, none, .flag⟩
def valueOption (name : String) : OptionSpec := ⟨name, none, .value⟩
def listOption (name : String) : OptionSpec := ⟨name, none, .list⟩

def commonOptions : List OptionSpec := [valueOption "output", ⟨"verbose", some 'v', .flag⟩]

def leadingOptions : List OptionSpec := ⟨"version", some 'V', .final⟩ :: commonOptions

def CommandForm.ofCommand (options : List OptionSpec) (read : Given → Usage Command) :
    CommandForm :=
  ⟨valueOption "input" :: options, fun given => do pure (.run (← read given))⟩

def commandForms : List (String × CommandForm) :=
  [("irr", .ofCommand
      [listOption "cash-flows", valueOption "guess", valueOption "max-iterations",
        valueOption "tolerance"] Command.readIrr),
    ("pro-forma", .ofCommand [valueOption "hold-years"] Command.readProForma),
    ("waterfall", .ofCommand [flagOption "equity-from-pro-forma"] Command.readWaterfall),
    ("sensitivity", .ofCommand
      [valueOption "row-axis", valueOption "col-axis", valueOption "metric",
        listOption "row-offsets", listOption "col-offsets"] Command.readSensitivity),
    ("stress", .ofCommand [flagOption "bundle-only"] Command.readStress),
    ("size-debt", .ofCommand
      [valueOption "noi", valueOption "property-value", valueOption "loan-type",
        valueOption "interest-rate-pct", valueOption "amortization-years"] Command.readSizeDebt),
    ("version", ⟨[], fun _ => pure fun _ => .version⟩)]

namespace Invocation

/-- Options behind the name of the command, where a lone `--` may come last. -/
def ofForm (form : CommandForm) (args : List String) (format : Option OutputFormat) :
    Usage Invocation := do
  let (given, rest) ← readOptions (form.options ++ commonOptions) args .empty
  match rest with
  | [] | ["--"] =>
    let own ← given.value? "output" readFormat
    pure ((← form.read given) ((own <|> format).getD .json))
  | arg :: _ => throw (.unexpectedArgument arg)

/-- A format behind the command counts before one in front of it. -/
def ofArguments (args : List String) : Usage Invocation := do
  let (given, rest) ← readOptions leadingOptions args .empty
  let format ← given.value? "output" readFormat
  if given.has "version" then pure .version
  else match rest with
    | [] => throw .missingCommand
    | name :: args =>
      match commandForms.lookup name with
      | none => throw (.unknownCommand name)
      | some form => ofForm form args format

end Invocation

end PropertyFinance.CommandLine
