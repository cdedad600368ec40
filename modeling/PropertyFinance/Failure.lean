import PropertyFinance.Decimal.Text

/-! The two ways in which a computation ends without an answer. A fault is a decimal operation
whose result does not exist; a rejection is a deal or a request that makes no sense. -/

namespace PropertyFinance
set_option autoImplicit false

inductive Fault
  | additionOverflow
  | subtractionOverflow
  | multiplicationOverflow
  | divisionOverflow
  | divisionByZero
deriving DecidableEq

def Fault.message : Fault → String
  | .additionOverflow => "Addition overflowed"
  | .subtractionOverflow => "Subtraction overflowed"
  | .multiplicationOverflow => "Multiplication overflowed"
  | .divisionOverflow => "Division overflowed"
  | .divisionByZero => "Division by zero"

inductive Rejection
  | invalidInput (field reason : String)
  | financialImpossibility (detail : String)
  | convergenceFailure (procedure : String) (iterations : Nat) (lastDelta : Decimal)
  | insufficientData (detail : String)
  | divisionByZero (context : String)
  | serialization (detail : String)
deriving DecidableEq

def Rejection.message : Rejection → String
  | .invalidInput field reason => "Invalid input: " ++ field ++ ": " ++ reason
  | .financialImpossibility detail => "Financial impossibility: " ++ detail
  | .convergenceFailure procedure iterations lastDelta =>
    "Convergence failure: " ++ procedure ++ " did not converge after " ++ toString iterations
      ++ " iterations (delta: " ++ lastDelta.toText ++ ")"
  | .insufficientData detail => "Insufficient data: " ++ detail
  | .divisionByZero context => "Division by zero in " ++ context
  | .serialization detail => "Serialization error: " ++ detail

inductive Failure
  | rejected (cause : Rejection)
  | fault (cause : Fault)
deriving DecidableEq

/-- A computation on decimals that may fault. -/
abbrev Arith := Except Fault

/-- A computation that may also reject its input. -/
abbrev Outcome := Except Failure

instance : MonadLift Arith Outcome where
  monadLift
    | .ok a => .ok a
    | .error f => .error (.fault f)

def reject {α : Type} (cause : Rejection) : Outcome α := .error (.rejected cause)

def rejectField {α : Type} (field reason : String) : Outcome α :=
  reject (.invalidInput field reason)

/-- The value, or the fault where there is none. -/
def orFault {α : Type} (f : Fault) : Option α → Arith α
  | some a => .ok a
  | none => .error f

namespace Decimal

def add (a b : Decimal) : Arith Decimal := orFault .additionOverflow (a.add? b)
def sub (a b : Decimal) : Arith Decimal := orFault .subtractionOverflow (a.sub? b)
def mul (a b : Decimal) : Arith Decimal := orFault .multiplicationOverflow (a.mul? b)

def div (a b : Decimal) : Arith Decimal :=
  if b.isZero then .error .divisionByZero else orFault .divisionOverflow (a.div? b)

/-- Added up from the left, starting at zero. -/
def sum (xs : List Decimal) : Arith Decimal := xs.foldlM add zero

end Decimal

/-- A percentage as a rate. -/
def percentToRate (percent : Decimal) : Arith Decimal := percent.div .hundred

end PropertyFinance
