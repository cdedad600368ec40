import PropertyFinance.Failure

/-! A result together with what it rests on: the method by name, the assumptions used and the
warnings met on the way. -/

namespace PropertyFinance
set_option autoImplicit false

structure Analysis (Basis Result : Type) where
  result : Result
  methodology : String
  basis : Basis
  warnings : List String

/-- A result and the warnings met on the way. -/
structure Noted (Result : Type) where
  result : Result
  warnings : List String

/-- A warning, given only under a condition. -/
def warnIf (condition : Bool) (text : String) : List String := if condition then [text] else []

end PropertyFinance
