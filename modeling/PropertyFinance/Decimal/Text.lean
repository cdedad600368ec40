import PropertyFinance.Decimal.Arithmetic
import PropertyFinance.Text.Digits

/-! Writing and reading decimals. A number is written in plain digits with all its places. Reading
also takes an exponent, and rounds off the places that do not fit. -/

namespace PropertyFinance.Decimal
set_option autoImplicit false

/-- The digits of `m / 10 ^ s`, with at least one before the point. -/
def plainDigits (m : Nat) : Nat → List Char
  | 0 => Digits.ofNat m
  | s + 1 => Digits.ofNat (m / tenTo (s + 1)) ++ '.' :: Digits.lastOf (s + 1) m

def signChars (negative : Bool) : List Char := if negative then ['-'] else []

def toChars (a : Decimal) : List Char := signChars a.negative ++ plainDigits a.mantissa a.scale

def toText (a : Decimal) : String := String.ofList a.toChars

/-- The text cut or padded to so many places; the digits beyond are dropped without rounding. -/
def toFixed (a : Decimal) (places : Nat) : String :=
  let m := if places ≤ a.scale then a.mantissa / tenTo (a.scale - places)
           else a.mantissa * tenTo (places - a.scale)
  String.ofList (signChars a.negative ++ plainDigits m places)

/-- A digit's value. -/
def digit? (c : Char) : Option Nat := if c.isDigit then some (Digits.valueOf c) else none

/-- What follows the digits that still fit: at most the separator. -/
def allDigits (cs : List Char) : Bool := cs.all fun c => c.isDigit || c == '_'

/-- The first digit that does not fit rounds the mantissa, a half going up. -/
def readDropped (d m s : Nat) (rest : List Char) : Option (Nat × Nat) :=
  if !allDigits rest then none
  else
    let m := if 5 ≤ d then m + 1 else m
    if m < capacity then some (m, s)
    else if s = 0 then none
    else some ((m + 4) / 10, s - 1)

/-- A mantissa is short as long as all its digits but the last make less than this. -/
def shortBound : Nat := 1844674407370954906

/-- The places after the point. `seen` tells whether a digit has come before, and `apart` whether a
separator stands between that digit and here. Behind the last place a separator cuts off the rest of
a short mantissa; a long one takes digits behind it as long as they fit. -/
def readPlaces : List Char → (seen apart : Bool) → Nat → Nat → Option (Nat × Nat)
  | [], seen, _, m, s => if seen then some (m, s) else none
  | c :: rest, seen, apart, m, s =>
    if c = '_' then
      if !seen then none
      else if maxScale ≤ s ∧ m / 10 < shortBound then readDropped 0 m s rest
      else readPlaces rest seen true m s
    else match digit? c with
      | none => none
      | some d =>
        if (s < maxScale ∨ apart) ∧ 10 * m + d < capacity then
          readPlaces rest true false (10 * m + d) (s + 1)
        else readDropped d m s rest

/-- The digits before the point, all of which have to fit. -/
def readWhole : List Char → Bool → Nat → Option (Nat × Nat)
  | [], seen, m => if seen then some (m, 0) else none
  | c :: rest, seen, m =>
    if c = '.' then readPlaces rest seen false m 0
    else if c = '_' then if seen then readWhole rest seen m else none
    else match digit? c with
      | none => none
      | some d => if 10 * m + d < capacity then readWhole rest true (10 * m + d) else none

/-- One leading sign. -/
def splitSign : List Char → Bool × List Char
  | '-' :: rest => (true, rest)
  | '+' :: rest => (false, rest)
  | cs => (false, cs)

/-- Plain digits with at most one point, `_` allowed after the first digit. A zero is read without
its sign. A number of places beyond the greatest begins at zero again. -/
def readPlain (cs : List Char) : Option Decimal := do
  let (negative, digits) := splitSign cs
  let (m, s) ← readWhole digits false 0
  ofParts? (negative && m != 0) m (s % (maxScale + 1))

/-- A count below `2 ^ 32`, with at most a leading plus sign. -/
def readCount (cs : List Char) : Option Nat :=
  let digits := match cs with
    | '+' :: rest => rest
    | cs => cs
  if digits.isEmpty || !digits.all Char.isDigit then none
  else
    let n := Digits.toNat digits
    if n < 4294967296 then some n else none

/-- Divides by `10 ^ e`, first rounding off the places that would not fit, a half going away from
zero. -/
def scaleDown (a : Decimal) (e : Nat) : Option Decimal :=
  if maxScale < e then none
  else if a.scale + e ≤ maxScale then ofParts? a.negative a.mantissa (a.scale + e)
  else ofParts? a.negative (roundHalfUp a.mantissa (a.scale + e - maxScale)) maxScale

/-- Multiplies by `10 ^ e` in steps of at most `10 ^ 19`. -/
def raise (a : Decimal) (e : Nat) : Option Decimal := do
  if e < 19 then a.mul? (← ofParts? false (tenTo e) 0)
  else
    let big ← a.mul? (← ofParts? false (tenTo 19) 0)
    if e = 19 then some big else big.mul? (← ofParts? false (tenTo (e - 19)) 0)

def scaleUp (a : Decimal) (e : Nat) : Option Decimal :=
  if e ≤ a.scale then ofParts? a.negative a.mantissa (a.scale - e)
  else if maxScale < e then none
  else (a.raise e).map normalize

/-- A plain number, an `e` and an exponent. -/
def readScientific (cs : List Char) : Option Decimal := do
  let isMark (c : Char) : Bool := c == 'e' || c == 'E'
  match cs.dropWhile (!isMark ·) with
  | [] => none
  | _ :: exponent =>
    let base ← readPlain (cs.takeWhile (!isMark ·))
    match exponent with
    | '-' :: rest => base.scaleDown (← readCount rest)
    | rest => base.scaleUp (← readCount rest)

def ofChars? (cs : List Char) : Option Decimal := (readPlain cs).or (readScientific cs)

def ofText? (s : String) : Option Decimal := ofChars? s.toList

end PropertyFinance.Decimal
