import PropertyFinance.Decimal.Text

/-! Binary floating-point numbers of 64 bits in exact arithmetic: rounding a ratio to the nearest
one, and the fewest digits that read back as a given one. -/

namespace PropertyFinance
set_option autoImplicit false

/-- The number `mantissa * 2 ^ exponent` with its sign. -/
structure Binary64 where
  negative : Bool
  mantissa : Nat
  exponent : Int
deriving DecidableEq

namespace Binary64

def mantissaLimit : Nat := twoTo 53
def leastExponent : Int := -1074
def greatestExponent : Int := 971

def zero : Binary64 := ⟨false, 0, leastExponent⟩

def isZero (x : Binary64) : Bool := x.mantissa == 0

def withSign (x : Binary64) (negative : Bool) : Binary64 := { x with negative }

/-- The exponent of the last place that a ratio of positive numbers can have. -/
def placeOf (num den : Nat) : Int :=
  let e : Int := (num.log2 : Int) - den.log2 - 53
  let fits := if 0 ≤ e + 53 then num < den * twoTo (e + 53).toNat
              else num * twoTo (-(e + 53)).toNat < den
  max leastExponent (if fits then e else e + 1)

/-- The number nearest to a ratio, a half going to the even neighbour; nothing above the largest
finite number. -/
def ofRatio (num den : Nat) : Option Binary64 :=
  if num = 0 then some zero
  else
    let e := placeOf num den
    let q := roundHalfEven (num * twoTo (-e).toNat) (den * twoTo e.toNat)
    let (m, e) := if q = mantissaLimit then (q / 2, e + 1) else (q, e)
    if greatestExponent < e then none else some ⟨false, m, e⟩

def ofNat (n : Nat) : Option Binary64 := ofRatio n 1

/-- `a * b` or `a / b` of magnitudes, rounded once. -/
def times (a b : Binary64) : Option Binary64 :=
  let e := a.exponent + b.exponent
  ofRatio (a.mantissa * b.mantissa * twoTo e.toNat) (twoTo (-e).toNat)

def dividedBy (a b : Binary64) : Option Binary64 :=
  let e := a.exponent - b.exponent
  ofRatio (a.mantissa * twoTo e.toNat) (b.mantissa * twoTo (-e).toNat)

/-- The ends of the numbers that round to a magnitude, as multiples of `2 ^ (exponent - 2)`. -/
def lowerEnd (x : Binary64) : Nat :=
  if x.mantissa = mantissaLimit / 2 ∧ leastExponent < x.exponent then 4 * x.mantissa - 1
  else 4 * x.mantissa - 2

def upperEnd (x : Binary64) : Nat := 4 * x.mantissa + 2

/-- `n * 2 ^ (exponent - 2)` and `d * 10 ^ p` brought to a common denominator. -/
def scaledBits (x : Binary64) (p : Int) (n : Nat) : Nat :=
  n * twoTo (x.exponent - 2).toNat * tenTo (-p).toNat

def scaledDigits (x : Binary64) (p : Int) (d : Nat) : Nat :=
  d * tenTo p.toNat * twoTo (-(x.exponent - 2)).toNat

def isInside (x : Binary64) (p : Int) (d : Nat) : Bool :=
  let low := scaledBits x p x.lowerEnd
  let high := scaledBits x p x.upperEnd
  let v := scaledDigits x p d
  if x.mantissa % 2 = 0 then decide (low ≤ v) && decide (v ≤ high)
  else decide (low < v) && decide (v < high)

/-- The choice between two equally near multiples. -/
inductive Halfway
  | up
  | toEven
deriving DecidableEq

/-- The multiple of `10 ^ p` that is nearest to the number, of those that read back. -/
def nearestMultiple (halfway : Halfway) (x : Binary64) (p : Int) : Option Nat :=
  let v := scaledBits x p (4 * x.mantissa)
  let unit := scaledDigits x p 1
  let below := v / unit
  let above := below + 1
  match isInside x p below && below != 0, isInside x p above with
  | true, true =>
    let toBelow := v - below * unit
    let toAbove := above * unit - v
    let stays := toBelow < toAbove ∨ (toBelow = toAbove ∧ halfway = .toEven ∧ below % 2 = 0)
    some (if stays then below else above)
  | true, false => some below
  | false, true => some above
  | false, false => none

/-- Tries ever finer grids of powers of ten. -/
def shortestFrom (halfway : Halfway) (x : Binary64) : Nat → Int → Nat × Int
  | 0, p => (0, p)
  | left + 1, p =>
    match nearestMultiple halfway x p with
    | some d => (d, p)
    | none => shortestFrom halfway x left (p - 1)

/-- The fewest digits that read back as the number, and the power of ten they are multiplied by. -/
def shortest (halfway : Halfway) (x : Binary64) : Nat × Int :=
  if x.isZero then (0, 0) else shortestFrom halfway x 650 310

/-- Positional notation with the fewest digits that read back; of two equally near numbers the
larger. -/
def toChars (x : Binary64) : List Char :=
  let (d, p) := shortest .up x
  Decimal.signChars x.negative ++
    if 0 ≤ p then Digits.ofNat (d * tenTo p.toNat) else Decimal.plainDigits d (-p).toNat

def exponentChars (e : Int) : List Char :=
  'e' :: Decimal.signChars (decide (e < 0)) ++ Digits.ofNat e.natAbs

/-- The fewest digits, positional between `1e-5` and `1e16` and with an exponent elsewhere; a whole
number is marked by `.0`. Of two equally near numbers the one with an even last digit. -/
def toScientificChars (x : Binary64) : List Char :=
  let (d, p) := shortest .toEven x
  let digits := Digits.ofNat d
  let point : Int := digits.length + p
  Decimal.signChars x.negative ++
    if x.isZero then ['0', '.', '0']
    else if 0 ≤ p ∧ point ≤ 16 then Digits.ofNat (d * tenTo p.toNat) ++ ['.', '0']
    else if -5 < point ∧ point ≤ 16 then Decimal.plainDigits d (-p).toNat
    else match digits with
      | [c] => c :: exponentChars (point - 1)
      | c :: rest => c :: '.' :: rest ++ exponentChars (point - 1)
      | [] => []

end Binary64

end PropertyFinance
