import PropertyFinance.Decimal.Rounding

/-! The checked operations: each gives nothing where the result does not fit. Every one of them
computes exactly and rounds at most once, division by long division in blocks of nine digits. -/

namespace PropertyFinance.Decimal
set_option autoImplicit false

/-- A zero operand leaves the other one as it is. -/
def add? (a b : Decimal) : Option Decimal :=
  if a.isZero then some b
  else if b.isZero then some a
  else
    let s := max a.scale b.scale
    let sum := a.shifted (s - a.scale) + b.shifted (s - b.scale)
    fit (sum < 0) sum.natAbs s

/-- A zero subtrahend is not negated. -/
def sub? (a b : Decimal) : Option Decimal :=
  if b.isZero then some (if a.isZero then b else a)
  else a.add? b.negate

/-- Whether the mantissa takes a single word of 32 bits. -/
def isShort (a : Decimal) : Bool := a.mantissa < 4294967296

def mul? (a b : Decimal) : Option Decimal :=
  if a.isZero || b.isZero then some zero
  else
    let short := a.isShort && b.isShort
    if short && decide (47 < a.scale + b.scale) then some zero
    else do
      let c ← fit (a.negative != b.negative) (a.mantissa * b.mantissa) (a.scale + b.scale)
      some (if short && c.isZero then c.abs else c)

/-- A division under way: the quotient so far at the given scale, and the remainder. -/
structure Quotient where
  quotient : Nat
  remainder : Nat
  scale : Int

/-- The most digits, at most nine, by which a quotient can be extended. -/
def extension (q : Nat) (scale : Int) : Nat → Nat
  | 0 => 0
  | p + 1 => if scale + (p + 1 : Nat) ≤ maxScale ∧ q * tenTo (p + 1) < capacity then p + 1
             else extension q scale p

/-- The quotient extended by `p` digits. The flag tells that it is the last step, one digit
having been rounded away again. -/
def Quotient.extend (d : Quotient) (divisor p : Nat) : Option (Quotient × Bool) :=
  if capacity ≤ d.quotient * tenTo p then none
  else
    let scale := d.scale + p
    let r := d.remainder * tenTo p
    let q := d.quotient * tenTo p + r / divisor
    let rest := r % divisor
    if q < capacity then some (⟨q, rest, scale⟩, false)
    else if scale = 0 then none
    else
      let t := q % 10
      let up := 5 < t ∨ (t = 5 ∧ (rest ≠ 0 ∨ q / 10 % 2 = 1))
      some (⟨if up then q / 10 + 1 else q / 10, 0, scale - 1⟩, true)

/-- The last digit rounded by the remainder, a half going to the even neighbour. -/
def Quotient.round (d : Quotient) (divisor : Nat) : Option Quotient :=
  if divisor < 2 * d.remainder ∨ (2 * d.remainder = divisor ∧ d.quotient % 2 = 1) then
    if d.quotient + 1 = capacity then
      if d.scale = 0 then none else some ⟨roundHalfUp capacity 1, 0, d.scale - 1⟩
    else some ⟨d.quotient + 1, 0, d.scale⟩
  else some d

/-- Long division; the result tells whether there was a remainder on the way. -/
def longDivision (divisor : Nat) : Nat → Quotient → Bool → Option (Quotient × Bool)
  | 0, _, _ => none
  | fuel + 1, d, inexact =>
    if d.remainder = 0 then
      if 0 ≤ d.scale then some (d, inexact)
      else do
        let (d, last) ← d.extend divisor (min 9 (-d.scale).toNat)
        if last then some (d, inexact) else longDivision divisor fuel d inexact
    else
      let p := if d.scale = maxScale then 0 else extension d.quotient d.scale 9
      if d.scale < maxScale ∧ p < 9 ∧ d.scale + p < 0 then none
      else if p = 0 then do some (← d.round divisor, true)
      else do
        let (d, last) ← d.extend divisor p
        if last then some (d, true) else longDivision divisor fuel d true

/-- Drops eight trailing zeros at a time, as long as the quotient ends in 32 zero bits. -/
def dropEights : Nat → Nat × Nat → Nat × Nat
  | 0, x => x
  | fuel + 1, (q, s) =>
    if q % 4294967296 = 0 ∧ 8 ≤ s ∧ q % 100000000 = 0 then dropEights fuel (q / 100000000, s - 8)
    else (q, s)

def dropZeros (k : Nat) (x : Nat × Nat) : Nat × Nat :=
  if k ≤ x.2 ∧ x.1 % tenTo k = 0 then (x.1 / tenTo k, x.2 - k) else x

/-- Shortens an inexact quotient: after the eights, at most four, two and one zeros. -/
def shorten (q s : Nat) : Nat × Nat :=
  dropZeros 1 (dropZeros 2 (dropZeros 4 (dropEights 4 (q, s))))

/-- Nothing for a zero divisor and for an overflow. -/
def div? (a b : Decimal) : Option Decimal :=
  if b.isZero then none
  else if a.isZero then some zero
  else do
    let start : Quotient :=
      ⟨a.mantissa / b.mantissa, a.mantissa % b.mantissa, (a.scale : Int) - b.scale⟩
    let (d, inexact) ← longDivision b.mantissa 64 start false
    if d.scale < 0 then none
    else
      let (q, s) := if inexact then shorten d.quotient d.scale.toNat
                    else (d.quotient, d.scale.toNat)
      ofParts? ((a.negative != b.negative) && q != 0) q s

/-- Whole units, a half going to the even neighbour; a zero result has no sign. -/
def roundWhole (a : Decimal) : Decimal :=
  if a.scale = 0 then a
  else
    let q := roundHalfEven a.mantissa (tenTo a.scale)
    (ofParts? (a.negative && q != 0) q 0).getD a

/-- Strips the trailing zeros of `m / 10 ^ s`. -/
def strip (m : Nat) : Nat → Nat × Nat
  | 0 => (m, 0)
  | s + 1 => if m % 10 = 0 then strip (m / 10) s else (m, s + 1)

/-- The shortest way to write the value; zero becomes plain `0`. -/
def normalize (a : Decimal) : Decimal :=
  if a.isZero then zero
  else
    let (m, s) := strip a.mantissa a.scale
    (ofParts? a.negative m s).getD a

end PropertyFinance.Decimal
