import PropertyFinance.Powers

/-! Decimal numbers of at most 96 bits and 28 places. The scale is part of a number, so `1.0` and
`1.00` differ as numbers while they compare equal, and a zero may carry a sign. -/

namespace PropertyFinance
set_option autoImplicit false

/-- One more than the largest mantissa. -/
def capacity : Nat := 79228162514264337593543950336

def maxScale : Nat := 28

structure Decimal where
  negative : Bool
  mantissa : Nat
  scale : Nat
  mantissa_lt : mantissa < capacity := by decide
  scale_le : scale ≤ maxScale := by decide
deriving DecidableEq

namespace Decimal

def ofParts? (negative : Bool) (mantissa scale : Nat) : Option Decimal :=
  if h : mantissa < capacity ∧ scale ≤ maxScale then some ⟨negative, mantissa, scale, h.1, h.2⟩
  else none

/-- A count as a decimal; one beyond the capacity stands for the largest decimal. -/
def ofNat (n : Nat) : Decimal :=
  ⟨false, min n (capacity - 1), 0, by unfold capacity; omega, by decide⟩

def zero : Decimal := ⟨false, 0, 0, by decide, by decide⟩
def one : Decimal := ⟨false, 1, 0, by decide, by decide⟩
def two : Decimal := ⟨false, 2, 0, by decide, by decide⟩
def twelve : Decimal := ⟨false, 12, 0, by decide, by decide⟩
def hundred : Decimal := ⟨false, 100, 0, by decide, by decide⟩

instance : Inhabited Decimal := ⟨zero⟩

/-- The constant `n / 10 ^ scale`; zero if that does not fit. -/
def ofScaled (n : Int) (scale : Nat) : Decimal := (ofParts? (n < 0) n.natAbs scale).getD zero

def isZero (a : Decimal) : Bool := a.mantissa == 0

/-- Flips the sign, also of a zero. -/
def negate (a : Decimal) : Decimal := { a with negative := !a.negative }

def abs (a : Decimal) : Decimal := { a with negative := false }

/-- The mantissa with its sign; the value is this divided by `10 ^ scale`. -/
def signed (a : Decimal) : Int := if a.negative then -(a.mantissa : Int) else a.mantissa

/-- The signed mantissa of `a` brought to the scale `a.scale + places`. -/
def shifted (a : Decimal) (places : Nat) : Int := a.signed * tenTo places

instance : LE Decimal := ⟨fun a b => a.shifted b.scale ≤ b.shifted a.scale⟩
instance : LT Decimal := ⟨fun a b => a.shifted b.scale < b.shifted a.scale⟩

instance (a b : Decimal) : Decidable (a ≤ b) :=
  inferInstanceAs (Decidable (a.shifted b.scale ≤ b.shifted a.scale))

instance (a b : Decimal) : Decidable (a < b) :=
  inferInstanceAs (Decidable (a.shifted b.scale < b.shifted a.scale))

/-- Equality of values, whatever the scales and the signs of zeros. -/
def Same (a b : Decimal) : Prop := a.shifted b.scale = b.shifted a.scale

instance (a b : Decimal) : Decidable (Same a b) :=
  inferInstanceAs (Decidable (a.shifted b.scale = b.shifted a.scale))

/-- The smaller value; the first of two equal ones. -/
protected def min (a b : Decimal) : Decimal := if b < a then b else a

/-- The larger value; the first of two equal ones. -/
protected def max (a b : Decimal) : Decimal := if a < b then b else a

def clamp (a low high : Decimal) : Decimal :=
  if a < low then low else if high < a then high else a

@[simp] theorem negate_mantissa (a : Decimal) : a.negate.mantissa = a.mantissa := rfl
@[simp] theorem negate_scale (a : Decimal) : a.negate.scale = a.scale := rfl
@[simp] theorem abs_mantissa (a : Decimal) : a.abs.mantissa = a.mantissa := rfl
@[simp] theorem abs_scale (a : Decimal) : a.abs.scale = a.scale := rfl

theorem lt_iff (a b : Decimal) : a < b ↔ a.shifted b.scale < b.shifted a.scale := Iff.rfl
theorem le_iff (a b : Decimal) : a ≤ b ↔ a.shifted b.scale ≤ b.shifted a.scale := Iff.rfl

theorem not_lt {a b : Decimal} : ¬ a < b ↔ b ≤ a := by
  rw [lt_iff, le_iff]
  omega

end PropertyFinance.Decimal
