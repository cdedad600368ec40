import PropertyFinance.Failure

/-! The internal rate of return: the rate at which the flows have no present value. Newton's method
comes first; where it stalls, the rate is found by bisection of a bracket over which the value
changes its sign, and failing that the last iterate is returned unverified. -/

namespace PropertyFinance
set_option autoImplicit false

structure YieldOptions where
  guess : Decimal
  maxIterations : UInt32
  /-- The present value below which a rate is accepted. -/
  tolerance : Decimal
deriving DecidableEq

inductive YieldMethod
  | newtonRaphson
  | bisection
  | bestEffort
deriving DecidableEq

structure Yield where
  rate : Decimal
  iterations : Nat
  converged : Bool
  method : YieldMethod
deriving DecidableEq

namespace Yield

def defaults : YieldOptions where
  guess := .ofScaled 10 2
  maxIterations := 100
  tolerance := .ofScaled 1 4

/-- Every rate tried is at least -99%, so that growth stays positive. -/
def floorRate : Decimal := .ofScaled (-99) 2
def ceilingRate : Decimal := .hundred

def bracketTop : Decimal := .ofScaled 10 0
def bracketSteps : Nat := 200
def bracketWidth : Decimal := .ofScaled 1 12

/-- The value and the slope summed from period `t` on, or nothing on an overflow. `discount` is the
factor of the period before. -/
def sumsFrom (inverse : Decimal) :
    List Decimal → Nat → Decimal → Decimal → Decimal → Option (Decimal × Decimal)
  | [], _, _, value, slope => some (value, slope)
  | flow :: rest, t, discount, value, slope => do
    let discount ← if t = 0 then some discount else discount.mul? inverse
    let present ← flow.mul? discount
    let value ← value.add? present
    let slope ←
      if t = 0 then some slope
      else do slope.sub? (← (← (Decimal.ofNat t).mul? present).mul? inverse)
    sumsFrom inverse rest (t + 1) discount value slope

/-- The present value at a rate and its derivative by the rate. -/
def valueAndSlope (flows : List Decimal) (rate : Decimal) : Arith (Option (Decimal × Decimal)) := do
  let growth ← Decimal.one.add rate
  pure (do sumsFrom (← Decimal.one.div? growth) flows 0 .one .zero .zero)

/-- The flows compounded to the last period. -/
def compounded (growth : Decimal) : List Decimal → Decimal → Option Decimal
  | [], total => some total
  | flow :: rest, total => do compounded growth rest (← (← total.mul? growth).add? flow)

/-- The flows discounted to the first period by powers of the inverse. -/
def discountedFrom (inverse : Decimal) : List Decimal → Nat → Decimal → Decimal → Option Decimal
  | [], _, _, total => some total
  | flow :: rest, t, discount, total => do
    let discount ← if t = 0 then some discount else discount.mul? inverse
    discountedFrom inverse rest (t + 1) discount (← total.add? (← flow.mul? discount))

/-- The present value times a positive factor that keeps every power at most one: compounded below
0%, discounted from there on. -/
def scaledValue (flows : List Decimal) (rate : Decimal) : Arith (Option Decimal) := do
  let growth ← Decimal.one.add rate
  pure <|
    if growth ≤ Decimal.zero then none
    else if growth < Decimal.one then compounded growth flows .zero
    else do discountedFrom (← Decimal.one.div? growth) flows 0 .one .zero

/-- Where Newton's method ended. -/
inductive Descent
  | root (rate : Decimal) (iterations : Nat)
  | stalled (rate : Decimal) (iterations : Nat)

/-- At most so many steps, after those done. -/
def newton (flows : List Decimal) (tolerance : Decimal) : Nat → Nat → Decimal → Arith Descent
  | 0, done, rate => pure (.stalled rate done)
  | left + 1, done, rate => do
    match ← valueAndSlope flows rate with
    | none => pure (.stalled rate (done + 1))
    | some (value, slope) =>
      if value.abs < tolerance then pure (.root rate (done + 1))
      else if slope.isZero then pure (.stalled rate (done + 1))
      else match value.div? slope with
        | none => pure (.stalled rate (done + 1))
        | some step =>
          newton flows tolerance left (done + 1) ((← rate.sub step).clamp floorRate ceilingRate)

def isWithin (flows : List Decimal) (tolerance rate : Decimal) : Arith Bool := do
  pure (match ← valueAndSlope flows rate with
    | some (value, _) => decide (value.abs < tolerance)
    | none => false)

/-- Halves the bracket, whose lower end has the given sign, at most so many times. -/
def narrow (flows : List Decimal) (tolerance : Decimal) (lowNegative : Bool) :
    Nat → Nat → Decimal → Decimal → Arith (Option Yield)
  | 0, _, _, _ => pure none
  | left + 1, done, low, high => do
    let middle ← (← low.add high).div .two
    let within ← isWithin flows tolerance middle
    let width ← high.sub low
    if within || decide (width < bracketWidth) then
      pure (some ⟨middle, done + 1, true, .bisection⟩)
    else match ← scaledValue flows middle with
      | none => pure none
      | some value =>
        if value.negative = lowNegative then
          narrow flows tolerance lowNegative left (done + 1) middle high
        else narrow flows tolerance lowNegative left (done + 1) low middle

/-- Bisection between -99% and 1000%, if the value changes its sign there. -/
def bisect (flows : List Decimal) (tolerance : Decimal) : Arith (Option Yield) := do
  match ← scaledValue flows floorRate with
  | none => pure none
  | some low =>
    match ← scaledValue flows bracketTop with
    | none => pure none
    | some high =>
      if low.negative = high.negative then pure none
      else narrow flows tolerance low.negative bracketSteps 0 floorRate bracketTop

def changesSign (flows : List Decimal) : Bool :=
  (flows.any fun flow => Decimal.zero < flow) && (flows.any fun flow => flow < Decimal.zero)

/-- Nothing for flows that are not of both signs. -/
def solve (flows : List Decimal) (options : YieldOptions) : Arith (Option Yield) := do
  if changesSign flows then
    let start := options.guess.clamp floorRate ceilingRate
    match ← newton flows options.tolerance options.maxIterations.toNat 0 start with
    | .root rate iterations => pure (some ⟨rate, iterations, true, .newtonRaphson⟩)
    | .stalled rate iterations =>
      match ← bisect flows options.tolerance with
      | some found => pure (some found)
      | none => pure (some ⟨rate, iterations, false, .bestEffort⟩)
  else pure none

/-- The rate alone, under the default options. -/
def rate? (flows : List Decimal) : Arith (Option Decimal) := do
  pure ((← solve flows defaults).map Yield.rate)

end PropertyFinance.Yield
