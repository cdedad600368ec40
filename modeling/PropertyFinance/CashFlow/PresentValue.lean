import PropertyFinance.Failure

/-! The present value of yearly cash flows, the first of which is not discounted. -/

namespace PropertyFinance
set_option autoImplicit false

/-- Adds the flows from period `t` on, each divided by `growth ^ t` as computed so far. -/
def addDiscounted (growth : Decimal) :
    List Decimal → Nat → Decimal → Decimal → Outcome Decimal
  | [], _, _, total => pure total
  | flow :: rest, t, factor, total => do
    let factor ←
      if t = 0 then pure factor
      else match factor.mul? growth with
        | some next => pure next
        | none => reject (.divisionByZero ("NPV discount factor overflow at period " ++ toString t))
    let total ← total.add (← flow.div factor)
    addDiscounted growth rest (t + 1) factor total

def presentValue (rate : Decimal) (flows : List Decimal) : Outcome Decimal := do
  if rate ≤ Decimal.one.negate then
    rejectField "rate" "Discount rate must be greater than -100%"
  let growth ← Decimal.one.add rate
  addDiscounted growth flows 0 .one .zero

end PropertyFinance
