import PropertyFinance.Proofs.Decimal.Capacity

/-! Computations that fail only where a decimal operation overflows. What such a computation gives
otherwise is shown along its operations: a division needs a divisor other than zero, and every other
operation gives the exact result rounded. -/

namespace PropertyFinance
set_option autoImplicit false

/-- The failures that tell of a result beyond the capacity. -/
class OverflowFailure (ε : Type) where
  IsOverflow : ε → Prop

open OverflowFailure

instance : OverflowFailure Fault := ⟨fun f => f ≠ .divisionByZero⟩

instance : OverflowFailure Failure where
  IsOverflow
    | .fault f => IsOverflow f
    | .rejected _ => False

section Gives
variable {ε α β : Type} [OverflowFailure ε] {p : α → Prop} {q : β → Prop}

/-- Unless it overflows, the computation has a result, and one of the given kind. -/
def Gives (x : Except ε α) (p : α → Prop) : Prop :=
  match x with
  | .ok a => p a
  | .error e => IsOverflow e

theorem gives_pure {a : α} (h : p a) : Gives (pure a : Except ε α) p := h

theorem Gives.bind {x : Except ε α} {f : α → Except ε β} (hx : Gives x p)
    (hf : ∀ a, p a → Gives (f a) q) : Gives (x >>= f) q := by
  cases x with
  | error e => exact hx
  | ok a => exact hf a hx

theorem Gives.mono {x : Except ε α} {p' : α → Prop} (hx : Gives x p) (h : ∀ a, p a → p' a) :
    Gives x p' := by
  cases x with
  | error e => exact hx
  | ok a => exact h a hx

/-- The result may be known to be the one of this computation. -/
theorem Gives.with_eq {x : Except ε α} (hx : Gives x p) : Gives x fun a => x = .ok a ∧ p a := by
  cases x with
  | error e => exact hx
  | ok a => exact ⟨rfl, hx⟩

theorem Gives.exists_ok {x : Except ε α} (hx : Gives x p) (h : ∀ e, x = .error e → ¬ IsOverflow e) :
    ∃ a, x = .ok a ∧ p a := by
  cases x with
  | error e => exact absurd hx (h e rfl)
  | ok a => exact ⟨a, rfl, hx⟩

/-- A result on the way is beyond the capacity. -/
def Overflows (x : Except ε α) : Prop := ∃ e, x = .error e ∧ IsOverflow e

theorem not_overflows_of_isOk {x : Except ε α} (h : x.isOk = true) : ¬ Overflows x := by
  rintro ⟨e, rfl, -⟩
  exact nomatch h

theorem Gives.of_not_overflows {x : Except ε α} (hx : Gives x p) (h : ¬ Overflows x) :
    ∃ a, x = .ok a ∧ p a :=
  hx.exists_ok fun e he hover => h ⟨e, he, hover⟩

theorem Gives.lift {x : Arith α} (hx : Gives x p) : Gives (liftM x : Outcome α) p := by
  cases x with
  | error f => exact hx
  | ok a => exact hx

end Gives

namespace Decimal
variable {a b : Decimal}

theorem gives_orFault {f : Fault} (hf : IsOverflow f) {x : Option Decimal} {p : Decimal → Prop}
    (h : ∀ c, x = some c → p c) : Gives (orFault f x) p := by
  cases x with
  | none => exact hf
  | some c => exact h c rfl

theorem gives_add (a b : Decimal) : Gives (a.add b) fun c => c.value = nearest (a.value + b.value) :=
  gives_orFault (by simp [IsOverflow]) fun _ => value_add?

theorem gives_sub (a b : Decimal) : Gives (a.sub b) fun c => c.value = nearest (a.value - b.value) :=
  gives_orFault (by simp [IsOverflow]) fun _ => value_sub?

theorem gives_mul (a b : Decimal) : Gives (a.mul b) fun c => c.value = nearest (a.value * b.value) :=
  gives_orFault (by simp [IsOverflow]) fun _ => value_mul?

theorem gives_div (a : Decimal) (hb : b.value ≠ 0) :
    Gives (a.div b) fun c => c.value = nearest (a.value / b.value) := by
  rw [div, isZero_eq_false_iff.mpr hb, if_neg Bool.false_ne_true]
  exact gives_orFault (by simp [IsOverflow]) fun c hc => (value_div? hc).2

end Decimal

end PropertyFinance
