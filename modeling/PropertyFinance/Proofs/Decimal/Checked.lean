import PropertyFinance.Proofs.Decimal.Division
import PropertyFinance.Waterfall.Terms

/-! Computations that may fault, taken apart: a bind that gives a result has a result in each part,
and a checked operation that gives a result gives the exact one rounded. -/

namespace PropertyFinance
set_option autoImplicit false

section Results
variable {ε α β : Type}

theorem bind_eq_ok {x : Except ε α} {f : α → Except ε β} {r : β} :
    (x >>= f) = .ok r ↔ ∃ a, x = .ok a ∧ f a = .ok r := by
  cases x with
  | error e => exact ⟨fun h => (nomatch h), fun ⟨_, h, _⟩ => (nomatch h)⟩
  | ok a => exact ⟨fun h => ⟨a, rfl, h⟩, fun ⟨_, h, hf⟩ => by cases h; exact hf⟩

theorem ok_bind (a : α) (f : α → Except ε β) : (Except.ok a >>= f) = f a := rfl

theorem error_bind (e : ε) (f : α → Except ε β) : (Except.error e >>= f) = .error e := rfl

theorem pure_eq_ok {a b : α} : (pure a : Except ε α) = .ok b ↔ a = b :=
  ⟨fun h => Except.ok.inj h, fun h => congrArg _ h⟩

theorem orFault_eq_ok {f : Fault} {x : Option α} {a : α} : orFault f x = .ok a ↔ x = some a := by
  cases x with
  | none => exact ⟨fun h => (nomatch h), fun h => (nomatch h)⟩
  | some b => exact ⟨fun h => congrArg _ (Except.ok.inj h), fun h => congrArg _ (Option.some.inj h)⟩

theorem orFault_eq_error {f g : Fault} {x : Option α} :
    orFault g x = .error f ↔ f = g ∧ ¬ ∃ a, x = some a := by
  cases x with
  | none => exact ⟨fun h => ⟨(Except.error.inj h).symm, nofun⟩, fun h => congrArg _ h.1.symm⟩
  | some a => exact ⟨fun h => (nomatch h), fun h => absurd ⟨a, rfl⟩ h.2⟩

theorem exists_of_isOk {x : Except ε α} (h : x.isOk = true) : ∃ a, x = .ok a := by
  cases x with
  | error e => exact nomatch h
  | ok a => exact ⟨a, rfl⟩

/-- What a test of the result found. -/
theorem exists_of_any {x : Except ε α} {p : α → Bool} (h : x.toOption.any p = true) :
    ∃ a, x = .ok a ∧ p a = true := by
  cases x with
  | error e => exact nomatch h
  | ok a => exact ⟨a, rfl, h⟩

theorem lift_ok (a : α) : (liftM (.ok a : Arith α) : Outcome α) = .ok a := rfl

theorem liftM_eq_ok {x : Arith α} {a : α} :
    (liftM x : Outcome α) = .ok a ↔ x = .ok a := by
  cases x with
  | error f => exact ⟨fun h => (nomatch h), fun h => (nomatch h)⟩
  | ok b => exact ⟨fun h => congrArg _ (Except.ok.inj h), fun h => congrArg _ (Except.ok.inj h)⟩

/-- A check that passed rejected nothing. -/
theorem unless_reject_eq_ok {c : Prop} [Decidable c] {field reason : String}
    {f : Unit → Outcome α} {r : α} :
    (if c then (rejectField field reason : Outcome Unit) >>= f else f ()) = .ok r ↔
      ¬ c ∧ f () = .ok r := by
  split
  case isTrue h => exact ⟨fun h => (nomatch h), fun hr => absurd h hr.1⟩
  case isFalse h => exact ⟨fun hr => ⟨h, hr⟩, fun hr => hr.2⟩

end Results

namespace Decimal

variable {a b c : Decimal}

theorem value_add (h : a.add b = .ok c) : c.value = nearest (a.value + b.value) :=
  value_add? (orFault_eq_ok.mp h)

theorem value_sub (h : a.sub b = .ok c) : c.value = nearest (a.value - b.value) :=
  value_sub? (orFault_eq_ok.mp h)

theorem value_mul (h : a.mul b = .ok c) : c.value = nearest (a.value * b.value) :=
  value_mul? (orFault_eq_ok.mp h)

theorem value_div (h : a.div b = .ok c) : b.value ≠ 0 ∧ c.value = nearest (a.value / b.value) := by
  unfold div at h
  split at h
  case isTrue => exact nomatch h
  case isFalse => exact value_div? (orFault_eq_ok.mp h)

theorem add_isOk (h : Fits (a.value + b.value) 0) : ∃ c, a.add b = .ok c := by
  obtain ⟨c, hc⟩ := add?_isSome h
  exact ⟨c, orFault_eq_ok.mpr hc⟩

/-- A zero is no part of a sum, not even by its places. -/
theorem add_of_isZero (h : a.isZero = true) (b : Decimal) : a.add b = .ok b := by
  rw [add, add?, if_pos h, orFault_eq_ok]

theorem add_isZero (ha : a.isZero = false) (hb : b.isZero = true) : a.add b = .ok a := by
  rw [add, add?, ha, if_neg Bool.false_ne_true, if_pos hb, orFault_eq_ok]

theorem sum_singleton (a : Decimal) : sum [a] = .ok a := by
  rw [sum, List.foldlM_cons, add_of_isZero rfl]
  rfl

theorem sum_append_eq_ok {xs : List Decimal} {a t : Decimal} :
    sum (xs ++ [a]) = .ok t ↔ ∃ s, sum xs = .ok s ∧ s.add a = .ok t := by
  simp only [sum, List.foldlM_append, List.foldlM_cons, List.foldlM_nil, bind_pure, bind_eq_ok]

end Decimal

theorem value_percentToRate {p r : Decimal} (h : percentToRate p = .ok r) :
    r.value = Decimal.nearest (p.value / 100) := by
  simpa using (Decimal.value_div h).2

theorem isPercentage_iff {p : Decimal} :
    isPercentage p = true ↔ 0 ≤ p.value ∧ p.value ≤ 100 := by
  simp only [isPercentage, Bool.and_eq_true, decide_eq_true_eq, Decimal.le_iff_value_le,
    Decimal.value_zero, Decimal.value_hundred]

/-- A percentage up to 100 is a rate up to one. -/
theorem rate_mem_of_percentage {p r : Decimal} (h : percentToRate p = .ok r)
    (hp : isPercentage p = true) : 0 ≤ r.value ∧ r.value ≤ 1 := by
  rw [isPercentage_iff] at hp
  rw [value_percentToRate h]
  constructor
  · exact Decimal.nearest_nonneg (by linarith)
  · have := Decimal.nearest_le_value (a := .one) (x := p.value / 100) (by
      rw [Decimal.value_one]
      linarith)
    simpa using this

end PropertyFinance
