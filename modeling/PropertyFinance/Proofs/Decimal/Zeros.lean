import PropertyFinance.Proofs.Agreement
import PropertyFinance.Proofs.Decimal.Checked

/-! A zero may be written with any number of places and either sign. A product with one is the plain zero,
and so is a quotient of one; a sum or a difference leaves the other operand as it is, and of two zeros it is
the second. -/

namespace PropertyFinance.Decimal
set_option autoImplicit false

variable {a a' b b' : Decimal}

/-- The same decimal, or two zeros. -/
def Interchangeable (a b : Decimal) : Prop := a = b ∨ (a.isZero = true ∧ b.isZero = true)

theorem interchangeable_self (a : Decimal) : Interchangeable a a := Or.inl rfl

/-- The same decimal, or two zeros of one sign. -/
structure Twin (a b : Decimal) : Prop where
  interchangeable : Interchangeable a b
  negative_eq : a.negative = b.negative

theorem twin_self (a : Decimal) : Twin a a := ⟨interchangeable_self a, rfl⟩

namespace Interchangeable

theorem value_eq (h : Interchangeable a b) : a.value = b.value := by
  rcases h with rfl | ⟨ha, hb⟩
  · rfl
  · rw [isZero_iff.mp ha, isZero_iff.mp hb]

theorem same (h : Interchangeable a b) : a.Same b := same_iff_value_eq.mpr h.value_eq

theorem eq_of_pos (h : Interchangeable a b) (hpos : zero < a) : a = b := by
  rcases h with rfl | ⟨ha, -⟩
  · rfl
  · rw [zero_lt_iff, isZero_iff.mp ha] at hpos
    exact absurd hpos (lt_irrefl _)

theorem negate (h : Interchangeable a b) : Interchangeable a.negate b.negate := by
  rcases h with rfl | h
  · exact interchangeable_self _
  · exact Or.inr h

section Left
variable (h : Interchangeable a a')
include h

theorem mul?_eq (b : Decimal) : a.mul? b = a'.mul? b := by
  rcases h with rfl | ⟨ha, ha'⟩
  · rfl
  · rw [mul?, mul?, ha, ha', Bool.true_or, if_pos rfl, if_pos rfl]

theorem mul_eq : a.mul = a'.mul := by
  funext b
  rw [mul, mul, h.mul?_eq]

theorem div_eq : a.div = a'.div := by
  rcases h with rfl | ⟨ha, ha'⟩
  · rfl
  · funext b
    rw [div, div, div?, div?, if_pos ha, if_pos ha']

theorem sub_eq : a.sub = a'.sub := by
  rcases h with rfl | ⟨ha, ha'⟩
  · rfl
  · funext b
    rw [sub, sub, sub?, sub?, Decimal.add?, Decimal.add?, if_pos ha, if_pos ha', if_pos ha, if_pos ha']

end Left

section Right
variable (h : Interchangeable b b') (a : Decimal)
include h

theorem add?_cases : a.add? b = a.add? b' ∨ (a.add? b = some b ∧ a.add? b' = some b') := by
  rcases h with rfl | ⟨hb, hb'⟩
  · exact Or.inl rfl
  · rw [Decimal.add?, Decimal.add?, hb, hb', if_pos rfl, if_pos rfl]
    split
    case isTrue => exact Or.inr ⟨rfl, rfl⟩
    case isFalse => exact Or.inl rfl

theorem sub?_cases : a.sub? b = a.sub? b' ∨ (a.sub? b = some b ∧ a.sub? b' = some b') := by
  rcases h with rfl | ⟨hb, hb'⟩
  · exact Or.inl rfl
  · rw [Decimal.sub?, Decimal.sub?, if_pos hb, if_pos hb']
    split
    case isTrue => exact Or.inr ⟨rfl, rfl⟩
    case isFalse => exact Or.inl rfl

theorem add? : Option.Rel Interchangeable (a.add? b) (a.add? b') := by
  rcases h.add?_cases a with heq | ⟨hb, hb'⟩
  · rw [heq]
    exact rel_self interchangeable_self _
  · rw [hb, hb']
    exact .some h

end Right

end Interchangeable

namespace Twin
variable (h : Twin b b') (a : Decimal)
include h

theorem add? : Option.Rel Twin (a.add? b) (a.add? b') := by
  rcases h.interchangeable.add?_cases a with heq | ⟨hb, hb'⟩
  · rw [heq]
    exact rel_self twin_self _
  · rw [hb, hb']
    exact .some h

theorem sub? : Option.Rel Twin (a.sub? b) (a.sub? b') := by
  rcases h.interchangeable.sub?_cases a with heq | ⟨hb, hb'⟩
  · rw [heq]
    exact rel_self twin_self _
  · rw [hb, hb']
    exact .some h

theorem add : Matches Twin (a.add b) (a.add b') := matches_orFault (h.add? a)

theorem sub : Matches Twin (a.sub b) (a.sub b') := matches_orFault (h.sub? a)

end Twin

end PropertyFinance.Decimal
