import PropertyFinance.CashFlow.Yield
import PropertyFinance.Proofs.Decimal.Zeros

/-! The solver does not see how the zeros among the flows are written. Only the last of the compounded flows
can lend its sign to the sum, so the signs of the last flows have to be the same. -/

namespace PropertyFinance
set_option autoImplicit false

namespace Yield
open Decimal

variable {xs ys : List Decimal}

/-- Flows that differ in the writing of zeros, but not in the sign of the last flow. -/
structure SameFlows (xs ys : List Decimal) : Prop where
  flows : List.Forall₂ Interchangeable xs ys
  last : xs.getLast?.map Decimal.negative = ys.getLast?.map Decimal.negative

theorem SameFlows.tail {x x' y y' : Decimal} (h : SameFlows (x :: x' :: xs) (y :: y' :: ys)) :
    SameFlows (x' :: xs) (y' :: ys) := by
  obtain ⟨hflows, hlast⟩ := h
  refine ⟨(List.forall₂_cons.mp hflows).2, ?_⟩
  rwa [List.getLast?_cons_cons, List.getLast?_cons_cons] at hlast

theorem SameFlows.cons {x y : Decimal} (hflow : Interchangeable x y) (h : SameFlows xs ys)
    (hne : xs ≠ []) : SameFlows (x :: xs) (y :: ys) := by
  obtain ⟨hflows, hlast⟩ := h
  cases hflows with
  | nil => exact absurd rfl hne
  | cons hnext hflows =>
    refine ⟨.cons hflow (.cons hnext hflows), ?_⟩
    rwa [List.getLast?_cons_cons, List.getLast?_cons_cons]

section Sums
variable (h : List.Forall₂ Interchangeable xs ys) (inverse : Decimal)
include h

theorem sumsFrom_eq (t : Nat) (discount value slope : Decimal) :
    sumsFrom inverse xs t discount value slope = sumsFrom inverse ys t discount value slope := by
  induction h generalizing t discount value slope with
  | nil => rfl
  | cons hflow _ ih => simp only [sumsFrom, hflow.mul?_eq, ih]

theorem discountedFrom_eq (t : Nat) (discount total : Decimal) :
    discountedFrom inverse xs t discount total = discountedFrom inverse ys t discount total := by
  induction h generalizing t discount total with
  | nil => rfl
  | cons hflow _ ih => simp only [discountedFrom, hflow.mul?_eq, ih]

theorem valueAndSlope_eq (rate : Decimal) : valueAndSlope xs rate = valueAndSlope ys rate := by
  simp only [valueAndSlope, sumsFrom_eq h]

theorem isWithin_eq (tolerance rate : Decimal) :
    isWithin xs tolerance rate = isWithin ys tolerance rate := by
  simp only [isWithin, valueAndSlope_eq h]

theorem newton_eq (tolerance : Decimal) (left done : Nat) (rate : Decimal) :
    newton xs tolerance left done rate = newton ys tolerance left done rate := by
  induction left generalizing done rate with
  | zero => rfl
  | succ left ih => simp only [newton, valueAndSlope_eq h, ih]

theorem any_eq {p : Decimal → Bool} (hp : ∀ a b, Interchangeable a b → p a = p b) :
    xs.any p = ys.any p := by
  induction h with
  | nil => rfl
  | cons hflow _ ih => rw [List.any_cons, List.any_cons, hp _ _ hflow, ih]

theorem changesSign_eq : changesSign xs = changesSign ys := by
  unfold changesSign
  congr 1 <;> apply any_eq h <;> intro a b hab <;>
    simp only [lt_iff_value_lt, hab.value_eq]

end Sums

/-- What has been compounded enters by a product, which washes out the writing of a zero. -/
theorem compounded_rel (growth : Decimal) {total total' : Decimal} (h : SameFlows xs ys) (hne : xs ≠ [])
    (htotal : Interchangeable total total') :
    Option.Rel Twin (compounded growth xs total) (compounded growth ys total') := by
  induction xs generalizing ys total total' with
  | nil => exact absurd rfl hne
  | cons x xs ih =>
    obtain ⟨y, ys, hflow, hflows, rfl⟩ := List.forall₂_cons_left_iff.mp h.flows
    rw [compounded, compounded, htotal.mul?_eq]
    cases total'.mul? growth with
    | none => exact .none
    | some product =>
      change Option.Rel Twin ((product.add? x).bind _) ((product.add? y).bind _)
      cases xs with
      | nil =>
        cases hflows
        have hadd := Twin.add? ⟨hflow, by simpa using h.last⟩ product
        generalize product.add? x = sum, product.add? y = sum' at hadd
        cases hadd with
        | none => exact .none
        | some hsum => exact .some hsum
      | cons x' xs =>
        obtain ⟨y', ys, -, -, rfl⟩ := List.forall₂_cons_left_iff.mp hflows
        have hadd := hflow.add? product
        generalize product.add? x = sum, product.add? y = sum' at hadd
        cases hadd with
        | none => exact .none
        | some hsum => exact ih h.tail (List.cons_ne_nil _ _) hsum

section Solver
variable (h : SameFlows xs ys) (hne : xs ≠ [])
include h hne

/-- The same, or two values of one sign, of which the bisection sees no more than that. -/
theorem scaledValue_cases (rate : Decimal) : scaledValue xs rate = scaledValue ys rate ∨
    ∃ v w, scaledValue xs rate = .ok (some v) ∧ scaledValue ys rate = .ok (some w) ∧
      v.negative = w.negative := by
  simp only [scaledValue, discountedFrom_eq h.flows]
  cases Decimal.one.add rate with
  | error f => exact Or.inl rfl
  | ok growth =>
    rw [ok_bind, ok_bind]
    split
    case isTrue => exact Or.inl rfl
    case isFalse =>
      split
      case isTrue =>
        have hrel := compounded_rel growth h hne (interchangeable_self .zero)
        generalize compounded growth xs .zero = v?, compounded growth ys .zero = w? at hrel
        cases hrel with
        | none => exact Or.inl rfl
        | some htwin => exact Or.inr ⟨_, _, rfl, rfl, htwin.negative_eq⟩
      case isFalse => exact Or.inl rfl

theorem narrow_eq (tolerance : Decimal) (lowNegative : Bool) (left done : Nat) (low high : Decimal) :
    narrow xs tolerance lowNegative left done low high =
      narrow ys tolerance lowNegative left done low high := by
  induction left generalizing done low high with
  | zero => rfl
  | succ left ih =>
    simp only [narrow, isWithin_eq h.flows, ih]
    refine bind_congr fun _ => bind_congr fun middle => bind_congr fun _ => bind_congr fun _ => ?_
    rcases scaledValue_cases h hne middle with heq | ⟨v, w, hv, hw, hnegative⟩
    · rw [heq]
    · simp only [hv, hw, ok_bind, hnegative]

theorem bisect_eq (tolerance : Decimal) : bisect xs tolerance = bisect ys tolerance := by
  simp only [bisect, narrow_eq h hne]
  rcases scaledValue_cases h hne floorRate with hlow | ⟨v, w, hv, hw, hnegative⟩ <;>
    rcases scaledValue_cases h hne bracketTop with hhigh | ⟨v', w', hv', hw', hnegative'⟩
  · rw [hlow, hhigh]
  · simp only [hlow, hv', hw', ok_bind, hnegative']
  · simp only [hhigh, hv, hw, ok_bind, hnegative]
  · simp only [hv, hw, hv', hw', ok_bind, hnegative, hnegative']

/-- The solver takes the same course on both series. -/
theorem solve_eq (options : YieldOptions) : solve xs options = solve ys options := by
  simp only [solve, changesSign_eq h.flows, newton_eq h.flows, bisect_eq h hne]

theorem rate?_eq : rate? xs = rate? ys := by
  simp only [rate?, solve_eq h hne]

end Solver

end Yield

end PropertyFinance
