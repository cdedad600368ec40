import PropertyFinance.Proofs.CashFlow.Descent

/-! Bisection always ends: no plain operation on the rates of the bracket overflows, and the bracket,
halved each time up to a rounding error, is below the limit after 45 steps. It finds a rate unless the
sum overflows at one of the rates tried. -/

namespace PropertyFinance.Yield
open Decimal
set_option autoImplicit false

variable {flows : List Decimal} {low high : Decimal} {lowNegative : Bool} {left done : Nat}

/-- A rate of the bracket at which the sum overflows. -/
def OverflowsAt (flows : List Decimal) (rate : Decimal) : Prop :=
  -99 / 100 ≤ rate.value ∧ rate.value ≤ 10 ∧ scaledValue flows rate = .ok none

/-- What bisection gives when it finds a rate. -/
structure Bisected (s : Yield) : Prop where
  converged_eq : s.converged = true
  method_eq : s.method = .bisection
  rate_ge : -99 / 100 ≤ s.rate.value
  rate_le : s.rate.value ≤ 10
  iterations_le : s.iterations ≤ 45

def Halved (done : Nat) (low high : Decimal) : Prop :=
  high.value - low.value ≤ 11 / 2 ^ done + 1 / 10 ^ 25

theorem Halved.step {low' high' : Decimal} (h : Halved done low high)
    (hwidth : high'.value - low'.value ≤ (high.value - low.value) / 2 + 1 / 10 ^ 26) :
    Halved (done + 1) low' high' := by
  have hhalf : (11 : ℚ) / 2 ^ done / 2 = 11 / 2 ^ (done + 1) := by
    rw [pow_succ, div_div]
  unfold Halved at h ⊢
  rw [← hhalf]
  linarith

theorem Halved.lt_limit (h : Halved 44 low high) : high.value - low.value < 1 / 10 ^ 12 := by
  apply lt_of_le_of_lt h
  norm_num

theorem Bracket.middle_isOk (hb : Bracket flows lowNegative low high) :
    ∃ sum middle, low.add high = .ok sum ∧ sum.div .two = .ok middle := by
  have hlow := hb.low_ge
  have hhigh := hb.high_le
  have hwidth := hb.width_ge
  have hbound : |low.value + high.value| ≤ 20 := by
    rw [abs_le]
    constructor <;> linarith
  obtain ⟨sum, hsum⟩ : ∃ sum, low.add high = .ok sum :=
    add_isOk (fits_of_abs_le (hbound.trans (by norm_num)))
  have hround := abs_nearest_sub_le (low.value + high.value)
  rw [← value_add hsum] at hround
  have hsize : |sum.value / 2| ≤ 10 ^ 28 := by
    have h₁ := abs_le.mp hround
    have h₂ := abs_le.mp hbound
    rw [quantum_eq] at h₁
    rw [abs_le]
    constructor <;> linarith [h₁.1, h₁.2, h₂.1, h₂.2]
  obtain ⟨middle, hmid⟩ : ∃ middle, sum.div .two = .ok middle := by
    apply div_isOk
    · rw [value_two]
      norm_num
    · rw [value_two]
      exact fits_of_abs_le hsize
  exact ⟨sum, middle, hsum, hmid⟩

theorem Bracket.width_isOk (hb : Bracket flows lowNegative low high) :
    ∃ width, high.sub low = .ok width := by
  apply sub_isOk
  apply fits_of_abs_le
  rw [abs_of_nonneg (by linarith [hb.width_ge])]
  linarith [hb.low_ge, hb.high_le]

/-- Narrowing a bracket that has been halved so often finds a rate within the steps that 45 halvings
leave, or comes to a rate at which the sum overflows. -/
theorem narrow_ends (tolerance : Decimal) (hb : Bracket flows lowNegative low high) (hhalved : Halved done low high)
    (hdone : done ≤ 44) (hleft : 44 < left + done) :
    (∃ s, narrow flows tolerance lowNegative left done low high = .ok (some s) ∧ Bisected s) ∨
    (narrow flows tolerance lowNegative left done low high = .ok none ∧
      ∃ middle, OverflowsAt flows middle) := by
  induction left generalizing done low high with
  | zero => omega
  | succ left ih =>
    obtain ⟨sum, middle, hsum, hmid⟩ := hb.middle_isOk
    obtain ⟨width, hwidth⟩ := hb.width_isOk
    obtain ⟨hleft', hright'⟩ := hb.middle_bounds hsum hmid
    have hlow := hb.low_ge
    have hhigh := hb.high_le
    have hge := hb.width_ge
    have hmiddle : -99 / 100 ≤ middle.value ∧ middle.value ≤ 10 := by
      constructor <;> linarith
    obtain ⟨within, hwithin⟩ := isWithin_isOk flows tolerance hmiddle.1 (by linarith)
    obtain ⟨value, hvalue⟩ := scaledValue_isOk flows hmiddle.1 (by linarith)
    have hlimit := width_lt_iff hwidth (by linarith)
    rw [narrow, hsum, ok_bind, hmid, ok_bind, hwithin, ok_bind, hwidth, ok_bind]
    split
    case isTrue =>
      exact Or.inl ⟨_, rfl, ⟨rfl, rfl, hmiddle.1, hmiddle.2, by dsimp only; omega⟩⟩
    case isFalse hgoes =>
      rw [Bool.or_eq_true, decide_eq_true_eq, lt_iff_value_lt, value_bracketWidth, not_or,
        hlimit, Rat.not_lt] at hgoes
      have hwide := hgoes.2
      have hmore : done ≠ 44 := by
        rintro rfl
        linarith [hhalved.lt_limit]
      rw [hvalue, ok_bind]
      cases value with
      | none => exact Or.inr ⟨rfl, middle, hmiddle.1, hmiddle.2, hvalue⟩
      | some value =>
        dsimp only
        split
        case isTrue hsame =>
          apply ih _ (hhalved.step (by linarith)) (by omega) (by omega)
          exact ⟨hmiddle.1, hhigh, by linarith, ⟨value, hvalue, hsame⟩, hb.high_sign⟩
        case isFalse hdiff =>
          apply ih _ (hhalved.step (by linarith)) (by omega) (by omega)
          exact ⟨hlow, hmiddle.2, by linarith, hb.low_sign, ⟨value, hvalue, hdiff⟩⟩

theorem halved_start : Halved 0 floorRate bracketTop := by
  rw [Halved, value_floorRate, value_bracketTop]
  norm_num

theorem bracket_start {low high : Decimal} (hlow : scaledValue flows floorRate = .ok (some low))
    (hhigh : scaledValue flows bracketTop = .ok (some high)) (hne : low.negative ≠ high.negative) :
    Bracket flows low.negative floorRate bracketTop := by
  refine ⟨?_, ?_, ?_, ⟨low, hlow, rfl⟩, high, hhigh, hne.symm⟩
  · rw [value_floorRate]
  · rw [value_bracketTop]
  · rw [value_floorRate, value_bracketTop]
    norm_num

/-- The sums at the two ends of the bracket exist and show different signs. -/
def SignsDiffer (flows : List Decimal) : Prop :=
  ∃ low high, scaledValue flows floorRate = .ok (some low) ∧
    scaledValue flows bracketTop = .ok (some high) ∧ low.negative ≠ high.negative

/-- Bisection finds a rate, or there is no bracket, or the sum overflows at a rate tried. -/
theorem bisect_ends (flows : List Decimal) (tolerance : Decimal) :
    (∃ s, bisect flows tolerance = .ok (some s) ∧ Bisected s ∧ SignsDiffer flows) ∨
    (bisect flows tolerance = .ok none ∧
      (¬ SignsDiffer flows ∨ ∃ rate, OverflowsAt flows rate)) := by
  obtain ⟨low, hlow⟩ := scaledValue_isOk flows value_floorRate.ge
    (by rw [value_floorRate]; norm_num)
  obtain ⟨high, hhigh⟩ := scaledValue_isOk flows (by rw [value_bracketTop]; norm_num)
    (value_bracketTop.le.trans (by norm_num))
  rw [bisect, hlow, ok_bind]
  cases low with
  | none =>
    refine Or.inr ⟨rfl, Or.inr ⟨floorRate, ?_, ?_, hlow⟩⟩
    · rw [value_floorRate]
    · rw [value_floorRate]
      norm_num
  | some low =>
    dsimp only
    rw [hhigh, ok_bind]
    cases high with
    | none =>
      refine Or.inr ⟨rfl, Or.inr ⟨bracketTop, ?_, ?_, hhigh⟩⟩
      · rw [value_bracketTop]
        norm_num
      · rw [value_bracketTop]
    | some high =>
      dsimp only
      split
      case isTrue hsame =>
        refine Or.inr ⟨rfl, Or.inl ?_⟩
        rintro ⟨v, w, hv, hw, hne⟩
        cases hlow.symm.trans hv
        cases hhigh.symm.trans hw
        exact hne hsame
      case isFalse hdiff =>
        rcases narrow_ends tolerance (bracket_start hlow hhigh hdiff) halved_start
            (by decide) (by decide : 44 < bracketSteps + 0) with ⟨s, hs, hfound⟩ | ⟨hnone, hover⟩
        · exact Or.inl ⟨s, hs, hfound, low, high, hlow, hhigh, hdiff⟩
        · exact Or.inr ⟨hnone, Or.inr hover⟩

end PropertyFinance.Yield
