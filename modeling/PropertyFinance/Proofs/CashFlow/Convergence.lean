import PropertyFinance.Proofs.CashFlow.RoundingError

/-! What a converged rate is worth. A rate found by Newton's method or at a midpoint is accepted by
its computed value, and one found by narrowing by the signs at the two ends of a bracket. Both are
right about the exact present value, unless the rounding of the sums exceeds the tolerance, or the
sum at one end is so small that its computed sign is wrong. -/

namespace PropertyFinance.Yield
open Decimal
set_option autoImplicit false

theorem value_floorRate : floorRate.value = -99 / 100 := by
  rw [floorRate, value_ofScaled (by decide) (by decide)]
  norm_num

theorem value_ceilingRate : ceilingRate.value = 100 := value_hundred

theorem value_bracketTop : bracketTop.value = 10 := by
  rw [bracketTop, value_ofScaled (by decide) (by decide)]
  norm_num

theorem value_bracketWidth : bracketWidth.value = 1 / 10 ^ 12 := by
  rw [bracketWidth, value_ofScaled (by decide) (by decide)]
  norm_num

variable {flows : List Decimal} {tolerance rate r : Decimal}

/-- The present value at the rate is within twice the tolerance, or the present values at two rates
around it, at most `10 ^ -12` apart, are not both positive and not both negative. -/
def IsRoot (flows : List Decimal) (tolerance rate : ℚ) : Prop :=
  |netPresentValue flows rate| < 2 * tolerance ∨
  ∃ r₁ r₂ : ℚ, -99 / 100 ≤ r₁ ∧ r₁ ≤ rate ∧ rate ≤ r₂ ∧ r₂ ≤ 10 ∧ r₂ - r₁ ≤ 1 / 10 ^ 12 ∧
    ¬ (0 < netPresentValue flows r₁ ∧ 0 < netPresentValue flows r₂) ∧
    ¬ (netPresentValue flows r₁ < 0 ∧ netPresentValue flows r₂ < 0)

/-- The computed value at the rate is within the tolerance. -/
def Accepts (flows : List Decimal) (tolerance rate : Decimal) : Prop :=
  ∃ v slope, valueAndSlope flows rate = .ok (some (v, slope)) ∧ |v.value| < tolerance.value

theorem Accepts.isRoot (h : Accepts flows tolerance rate) (hlow : -99 / 100 ≤ rate.value) :
    IsRoot flows tolerance.value rate.value ∨
      (Accepts flows tolerance rate ∧
        tolerance.value < roundingSlack flows (1 / (1 + rate.value))) := by
  obtain ⟨v, slope, hvalue, hv⟩ := id h
  have herror := abs_value_sub_le hlow hvalue
  rcases lt_or_ge tolerance.value (roundingSlack flows (1 / (1 + rate.value))) with hslack | hslack
  · exact Or.inr ⟨h, hslack⟩
  · refine Or.inl (Or.inl ?_)
    have htri := abs_sub_abs_le_abs_sub (netPresentValue flows rate.value) v.value
    rw [abs_sub_comm] at htri
    linarith

section Newton
variable {left done k : Nat}

theorem clamp_ge (rate : Decimal) : -99 / 100 ≤ (rate.clamp floorRate ceilingRate).value := by
  rw [← value_floorRate]
  refine (value_clamp ?_ rate).1
  rw [value_floorRate, value_ceilingRate]
  norm_num

theorem newton_root (h : newton flows tolerance left done rate = .ok (.root r k))
    (hlow : -99 / 100 ≤ rate.value) : -99 / 100 ≤ r.value ∧ Accepts flows tolerance r := by
  induction left generalizing done rate with
  | zero => exact nomatch pure_eq_ok.mp h
  | succ left ih =>
    obtain ⟨sums, hsums, h⟩ := bind_eq_ok.mp h
    cases sums with
    | none => exact nomatch pure_eq_ok.mp h
    | some sums =>
      obtain ⟨v, slope⟩ := sums
      dsimp only at h
      split_ifs at h with hwithin hflat
      · have hroot := pure_eq_ok.mp h
        cases hroot
        rw [lt_iff_value_lt, value_abs] at hwithin
        exact ⟨hlow, v, slope, hsums, hwithin⟩
      · exact nomatch pure_eq_ok.mp h
      · split at h
        · exact nomatch pure_eq_ok.mp h
        · obtain ⟨next, -, h⟩ := bind_eq_ok.mp h
          exact ih h (clamp_ge next)

end Newton

theorem accepts_of_isWithin (h : isWithin flows tolerance rate = .ok true) :
    Accepts flows tolerance rate := by
  obtain ⟨sums, hsums, h⟩ := bind_eq_ok.mp h
  have h := pure_eq_ok.mp h
  cases sums with
  | none => exact nomatch h
  | some sums =>
    obtain ⟨v, slope⟩ := sums
    have hwithin := of_decide_eq_true h
    rw [lt_iff_value_lt, value_abs] at hwithin
    exact ⟨v, slope, hsums, hwithin⟩

/-- Two rates between -99% and 1000%, not too close, at which the computed sums differ in sign. -/
structure Bracket (flows : List Decimal) (lowNegative : Bool) (low high : Decimal) : Prop where
  low_ge : -99 / 100 ≤ low.value
  high_le : high.value ≤ 10
  width_ge : 4 / 10 ^ 13 ≤ high.value - low.value
  low_sign : ∃ v, scaledValue flows low = .ok (some v) ∧ v.negative = lowNegative
  high_sign : ∃ v, scaledValue flows high = .ok (some v) ∧ v.negative ≠ lowNegative

section Narrow
variable {lowNegative : Bool} {low high middle : Decimal} {left done : Nat} {s : Yield}

/-- The midpoint is off by a rounding error far below the width. -/
theorem Bracket.middle_bounds (hb : Bracket flows lowNegative low high) {sum : Decimal}
    (hsum : low.add high = .ok sum) (hmid : sum.div .two = .ok middle) :
    (high.value - low.value) / 2 - 1 / 10 ^ 26 ≤ middle.value - low.value ∧
      (high.value - low.value) / 2 - 1 / 10 ^ 26 ≤ high.value - middle.value := by
  have hlow := hb.low_ge
  have hhigh := hb.high_le
  have hwidth := hb.width_ge
  have hround₁ := abs_nearest_sub_le (low.value + high.value)
  rw [← value_add hsum] at hround₁
  have hround₂ := abs_nearest_sub_le (sum.value / 2)
  rw [← value_two, ← (value_div hmid).2, value_two] at hround₂
  have hsize₁ : |low.value + high.value| ≤ 20 := by
    rw [abs_le]
    constructor <;> linarith
  have hsize₂ : |sum.value / 2| ≤ 11 := by
    have h₁ := abs_le.mp hround₁
    have h₂ := abs_le.mp hsize₁
    rw [quantum_eq] at h₁
    rw [abs_le]
    constructor <;> linarith [h₁.1, h₁.2, h₂.1, h₂.2]
  have h₁ := abs_le.mp hround₁
  have h₂ := abs_le.mp hround₂
  rw [quantum_eq] at h₁ h₂
  constructor <;> linarith [h₁.1, h₁.2, h₂.1, h₂.2]

/-- The computed width is below the limit just when the exact one is. -/
theorem width_lt_iff {width : Decimal} (hwidth : high.sub low = .ok width)
    (hle : low.value ≤ high.value) :
    width.value < 1 / 10 ^ 12 ↔ high.value - low.value < 1 / 10 ^ 12 := by
  constructor
  · intro hlt
    by_contra hge
    have := value_le_nearest (a := bracketWidth) (x := high.value - low.value) (by
      rw [value_bracketWidth]
      exact Rat.not_lt.mp hge)
    rw [← value_sub hwidth, value_bracketWidth] at this
    linarith
  · intro hlt
    have hself := ((onGrid_value high).sub (onGrid_value low)).nearest_eq (by
      rw [abs_of_nonneg (by linarith)]
      linarith)
    rwa [value_sub hwidth, hself]

theorem narrow_cases
    (h : narrow flows tolerance lowNegative left done low high = .ok (some s))
    (hb : Bracket flows lowNegative low high) :
    ∃ low' high', Bracket flows lowNegative low' high' ∧
      low'.value ≤ s.rate.value ∧ s.rate.value ≤ high'.value ∧
      (Accepts flows tolerance s.rate ∨ high'.value - low'.value ≤ 1 / 10 ^ 12) := by
  induction left generalizing done low high with
  | zero => exact nomatch pure_eq_ok.mp h
  | succ left ih =>
    obtain ⟨sum, hsum, h⟩ := bind_eq_ok.mp h
    obtain ⟨middle, hmid, h⟩ := bind_eq_ok.mp h
    obtain ⟨within, hwithin, h⟩ := bind_eq_ok.mp h
    obtain ⟨width, hwidth, h⟩ := bind_eq_ok.mp h
    obtain ⟨hleft, hright⟩ := hb.middle_bounds hsum hmid
    have hlow := hb.low_ge
    have hhigh := hb.high_le
    have hge := hb.width_ge
    have hlimit := width_lt_iff hwidth (by linarith)
    split at h
    case isTrue hdone =>
      obtain rfl := Option.some.inj (pure_eq_ok.mp h)
      refine ⟨low, high, hb, by linarith, by linarith, ?_⟩
      rw [Bool.or_eq_true, decide_eq_true_eq, lt_iff_value_lt, value_bracketWidth] at hdone
      rcases hdone with rfl | hnarrow
      · exact Or.inl (accepts_of_isWithin hwithin)
      · exact Or.inr (hlimit.mp hnarrow).le
    case isFalse hgoes =>
      rw [Bool.or_eq_true, decide_eq_true_eq, lt_iff_value_lt, value_bracketWidth, not_or,
        hlimit, Rat.not_lt] at hgoes
      have hwide := hgoes.2
      obtain ⟨value, hvalue, h⟩ := bind_eq_ok.mp h
      cases value with
      | none => exact nomatch pure_eq_ok.mp h
      | some value =>
        dsimp only at h
        split at h
        case isTrue hsame =>
          exact ih h ⟨by linarith, hhigh, by linarith, ⟨value, hvalue, hsame⟩, hb.high_sign⟩
        case isFalse hdiff =>
          exact ih h ⟨hlow, by linarith, by linarith, hb.low_sign, ⟨value, hvalue, hdiff⟩⟩

theorem bisect_cases (h : bisect flows tolerance = .ok (some s)) :
    ∃ lowNegative low high, Bracket flows lowNegative low high ∧
      low.value ≤ s.rate.value ∧ s.rate.value ≤ high.value ∧
      (Accepts flows tolerance s.rate ∨ high.value - low.value ≤ 1 / 10 ^ 12) := by
  obtain ⟨low, hlow, h⟩ := bind_eq_ok.mp h
  cases low with
  | none => exact nomatch pure_eq_ok.mp h
  | some low =>
    obtain ⟨high, hhigh, h⟩ := bind_eq_ok.mp h
    cases high with
    | none => exact nomatch pure_eq_ok.mp h
    | some high =>
      dsimp only at h
      split at h
      case isTrue => exact nomatch pure_eq_ok.mp h
      case isFalse hdiff =>
        refine ⟨low.negative, narrow_cases h ⟨?_, ?_, ?_, ⟨low, hlow, rfl⟩, high, hhigh, ?_⟩⟩
        · rw [value_floorRate]
        · rw [value_bracketTop]
        · rw [value_floorRate, value_bracketTop]
          norm_num
        · exact fun heq => hdiff heq.symm

end Narrow

/-- The sign that the computed sum shows is the opposite of that of the present value. -/
def Misjudges (flows : List Decimal) (rate : Decimal) : Prop :=
  ∃ v, scaledValue flows rate = .ok (some v) ∧
    ((v.negative = true ∧ 0 < netPresentValue flows rate.value) ∨
      (v.negative = false ∧ netPresentValue flows rate.value < 0))

/-- A sign is misjudged only where the sum is lost in the rounding. -/
theorem Misjudges.abs_mul_le (hne : flows ≠ []) (hlow : -99 / 100 ≤ rate.value)
    (h : Misjudges flows rate) :
    |netPresentValue flows rate.value| * min 1 (1 + rate.value) ^ (flows.length - 1)
      ≤ roundingSlack flows 1 := by
  obtain ⟨v, hv, hsign⟩ := h
  have herror := abs_le.mp (abs_scaledValue_sub_le hne hlow hv)
  have hfactor : 0 ≤ min 1 (1 + rate.value) ^ (flows.length - 1) :=
    pow_nonneg (le_min zero_le_one (by linarith)) _
  rcases hsign with ⟨hnegative, hpos⟩ | ⟨hpositive, hneg⟩
  · have hv' := value_nonpos_of_negative hnegative
    rw [abs_of_pos hpos]
    linarith [herror.1]
  · have hv' := value_nonneg_of_positive hpositive
    rw [abs_of_neg hneg]
    linarith [herror.2]

/-- The ends of a bracket have present values of both signs, or one of them is misjudged. -/
theorem Bracket.signs {lowNegative : Bool} {low high : Decimal}
    (hb : Bracket flows lowNegative low high) :
    (¬ (0 < netPresentValue flows low.value ∧ 0 < netPresentValue flows high.value) ∧
      ¬ (netPresentValue flows low.value < 0 ∧ netPresentValue flows high.value < 0)) ∨
    Misjudges flows low ∨ Misjudges flows high := by
  obtain ⟨v, hv, hvsign⟩ := hb.low_sign
  obtain ⟨w, hw, hwsign⟩ := hb.high_sign
  by_contra hcon
  rw [not_or, not_or, not_and_or, not_not, not_not] at hcon
  obtain ⟨hsame, hlow, hhigh⟩ := hcon
  rcases hsame with ⟨hlpos, hhpos⟩ | ⟨hlneg, hhneg⟩
  · have hv' : v.negative = false := by
      by_contra hneg
      exact hlow ⟨v, hv, Or.inl ⟨Bool.eq_true_of_not_eq_false hneg, hlpos⟩⟩
    have hw' : w.negative = false := by
      by_contra hneg
      exact hhigh ⟨w, hw, Or.inl ⟨Bool.eq_true_of_not_eq_false hneg, hhpos⟩⟩
    exact hwsign (by rw [hw', ← hvsign, hv'])
  · have hv' : v.negative = true := by
      by_contra hpos
      exact hlow ⟨v, hv, Or.inr ⟨Bool.eq_false_of_not_eq_true hpos, hlneg⟩⟩
    have hw' : w.negative = true := by
      by_contra hpos
      exact hhigh ⟨w, hw, Or.inr ⟨Bool.eq_false_of_not_eq_true hpos, hhneg⟩⟩
    exact hwsign (by rw [hw', ← hvsign, hv'])

section Solve
variable {options : YieldOptions} {s : Yield}

theorem ne_nil_of_changesSign (h : changesSign flows = true) : flows ≠ [] := by
  rintro rfl
  exact nomatch h

/-- A converged rate comes from Newton's method or from a bracket. -/
theorem solve_cases (h : solve flows options = .ok (some s)) (hconv : s.converged = true) :
    flows ≠ [] ∧
      ((-99 / 100 ≤ s.rate.value ∧ Accepts flows options.tolerance s.rate) ∨
        ∃ lowNegative low high, Bracket flows lowNegative low high ∧
          low.value ≤ s.rate.value ∧ s.rate.value ≤ high.value ∧
          (Accepts flows options.tolerance s.rate ∨ high.value - low.value ≤ 1 / 10 ^ 12)) := by
  unfold solve at h
  split at h
  case isFalse => exact nomatch pure_eq_ok.mp h
  case isTrue hsign =>
    refine ⟨ne_nil_of_changesSign hsign, ?_⟩
    obtain ⟨descent, hdescent, h⟩ := bind_eq_ok.mp h
    cases descent with
    | root rate iterations =>
      obtain rfl := Option.some.inj (pure_eq_ok.mp h)
      exact Or.inl (newton_root hdescent (clamp_ge _))
    | stalled rate iterations =>
      obtain ⟨found, hfound, h⟩ := bind_eq_ok.mp h
      cases found with
      | none =>
        obtain rfl := Option.some.inj (pure_eq_ok.mp h)
        exact nomatch hconv
      | some found =>
        obtain rfl := Option.some.inj (pure_eq_ok.mp h)
        exact Or.inr (bisect_cases hfound)

/-- A converged rate is a root. The exceptions are a rate accepted under a tolerance that the
rounding of the sums exceeds, and a rate nearby at which the computed sum shows the wrong sign, its
exact value being lost in the rounding. -/
theorem converged_rate_is_root (h : solve flows options = .ok (some s))
    (hconv : s.converged = true) :
    IsRoot flows options.tolerance.value s.rate.value ∨
    (Accepts flows options.tolerance s.rate ∧
      options.tolerance.value < roundingSlack flows (1 / (1 + s.rate.value))) ∨
    ∃ r : Decimal, -99 / 100 ≤ r.value ∧ r.value ≤ 10 ∧ |r.value - s.rate.value| ≤ 1 / 10 ^ 12 ∧
      Misjudges flows r ∧
      |netPresentValue flows r.value| * min 1 (1 + r.value) ^ (flows.length - 1)
        ≤ roundingSlack flows 1 := by
  obtain ⟨hne, ⟨hlow, haccepts⟩ | ⟨lowNegative, low, high, hb, hle, hge, hfound⟩⟩ :=
    solve_cases h hconv
  · exact (haccepts.isRoot hlow).imp_right Or.inl
  have hlow := hb.low_ge
  have hhigh := hb.high_le
  rcases hfound with haccepts | hnarrow
  · exact (haccepts.isRoot (hlow.trans hle)).imp_right Or.inl
  rcases hb.signs with hsigns | hmis | hmis
  · exact Or.inl (Or.inr ⟨low.value, high.value, hlow, hle, hge, hhigh, hnarrow, hsigns⟩)
  · refine Or.inr (Or.inr ⟨low, hlow, by linarith, ?_, hmis, hmis.abs_mul_le hne hlow⟩)
    rw [abs_le]
    constructor <;> linarith
  · have hlow' : -99 / 100 ≤ high.value := by linarith
    refine Or.inr (Or.inr ⟨high, hlow', hhigh, ?_, hmis, hmis.abs_mul_le hne hlow'⟩)
    rw [abs_le]
    constructor <;> linarith

/-- A loan that is paid back with interest in two instalments. -/
theorem converged_rate_is_root_two_instalments :
    ∃ s, solve [.ofScaled (-100) 0, .ofScaled 60 0, .ofScaled 60 0] defaults = .ok (some s) ∧
      s.converged = true ∧
      (IsRoot [.ofScaled (-100) 0, .ofScaled 60 0, .ofScaled 60 0] defaults.tolerance.value
          s.rate.value ∨
        (Accepts [.ofScaled (-100) 0, .ofScaled 60 0, .ofScaled 60 0] defaults.tolerance s.rate ∧
          defaults.tolerance.value < roundingSlack
            [.ofScaled (-100) 0, .ofScaled 60 0, .ofScaled 60 0] (1 / (1 + s.rate.value))) ∨
        ∃ r : Decimal, -99 / 100 ≤ r.value ∧ r.value ≤ 10 ∧
          |r.value - s.rate.value| ≤ 1 / 10 ^ 12 ∧
          Misjudges [.ofScaled (-100) 0, .ofScaled 60 0, .ofScaled 60 0] r ∧
          |netPresentValue [.ofScaled (-100) 0, .ofScaled 60 0, .ofScaled 60 0] r.value|
              * min 1 (1 + r.value) ^ 2
            ≤ roundingSlack [.ofScaled (-100) 0, .ofScaled 60 0, .ofScaled 60 0] 1) := by
  obtain ⟨found, h, hfound⟩ := exists_of_any (x := solve
    [.ofScaled (-100) 0, .ofScaled 60 0, .ofScaled 60 0] defaults)
    (p := fun found => found.any Yield.converged) (by decide +kernel)
  obtain ⟨s, rfl, hconv⟩ := (Option.any_eq_true _ _).mp hfound
  exact ⟨s, h, hconv, converged_rate_is_root h hconv⟩

theorem discountedSum_replicate_zero (i : ℚ) (n t : Nat) :
    discountedSum i (List.replicate n .zero) t = 0 := by
  induction n generalizing t with
  | zero => rfl
  | succ n ih => rw [List.replicate_succ, discountedSum, ih, value_zero, zero_mul, add_zero]

/-- The second exception does occur. The flows have no root from -99% on, but at that end the
compounded sum underflows to a zero, which counts as positive, and the bisection closes in on the
rate at which it first does. -/
theorem converged_rate_not_root :
    ∃ s, solve (.ofScaled (-1) 0 :: .ofScaled 1 3 :: List.replicate 16 .zero) defaults
        = .ok (some s) ∧ s.converged = true ∧
      ¬ IsRoot (.ofScaled (-1) 0 :: .ofScaled 1 3 :: List.replicate 16 .zero)
        defaults.tolerance.value s.rate.value := by
  have hneg (r : ℚ) (hr : -99 / 100 ≤ r) :
      netPresentValue (.ofScaled (-1) 0 :: .ofScaled 1 3 :: List.replicate 16 .zero) r
        ≤ -9 / 10 := by
    have hpos : 0 < 1 + r := by linarith
    have hsmall : 1 / (1 + r) ≤ 100 := by
      rw [div_le_iff₀ hpos]
      linarith
    rw [netPresentValue_eq, discountedSum, discountedSum, discountedSum_replicate_zero,
      value_ofScaled (by decide) (by decide), value_ofScaled (by decide) (by decide)]
    norm_num at hsmall ⊢
    linarith
  obtain ⟨found, h, hfound⟩ := exists_of_any (x := solve
    (.ofScaled (-1) 0 :: .ofScaled 1 3 :: List.replicate 16 .zero) defaults)
    (p := fun found => found.any fun s => s.converged && decide (floorRate ≤ s.rate))
    (by decide +kernel)
  obtain ⟨s, rfl, hcheck⟩ := (Option.any_eq_true _ _).mp hfound
  rw [Bool.and_eq_true, decide_eq_true_eq, le_iff_value_le, value_floorRate] at hcheck
  have hrate := hneg s.rate.value hcheck.2
  refine ⟨s, h, hcheck.1, ?_⟩
  rintro (hsmall | ⟨r₁, r₂, hlow, hle, hge, -, -, -, hsigns⟩)
  · have htolerance : defaults.tolerance.value = 1 / 10000 := by
      rw [defaults, value_ofScaled (by decide) (by decide)]
      norm_num
    rw [htolerance, abs_of_neg (by linarith)] at hsmall
    linarith
  · apply hsigns
    constructor
    · linarith [hneg r₁ hlow]
    · linarith [hneg r₂ (by linarith)]

end Solve

end PropertyFinance.Yield
