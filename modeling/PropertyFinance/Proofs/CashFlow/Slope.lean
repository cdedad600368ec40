import Mathlib
import PropertyFinance.Proofs.CashFlow.LinearError

/-! The slope that Newton's method divides by is the derivative of the present value, and the two computed
present values agree. A flow of period `t` weighs `t` times as much in the slope, so that its error grows
with the square of the number of flows. -/

namespace PropertyFinance.Yield
open Decimal
set_option autoImplicit false

variable {flows : List Decimal} {flow rate inverse discount total slope : Decimal} {i x d D S c : ℚ}
  {t : Nat}

def netSlope (flows : List Decimal) (rate : ℚ) : ℚ :=
  (flows.mapIdx fun t flow => -(t * flow.value) / (1 + rate) ^ (t + 1)).sum

/-- The slope of the flows from period `t` on. -/
def slopeSum (i : ℚ) : List Decimal → Nat → ℚ
  | [], _ => 0
  | flow :: rest, t => -(t * flow.value * i ^ (t + 1)) + slopeSum i rest (t + 1)

section Exact
variable {r : ℚ}

theorem slopeSum_eq (r : ℚ) (flows : List Decimal) (t : Nat) :
    slopeSum (1 / (1 + r)) flows t
      = (flows.mapIdx fun k flow => -((t + k : Nat) * flow.value) / (1 + r) ^ (t + k + 1)).sum := by
  induction flows generalizing t with
  | nil => rfl
  | cons flow rest ih =>
    rw [slopeSum, ih, List.mapIdx_cons, List.sum_cons, add_zero, one_div, inv_pow, neg_div,
      div_eq_mul_inv]
    simp only [add_assoc, add_comm 1]

theorem netSlope_eq (flows : List Decimal) (r : ℚ) :
    netSlope flows r = slopeSum (1 / (1 + r)) flows 0 := by
  rw [slopeSum_eq, netSlope]
  simp only [zero_add]

theorem hasDerivAt_term (hr : 1 + r ≠ 0) (c : ℚ) (t : Nat) :
    HasDerivAt (fun y => c * (1 / (1 + y)) ^ t) (-(t * c * (1 / (1 + r)) ^ (t + 1))) r := by
  have hgrowth : HasDerivAt (fun y : ℚ => 1 + y) 1 r := (hasDerivAt_id' r).const_add 1
  have hinverse := ((hgrowth.fun_inv hr).fun_pow t).const_mul c
  simp only [one_div]
  refine hinverse.congr_deriv ?_
  cases t with
  | zero => simp
  | succ t =>
    rw [Nat.add_sub_cancel, neg_div, one_div, ← inv_pow]
    ring

theorem hasDerivAt_discountedSum (hr : 1 + r ≠ 0) (flows : List Decimal) (t : Nat) :
    HasDerivAt (fun y => discountedSum (1 / (1 + y)) flows t) (slopeSum (1 / (1 + r)) flows t) r := by
  induction flows generalizing t with
  | nil => exact hasDerivAt_const r 0
  | cons flow rest ih => exact (hasDerivAt_term hr flow.value t).add (ih (t + 1))

theorem hasDerivAt_netPresentValue (hr : 1 + r ≠ 0) (flows : List Decimal) :
    HasDerivAt (netPresentValue flows) (netSlope flows r) r := by
  have h := hasDerivAt_discountedSum hr flows 0
  rw [← netSlope_eq] at h
  simpa only [← netPresentValue_eq] using h

end Exact

section Computed

/-- A computed slope of the flows of the first `t` periods, and the exact one. -/
structure SlopeNear (computed exact size : ℚ) (t : Nat) : Prop where
  error_le : |computed - exact| ≤ 4 * t ^ 2 * quantum * (1 + size)
  exact_le : |exact| ≤ t * size

/-- What a period takes off the slope: the flow's present value, once for every year and discounted
once more. -/
theorem DiscountNear.abs_weighted_sub_le (h : DiscountNear i t d) (hx : InverseNear i x) (a : Decimal) :
    |nearest (nearest (t * nearest (a.value * d)) * x) - t * a.value * i ^ (t + 1)|
      ≤ quantum * ((t + 1) / 2 + t * |a.value| * (5 + 7 / 2 * t)) := by
  have hq := quantum_pos
  have hsmall : quantum ≤ 1 / 4 := by norm_num [quantum_eq]
  have ht : (0 : ℚ) ≤ t := Nat.cast_nonneg t
  have hc := abs_nonneg a.value
  set p := nearest (a.value * d) with hp
  set m := nearest (t * p) with hm
  have hpsize : |p| ≤ |a.value| := abs_nearest_mul_le a h.nonneg h.le_one
  have hperror := h.abs_present_sub_le a.value
  rw [← hp] at hperror
  have htp : |t * p| ≤ t * |a.value| := by
    rw [abs_mul, abs_of_nonneg ht]
    exact mul_le_mul_of_nonneg_left hpsize ht
  have hgrid : OnGrid (t * p) := by
    obtain ⟨n, hn⟩ := onGrid_nearest (a.value * d)
    exact ⟨t * n, by rw [hp, hn]; push_cast; ring⟩
  have hmround : |m - t * p| ≤ quantum * (t * |a.value|) := hgrid.rounding_le htp
  have hmerror : |m - t * (a.value * i ^ t)|
      ≤ quantum * (t * |a.value|) + t * ((7 / 2 * t + 1) * quantum * |a.value| + quantum / 2) := by
    have htri := abs_sub_le m (t * p) (t * (a.value * i ^ t))
    rw [← mul_sub, abs_mul, abs_of_nonneg ht] at htri
    linarith [mul_le_mul_of_nonneg_left hperror ht]
  have hmsize : |m * x| ≤ 5 / 4 * (t * |a.value|) := by
    have htri := abs_sub_abs_le_abs_sub m (t * p)
    rw [abs_mul, abs_of_nonneg hx.nonneg]
    refine (mul_le_of_le_one_right (abs_nonneg m) hx.le_one).trans ?_
    linarith [mul_le_mul_of_nonneg_right hsmall (mul_nonneg ht hc)]
  have hround := abs_nearest_sub_le (m * x)
  have hpast : |(m - t * (a.value * i ^ t)) * x| ≤ |m - t * (a.value * i ^ t)| := by
    rw [abs_mul, abs_of_nonneg hx.nonneg]
    exact mul_le_of_le_one_right (abs_nonneg _) hx.le_one
  have hfresh : |t * (a.value * i ^ t) * (x - i)| ≤ t * |a.value| * (2 * quantum) := by
    rw [abs_mul, abs_mul, abs_mul, abs_of_nonneg ht, abs_of_nonneg (pow_nonneg hx.exact_nonneg t)]
    refine mul_le_mul ?_ hx.error_le (abs_nonneg _) (mul_nonneg ht hc)
    exact mul_le_mul_of_nonneg_left
      (mul_le_of_le_one_right hc (pow_le_one₀ hx.exact_nonneg hx.exact_le_one)) ht
  have hsplit : nearest (m * x) - t * a.value * i ^ (t + 1)
      = nearest (m * x) - m * x + (m - t * (a.value * i ^ t)) * x
        + t * (a.value * i ^ t) * (x - i) := by ring
  have htri := abs_add_three (nearest (m * x) - m * x) ((m - t * (a.value * i ^ t)) * x)
    (t * (a.value * i ^ t) * (x - i))
  rw [hsplit]
  linarith [mul_le_mul_of_nonneg_left hmsize hq.le, mul_nonneg hq.le (mul_nonneg ht hc)]

/-- One more period. -/
theorem SlopeNear.sub (h : SlopeNear slope.value D S t) (ht : t < 2 ^ 32) (hS : 0 ≤ S)
    {w W : ℚ} (hw : OnGrid w) (hc : 0 ≤ c)
    (herror : |w - W| ≤ quantum * ((t + 1) / 2 + t * c * (5 + 7 / 2 * t))) (hW : |W| ≤ t * c) :
    SlopeNear (nearest (slope.value - w)) (D - W) (S + c) (t + 1) := by
  have hq := quantum_pos
  have ht₀ : (0 : ℚ) ≤ t := Nat.cast_nonneg t
  have hround := ((onGrid_value slope).sub hw).abs_nearest_sub_le
  -- the errors so far are too small to count once more
  have hsquare : quantum * (t : ℚ) ^ 2 ≤ 1 / 100 := by
    have ht' : (t : ℚ) ≤ 4294967296 := by exact_mod_cast ht.le
    have := pow_le_pow_left₀ ht₀ ht' 2
    rw [quantum_eq]
    linarith
  have hlinear : quantum * (t : ℚ) ≤ 1 / 100 := by
    have : (t : ℚ) ≤ t ^ 2 := by exact_mod_cast Nat.le_self_pow two_ne_zero t
    linarith [mul_le_mul_of_nonneg_left this hq.le]
  have hsize : |slope.value - w| ≤ t * (S + c) + 2 + S + c := by
    have hslope := abs_sub_abs_le_abs_sub slope.value D
    have hterm := abs_sub_abs_le_abs_sub w W
    have hsmall : quantum ≤ 1 / 100 := by norm_num [quantum_eq]
    linarith [abs_sub slope.value w, h.error_le, h.exact_le,
      mul_le_mul_of_nonneg_right hsquare (by linarith : 0 ≤ 1 + S),
      mul_le_mul_of_nonneg_right hsquare hc, mul_le_mul_of_nonneg_right hlinear hc]
  have htri := abs_sub_le (nearest (slope.value - w)) (slope.value - w) (D - W)
  have hsplit : |slope.value - w - (D - W)| ≤ |slope.value - D| + |w - W| := by
    rw [sub_sub_sub_comm]
    exact abs_sub _ _
  constructor
  · have hpos₁ := mul_nonneg hq.le (mul_nonneg ht₀ hS)
    have hpos₂ := mul_nonneg hq.le (mul_nonneg ht₀ hc)
    have hpos₃ := mul_nonneg hq.le (mul_nonneg (sq_nonneg (t : ℚ)) hc)
    have hpos₄ := mul_nonneg hq.le hS
    have hpos₅ := mul_nonneg hq.le hc
    have hpos₆ := mul_nonneg hq.le ht₀
    have hsum := mul_le_mul_of_nonneg_left hsize hq.le
    push_cast
    linarith [h.error_le]
  · have := abs_sub D W
    push_cast
    linarith [h.exact_le]

theorem value_nextSlope (ht : t < capacity) {present slope' : Decimal}
    (h : (if t = 0 then some slope
      else do slope.sub? (← (← (Decimal.ofNat t).mul? present).mul? inverse)) = some slope') :
    slope'.value = nearest (slope.value - nearest (nearest (t * present.value) * inverse.value)) := by
  split at h
  case isTrue hzero =>
    obtain rfl := Option.some.inj h
    simp [hzero]
  case isFalse =>
    obtain ⟨m, hm, h⟩ := Option.bind_eq_some_iff.mp h
    obtain ⟨w, hw, h⟩ := Option.bind_eq_some_iff.mp h
    rw [value_sub? h, value_mul? hw, value_mul? hm, value_ofNat ht]

theorem slopeNear_sumsFrom (hx : InverseNear i inverse.value) {sums : Decimal × Decimal}
    (h : sumsFrom inverse flows t discount total slope = some sums)
    (hd : DiscountNear i (t - 1) discount.value) (hS : 0 ≤ S) (hs : SlopeNear slope.value D S t)
    (hlen : t + flows.length ≤ 2 ^ 32) :
    SlopeNear sums.2.value (D + slopeSum i flows t) (S + magnitude flows) (t + flows.length) := by
  induction flows generalizing discount total slope D S t with
  | nil =>
    obtain rfl := Option.some.inj h
    simpa [slopeSum, magnitude] using hs
  | cons flow rest ih =>
    obtain ⟨factor, hfactor, present, hpresent, next, -, slope', hslope, h⟩ := sumsFrom_cons h
    rw [List.length_cons, ← add_assoc, add_right_comm] at hlen ⊢
    have hpower := hd.factor hx hfactor
    have herror := hpower.abs_weighted_sub_le hx flow
    have hsize : |t * flow.value * i ^ (t + 1)| ≤ t * |flow.value| := by
      rw [abs_mul, abs_mul, Nat.abs_cast, abs_of_nonneg (pow_nonneg hx.exact_nonneg _)]
      exact mul_le_of_le_one_right (mul_nonneg (Nat.cast_nonneg t) (abs_nonneg _))
        (pow_le_one₀ hx.exact_nonneg hx.exact_le_one)
    have hstep := hs.sub (by omega) hS (onGrid_nearest _) (abs_nonneg flow.value) herror hsize
    rw [← value_mul? hpresent,
      ← value_nextSlope (lt_trans (by omega) (by decide : 2 ^ 32 < capacity)) hslope] at hstep
    rw [slopeSum, magnitude_cons, ← add_assoc D, ← add_assoc S, ← sub_eq_add_neg]
    exact ih h hpower (add_nonneg hS (abs_nonneg _)) hstep hlen

end Computed

/-- At a rate from zero up the two computed present values are near each other, the one that Newton's
method takes is near the exact one, and the slope that it takes is near the exact derivative. -/
theorem present_values_agree {value : Decimal} {sums : Decimal × Decimal}
    (hlen : flows.length < 2 ^ 32) (hrate : 0 ≤ rate.value)
    (hvalue : presentValue rate flows = .ok value)
    (hsums : valueAndSlope flows rate = .ok (some sums)) :
    |value.value - sums.1.value| ≤ 2 * flows.length * (1 / 10 ^ 27) * (1 + magnitude flows) ∧
      |sums.1.value - netPresentValue flows rate.value|
        ≤ flows.length * (1 / 10 ^ 27) * (1 + magnitude flows) ∧
      |sums.2.value - netSlope flows rate.value|
        ≤ flows.length ^ 2 * (1 / 10 ^ 27) * (1 + magnitude flows) ∧
      HasDerivAt (netPresentValue flows) (netSlope flows rate.value) rate.value := by
  obtain ⟨growth, hgrowth, hsums⟩ := bind_eq_ok.mp hsums
  obtain ⟨inverse, hinverse, hsums⟩ := Option.bind_eq_some_iff.mp (pure_eq_ok.mp hsums)
  have hx := inverseNear hrate hgrowth hinverse
  have hone : DiscountNear (1 / (1 + rate.value)) 0 Decimal.one.value := by
    rw [value_one]
    exact discountNear_zero _
  have hmultiplied := near_discountedFrom hx (discountedFrom_of_sumsFrom hsums) (t := 0) hone near_start
    (by omega)
  have hdivided : Near value.value (0 + discountedSum (1 / (1 + rate.value)) flows 0)
      (0 + magnitude flows) (drift (0 + flows.length)) := by
    rw [presentValue_of_gt (by linarith), hgrowth] at hvalue
    exact near_addDiscounted hrate hgrowth hvalue (t := 0) rfl near_start (by omega)
  have hslope := slopeNear_sumsFrom hx hsums (t := 0) hone (le_refl 0)
    (D := 0) (by constructor <;> simp) (by omega)
  have hsize := magnitude_nonneg flows
  have hroundoff : (1 : ℚ) / 10 ^ 27 = 10 * quantum := by rw [quantum_eq]; norm_num
  have hN := mul_nonneg (mul_nonneg (Nat.cast_nonneg flows.length) quantum_pos.le)
    (by linarith : 0 ≤ 1 + magnitude flows)
  have hN' := mul_nonneg (mul_nonneg (sq_nonneg (flows.length : ℚ)) quantum_pos.le)
    (by linarith : 0 ≤ 1 + magnitude flows)
  rw [zero_add, zero_add, zero_add] at hmultiplied hdivided hslope
  have herror := hmultiplied.error_le
  have herror' := hdivided.error_le
  have hslopeError := hslope.error_le
  rw [drift, ← netPresentValue_eq] at herror herror'
  rw [← netSlope_eq] at hslopeError
  rw [hroundoff]
  refine ⟨?_, by linarith, by linarith, hasDerivAt_netPresentValue (by linarith) flows⟩
  have htri := abs_sub_le value.value (netPresentValue flows rate.value) sums.1.value
  rw [abs_sub_comm (netPresentValue flows rate.value)] at htri
  linarith

/-- An outlay that comes back in two instalments, at 10%. -/
theorem present_values_agree_two_instalments :
    ∃ value sums, presentValue (.ofScaled 1 1) [.ofScaled (-100) 0, .ofScaled 60 0, .ofScaled 60 0]
        = .ok value ∧
      valueAndSlope [.ofScaled (-100) 0, .ofScaled 60 0, .ofScaled 60 0] (.ofScaled 1 1)
        = .ok (some sums) ∧
      |value.value - sums.1.value| ≤ 2 * 3 * (1 / 10 ^ 27) * 221 ∧
      |sums.1.value - netPresentValue [.ofScaled (-100) 0, .ofScaled 60 0, .ofScaled 60 0] (1 / 10)|
        ≤ 3 * (1 / 10 ^ 27) * 221 ∧
      |sums.2.value - netSlope [.ofScaled (-100) 0, .ofScaled 60 0, .ofScaled 60 0] (1 / 10)|
        ≤ 3 ^ 2 * (1 / 10 ^ 27) * 221 := by
  obtain ⟨value, hvalue⟩ := exists_of_isOk (x := presentValue (.ofScaled 1 1)
    [.ofScaled (-100) 0, .ofScaled 60 0, .ofScaled 60 0]) (by decide +kernel)
  obtain ⟨found, hfound, hsome⟩ := exists_of_any (x := valueAndSlope
    [.ofScaled (-100) 0, .ofScaled 60 0, .ofScaled 60 0] (.ofScaled 1 1))
    (p := Option.isSome) (by decide +kernel)
  obtain ⟨sums, rfl⟩ := Option.isSome_iff_exists.mp hsome
  have hrate : (Decimal.ofScaled 1 1).value = 1 / 10 := by
    rw [value_ofScaled (by decide) (by decide)]
    norm_num
  have hsize : 1 + magnitude [.ofScaled (-100) 0, .ofScaled 60 0, .ofScaled 60 0] = 221 := by
    rw [magnitude_cons, magnitude_cons, magnitude_cons, value_ofScaled (by decide) (by decide),
      value_ofScaled (by decide) (by decide)]
    norm_num [magnitude]
  have hagree := present_values_agree (by decide) (by rw [hrate]; norm_num) hvalue hfound
  rw [hrate, hsize] at hagree
  exact ⟨value, sums, hvalue, hfound, hagree.1, hagree.2.1, hagree.2.2.1⟩

end PropertyFinance.Yield
