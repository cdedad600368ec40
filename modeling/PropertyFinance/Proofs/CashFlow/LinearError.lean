import PropertyFinance.Proofs.CashFlow.Discounting

/-! The two computed present values at a rate from zero up. There a discount factor is at most one, by
whichever way it is computed, so that a period adds a few quanta to its error and no more; the errors of
the sums are then in proportion to the number of flows. -/

namespace PropertyFinance.Yield
open Decimal
set_option autoImplicit false

variable {flows : List Decimal} {flow rate growth inverse discount total out : Decimal}
  {i x d V S : ℚ} {t : Nat}

/-- A computed reciprocal of the growth. -/
structure InverseNear (i x : ℚ) : Prop where
  exact_nonneg : 0 ≤ i
  exact_le_one : i ≤ 1
  nonneg : 0 ≤ x
  le_one : x ≤ 1
  error_le : |x - i| ≤ 2 * quantum

/-- A computed discount factor of period `t`. -/
structure DiscountNear (i : ℚ) (t : Nat) (d : ℚ) : Prop where
  nonneg : 0 ≤ d
  le_one : d ≤ 1
  error_le : |d - i ^ t| ≤ 7 / 2 * t * quantum

section Factors

theorem discountNear_zero (i : ℚ) : DiscountNear i 0 1 := by
  constructor <;> norm_num

theorem DiscountNear.mul (h : DiscountNear i t d) (hx : InverseNear i x) :
    DiscountNear i (t + 1) (nearest (d * x)) := by
  have hprod₀ : 0 ≤ d * x := mul_nonneg h.nonneg hx.nonneg
  have hprod₁ : d * x ≤ 1 := mul_le_one₀ h.le_one hx.nonneg hx.le_one
  constructor
  · exact nearest_nonneg hprod₀
  · rw [← value_one]
    exact nearest_le_value (hprod₁.trans value_one.ge)
  · have hround := abs_nearest_sub_le (d * x)
    rw [abs_of_nonneg hprod₀] at hround
    have hpast : |(d - i ^ t) * x| ≤ 7 / 2 * t * quantum := by
      rw [abs_mul, abs_of_nonneg hx.nonneg]
      exact (mul_le_of_le_one_right (abs_nonneg _) hx.le_one).trans h.error_le
    have hfresh : |i ^ t * (x - i)| ≤ 2 * quantum := by
      rw [abs_mul, abs_of_nonneg (pow_nonneg hx.exact_nonneg t)]
      exact (mul_le_of_le_one_left (abs_nonneg _)
        (pow_le_one₀ hx.exact_nonneg hx.exact_le_one)).trans hx.error_le
    have hsplit : nearest (d * x) - i ^ (t + 1)
        = nearest (d * x) - d * x + (d - i ^ t) * x + i ^ t * (x - i) := by ring
    have htri := abs_add_three (nearest (d * x) - d * x) ((d - i ^ t) * x) (i ^ t * (x - i))
    have hq := mul_le_mul_of_nonneg_left hprod₁ quantum_pos.le
    rw [hsplit]
    push_cast
    linarith [quantum_pos]

/-- The factor of period `t`, from the one of the period before. -/
theorem DiscountNear.factor (h : DiscountNear i (t - 1) discount.value)
    (hx : InverseNear i inverse.value)
    {factor : Decimal}
    (hfactor : (if t = 0 then some discount else discount.mul? inverse) = some factor) :
    DiscountNear i t factor.value := by
  cases t with
  | zero =>
    obtain rfl := Option.some.inj hfactor
    exact h
  | succ t =>
    rw [value_mul? hfactor]
    exact h.mul hx

theorem one_le_growth (hrate : 0 ≤ rate.value) (hgrowth : Decimal.one.add rate = .ok growth) :
    1 ≤ growth.value := by
  rw [value_add hgrowth, value_one, ← value_one]
  apply value_le_nearest
  linarith

theorem inverseNear (hrate : 0 ≤ rate.value) (hgrowth : Decimal.one.add rate = .ok growth)
    (hinverse : Decimal.one.div? growth = some inverse) :
    InverseNear (1 / (1 + rate.value)) inverse.value := by
  have hone := one_le_growth hrate hgrowth
  have hi₁ : 1 / (1 + rate.value) ≤ 1 := div_le_one_of_le₀ (by linarith) (by linarith)
  obtain ⟨-, hvalue⟩ := value_div? hinverse
  rw [value_one] at hvalue
  have herror := abs_inverse_sub_le (by linarith) hgrowth hinverse
  rw [max_eq_left hi₁, mul_one] at herror
  refine ⟨(one_div_pos.mpr (by linarith)).le, hi₁, ?_, ?_, herror⟩
  · rw [hvalue]
    exact nearest_nonneg (one_div_pos.mpr (by linarith)).le
  · rw [hvalue, ← value_one]
    apply nearest_le_value
    rw [value_one]
    exact div_le_one_of_le₀ hone (by linarith)

/-- One more product takes the divisor from the exact one by two quanta, relatively. -/
theorem abs_divisor_sub_le {F g r : ℚ} (hF : 1 ≤ F) (hr : 0 ≤ r)
    (hg : |g - (1 + r)| ≤ 16 / 25 * quantum * (1 + r)) :
    |nearest (F * g) - F * (1 + r)| ≤ 2 * quantum * (F * (1 + r)) := by
  have hone : 1 ≤ F * (1 + r) := one_le_mul_of_one_le_of_one_le hF (by linarith)
  have herror : |F * g - F * (1 + r)| ≤ 16 / 25 * quantum * (F * (1 + r)) := by
    rw [← mul_sub, abs_mul, abs_of_nonneg (by linarith : 0 ≤ F)]
    linarith [mul_le_mul_of_nonneg_left hg (by linarith : 0 ≤ F)]
  have hsize : |F * g| ≤ 101 / 100 * (F * (1 + r)) := by
    have htri := abs_sub_abs_le_abs_sub (F * g) (F * (1 + r))
    rw [abs_of_pos (by linarith : 0 < F * (1 + r))] at htri
    rw [quantum_eq] at herror
    linarith
  have hround := abs_nearest_sub_le (F * g)
  have htri := abs_sub_le (nearest (F * g)) (F * g) (F * (1 + r))
  have hq := mul_le_mul_of_nonneg_left hsize quantum_pos.le
  have hq' := mul_le_mul_of_nonneg_left hone quantum_pos.le
  linarith [quantum_pos]

/-- Dividing by the computed divisor is multiplying by a discount factor. -/
theorem discountNear_divisor (hrate : 0 ≤ rate.value) (hgrowth : Decimal.one.add rate = .ok growth)
    {factor : Decimal} (hfactor : discountFactor growth t = some factor) :
    DiscountNear (1 / (1 + rate.value)) t (1 / factor.value) := by
  have hg := one_le_growth hrate hgrowth
  have hone := one_le_discountFactor hg hfactor
  refine ⟨(one_div_pos.mpr (by linarith)).le, div_le_one_of_le₀ hone (by linarith), ?_⟩
  induction t generalizing factor with
  | zero =>
    cases hfactor
    norm_num [value_one]
  | succ t ih =>
    obtain ⟨before, hbefore, hvalue⟩ := discountFactor_succ hfactor
    have hbefore₁ := one_le_discountFactor hg hbefore
    have hround := (growth_grid rate).abs_nearest_sub_le
    rw [← value_one, ← value_add hgrowth, value_one,
      abs_of_pos (by linarith : 0 < 1 + rate.value)] at hround
    have hnear := abs_divisor_sub_le hbefore₁ hrate hround
    rw [← hvalue, abs_sub_comm] at hnear
    have hproduct : 0 < before.value * (1 + rate.value) := mul_pos (by linarith) (by linarith)
    have hi : (0 : ℚ) < 1 / (1 + rate.value) := one_div_pos.mpr (by linarith)
    have hfresh : |1 / factor.value - 1 / before.value * (1 / (1 + rate.value))| ≤ 2 * quantum := by
      have hsplit : 1 / factor.value - 1 / before.value * (1 / (1 + rate.value))
          = (before.value * (1 + rate.value) - factor.value)
            / (before.value * (1 + rate.value)) / factor.value := by
        have hne : factor.value ≠ 0 := by linarith
        have hne' : before.value ≠ 0 := by linarith
        field_simp
      rw [hsplit, abs_div, abs_div, abs_of_pos hproduct, abs_of_pos (by linarith : 0 < factor.value)]
      apply div_le_of_le_mul₀ (by linarith) (by linarith [quantum_pos])
      rw [div_le_iff₀ hproduct]
      refine hnear.trans (mul_le_mul_of_nonneg_right ?_ hproduct.le)
      exact le_mul_of_one_le_right (by linarith [quantum_pos]) hone
    have hpast : |(1 / before.value - (1 / (1 + rate.value)) ^ t) * (1 / (1 + rate.value))|
        ≤ 7 / 2 * t * quantum := by
      rw [abs_mul, abs_of_pos hi]
      exact (mul_le_of_le_one_right (abs_nonneg _)
        (div_le_one_of_le₀ (by linarith) (by linarith))).trans (ih hbefore hbefore₁)
    rw [pow_succ]
    have htri := abs_sub_le (1 / factor.value) (1 / before.value * (1 / (1 + rate.value)))
      ((1 / (1 + rate.value)) ^ t * (1 / (1 + rate.value)))
    rw [← sub_mul] at htri
    push_cast
    linarith [quantum_pos]

end Factors

section Sums

/-- The present value of one flow. -/
theorem DiscountNear.abs_present_sub_le (h : DiscountNear i t d) (c : ℚ) :
    |nearest (c * d) - c * i ^ t| ≤ (7 / 2 * t + 1) * quantum * |c| + quantum / 2 := by
  have hround := abs_nearest_sub_le (c * d)
  have hsize : |c * d| ≤ |c| := by
    rw [abs_mul, abs_of_nonneg h.nonneg]
    exact mul_le_of_le_one_right (abs_nonneg c) h.le_one
  have herror : |c * d - c * i ^ t| ≤ |c| * (7 / 2 * t * quantum) := by
    rw [← mul_sub, abs_mul]
    exact mul_le_mul_of_nonneg_left h.error_le (abs_nonneg c)
  have htri := abs_sub_le (nearest (c * d)) (c * d) (c * i ^ t)
  have hq := mul_le_mul_of_nonneg_left hsize quantum_pos.le
  linarith [mul_nonneg quantum_pos.le (abs_nonneg c)]

/-- Four quanta for each period, relative to one and the weight of the flows. -/
def drift (t : Nat) : ℚ := 1 + 4 * t * quantum

theorem one_le_drift (t : Nat) : 1 ≤ drift t := by
  have := quantum_pos
  rw [drift]
  have : 0 ≤ 4 * (t : ℚ) * quantum := by positivity
  linarith

theorem drift_succ (ht : t < 2 ^ 32) : (drift t + quantum) * (1 + 2 * quantum) ≤ drift (t + 1) := by
  have ht' : (t : ℚ) ≤ 4294967296 := by exact_mod_cast ht.le
  rw [drift, drift, quantum_eq]
  push_cast
  linarith

/-- One more present value. -/
theorem Near.addPresent (hn : Near total.value V S (drift t)) (ht : t < 2 ^ 32)
    (hd : DiscountNear i t d) (hi₀ : 0 ≤ i) (hi₁ : i ≤ 1) {present next : Decimal}
    (hpresent : present.value = nearest (flow.value * d))
    (hnext : next.value = nearest (total.value + present.value)) :
    Near next.value (V + flow.value * i ^ t) (S + |flow.value|) (drift (t + 1)) := by
  have herror := hd.abs_present_sub_le flow.value
  rw [← hpresent] at herror
  have hsize : |flow.value * i ^ t| ≤ |flow.value| := by
    rw [abs_mul, abs_of_nonneg (pow_nonneg hi₀ t)]
    exact mul_le_of_le_one_right (abs_nonneg _) (pow_le_one₀ hi₀ hi₁)
  have hstart : Near total.value V S (drift t + quantum) := hn.mono (by linarith [quantum_pos])
  have hone : 1 ≤ drift t + quantum := by linarith [one_le_drift t, quantum_pos]
  have hadd := hstart.add hone (onGrid_value _) (onGrid_value present) (P := flow.value * i ^ t)
    (c := |flow.value|) (by
      have hpos : 0 ≤ t * quantum * |flow.value| := by
        have := quantum_pos
        positivity
      rw [drift]
      linarith) hsize
  rw [← hnext] at hadd
  exact hadd.mono (drift_succ ht)

theorem near_start : Near Decimal.zero.value 0 0 (drift 0) := by
  constructor <;> simp [drift]

theorem near_discountedFrom (hx : InverseNear i inverse.value)
    (h : discountedFrom inverse flows t discount total = some out)
    (hd : DiscountNear i (t - 1) discount.value) (hn : Near total.value V S (drift t))
    (hlen : t + flows.length ≤ 2 ^ 32) :
    Near out.value (V + discountedSum i flows t) (S + magnitude flows) (drift (t + flows.length)) := by
  induction flows generalizing discount total V S t with
  | nil =>
    obtain rfl := Option.some.inj h
    simpa [discountedSum, magnitude] using hn
  | cons flow rest ih =>
    obtain ⟨factor, hfactor, present, hpresent, next, hnext, h⟩ := discountedFrom_cons.mp h
    rw [List.length_cons, ← add_assoc, add_right_comm] at hlen ⊢
    have hpower := hd.factor hx hfactor
    have hstep := hn.addPresent (by omega) hpower hx.exact_nonneg hx.exact_le_one
      (value_mul? hpresent) (value_add? hnext)
    rw [discountedSum, magnitude_cons, ← add_assoc V, ← add_assoc S]
    exact ih h hpower hstep hlen

theorem addDiscounted_cons_eq_ok {factor : Decimal} (hfactor : discountFactor growth (t - 1) = some factor)
    (h : addDiscounted growth (flow :: flows) t factor total = .ok out) :
    ∃ divisor, discountFactor growth t = some divisor ∧ ∃ present, flow.div divisor = .ok present ∧
      ∃ next, total.add present = .ok next ∧ addDiscounted growth flows (t + 1) divisor next = .ok out := by
  rw [addDiscounted_cons hfactor] at h
  cases hdivisor : discountFactor growth t with
  | none =>
    rw [hdivisor] at h
    cases h
  | some divisor =>
    rw [hdivisor] at h
    obtain ⟨next, hterm, h⟩ := bind_eq_ok.mp h
    obtain ⟨present, hpresent, hnext⟩ := bind_eq_ok.mp (liftM_eq_ok.mp hterm)
    exact ⟨divisor, rfl, present, hpresent, next, hnext, h⟩

theorem near_addDiscounted (hrate : 0 ≤ rate.value) (hgrowth : Decimal.one.add rate = .ok growth)
    {factor : Decimal} (h : addDiscounted growth flows t factor total = .ok out)
    (hfactor : discountFactor growth (t - 1) = some factor) (hn : Near total.value V S (drift t))
    (hlen : t + flows.length ≤ 2 ^ 32) :
    Near out.value (V + discountedSum (1 / (1 + rate.value)) flows t) (S + magnitude flows)
      (drift (t + flows.length)) := by
  induction flows generalizing factor total V S t with
  | nil =>
    obtain rfl := Except.ok.inj h
    simpa [discountedSum, magnitude] using hn
  | cons flow rest ih =>
    obtain ⟨divisor, hdivisor, present, hpresent, next, hnext, h⟩ := addDiscounted_cons_eq_ok hfactor h
    obtain ⟨-, hvalue⟩ := value_div hpresent
    rw [div_eq_mul_one_div] at hvalue
    rw [List.length_cons, ← add_assoc, add_right_comm] at hlen ⊢
    have hi₀ : (0 : ℚ) ≤ 1 / (1 + rate.value) := (one_div_pos.mpr (by linarith)).le
    have hi₁ : 1 / (1 + rate.value) ≤ 1 := div_le_one_of_le₀ (by linarith) (by linarith)
    have hstep := hn.addPresent (by omega) (discountNear_divisor hrate hgrowth hdivisor) hi₀ hi₁
      hvalue (value_add hnext)
    rw [discountedSum, magnitude_cons, ← add_assoc V, ← add_assoc S]
    exact ih h hdivisor hstep hlen

end Sums

end PropertyFinance.Yield
