import PropertyFinance.Proofs.CashFlow.LinearError

/-! The accuracy of the sum that guides the bisection. Below zero the flows are compounded, by Horner's
scheme, at a growth that damps what has been rounded before; from zero up they are discounted by powers of a
rounded reciprocal. Either way a period adds a few quanta, so that the error is in proportion to the number of
flows, and a sum that exceeds it shows the sign of the present value. -/

namespace PropertyFinance.Yield
open Decimal
set_option autoImplicit false

variable {flows : List Decimal} {growth rate total out v : Decimal} {g V S : ℚ} {t : Nat}

/-- The flows compounded to the last period below zero, and discounted to the first one from there on. -/
def exactScaledValue (flows : List Decimal) (rate : ℚ) : ℚ :=
  if rate < 0 then (flows.mapIdx fun t flow => flow.value * (1 + rate) ^ (flows.length - 1 - t)).sum
  else netPresentValue flows rate

section Exact

/-- Horner's scheme weighs each flow by the growth of the periods after it. -/
theorem compoundedSum_eq_sum (g : ℚ) (flows : List Decimal) (total : ℚ) :
    compoundedSum g flows total = total * g ^ flows.length
      + (flows.mapIdx fun t flow => flow.value * g ^ (flows.length - 1 - t)).sum := by
  induction flows generalizing total with
  | nil => simp [compoundedSum]
  | cons flow rest ih =>
    have hshift (t : Nat) : rest.length + 1 - 1 - (t + 1) = rest.length - 1 - t := by omega
    rw [compoundedSum, ih, List.mapIdx_cons, List.sum_cons, List.length_cons]
    simp only [hshift]
    rw [Nat.add_sub_cancel, Nat.sub_zero, pow_succ]
    ring

theorem exactScaledValue_of_neg {rate : ℚ} (h : rate < 0) :
    exactScaledValue flows rate = compoundedSum (1 + rate) flows 0 := by
  rw [exactScaledValue, if_pos h, compoundedSum_eq_sum, zero_mul, zero_add]

theorem exactScaledValue_of_nonneg {rate : ℚ} (h : 0 ≤ rate) :
    exactScaledValue flows rate = netPresentValue flows rate := by
  rw [exactScaledValue, if_neg (not_lt_of_ge h)]

/-- Compounding multiplies the present value by something positive. -/
theorem exists_exactScaledValue_eq {rate : ℚ} (hne : flows ≠ []) (hlow : -1 < rate) :
    ∃ factor > 0, exactScaledValue flows rate = factor * netPresentValue flows rate := by
  have hgrowth : 0 < 1 + rate := by linarith
  rcases lt_or_ge rate 0 with hneg | hnonneg
  · refine ⟨(1 + rate) ^ (flows.length - 1), pow_pos hgrowth _, ?_⟩
    rw [exactScaledValue_of_neg hneg, compoundedSum_eq hne hgrowth.ne']
  · exact ⟨1, zero_lt_one, by rw [exactScaledValue_of_nonneg hnonneg, one_mul]⟩

end Exact

section Error

theorem discountedSum_one (flows : List Decimal) (t : Nat) :
    discountedSum 1 (flows.map Decimal.abs) t = magnitude flows := by
  induction flows generalizing t with
  | nil => rfl
  | cons flow rest ih => rw [List.map_cons, discountedSum, ih, value_abs, one_pow, mul_one, magnitude_cons]

/-- The four quanta of a period are enough for a product and a sum. -/
theorem drift_room (ht : t < 2 ^ 32) :
    drift t * (1 + quantum) * (1 + 2 * quantum) ≤ drift (t + 1) := by
  have ht' : (t : ℚ) ≤ 4294967296 := by exact_mod_cast ht.le
  rw [drift, drift, quantum_eq]
  push_cast
  linarith

theorem near_compoundedFrom (h : compounded growth flows .zero = some out) (hg₀ : 0 ≤ growth.value)
    (hg₁ : growth.value ≤ 1) (hlen : flows.length < 2 ^ 32) :
    Near out.value (compoundedSum growth.value flows 0) (magnitude flows) (drift flows.length) := by
  have hnear := near_compounded h (t := 0) hg₀ hg₁ one_le_drift
    (fun k hk => drift_room (by omega)) near_start
  rwa [zero_add, zero_add, discountedSum_one] at hnear

/-- The computed sum and the exact one, at the rates at which the bisection looks at it. -/
theorem near_scaledValue (hlen : flows.length < 2 ^ 32) (hlow : -99 / 100 ≤ rate.value)
    (h : scaledValue flows rate = .ok (some v)) :
    Near v.value (exactScaledValue flows rate.value) (magnitude flows) (drift flows.length) := by
  obtain ⟨growth, hgrowth, h⟩ := bind_eq_ok.mp h
  have h := pure_eq_ok.mp h
  have hsign := growth_lt_one_iff hlow hgrowth
  split_ifs at h with hzero hone <;> rw [lt_iff_value_lt, value_one] at hone
  · have hneg := hsign.mp hone
    have hself := growth_eq_of_neg hlow hneg hgrowth
    rw [exactScaledValue_of_neg hneg, ← hself]
    exact near_compoundedFrom h (by linarith) hone.le hlen
  · have hnonneg : 0 ≤ rate.value := Rat.not_lt.mp (mt hsign.mpr hone)
    obtain ⟨inverse, hinverse, h⟩ := Option.bind_eq_some_iff.mp h
    have hfirst : DiscountNear (1 / (1 + rate.value)) 0 Decimal.one.value := by
      rw [value_one]
      exact discountNear_zero _
    have hnear := near_discountedFrom (inverseNear hnonneg hgrowth hinverse) h (t := 0) hfirst near_start
      (by omega)
    rw [exactScaledValue_of_nonneg hnonneg, netPresentValue_eq]
    rwa [zero_add, zero_add, zero_add] at hnear

end Error

/-- A number that is nearer to another one than that is to zero has its sign. -/
theorem same_sign_of_abs_sub_lt {x y : ℚ} (h : |x - y| < |y|) :
    (0 < y → 0 < x) ∧ (y < 0 → x < 0) := by
  have hx := abs_lt.mp h
  constructor
  · intro hy
    rw [abs_of_pos hy] at hx
    linarith
  · intro hy
    rw [abs_of_neg hy] at hx
    linarith

/-- The sum that guides the bisection exists at every rate of the bracket and is off by at most a unit of
`10 ^ -27` for each flow, relative to one and the size of the flows. One that is larger than that shows the
sign of the present value, also by its sign flag. -/
theorem scaled_value_accurate (hlen : flows.length < 2 ^ 32) (hsize : magnitude flows ≤ 10 ^ 27)
    (hlow : -99 / 100 ≤ rate.value) (hhigh : rate.value ≤ 10) :
    ∃ v, scaledValue flows rate = .ok (some v) ∧
      |v.value - exactScaledValue flows rate.value|
        ≤ flows.length * (1 / 10 ^ 27) * (1 + magnitude flows) ∧
      (flows.length * (1 / 10 ^ 27) * (1 + magnitude flows) < |exactScaledValue flows rate.value| →
        (0 < netPresentValue flows rate.value ∧ 0 < v.value ∧ v.negative = false) ∨
          (netPresentValue flows rate.value < 0 ∧ v.value < 0 ∧ v.negative = true)) := by
  obtain ⟨growth, hgrowth⟩ := growth_isOk hlow (by linarith)
  have hpos : 0 < growth.value := by
    rw [value_add hgrowth, value_one]
    exact (growth_grid rate).nearest_pos (by linarith)
  obtain ⟨v, hv⟩ := scaledValue_isSome hlen hsize hgrowth hpos
  have herror := (near_scaledValue hlen hlow hv).error_le
  have hbound : (drift flows.length - 1) * (1 + magnitude flows)
      ≤ flows.length * (1 / 10 ^ 27) * (1 + magnitude flows) := by
    apply mul_le_mul_of_nonneg_right _ (by linarith [magnitude_nonneg flows])
    have : (0 : ℚ) ≤ flows.length := Nat.cast_nonneg _
    rw [drift, quantum_eq]
    linarith
  refine ⟨v, hv, herror.trans hbound, fun hlarge => ?_⟩
  have hne : flows ≠ [] := by
    rintro rfl
    norm_num [exactScaledValue, netPresentValue] at hlarge
  obtain ⟨factor, hfactor, hexact⟩ := exists_exactScaledValue_eq hne (by linarith : -1 < rate.value)
  obtain ⟨hofPos, hofNeg⟩ := same_sign_of_abs_sub_lt ((herror.trans hbound).trans_lt hlarge)
  rw [hexact] at hlarge hofPos hofNeg
  rcases lt_trichotomy (netPresentValue flows rate.value) 0 with hneg | hzero | hpos
  · have hv' := hofNeg (mul_neg_of_pos_of_neg hfactor hneg)
    refine Or.inr ⟨hneg, hv', Bool.eq_true_of_not_eq_false fun hflag => ?_⟩
    linarith [value_nonneg_of_positive hflag]
  · rw [hzero, mul_zero, abs_zero] at hlarge
    linarith [abs_nonneg (v.value - exactScaledValue flows rate.value)]
  · have hv' := hofPos (mul_pos hfactor hpos)
    refine Or.inl ⟨hpos, hv', Bool.eq_false_of_not_eq_true fun hflag => ?_⟩
    linarith [value_nonpos_of_negative hflag]

/-- Two instalments at the lowest rate of the bracket, where the outlay all but vanishes. -/
theorem scaled_value_accurate_two_instalments :
    ∃ v, scaledValue [.ofScaled (-100) 0, .ofScaled 60 0, .ofScaled 60 0] floorRate = .ok (some v) ∧
      |v.value - 6059 / 100| ≤ 3 * (1 / 10 ^ 27) * 221 ∧ 0 < v.value ∧ v.negative = false ∧
      0 < netPresentValue [.ofScaled (-100) 0, .ofScaled 60 0, .ofScaled 60 0] (-99 / 100) := by
  have hout : (ofScaled (-100) 0).value = -100 := by
    rw [value_ofScaled (by decide) (by decide)]
    norm_num
  have hback : (ofScaled 60 0).value = 60 := by
    rw [value_ofScaled (by decide) (by decide)]
    norm_num
  have hsize : magnitude [.ofScaled (-100) 0, .ofScaled 60 0, .ofScaled 60 0] = 220 := by
    norm_num [magnitude, hout, hback]
  have hexact : exactScaledValue [.ofScaled (-100) 0, .ofScaled 60 0, .ofScaled 60 0] (-99 / 100)
      = 6059 / 100 := by
    rw [exactScaledValue_of_neg (by norm_num)]
    norm_num [compoundedSum, hout, hback]
  have hpresent : 0 < netPresentValue [.ofScaled (-100) 0, .ofScaled 60 0, .ofScaled 60 0] (-99 / 100) := by
    norm_num [netPresentValue, hout, hback]
  have hlen : [ofScaled (-100) 0, .ofScaled 60 0, .ofScaled 60 0].length < 2 ^ 32 := by decide
  obtain ⟨v, hv, herror, hsign⟩ := scaled_value_accurate hlen (by rw [hsize]; norm_num)
    value_floorRate.ge (by rw [value_floorRate]; norm_num)
  rw [value_floorRate, hexact, hsize] at herror hsign
  norm_num at herror hsign
  rcases hsign with ⟨-, hpos, hflag⟩ | ⟨hneg, -⟩
  · exact ⟨v, hv, by norm_num; exact herror, hpos, hflag, hpresent⟩
  · linarith

end PropertyFinance.Yield
