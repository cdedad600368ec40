import PropertyFinance.Proofs.CashFlow.NetPresentValue
import PropertyFinance.Proofs.Decimal.Checked

/-! How far the computed sums can be from the exact ones. Each period costs a product and a sum,
and each of these a little relative to what has been summed so far plus one; so the error grows
like the interest on the weight of the flows at a unit roundoff for each period. -/

namespace PropertyFinance.Yield
open Decimal
set_option autoImplicit false

/-- Ten quanta: what one period costs at most. -/
def roundoff : ℚ := 1 / 10 ^ 27

theorem roundoff_eq : roundoff = 10 * quantum := by norm_num [roundoff, quantum, maxScale]

theorem roundoff_pos : 0 < roundoff := by norm_num [roundoff]

/-- A computed sum, the exact one, and the weight of what has been summed; `b` is the factor by
which the weight has grown. -/
structure Near (computed exact size b : ℚ) : Prop where
  error_le : |computed - exact| ≤ (b - 1) * (1 + size)
  exact_le : |exact| ≤ size

section Steps
variable {v V S b : ℚ}

theorem Near.size_nonneg (h : Near v V S b) : 0 ≤ S := (abs_nonneg V).trans h.exact_le

theorem Near.abs_le (h : Near v V S b) : |v| ≤ b * (1 + S) - 1 := by
  have htri : |v| ≤ |v - V| + |V| := by
    have := abs_sub_abs_le_abs_sub v V
    linarith
  linarith [h.error_le, h.exact_le]

theorem Near.mono {b' : ℚ} (h : Near v V S b) (hb : b ≤ b') : Near v V S b' := by
  refine ⟨h.error_le.trans ?_, h.exact_le⟩
  exact mul_le_mul_of_nonneg_right (by linarith) (by linarith [h.size_nonneg])

/-- A rounded product with a factor up to one. -/
theorem Near.mul (h : Near v V S b) {g : ℚ} (hg₀ : 0 ≤ g) (hg₁ : g ≤ 1) :
    Near (nearest (v * g)) (V * g) S (b * (1 + quantum)) := by
  have hround := abs_nearest_sub_le (v * g)
  rw [abs_mul, abs_of_nonneg hg₀] at hround
  have hv := h.abs_le
  have hvg : |v| * g ≤ b * (1 + S) - 1 := (mul_le_of_le_one_right (abs_nonneg v) hg₁).trans hv
  have herror : |v * g - V * g| ≤ (b - 1) * (1 + S) := by
    rw [← sub_mul, abs_mul, abs_of_nonneg hg₀]
    exact (mul_le_of_le_one_right (abs_nonneg _) hg₁).trans h.error_le
  constructor
  · have htri := abs_sub_le (nearest (v * g)) (v * g) (V * g)
    have hq := mul_le_mul_of_nonneg_left hvg quantum_pos.le
    have hpos := mul_nonneg quantum_pos.le ((abs_nonneg v).trans hv)
    have := quantum_pos
    linarith
  · rw [abs_mul, abs_of_nonneg hg₀]
    exact (mul_le_of_le_one_right (abs_nonneg V) hg₁).trans h.exact_le

/-- A rounded sum with a computed flow of the given size. -/
theorem Near.add (h : Near v V S b) (hb : 1 ≤ b) {p P c : ℚ} (hv : OnGrid v) (hp : OnGrid p)
    (herror : |p - P| ≤ (b - 1) * c + quantum / 2) (hP : |P| ≤ c) :
    Near (nearest (v + p)) (V + P) (S + c) (b * (1 + 2 * quantum)) := by
  have hround := (hv.add hp).abs_nearest_sub_le
  have hc : 0 ≤ c := (abs_nonneg P).trans hP
  have hsize : |v + p| ≤ b * (1 + S + c) := by
    have hp' : |p| ≤ |p - P| + |P| := by
      have := abs_sub_abs_le_abs_sub p P
      linarith
    have := abs_add_le v p
    have := h.abs_le
    have : quantum ≤ 1 := by norm_num [quantum_eq]
    linarith
  have hsplit : |v + p - (V + P)| ≤ |v - V| + |p - P| := by
    rw [add_sub_add_comm]
    exact abs_add_le _ _
  constructor
  · have htri := abs_sub_le (nearest (v + p)) (v + p) (V + P)
    have hq := mul_le_mul_of_nonneg_left hsize quantum_pos.le
    have hlarge : quantum ≤ quantum * (b * (1 + S + c)) := by
      apply le_mul_of_one_le_right quantum_pos.le
      have hS := h.size_nonneg
      calc (1 : ℚ) ≤ b := hb
        _ ≤ b * (1 + S + c) := le_mul_of_one_le_right (by linarith) (by linarith)
    linarith [h.error_le, quantum_pos]
  · exact (abs_add_le V P).trans (add_le_add h.exact_le hP)

theorem one_le_growth_pow (t : Nat) : 1 ≤ (1 + roundoff) ^ t := one_le_pow₀ (by linarith [roundoff_pos])

/-- The growth of one period covers a product and a sum. -/
theorem growth_le (hb : 0 ≤ b) :
    b * (1 + quantum) * (1 + 2 * quantum) ≤ b * (1 + roundoff) := by
  rw [mul_assoc]
  apply mul_le_mul_of_nonneg_left _ hb
  rw [roundoff_eq, quantum_eq]
  norm_num

end Steps

section Compounded
variable {flows : List Decimal} {growth total out : Decimal} {V S : ℚ} {t : Nat}

/-- Compounding at a growth up to one, from a total that is near the exact one. The factors `b` have room for
a product and a sum in each period. -/
theorem near_compounded {b : Nat → ℚ} (h : compounded growth flows total = some out)
    (hg₀ : 0 ≤ growth.value) (hg₁ : growth.value ≤ 1) (hone : ∀ k, 1 ≤ b k)
    (hroom : ∀ k < t + flows.length, b k * (1 + quantum) * (1 + 2 * quantum) ≤ b (k + 1))
    (hn : Near total.value V S (b t)) :
    Near out.value (compoundedSum growth.value flows V)
      (S + discountedSum 1 (flows.map Decimal.abs) t) (b (t + flows.length)) := by
  induction flows generalizing total V S t with
  | nil =>
    obtain rfl := Option.some.inj h
    simpa [compoundedSum, discountedSum] using hn
  | cons flow rest ih =>
    obtain ⟨product, hproduct, h⟩ := Option.bind_eq_some_iff.mp h
    obtain ⟨next, hnext, h⟩ := Option.bind_eq_some_iff.mp h
    rw [List.length_cons, ← add_assoc, add_right_comm] at hroom ⊢
    have hmul := hn.mul hg₀ hg₁
    rw [← value_mul? hproduct] at hmul
    have hb : 1 ≤ b t * (1 + quantum) := one_le_mul_of_one_le_of_one_le (hone t)
      (by linarith [quantum_pos])
    have hadd := hmul.add hb (p := flow.value) (P := flow.value) (c := |flow.value|)
      (onGrid_value _) (onGrid_value _) (by
        rw [sub_self, abs_zero]
        have := mul_nonneg (sub_nonneg.mpr hb) (abs_nonneg flow.value)
        linarith [quantum_pos]) (le_refl _)
    rw [← value_add? hnext] at hadd
    have hlast := ih h hroom (hadd.mono (hroom t (by omega)))
    rw [compoundedSum, List.map_cons, discountedSum, value_abs, one_pow, mul_one, ← add_assoc S]
    exact hlast

end Compounded

section Discounted
variable {flows rest : List Decimal} {flow inverse discount total slope out : Decimal}
  {i j V S : ℚ} {t : Nat}

theorem discountedFrom_cons :
    discountedFrom inverse (flow :: rest) t discount total = some out ↔
      ∃ factor, (if t = 0 then some discount else discount.mul? inverse) = some factor ∧
        ∃ present, flow.mul? factor = some present ∧ ∃ next, total.add? present = some next ∧
          discountedFrom inverse rest (t + 1) factor next = some out := by
  rw [discountedFrom]
  dsimp only
  split <;> simp only [Option.bind_eq_bind, Option.bind_eq_some_iff]

theorem sumsFrom_cons {r : Decimal × Decimal}
    (h : sumsFrom inverse (flow :: rest) t discount total slope = some r) :
    ∃ factor, (if t = 0 then some discount else discount.mul? inverse) = some factor ∧
      ∃ present, flow.mul? factor = some present ∧ ∃ next, total.add? present = some next ∧
        ∃ slope', (if t = 0 then some slope
            else do slope.sub? (← (← (Decimal.ofNat t).mul? present).mul? inverse)) = some slope' ∧
          sumsFrom inverse rest (t + 1) factor next slope' = some r := by
  rw [sumsFrom] at h
  dsimp only at h
  by_cases ht : t = 0
  · simp only [if_pos ht, Option.bind_eq_bind, Option.bind_eq_some_iff] at h ⊢
    exact h
  · simp only [if_neg ht, Option.bind_eq_bind, Option.bind_eq_some_iff] at h ⊢
    obtain ⟨factor, hfactor, present, hpresent, next, hnext, m, hm, w, hw, slope', hslope, h⟩ := h
    exact ⟨factor, hfactor, present, hpresent, next, hnext, slope', ⟨m, hm, w, hw, hslope⟩, h⟩

/-- The value that Newton's method sees is the discounted sum. -/
theorem discountedFrom_of_sumsFrom {r : Decimal × Decimal}
    (h : sumsFrom inverse flows t discount total slope = some r) :
    discountedFrom inverse flows t discount total = some r.1 := by
  induction flows generalizing t discount total slope with
  | nil =>
    obtain rfl := Option.some.inj h
    rfl
  | cons flow rest ih =>
    obtain ⟨factor, hfactor, present, hpresent, next, hnext, slope', -, h⟩ := sumsFrom_cons h
    exact discountedFrom_cons.mpr ⟨factor, hfactor, present, hpresent, next, hnext, ih h⟩

/-- A computed power of the discount factor `i`; `j` is at least the factor and at least one. -/
def NearPower (i j : ℚ) (t : Nat) (d : ℚ) : Prop :=
  |d - i ^ t| ≤ ((1 + roundoff) ^ t - 1) * j ^ t

theorem NearPower.abs_le (hi : 0 ≤ i) (hij : i ≤ j) {d : ℚ} (h : NearPower i j t d) :
    |d| ≤ (1 + roundoff) ^ t * j ^ t := by
  have htri : |d| ≤ |d - i ^ t| + |i ^ t| := by
    have := abs_sub_abs_le_abs_sub d (i ^ t)
    linarith
  have hpow : |i ^ t| ≤ j ^ t := by
    rw [abs_of_nonneg (pow_nonneg hi t)]
    exact pow_le_pow_left₀ hi hij t
  have h' : |d - i ^ t| ≤ ((1 + roundoff) ^ t - 1) * j ^ t := h
  linarith

theorem NearPower.succ (hi : 0 ≤ i) (hij : i ≤ j) (hj : 1 ≤ j) {d x : ℚ} (h : NearPower i j t d)
    (hx : |x - i| ≤ 2 * quantum * j) : NearPower i j (t + 1) (nearest (d * x)) := by
  have hq := quantum_pos
  have ha := one_le_growth_pow t
  have hjt : 1 ≤ j ^ t := one_le_pow₀ hj
  have hpow : i ^ t ≤ j ^ t := pow_le_pow_left₀ hi hij t
  have hx' : |x| ≤ (1 + 2 * quantum) * j := by
    have := abs_sub_abs_le_abs_sub x i
    rw [abs_of_nonneg hi] at this
    linarith
  have hd := h.abs_le hi hij
  have hprod : |d * x| ≤ (1 + 2 * quantum) * ((1 + roundoff) ^ t * (j ^ t * j)) := by
    rw [abs_mul]
    calc |d| * |x| ≤ ((1 + roundoff) ^ t * j ^ t) * ((1 + 2 * quantum) * j) :=
          mul_le_mul hd hx' (abs_nonneg x) (by positivity)
      _ = (1 + 2 * quantum) * ((1 + roundoff) ^ t * (j ^ t * j)) := by ring
  have herror : |d * x - i ^ t * i|
      ≤ ((1 + roundoff) ^ t * (1 + 2 * quantum) - 1) * (j ^ t * j) := by
    have hsplit : d * x - i ^ t * i = (d - i ^ t) * x + i ^ t * (x - i) := by ring
    have hleft : |(d - i ^ t) * x|
        ≤ ((1 + roundoff) ^ t - 1) * j ^ t * ((1 + 2 * quantum) * j) := by
      rw [abs_mul]
      exact mul_le_mul h hx' (abs_nonneg x) (mul_nonneg (by linarith) (by linarith))
    have hright : |i ^ t * (x - i)| ≤ j ^ t * (2 * quantum * j) := by
      rw [abs_mul, abs_of_nonneg (pow_nonneg hi t)]
      exact mul_le_mul hpow hx (abs_nonneg _) (by linarith)
    rw [hsplit]
    linarith [abs_add_le ((d - i ^ t) * x) (i ^ t * (x - i))]
  have hone : 1 ≤ (1 + roundoff) ^ t * (j ^ t * j) :=
    one_le_mul_of_one_le_of_one_le ha (one_le_mul_of_one_le_of_one_le hjt hj)
  have hround := abs_nearest_sub_le (d * x)
  have htri := abs_sub_le (nearest (d * x)) (d * x) (i ^ t * i)
  rw [NearPower, pow_succ i, pow_succ (1 + roundoff), pow_succ j]
  generalize (1 + roundoff) ^ t = a at *
  generalize j ^ t * j = m at *
  rw [roundoff_eq, quantum_eq] at *
  linarith

/-- The factor of period `t`, from the one of the period before. -/
theorem nearPower_discount (hi : 0 ≤ i) (hij : i ≤ j) (hj : 1 ≤ j)
    (hx : |inverse.value - i| ≤ 2 * quantum * j) (hd : NearPower i j (t - 1) discount.value)
    {next : Decimal} (h : (if t = 0 then some discount else discount.mul? inverse) = some next) :
    NearPower i j t next.value := by
  cases t with
  | zero =>
    obtain rfl := Option.some.inj h
    exact hd
  | succ t =>
    rw [value_mul? h]
    exact hd.succ hi hij hj hx

/-- The present value of one flow. -/
theorem abs_present_sub_le (hi : 0 ≤ i) (hij : i ≤ j) (hj : 0 ≤ j)
    (hd : NearPower i j t discount.value) (flow : Decimal) :
    |nearest (flow.value * discount.value) - flow.value * i ^ t|
      ≤ ((1 + roundoff) ^ t * (1 + quantum) - 1) * (|flow.value| * j ^ t) + quantum / 2 := by
  have hround := abs_nearest_sub_le (flow.value * discount.value)
  have hflow := abs_nonneg flow.value
  have hsize : |flow.value * discount.value| ≤ (1 + roundoff) ^ t * (|flow.value| * j ^ t) := by
    rw [abs_mul]
    linarith [mul_le_mul_of_nonneg_left (hd.abs_le hi hij) hflow]
  have herror : |flow.value * discount.value - flow.value * i ^ t|
      ≤ ((1 + roundoff) ^ t - 1) * (|flow.value| * j ^ t) := by
    rw [← mul_sub, abs_mul]
    linarith [mul_le_mul_of_nonneg_left hd hflow]
  have htri := abs_sub_le (nearest (flow.value * discount.value)) (flow.value * discount.value)
    (flow.value * i ^ t)
  have hq := mul_le_mul_of_nonneg_left hsize quantum_pos.le
  have hpos : 0 ≤ quantum * ((1 + roundoff) ^ t * (|flow.value| * j ^ t)) := by
    have := quantum_pos
    have := roundoff_pos
    positivity
  linarith

/-- Discounting, from a total and a factor that are near the exact ones. -/
theorem near_discounted (hi : 0 ≤ i) (hij : i ≤ j) (hj : 1 ≤ j)
    (hx : |inverse.value - i| ≤ 2 * quantum * j)
    (h : discountedFrom inverse flows t discount total = some out)
    (hd : NearPower i j (t - 1) discount.value) (hn : Near total.value V S ((1 + roundoff) ^ t)) :
    Near out.value (V + discountedSum i flows t)
      (S + discountedSum j (flows.map Decimal.abs) t) ((1 + roundoff) ^ (t + flows.length)) := by
  induction flows generalizing discount total V S t with
  | nil =>
    obtain rfl := Option.some.inj h
    simpa [discountedSum] using hn
  | cons flow rest ih =>
    obtain ⟨factor, hfactor, present, hpresent, next, hnext, h⟩ := discountedFrom_cons.mp h
    have hb := one_le_growth_pow t
    have hb' : 1 ≤ (1 + roundoff) ^ t * (1 + quantum) := one_le_mul_of_one_le_of_one_le hb
      (by linarith [quantum_pos])
    have hpower := nearPower_discount hi hij hj hx hd hfactor
    have herror := abs_present_sub_le hi hij (by linarith) hpower flow
    rw [← value_mul? hpresent] at herror
    have hsize : |flow.value * i ^ t| ≤ |flow.value| * j ^ t := by
      rw [abs_mul, abs_of_nonneg (pow_nonneg hi t)]
      exact mul_le_mul_of_nonneg_left (pow_le_pow_left₀ hi hij t) (abs_nonneg _)
    have hstart : Near total.value V S ((1 + roundoff) ^ t * (1 + quantum)) :=
      hn.mono (le_mul_of_one_le_right (by linarith) (by linarith [quantum_pos]))
    have hadd := hstart.add hb' (onGrid_value _) (onGrid_value _) herror hsize
    rw [← value_add? hnext] at hadd
    have hlast := ih h hpower (hadd.mono ((growth_le (by linarith)).trans (pow_succ _ _).ge))
    rw [List.length_cons, List.map_cons, discountedSum, discountedSum, value_abs, ← add_assoc V,
      ← add_assoc S, show t + (rest.length + 1) = t + 1 + rest.length by omega]
    exact hlast

end Discounted

/-- What the rounding of a sum over the flows can come to, under a discount factor. -/
def roundingSlack (flows : List Decimal) (i : ℚ) : ℚ :=
  ((1 + 1 / 10 ^ 27) ^ flows.length - 1) * (1 + weight flows (max 1 i))

section Rates
variable {flows : List Decimal} {rate growth inverse v slope : Decimal}

theorem near_zero : Near Decimal.zero.value 0 0 ((1 + roundoff) ^ 0) := by
  constructor <;> simp

theorem growth_grid (rate : Decimal) : OnGrid (1 + rate.value) := by
  rw [← value_one]
  exact (onGrid_value _).add (onGrid_value _)

theorem growth_eq_of_neg (hlow : -99 / 100 ≤ rate.value) (hneg : rate.value < 0)
    (hg : Decimal.one.add rate = .ok growth) : growth.value = 1 + rate.value := by
  have hgrowth := value_add hg
  rw [value_one] at hgrowth
  refine hgrowth.trans ((growth_grid rate).nearest_eq ?_)
  rw [abs_of_nonneg (by linarith)]
  linarith

theorem growth_lt_one_iff (hlow : -99 / 100 ≤ rate.value) (hg : Decimal.one.add rate = .ok growth) :
    growth.value < 1 ↔ rate.value < 0 := by
  constructor
  · intro hlt
    by_contra hge
    have := value_le_nearest (a := .one) (x := 1 + rate.value) (by
      rw [value_one]
      linarith [Rat.not_lt.mp hge])
    rw [← value_one, ← value_add hg, value_one] at this
    linarith
  · intro hneg
    linarith [growth_eq_of_neg hlow hneg hg]

theorem abs_inverse_sub_le (hlow : -99 / 100 ≤ rate.value)
    (hg : Decimal.one.add rate = .ok growth) (hinv : Decimal.one.div? growth = some inverse) :
    |inverse.value - 1 / (1 + rate.value)| ≤ 2 * quantum * max 1 (1 / (1 + rate.value)) := by
  have hpos : 0 < 1 + rate.value := by linarith
  have hgrid := growth_grid rate
  have hgrowth := value_add hg
  rw [value_one] at hgrowth
  have hround := abs_le.mp hgrid.abs_nearest_sub_le
  rw [← hgrowth, abs_of_pos hpos] at hround
  have hgpos : 0 < growth.value := hgrowth ▸ hgrid.nearest_pos hpos
  have hexact : |1 / growth.value - 1 / (1 + rate.value)|
      ≤ 13 / 20 * quantum * (1 / (1 + rate.value)) := by
    have hsplit : 1 / growth.value - 1 / (1 + rate.value)
        = (1 + rate.value - growth.value) / growth.value * (1 / (1 + rate.value)) := by
      field_simp
    rw [hsplit, abs_mul, abs_of_pos (one_div_pos.mpr hpos)]
    apply mul_le_mul_of_nonneg_right _ (one_div_pos.mpr hpos).le
    rw [abs_div, abs_of_pos hgpos, div_le_iff₀ hgpos, abs_le]
    rw [quantum_eq] at *
    constructor <;> linarith [hround.1, hround.2]
  have hinverse := abs_nearest_sub_le (1 / growth.value)
  rw [← value_one, ← (value_div? hinv).2, value_one, abs_of_pos (one_div_pos.mpr hgpos)]
    at hinverse
  have hmax₁ := le_max_left 1 (1 / (1 + rate.value))
  have hmax₂ := le_max_right 1 (1 / (1 + rate.value))
  have h₁ := abs_le.mp hexact
  have h₂ := abs_le.mp hinverse
  rw [quantum_eq] at *
  rw [abs_le]
  constructor <;> linarith [h₁.1, h₁.2, h₂.1, h₂.2]

/-- The value that Newton's method accepts a rate by. -/
theorem abs_value_sub_le (hlow : -99 / 100 ≤ rate.value)
    (h : valueAndSlope flows rate = .ok (some (v, slope))) :
    |v.value - netPresentValue flows rate.value| ≤ roundingSlack flows (1 / (1 + rate.value)) := by
  obtain ⟨growth, hg, h⟩ := bind_eq_ok.mp h
  obtain ⟨inverse, hinv, h⟩ := Option.bind_eq_some_iff.mp (pure_eq_ok.mp h)
  have hi : 0 ≤ 1 / (1 + rate.value) := (one_div_pos.mpr (by linarith)).le
  have hnear := near_discounted hi (le_max_right 1 _) (le_max_left 1 _)
    (abs_inverse_sub_le hlow hg hinv) (discountedFrom_of_sumsFrom h) (t := 0)
    (by simp [NearPower]) near_zero
  have herror := hnear.error_le
  rwa [zero_add, zero_add, zero_add, ← netPresentValue_eq, ← weight_eq] at herror

/-- The value whose sign guides the bisection. -/
theorem abs_scaledValue_sub_le (hne : flows ≠ []) (hlow : -99 / 100 ≤ rate.value)
    (h : scaledValue flows rate = .ok (some v)) :
    |v.value - min 1 (1 + rate.value) ^ (flows.length - 1) * netPresentValue flows rate.value|
      ≤ roundingSlack flows 1 := by
  obtain ⟨growth, hg, h⟩ := bind_eq_ok.mp h
  have h := pure_eq_ok.mp h
  have hmax : max (1 : ℚ) 1 = 1 := max_self 1
  split_ifs at h with hzero hone
  · rw [lt_iff_value_lt, value_one] at hone
    have hneg := (growth_lt_one_iff hlow hg).mp hone
    have hself := growth_eq_of_neg hlow hneg hg
    have hnear := near_compounded h (t := 0) (b := fun k => (1 + roundoff) ^ k) (by linarith) hone.le
      one_le_growth_pow (fun k _ => (growth_le (by linarith [one_le_growth_pow k])).trans (pow_succ _ _).ge)
      near_zero
    have herror := hnear.error_le
    rw [zero_add, zero_add, hself, compoundedSum_eq hne (by linarith), ← weight_eq] at herror
    rwa [min_eq_right (by linarith), roundingSlack, hmax]
  · rw [lt_iff_value_lt, value_one] at hone
    have hge : 0 ≤ rate.value := Rat.not_lt.mp (mt (growth_lt_one_iff hlow hg).mpr hone)
    obtain ⟨inverse, hinv, h⟩ := Option.bind_eq_some_iff.mp h
    have hi : 0 ≤ 1 / (1 + rate.value) := (one_div_pos.mpr (by linarith)).le
    have hi₁ : 1 / (1 + rate.value) ≤ 1 := div_le_one_of_le₀ (by linarith) (by linarith)
    have hinverse := abs_inverse_sub_le hlow hg hinv
    rw [max_eq_left hi₁] at hinverse
    have hnear := near_discounted hi hi₁ (le_refl 1) hinverse h (t := 0) (by simp [NearPower])
      near_zero
    have herror := hnear.error_le
    rw [zero_add, zero_add, zero_add, ← netPresentValue_eq, ← weight_eq] at herror
    rwa [min_eq_left (by linarith), one_pow, one_mul, roundingSlack, hmax]

end Rates

end PropertyFinance.Yield
