import PropertyFinance.Proofs.CashFlow.Bisection

/-! The shape of the solver's answers. On series that are not too long or too large the sums that guide
the bisection exist at every rate, since a factor between zero and one enlarges nothing and an addition
enlarges the total by its rounding only. So the bisection finds a rate just when there is a bracket. -/

namespace PropertyFinance.Yield
open Decimal
set_option autoImplicit false

variable {flows rest : List Decimal} {flow total next growth inverse discount : Decimal} {x : ℚ}

/-- The sizes of the flows, added up. -/
def magnitude (flows : List Decimal) : ℚ := (flows.map fun flow => |flow.value|).sum

theorem magnitude_cons (flow : Decimal) (rest : List Decimal) :
    magnitude (flow :: rest) = |flow.value| + magnitude rest := by
  rw [magnitude, List.map_cons, List.sum_cons, magnitude]

theorem magnitude_nonneg (flows : List Decimal) : 0 ≤ magnitude flows := by
  induction flows with
  | nil => exact le_refl _
  | cons flow rest ih =>
    rw [magnitude_cons]
    linarith [abs_nonneg flow.value]

/-- The total and the flows still to come are far from the capacity, however often they are rounded. -/
def Room (total : Decimal) (flows : List Decimal) : Prop :=
  (|total.value| + magnitude flows) * (1 + quantum) ^ flows.length ≤ 10 ^ 28

theorem Room.sum_le (h : Room total (flow :: rest)) :
    |total.value| + |flow.value| ≤ 10 ^ 28 := by
  have hmore := magnitude_nonneg rest
  have hpow : (1 : ℚ) ≤ (1 + quantum) ^ (flow :: rest).length :=
    one_le_pow₀ (by linarith [quantum_pos])
  have hsum : 0 ≤ |total.value| + magnitude (flow :: rest) :=
    add_nonneg (abs_nonneg _) (magnitude_nonneg _)
  rw [Room] at h
  have hle := (le_mul_of_one_le_right hsum hpow).trans h
  rw [magnitude_cons] at hle
  linarith

theorem Room.step (h : Room total (flow :: rest)) (hgrid : OnGrid x)
    (hx : |x| ≤ |total.value| + |flow.value|) (hnext : next.value = nearest x) : Room next rest := by
  have hround := hgrid.abs_nearest_sub_le
  rw [← hnext] at hround
  have hsize : |next.value| ≤ (|total.value| + |flow.value|) * (1 + quantum) := by
    have htri := abs_sub_abs_le_abs_sub next.value x
    have hq := mul_le_mul_of_nonneg_left hx quantum_pos.le
    linarith [mul_nonneg quantum_pos.le (abs_nonneg x)]
  have hmore := magnitude_nonneg rest
  have hpow : (0 : ℚ) ≤ (1 + quantum) ^ rest.length := by
    have := quantum_pos
    positivity
  rw [Room, magnitude_cons, List.length_cons, pow_succ', ← mul_assoc] at h
  refine le_trans (mul_le_mul_of_nonneg_right ?_ hpow) h
  linarith [mul_nonneg hmore quantum_pos.le]

theorem abs_nearest_mul_le (a : Decimal) (h₀ : 0 ≤ x) (h₁ : x ≤ 1) :
    |nearest (a.value * x)| ≤ |a.value| := by
  rw [abs_nearest, ← value_abs a]
  apply nearest_le_value
  rw [value_abs, abs_mul, abs_of_nonneg h₀]
  exact mul_le_of_le_one_right (abs_nonneg _) h₁

theorem mul?_unit_isSome (a : Decimal) {b : Decimal} (h₀ : 0 ≤ b.value) (h₁ : b.value ≤ 1)
    (ha : |a.value| ≤ 10 ^ 28) :
    ∃ c, a.mul? b = some c ∧ c.value = nearest (a.value * b.value) ∧ |c.value| ≤ |a.value| := by
  obtain ⟨c, hc⟩ : ∃ c, a.mul? b = some c := by
    apply mul?_isSome
    apply fits_of_abs_le
    rw [abs_mul, abs_of_nonneg h₀]
    exact (mul_le_of_le_one_right (abs_nonneg _) h₁).trans ha
  refine ⟨c, hc, value_mul? hc, ?_⟩
  rw [value_mul? hc]
  exact abs_nearest_mul_le a h₀ h₁

theorem Room.add?_isSome (h : Room total (flow :: rest)) {a b : Decimal}
    (ha : |a.value| ≤ |total.value|) (hb : |b.value| ≤ |flow.value|) :
    ∃ next, a.add? b = some next ∧ Room next rest := by
  have hsum : |a.value + b.value| ≤ |total.value| + |flow.value| :=
    (abs_add_le _ _).trans (add_le_add ha hb)
  obtain ⟨next, hnext⟩ := Decimal.add?_isSome (fits_of_abs_le (hsum.trans h.sum_le))
  exact ⟨next, hnext, h.step ((onGrid_value a).add (onGrid_value b)) hsum (value_add? hnext)⟩

theorem compounded_isSome (h₀ : 0 ≤ growth.value) (h₁ : growth.value ≤ 1) (h : Room total flows) :
    ∃ out, compounded growth flows total = some out := by
  induction flows generalizing total with
  | nil => exact ⟨total, rfl⟩
  | cons flow rest ih =>
    have hroom := h.sum_le
    obtain ⟨product, hproduct, -, hle⟩ :=
      mul?_unit_isSome total h₀ h₁ (by linarith [abs_nonneg flow.value])
    obtain ⟨next, hnext, hrest⟩ := h.add?_isSome hle (le_refl _)
    obtain ⟨out, hout⟩ := ih hrest
    refine ⟨out, ?_⟩
    rw [compounded, hproduct, Option.bind_eq_bind, Option.bind_some, hnext, Option.bind_some, hout]

theorem discounted_isSome (h₀ : 0 ≤ inverse.value) (h₁ : inverse.value ≤ 1) {t : Nat}
    (hd₀ : 0 ≤ discount.value) (hd₁ : discount.value ≤ 1) (h : Room total flows) :
    ∃ out, discountedFrom inverse flows t discount total = some out := by
  induction flows generalizing total discount t with
  | nil => exact ⟨total, rfl⟩
  | cons flow rest ih =>
    have hroom := h.sum_le
    obtain ⟨factor, hfactor, hf₀, hf₁⟩ : ∃ factor : Decimal,
        (if t = 0 then some discount else discount.mul? inverse) = some factor ∧
          0 ≤ factor.value ∧ factor.value ≤ 1 := by
      split
      case isTrue => exact ⟨discount, rfl, hd₀, hd₁⟩
      case isFalse =>
        obtain ⟨c, hc, hvalue, hle⟩ := mul?_unit_isSome discount h₀ h₁ (by
          rw [abs_of_nonneg hd₀]
          linarith)
        have hc₀ : 0 ≤ c.value := hvalue ▸ nearest_nonneg (mul_nonneg hd₀ h₀)
        rw [abs_of_nonneg hc₀, abs_of_nonneg hd₀] at hle
        exact ⟨c, hc, hc₀, hle.trans hd₁⟩
    obtain ⟨present, hpresent, -, hle⟩ :=
      mul?_unit_isSome flow hf₀ hf₁ (by linarith [abs_nonneg total.value])
    obtain ⟨next, hnext, hrest⟩ := h.add?_isSome (le_refl _) hle
    obtain ⟨out, hout⟩ := ih hf₀ hf₁ hrest
    exact ⟨out, discountedFrom_cons.mpr ⟨factor, hfactor, present, hpresent, next, hnext, hout⟩⟩

/-- Fewer than `2 ^ 32` roundings do not double anything. -/
theorem growth_of_quantum_le {n : Nat} (hn : n < 2 ^ 32) : (1 + quantum) ^ n ≤ 2 := by
  have hn' : (n : ℚ) * quantum ≤ 1 / 2 := by
    have : (n : ℚ) < 2 ^ 32 := by exact_mod_cast hn
    rw [quantum_eq]
    linarith
  have hbernoulli := one_add_mul_le_pow (a := -quantum) (by rw [quantum_eq]; norm_num) n
  have hhalf : 1 / 2 ≤ (1 - quantum) ^ n := by
    rw [← sub_eq_add_neg] at hbernoulli
    linarith
  have hprod : (1 + quantum) ^ n * (1 - quantum) ^ n ≤ 1 := by
    rw [← mul_pow]
    apply pow_le_one₀ <;> rw [quantum_eq] <;> norm_num
  have hpos : 0 < (1 + quantum) ^ n := by
    have := quantum_pos
    positivity
  linarith [mul_le_mul_of_nonneg_left hhalf hpos.le]

theorem room_start (hlen : flows.length < 2 ^ 32) (hsize : magnitude flows ≤ 10 ^ 27) :
    Room .zero flows := by
  have := mul_le_mul hsize (growth_of_quantum_le hlen) (by
    have := quantum_pos
    positivity) (by norm_num)
  rw [Room, value_zero, abs_zero, zero_add]
  linarith

theorem scaledValue_isSome {rate : Decimal} (hlen : flows.length < 2 ^ 32)
    (hsize : magnitude flows ≤ 10 ^ 27) (hgrowth : Decimal.one.add rate = .ok growth)
    (hpos : 0 < growth.value) : ∃ v, scaledValue flows rate = .ok (some v) := by
  have hroom := room_start hlen hsize
  rw [scaledValue, hgrowth, ok_bind, if_neg (not_le_zero_iff.mpr hpos)]
  split
  case isTrue hlt =>
    rw [lt_iff_value_lt, value_one] at hlt
    obtain ⟨out, hout⟩ := compounded_isSome hpos.le hlt.le hroom
    exact ⟨out, congrArg _ hout⟩
  case isFalse hge =>
    rw [lt_iff_value_lt, value_one, Rat.not_lt] at hge
    have hquot : 1 / growth.value ≤ 1 := div_le_one_of_le₀ hge hpos.le
    have hquot₀ : 0 ≤ 1 / growth.value := (one_div_pos.mpr hpos).le
    obtain ⟨inverse, hinverse⟩ : ∃ c, Decimal.one.div? growth = some c := by
      apply div?_isSome hpos.ne'
      apply fits_of_abs_le
      rw [value_one, abs_of_nonneg hquot₀]
      linarith
    have hvalue := (value_div? hinverse).2
    rw [value_one] at hvalue
    have hinv₀ : 0 ≤ inverse.value := hvalue ▸ nearest_nonneg hquot₀
    have hinv₁ : inverse.value ≤ 1 := by
      rw [hvalue, ← value_one]
      exact nearest_le_value (by rwa [value_one])
    obtain ⟨out, hout⟩ := discounted_isSome hinv₀ hinv₁ (t := 0)
      (zero_le_one.trans value_one.ge) value_one.le hroom
    refine ⟨out, ?_⟩
    rw [hinverse]
    exact congrArg _ hout

section Solve
variable {options : YieldOptions} {s : Yield} {result : Option Yield}

/-- What an answer says about how it was found. -/
structure Shape (flows : List Decimal) (options : YieldOptions) (s : Yield) : Prop where
  rate_ge : -99 / 100 ≤ s.rate.value
  rate_le : s.rate.value ≤ 100
  converged_iff : s.converged = true ↔ s.method ≠ .bestEffort
  of_newton : s.method = .newtonRaphson →
    1 ≤ s.iterations ∧ s.iterations ≤ options.maxIterations.toNat ∧
      Accepts flows options.tolerance s.rate
  of_bisection : s.method = .bisection →
    s.rate.value ≤ 10 ∧ s.iterations ≤ 45 ∧ SignsDiffer flows
  of_bestEffort : s.method = .bestEffort →
    ¬ SignsDiffer flows ∨ ∃ rate, OverflowsAt flows rate

theorem changesSign_eq_false_iff :
    changesSign flows = false ↔
      (∀ flow ∈ flows, flow.value ≤ 0) ∨ ∀ flow ∈ flows, 0 ≤ flow.value := by
  rw [changesSign, Bool.and_eq_false_iff, List.any_eq_false, List.any_eq_false]
  simp only [decide_eq_true_eq, zero_lt_iff, not_lt_zero_iff, Rat.not_lt]

theorem solve_eq_none_iff (h : solve flows options = .ok result) :
    result = none ↔ changesSign flows = false := by
  unfold solve at h
  split at h
  case isFalse hsign =>
    obtain rfl := pure_eq_ok.mp h
    exact ⟨fun _ => Bool.eq_false_of_not_eq_true hsign, fun _ => rfl⟩
  case isTrue hsign =>
    rw [hsign]
    refine ⟨fun hnone => ?_, fun hfalse => nomatch hfalse⟩
    obtain ⟨descent, -, h⟩ := bind_eq_ok.mp h
    cases descent with
    | root rate iterations => exact nomatch (pure_eq_ok.mp h).trans hnone
    | stalled rate iterations =>
      obtain ⟨found, -, h⟩ := bind_eq_ok.mp h
      cases found with
      | none => exact nomatch (pure_eq_ok.mp h).trans hnone
      | some s => exact nomatch (pure_eq_ok.mp h).trans hnone

theorem solve_shape (h : solve flows options = .ok (some s)) : Shape flows options s := by
  unfold solve at h
  split at h
  case isFalse => exact nomatch pure_eq_ok.mp h
  case isTrue =>
    obtain ⟨descent, hdescent, h⟩ := bind_eq_ok.mp h
    have hlow := clamp_ge options.guess
    have hhigh := clamp_le options.guess
    cases descent with
    | root rate iterations =>
      cases h
      obtain ⟨hge, haccepts⟩ := newton_root hdescent hlow
      obtain ⟨hle, hpos, hcap⟩ := newton_root_bounds hlow hhigh hdescent
      rw [Nat.zero_add] at hcap
      exact ⟨hge, hle, by simp, fun _ => ⟨hpos, hcap, haccepts⟩, nofun, nofun⟩
    | stalled rate iterations =>
      obtain ⟨found, hfound, h⟩ := bind_eq_ok.mp h
      obtain ⟨hge, hle⟩ := newton_stalled_rate hlow hhigh hdescent
      rcases bisect_ends flows options.tolerance with
        ⟨t, ht, hbisected, hsigns⟩ | ⟨hnone, hwhy⟩
      · cases hfound.symm.trans ht
        cases h
        refine ⟨hbisected.rate_ge, by linarith [hbisected.rate_le], ?_, ?_, ?_, ?_⟩
        · rw [hbisected.converged_eq, hbisected.method_eq]
          simp
        · intro hmethod
          exact nomatch hmethod.symm.trans hbisected.method_eq
        · intro _
          exact ⟨hbisected.rate_le, hbisected.iterations_le, hsigns⟩
        · intro hmethod
          exact nomatch hmethod.symm.trans hbisected.method_eq
      · cases hfound.symm.trans hnone
        cases h
        exact ⟨hge, hle, by simp, nofun, nofun, fun _ => hwhy⟩

theorem not_overflowsAt (hlen : flows.length < 2 ^ 32) (hsize : magnitude flows ≤ 10 ^ 27) :
    ¬ ∃ rate, OverflowsAt flows rate := by
  rintro ⟨rate, hlow, hhigh, hnone⟩
  obtain ⟨growth, hgrowth⟩ := growth_isOk hlow (by linarith)
  have hpos : 0 < growth.value := by
    rw [value_add hgrowth]
    apply ((onGrid_value _).add (onGrid_value _)).nearest_pos
    rw [value_one]
    linarith
  obtain ⟨v, hv⟩ := scaledValue_isSome hlen hsize hgrowth hpos
  exact nomatch hnone.symm.trans hv

/-- The whole of what the solver promises. Where the signs at the ends of the bracket differ, 45 steps
of the bisection are enough, so the cap on them is never reached. -/
theorem solve_complete (hlen : flows.length < 2 ^ 32) (hsize : magnitude flows ≤ 10 ^ 27)
    (h : solve flows options = .ok result) :
    (result = none ↔ (∀ flow ∈ flows, flow.value ≤ 0) ∨ ∀ flow ∈ flows, 0 ≤ flow.value) ∧
    (∀ s, result = some s → Shape flows options s) ∧
    (∀ rate growth, Decimal.one.add rate = .ok growth → 0 < growth.value →
      ∃ v, scaledValue flows rate = .ok (some v)) ∧
    ∃ low high, scaledValue flows floorRate = .ok (some low) ∧
      scaledValue flows bracketTop = .ok (some high) ∧
      (low.negative ≠ high.negative →
        (∀ s, result = some s → s.method ≠ .bestEffort) ∧
        ∀ cap ≥ 45, ∃ s, narrow flows options.tolerance low.negative cap 0 floorRate bracketTop
          = .ok (some s)) ∧
      (low.negative = high.negative → ∀ s, result = some s → s.method ≠ .bisection) := by
  have hover := not_overflowsAt hlen hsize
  have hshape : ∀ s, result = some s → Shape flows options s := by
    rintro s rfl
    exact solve_shape h
  have hsums {rate : Decimal} (hlow : -99 / 100 ≤ rate.value) (hhigh : rate.value ≤ 10) :
      ∃ v, scaledValue flows rate = .ok (some v) := by
    obtain ⟨sum, hsum⟩ := scaledValue_isOk flows hlow (by linarith)
    cases sum with
    | none => exact absurd ⟨rate, hlow, hhigh, hsum⟩ hover
    | some v => exact ⟨v, hsum⟩
  obtain ⟨low, hlow⟩ := hsums value_floorRate.ge (by rw [value_floorRate]; norm_num)
  obtain ⟨high, hhigh⟩ := hsums (by rw [value_bracketTop]; norm_num) value_bracketTop.le
  have hsigns : SignsDiffer flows ↔ low.negative ≠ high.negative := by
    constructor
    · rintro ⟨v, w, hv, hw, hne⟩
      cases hlow.symm.trans hv
      cases hhigh.symm.trans hw
      exact hne
    · intro hne
      exact ⟨low, high, hlow, hhigh, hne⟩
  refine ⟨(solve_eq_none_iff h).trans changesSign_eq_false_iff, hshape,
    fun rate growth => scaledValue_isSome hlen hsize, low, high, hlow, hhigh,
    fun hdiff => ⟨?_, ?_⟩, ?_⟩
  · intro s hs hmethod
    rcases (hshape s hs).of_bestEffort hmethod with hsame | hoverflow
    · exact hsame (hsigns.mpr hdiff)
    · exact hover hoverflow
  · intro cap hcap
    rcases narrow_ends options.tolerance (bracket_start hlow hhigh hdiff) halved_start
        (by decide) (by omega : 44 < cap + 0) with ⟨s, hs, -⟩ | ⟨-, middle, hmiddle⟩
    · exact ⟨s, hs⟩
    · exact absurd ⟨middle, hmiddle⟩ hover
  · intro hsame s hs hmethod
    exact hsigns.mp ((hshape s hs).of_bisection hmethod).2.2 hsame

/-- A loan that is paid back with interest in two instalments. -/
theorem solve_complete_two_instalments :
    ∃ s, solve [.ofScaled (-100) 0, .ofScaled 60 0, .ofScaled 60 0] defaults = .ok (some s) ∧
      Shape [.ofScaled (-100) 0, .ofScaled 60 0, .ofScaled 60 0] defaults s := by
  obtain ⟨found, h, hfound⟩ := exists_of_any (x := solve
    [.ofScaled (-100) 0, .ofScaled 60 0, .ofScaled 60 0] defaults)
    (p := Option.isSome) (by decide +kernel)
  obtain ⟨s, rfl⟩ := Option.isSome_iff_exists.mp hfound
  have hsize : magnitude [.ofScaled (-100) 0, .ofScaled 60 0, .ofScaled 60 0] ≤ 10 ^ 27 := by
    rw [magnitude_cons, magnitude_cons, magnitude_cons, value_ofScaled (by decide) (by decide),
      value_ofScaled (by decide) (by decide)]
    norm_num [magnitude]
  exact ⟨s, h, (solve_complete (by decide) hsize h).2.1 s rfl⟩

end Solve

end PropertyFinance.Yield
