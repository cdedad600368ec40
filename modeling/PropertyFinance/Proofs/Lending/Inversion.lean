import PropertyFinance.Proofs.Lending.Annuity

/-! The principal for a payment undoes the payment for a principal. The computed growth may be far from
the exact one, but it stands in both formulas and cancels. What is left are the six roundings on the way
there and back, and each of them is relative, because nothing on the way is below a millionth. -/

namespace PropertyFinance.Loan
open Decimal
set_option autoImplicit false

section Close
variable {x y z a b : ℚ} {j k : Nat}

/-- Positive numbers that `k` roundings can make of one another. -/
structure Close (k : Nat) (x y : ℚ) : Prop where
  pos : 0 < x
  le : x ≤ drift ^ k * y
  ge : y ≤ drift ^ k * x

theorem drift_pow_pos (k : Nat) : 0 < drift ^ k := zero_lt_one.trans_le (one_le_drift_pow k)

theorem Close.pos' (h : Close k x y) : 0 < y :=
  pos_of_mul_pos_right (h.pos.trans_le h.le) (drift_pow_pos k).le

theorem Close.trans (h : Close j x y) (h' : Close k y z) : Close (j + k) x z := by
  refine ⟨h.pos, ?_, ?_⟩
  · calc x ≤ drift ^ j * y := h.le
      _ ≤ drift ^ j * (drift ^ k * z) := mul_le_mul_of_nonneg_left h'.le (drift_pow_pos j).le
      _ = drift ^ (j + k) * z := by rw [pow_add, mul_assoc]
  · calc z ≤ drift ^ k * y := h'.ge
      _ ≤ drift ^ k * (drift ^ j * x) := mul_le_mul_of_nonneg_left h.ge (drift_pow_pos k).le
      _ = drift ^ (j + k) * x := by rw [← mul_assoc, ← pow_add, add_comm]

theorem Close.mono (h : Close j x y) (hjk : j ≤ k) : Close k x y := by
  have hpow : drift ^ j ≤ drift ^ k := pow_le_pow_right₀ (by norm_num [drift]) hjk
  refine ⟨h.pos, h.le.trans ?_, h.ge.trans ?_⟩
  · exact mul_le_mul_of_nonneg_right hpow h.pos'.le
  · exact mul_le_mul_of_nonneg_right hpow h.pos.le

theorem Close.mul_right (h : Close k x y) (ha : 0 < a) : Close k (x * a) (y * a) := by
  refine ⟨mul_pos h.pos ha, ?_, ?_⟩ <;> rw [← mul_assoc] <;> apply mul_le_mul_of_nonneg_right _ ha.le
  · exact h.le
  · exact h.ge

theorem Close.div_right (h : Close k x y) (ha : 0 < a) : Close k (x / a) (y / a) := by
  rw [div_eq_mul_inv, div_eq_mul_inv]
  exact h.mul_right (inv_pos.mpr ha)

theorem Close.div (h : Close j x y) (hab : Close k a b) : Close (j + k) (x / a) (y / b) := by
  -- a divisor `k` roundings away moves the quotient as far
  have hquotient : Close k (y / a) (y / b) := by
    refine ⟨div_pos h.pos' hab.pos, ?_, ?_⟩ <;> rw [← mul_div_assoc]
    · rw [div_le_div_iff₀ hab.pos hab.pos', mul_right_comm, mul_comm y]
      exact mul_le_mul_of_nonneg_right hab.ge h.pos'.le
    · rw [div_le_div_iff₀ hab.pos' hab.pos, mul_right_comm, mul_comm y]
      exact mul_le_mul_of_nonneg_right hab.le h.pos'.le
  exact (h.div_right hab.pos).trans hquotient

theorem close_nearest (hx : 9 / 10 ^ 7 ≤ x) : Close 1 (nearest x) x := by
  have hround := abs_le.mp (abs_nearest_sub_le_drift hx)
  refine ⟨by linarith, ?_, ?_⟩
  · rw [pow_one, drift]
    linarith
  · rw [pow_one]
    exact le_drift_nearest hx

/-- One rounding more, of a number that is not far below a millionth. -/
theorem Close.nearest (h : Close k x y) (hk : k ≤ 5) (hy : 1 / 10 ^ 6 ≤ y) :
    Close (k + 1) (nearest x) y := by
  have hpow : drift ^ k ≤ drift ^ 5 := pow_le_pow_right₀ (by norm_num [drift]) hk
  have hdrift : drift ^ 5 ≤ 10 / 9 := by norm_num [drift]
  have hge := h.ge.trans (mul_le_mul_of_nonneg_right (hpow.trans hdrift) h.pos.le)
  rw [add_comm]
  exact (close_nearest (by linarith)).trans h

theorem Close.abs_sub_le (h : Close 6 x y) : |x - y| ≤ 1 / 10 ^ 20 * y := by
  have hy := h.pos'
  have hle := h.le
  have hge := h.ge
  have hdrift : drift ^ 6 ≤ 1 + 1 / 10 ^ 21 := by norm_num [drift]
  have hle' := hle.trans (mul_le_mul_of_nonneg_right hdrift hy.le)
  have hge' := hge.trans (mul_le_mul_of_nonneg_right hdrift h.pos.le)
  rw [abs_le]
  constructor <;> linarith

end Close

section RoundTrip
variable {rate : Decimal} {months : Nat} {p r c g y z : ℚ}

/-- There and back at interest, with any gain `g` in both formulas that is not above the growth `c`. -/
theorem close_carried (hp : 1 ≤ p) (hr : 1 / 10 ^ 6 ≤ r) (hc : 1 ≤ c) (hg : 0 < g) (hgc : g ≤ c) :
    Close 6 (nearest (nearest (nearest (nearest (nearest (p * r) * c) / g) * g) / nearest (r * c))) p := by
  have hinterest : 1 / 10 ^ 6 ≤ p * r := hr.trans (le_mul_of_one_le_left (by linarith) hp)
  have hgrown : 1 / 10 ^ 6 ≤ p * r * c := hinterest.trans (le_mul_of_one_le_right (by linarith) hc)
  have hpaid : 1 / 10 ^ 6 ≤ p * r * c / g := by
    rw [le_div_iff₀ hg]
    exact mul_le_mul hinterest hgc hg.le (by linarith)
  have hrate : 1 / 10 ^ 6 ≤ r * c := hr.trans (le_mul_of_one_le_right (by linarith) hc)
  have h₁ : Close 1 (nearest (p * r)) (p * r) := close_nearest (by linarith)
  have h₂ : Close 2 (nearest (nearest (p * r) * c)) (p * r * c) :=
    (h₁.mul_right (by linarith)).nearest (by norm_num) hgrown
  have h₃ : Close 3 (nearest (nearest (nearest (p * r) * c) / g)) (p * r * c / g) :=
    (h₂.div_right hg).nearest (by norm_num) hpaid
  have h₄ : Close 4 (nearest (nearest (nearest (nearest (p * r) * c) / g) * g)) (p * r * c) := by
    have hback := h₃.mul_right hg
    rw [div_mul_cancel₀ _ hg.ne'] at hback
    exact hback.nearest (by norm_num) hgrown
  have h₅ := h₄.div (close_nearest (by linarith : 9 / 10 ^ 7 ≤ r * c))
  rw [mul_assoc, mul_div_cancel_right₀ _ (by linarith)] at h₅
  exact h₅.nearest (by norm_num) (by linarith)

/-- There and back without interest, over at most a hundred years. -/
theorem close_straight (hp : 1 ≤ p) (hmonths : 1 ≤ months) (hcentury : months ≤ 1200) :
    Close 2 (nearest (nearest (p / months) * months)) p := by
  have hn : (1 : ℚ) ≤ months := by exact_mod_cast hmonths
  have hn' : (months : ℚ) ≤ 1200 := by exact_mod_cast hcentury
  have hshare : 1 / 10 ^ 6 ≤ p / months := by
    rw [le_div_iff₀ (by linarith)]
    linarith
  have h₁ := (close_nearest (by linarith : 9 / 10 ^ 7 ≤ p / months)).mul_right (by linarith : (0 : ℚ) < months)
  rw [div_mul_cancel₀ _ (by linarith)] at h₁
  exact h₁.nearest (by norm_num) (by linarith)

theorem PrincipalFor.close (h : PrincipalFor rate months y z) (hpayment : PaymentFor rate months p y)
    (hterm : Payable rate months) (hp : 1 ≤ p) (hrate : rate.value = 0 ∨ 1 / 10 ^ 6 ≤ rate.value)
    (hcentury : months ≤ 1200) : Close 6 z p := by
  rcases hpayment with ⟨hzero, rfl⟩ | ⟨hne, c, hc, rfl⟩ <;>
    rcases h with ⟨hzero', rfl⟩ | ⟨hne', c', hc', -, rfl⟩
  · exact (close_straight hp hterm.months_pos hcentury).mono (by norm_num)
  · exact absurd hzero hne'
  · exact absurd hzero' hne
  · cases hc.symm.trans hc'
    have hone := hterm.one_lt_compound hne hc
    apply close_carried hp (hrate.resolve_left hne) hone.le (hterm.divisors_pos hne hc).1
    apply nearest_le_value
    linarith

/-- Unless one of them overflows, the two computations have results, and the second undoes the first. Without
a term neither has one. -/
theorem principal_undoes_payment :
    (∀ (principal rate : Decimal) (months : Nat), 1 ≤ principal.value →
      rate.value = 0 ∨ 1 / 10 ^ 6 ≤ rate.value → 1 ≤ months → months ≤ 1200 →
      ¬ Overflows (monthlyPayment principal rate months) →
      (∀ payment, monthlyPayment principal rate months = .ok payment →
        ¬ Overflows (principalForPayment payment rate months)) →
      ∃ payment back, monthlyPayment principal rate months = .ok payment ∧
        principalForPayment payment rate months = .ok back ∧
        |back.value - principal.value| ≤ 1 / 10 ^ 20 * principal.value) ∧
    ∀ amount rate : Decimal,
      monthlyPayment amount rate 0 = reject (.divisionByZero "monthly payment with zero months") ∧
      principalForPayment amount rate 0 = reject (.divisionByZero "loan principal with zero months") := by
  constructor
  · intro principal rate months hprincipal hrate hmonths hcentury hfits hfits'
    have hterm : Payable rate months := by
      refine ⟨?_, hmonths, ?_⟩
      · rcases hrate with hzero | hpos <;> linarith
      · unfold capacity
        omega
    obtain ⟨payment, hpayment, hvalue⟩ := (gives_monthlyPayment hterm principal).of_not_overflows hfits
    obtain ⟨back, hback, hvalue'⟩ :=
      (gives_principalForPayment hterm payment).of_not_overflows (hfits' payment hpayment)
    refine ⟨payment, back, hpayment, hback, ?_⟩
    exact (hvalue'.close hvalue hterm hprincipal hrate hcentury).abs_sub_le
  · intro amount rate
    exact ⟨rfl, rfl⟩

/-- Half a million at half a percent a month, over twenty-five years. -/
theorem principal_undoes_payment_quarter_century :
    ∃ payment back, monthlyPayment (.ofScaled 500000 0) (.ofScaled 5 3) 300 = .ok payment ∧
      principalForPayment payment (.ofScaled 5 3) 300 = .ok back ∧
      |back.value - (ofScaled 500000 0).value| ≤ 1 / 10 ^ 20 * (ofScaled 500000 0).value := by
  have hruns : (do
      let payment ← monthlyPayment (.ofScaled 500000 0) (.ofScaled 5 3) 300
      principalForPayment payment (.ofScaled 5 3) 300).isOk = true := by
    decide +kernel
  obtain ⟨back, hback⟩ := exists_of_isOk hruns
  obtain ⟨payment, hpayment, hback⟩ := bind_eq_ok.mp hback
  apply principal_undoes_payment.1
  · rw [value_ofScaled (by decide) (by decide)]
    norm_num
  · right
    rw [value_ofScaled (by decide) (by decide)]
    norm_num
  · norm_num
  · norm_num
  · exact not_overflows_of_isOk (by rw [hpayment]; rfl)
  · intro payment' hpayment'
    cases hpayment.symm.trans hpayment'
    exact not_overflows_of_isOk (by rw [hback]; rfl)

end RoundTrip

end PropertyFinance.Loan
