import PropertyFinance.Proofs.Waterfall.Proportion

/-! How much the return of capital can pay the limited partners in all. A payment is taken out of their
balance, which shrinks by a third of it or more, unless the product that is divided is below a quantum.
That happens where next to nothing is owed to anybody; everything is exact there, so each such payment
takes a quantum off what is owed, and there are only so many of them. -/

namespace PropertyFinance
open Decimal
set_option autoImplicit false

/-- Less than a unit is owed to the limited partners, and next to nothing to both. -/
def NearlySettled (lp gp : ℚ) : Prop := |lp| < 1 ∧ lp + gp < 1 / 10 ^ 14

instance (lp gp : ℚ) : Decidable (NearlySettled lp gp) :=
  inferInstanceAs (Decidable (|lp| < 1 ∧ lp + gp < 1 / 10 ^ 14))

/-- How many more payments can be made of balances that are nearly settled. -/
def paymentsLeft (lp gp : ℚ) : ℚ :=
  if NearlySettled lp gp then max (lp + gp) 0 / quantum else 10 ^ 14

/-- A bound for all that the limited partners are still paid. -/
def reserve (lp gp : ℚ) : ℚ := 3 * |lp| + 2 * paymentsLeft lp gp

variable {equity lp gp cash owed toLp toGp : ℚ}

theorem paymentsLeft_nonneg (lp gp : ℚ) : 0 ≤ paymentsLeft lp gp := by
  unfold paymentsLeft
  split
  case isTrue => exact div_nonneg (le_max_right _ _) quantum_pos.le
  case isFalse => positivity

theorem paymentsLeft_le (lp gp : ℚ) : paymentsLeft lp gp ≤ 10 ^ 14 := by
  unfold paymentsLeft
  split
  case isTrue hsettled =>
    rw [div_le_iff₀ quantum_pos, quantum_eq]
    exact max_le (by linarith [hsettled.2]) (by norm_num)
  case isFalse => exact le_refl _

theorem reserve_nonneg (lp gp : ℚ) : 0 ≤ reserve lp gp := by
  have := abs_nonneg lp
  have := paymentsLeft_nonneg lp gp
  unfold reserve
  linarith

theorem reserve_le (lp gp : ℚ) : reserve lp gp ≤ 3 * |lp| + 2 * 10 ^ 14 := by
  have := paymentsLeft_le lp gp
  unfold reserve
  linarith

theorem paymentsLeft_of_settled (h : NearlySettled lp gp) (hpos : 0 ≤ lp + gp) :
    paymentsLeft lp gp = (lp + gp) / quantum := by
  rw [paymentsLeft, if_pos h, max_eq_left hpos]

/-- What is owed where the balances are nearly settled is exact, and so is the general partner's part. -/
theorem NearlySettled.owed_eq (h : NearlySettled lp gp) (hlp : OnGrid lp) (hgp : OnGrid gp)
    (howed : owed = nearest (lp + gp)) (hpos : 0 < owed) :
    owed = lp + gp ∧ 0 < lp + gp ∧ |gp| < 2 := by
  have hsum : 0 < lp + gp := by
    by_contra hle
    have := nearest_mono (not_lt.mp hle)
    rw [nearest_zero] at this
    linarith
  have hlittle := h.2
  have hlp' := abs_lt.mp h.1
  refine ⟨?_, hsum, ?_⟩
  · rw [howed]
    apply (hlp.add hgp).nearest_eq
    rw [abs_of_pos hsum]
    linarith
  · rw [abs_lt]
    constructor <;> linarith [hlp'.1, hlp'.2]

namespace ProRata
variable (h : ProRata lp gp cash owed toLp toGp)
include h

theorem abs_toLp_le : |toLp| ≤ 2 * |lp| := by
  have hsplit := abs_sub_abs_le_abs_sub toLp lp
  rw [abs_sub_comm toLp lp] at hsplit
  linarith [h.abs_lp_sub_le]

/-- A payment has the sign of the balance. -/
theorem toLp_mul_nonneg : 0 ≤ lp * toLp := by
  have hquota := h.toLp_eq
  rcases le_total 0 lp with hpos | hneg
  · exact mul_nonneg hpos (hquota ▸ quota_nonneg h.cash_pos.le hpos h.owed_pos.le)
  · have := quota_nonneg h.cash_pos.le (neg_nonneg.mpr hneg) h.owed_pos.le
    rw [quota_neg, ← hquota] at this
    exact mul_nonneg_of_nonpos_of_nonpos hneg (by linarith)

/-- A product of a quantum or more is rounded by half of it at most, so the payment is at most one and a
half times the balance and what is left at most half of it. -/
theorem payment_of_product (hproduct : quantum ≤ |cash * lp|) :
    |toLp| + 3 * |nearest (lp - toLp)| ≤ 3 * |lp| + 4 * (quantum * (1 + 2 * |lp|)) := by
  have howed := h.owed_pos
  have hquantum := quantum_pos
  have hshort : |cash * lp| ≤ |lp| * owed := by
    rw [abs_mul, abs_of_pos h.cash_pos, mul_comm]
    exact mul_le_mul_of_nonneg_left h.cash_lt.le (abs_nonneg lp)
  have hrounded : |nearest (cash * lp)| ≤ 3 / 2 * |cash * lp| := by
    have herror : |nearest (cash * lp) - cash * lp| ≤ 1 / 2 * |cash * lp| := by
      refine (abs_nearest_sub_le_max _).trans (max_le (by linarith) ?_)
      rw [quantum_eq]
      linarith [abs_nonneg (cash * lp)]
    have := abs_sub_abs_le_abs_sub (nearest (cash * lp)) (cash * lp)
    linarith
  have hquotient : |nearest (cash * lp) / owed| ≤ 3 / 2 * |lp| := by
    rw [abs_div, abs_of_pos howed, div_le_iff₀ howed]
    linarith
  have hpaid : |toLp| ≤ 3 / 2 * |lp| + quantum * (1 / 2 + |lp|) := by
    have herror := abs_nearest_sub_le (nearest (cash * lp) / owed)
    rw [show nearest (nearest (cash * lp) / owed) = toLp from h.toLp_eq.symm] at herror
    have hsize := abs_sub_abs_le_abs_sub toLp (nearest (cash * lp) / owed)
    have := mul_le_mul_of_nonneg_left hquotient quantum_pos.le
    linarith [mul_nonneg hquantum.le (abs_nonneg lp)]
  have hleft : |nearest (lp - toLp)| ≤ |lp - toLp| + quantum * |lp| := by
    have herror := (h.lp_grid.sub h.toLp_grid).rounding_le h.abs_lp_sub_le
    have := abs_sub_abs_le_abs_sub (nearest (lp - toLp)) (lp - toLp)
    linarith
  have hkept : |toLp| + 3 * |lp - toLp| ≤ 3 * |lp| + 4 * (quantum * (1 / 2 + |lp|)) := by
    have hslack : 0 ≤ quantum * (1 / 2 + |lp|) := by positivity
    rcases mul_nonneg_iff.mp h.toLp_mul_nonneg with ⟨hlp, htoLp⟩ | ⟨hlp, htoLp⟩
    · rw [abs_of_nonneg hlp, abs_of_nonneg htoLp] at *
      rcases abs_cases (lp - toLp) with ⟨habs, -⟩ | ⟨habs, -⟩ <;> linarith
    · rw [abs_of_nonpos hlp, abs_of_nonpos htoLp] at *
      rcases abs_cases (lp - toLp) with ⟨habs, -⟩ | ⟨habs, -⟩ <;> linarith
  linarith [mul_nonneg hquantum.le (abs_nonneg lp)]

/-- A smaller product is rounded to a quantum at most, which is little unless next to nothing is owed. -/
theorem toLp_le_of_small_product (hproduct : |cash * lp| < quantum) (howed : 1 / 10 ^ 14 ≤ owed) :
    |toLp| ≤ 1 / 10 ^ 14 + quantum := by
  have hquantum : nearest quantum = quantum :=
    OnGrid.nearest_eq ⟨1, by rw [Int.cast_one, one_mul]⟩ (by
      rw [abs_of_pos quantum_pos, quantum_eq]
      norm_num)
  have hrounded : |nearest (cash * lp)| ≤ quantum := by
    rw [abs_nearest, ← hquantum]
    exact nearest_mono hproduct.le
  have hquotient : |nearest (cash * lp) / owed| ≤ 1 / 10 ^ 14 := by
    rw [abs_div, abs_of_pos h.owed_pos, div_le_iff₀ h.owed_pos]
    rw [quantum_eq] at hrounded
    linarith
  have herror := abs_nearest_sub_le (nearest (cash * lp) / owed)
  rw [show nearest (nearest (cash * lp) / owed) = toLp from h.toLp_eq.symm] at herror
  have hsize := abs_sub_abs_le_abs_sub toLp (nearest (cash * lp) / owed)
  rw [quantum_eq] at herror ⊢
  linarith

theorem reserve_of_settled (hsettled : NearlySettled lp gp) :
    |toLp| + reserve (nearest (lp - toLp)) (nearest (gp - toGp)) ≤ reserve lp gp := by
  obtain ⟨howed, hpos, hgp⟩ := hsettled.owed_eq h.lp_grid h.gp_grid h.owed_eq h.owed_pos
  have hlt := h.cash_lt
  have hcash := h.cash_pos
  have hlittle := hsettled.2
  have hlp := abs_lt.mp hsettled.1
  have hgp := abs_lt.mp hgp
  have hpaid := abs_le.mp (h.abs_toLp_le.trans (by linarith [hsettled.1] : _ ≤ (2 : ℚ)))
  have hleft := abs_le.mp (h.abs_lp_sub_le.trans hsettled.1.le)
  have hself {x : ℚ} (hx : OnGrid x) (hle : -6 ≤ x) (hge : x ≤ 6) : nearest x = x :=
    hx.nearest_eq (abs_lt.mpr ⟨by linarith, by linarith⟩)
  have htoGp : toGp = cash - toLp := by
    rw [h.toGp_eq]
    exact hself (h.cash_grid.sub h.toLp_grid) (by linarith [hpaid.2]) (by linarith [hpaid.1])
  rw [hself (h.lp_grid.sub h.toLp_grid) (by linarith [hleft.1]) (by linarith [hleft.2]),
    hself (h.gp_grid.sub h.toGp_grid) (by linarith [hgp.1, hpaid.1]) (by linarith [hgp.2, hpaid.2])]
  have hafter : lp - toLp + (gp - toGp) = lp + gp - cash := by
    rw [htoGp]
    ring
  have hsettled' : NearlySettled (lp - toLp) (gp - toGp) :=
    ⟨h.abs_lp_sub_le.trans_lt hsettled.1, by rw [hafter]; linarith⟩
  have hfewer : (lp + gp - cash) / quantum ≤ (lp + gp) / quantum - 1 := by
    rw [div_le_iff₀ quantum_pos, sub_mul, div_mul_cancel₀ _ quantum_pos.ne']
    linarith [h.cash_grid.quantum_le hcash]
  rw [reserve, reserve, paymentsLeft_of_settled hsettled' (by rw [hafter]; linarith), hafter,
    paymentsLeft_of_settled hsettled hpos.le]
  have hshrinks := h.abs_lp_sub_le
  have := h.abs_toLp_le
  linarith [hsettled.1]

theorem reserve_of_unsettled (hsettled : ¬ NearlySettled lp gp) (hsize : |lp| ≤ equity)
    (hequity : 1 ≤ equity) :
    |toLp| + reserve (nearest (lp - toLp)) (nearest (gp - toGp))
      ≤ reserve lp gp + 2 * equity / 10 ^ 14 := by
  -- there are still all the payments to come, so only the balance pays for this one
  have hpayments := paymentsLeft_le (nearest (lp - toLp)) (nearest (gp - toGp))
  have hall : paymentsLeft lp gp = 10 ^ 14 := if_neg hsettled
  rw [reserve, reserve, hall]
  rcases le_or_gt quantum |cash * lp| with hlarge | hsmall
  · have hpaid := h.payment_of_product hlarge
    rw [quantum_eq] at hpaid
    linarith
  · have hlp : |lp| < 1 := by
      by_contra hle
      have hcash := h.cash_grid.quantum_le h.cash_pos
      rw [abs_mul, abs_of_pos h.cash_pos] at hsmall
      have := mul_le_mul_of_nonneg_left (not_lt.mp hle) h.cash_pos.le
      linarith
    have howed : 1 / 10 ^ 14 ≤ owed := by
      have hsum : 1 / 10 ^ 14 ≤ lp + gp := by
        by_contra hlt
        exact hsettled ⟨hlp, not_le.mp hlt⟩
      rw [h.owed_eq]
      have := scaled_le_nearest (x := lp + gp) (n := 1) (s := 14) (by decide) (by decide) (by
        rw [Int.cast_one]
        exact hsum)
      rwa [Int.cast_one] at this
    have hpaid := h.toLp_le_of_small_product hsmall howed
    have hshrinks := h.abs_lp_after_le
    rw [quantum_eq] at hpaid
    linarith

end ProRata

/-- All that is owed is paid at once. -/
theorem reserve_of_all (hlp : OnGrid lp) (hgp : nearest gp = gp)
    (howed : owed = nearest (lp + gp)) (hpos : 0 < owed) (hrest : toGp = nearest (owed - lp)) :
    |lp| + reserve (nearest (lp - lp)) (nearest (gp - toGp)) ≤ reserve lp gp := by
  rw [sub_self, nearest_zero, reserve, reserve, abs_zero]
  have hpayments := paymentsLeft_le 0 (nearest (gp - toGp))
  have habs := abs_nonneg lp
  by_cases hsettled : NearlySettled lp gp
  · obtain ⟨hsum, -, -⟩ := hsettled.owed_eq hlp (hgp ▸ onGrid_nearest _) howed hpos
    have htoGp : toGp = gp := by rw [hrest, hsum, add_sub_cancel_left, hgp]
    have hnone : paymentsLeft 0 (nearest (gp - toGp)) = 0 := by
      rw [htoGp, sub_self, nearest_zero, paymentsLeft_of_settled (by norm_num [NearlySettled]) (by simp),
        add_zero, zero_div]
    have := paymentsLeft_nonneg lp gp
    linarith
  · rw [show paymentsLeft lp gp = 10 ^ 14 from if_neg hsettled]
    linarith

namespace Division

theorem ReturnsCapital.reserve_le {d e : Division} {owed toLp toGp : Decimal}
    (h : ReturnsCapital d e owed toLp toGp)
    (hs : Sized equity d.balances.lpUnreturned.value d.balances.gpUnreturned.value) :
    |toLp.value| + reserve e.balances.lpUnreturned.value e.balances.gpUnreturned.value
      ≤ reserve d.balances.lpUnreturned.value d.balances.gpUnreturned.value + 2 * equity / 10 ^ 14 := by
  have hequity := hs.equity_ge
  have hrest := h.toGp_eq
  rw [h.lpUnreturned_eq, h.gpUnreturned_eq]
  rcases h.toLp_cases with ⟨hfull, rfl⟩ | ⟨hshort, -⟩
  · rw [min_eq_right hfull] at hrest
    have := reserve_of_all (onGrid_value _) (nearest_value _) (value_add h.owed_eq) h.owed_pos hrest
    linarith
  · by_cases hsettled : NearlySettled d.balances.lpUnreturned.value d.balances.gpUnreturned.value
    · linarith [(h.proRata hshort).reserve_of_settled hsettled]
    · exact (h.proRata hshort).reserve_of_unsettled hsettled hs.lp_le hequity

end Division

end PropertyFinance
