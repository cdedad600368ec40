import PropertyFinance.Proofs.Waterfall.ProRata
import PropertyFinance.Proofs.Waterfall.Years

/-! The capital balances along a run. Returning capital pro rata shifts rounding errors from one
partner to the other, so the general partner may end up overpaid; but each time it costs far less
than what the limited partners were paid. The invariant therefore lets the overpayment grow with
the capital returned, and gives up on the general partner once the limited partners' balance is a
rounding error itself. -/

namespace PropertyFinance
open Decimal
set_option autoImplicit false

/-- Either next to nothing is owed to the limited partners, or the general partner has been
overpaid by at most a quarter, and another quarter in proportion to the capital returned. -/
def SteadyBalances (lp gp : ℚ) : Prop :=
  |lp| ≤ 2 ∨ (LargeBalances lp gp ∧ -1 / 4 - (10 ^ 15 - lp) / (4 * 10 ^ 15) ≤ gp)

theorem steady_of_nonneg {lp gp : ℚ} (hlp : 0 ≤ lp) (hlp' : lp ≤ 10 ^ 15) (hgp : 0 ≤ gp)
    (hgp' : gp ≤ 10 ^ 15) : SteadyBalances lp gp := by
  rcases le_or_gt lp 2 with h | h
  · exact Or.inl (by rwa [abs_of_nonneg hlp])
  · exact Or.inr ⟨⟨h, hlp', by linarith, hgp'⟩, by linarith⟩

namespace ProRata

variable {lp gp cash owed toLp toGp : ℚ}

theorem owed_le_lp (h : ProRata lp gp cash owed toLp toGp) (hgp : gp ≤ 0) : owed ≤ lp := by
  have hmono := nearest_mono (by linarith : lp + gp ≤ lp)
  rwa [h.lp_self, ← h.owed_eq] at hmono

theorem cash_le_share (h : ProRata lp gp cash owed toLp toGp) (hgp : gp ≤ 0) :
    cash ≤ cash / owed * lp := by
  rw [div_mul_eq_mul_div, le_div_iff₀ h.owed_pos]
  exact mul_le_mul_of_nonneg_left (h.owed_le_lp hgp) h.cash_pos.le

section Large
variable (h : ProRata lp gp cash owed toLp toGp) (hl : LargeBalances lp gp)
include h hl

theorem toGp_ge : -1 ≤ toGp := by
  have hrest := scaled_le_nearest (x := cash - toLp) (n := -1) (s := 0) (by decide) (by decide) (by
    norm_num
    linarith [(h.toLp_le hl).2])
  rw [h.toGp_eq]
  simpa using hrest

theorem lp_after_ge : -1 ≤ nearest (lp - toLp) := by
  have hrest := scaled_le_nearest (x := lp - toLp) (n := -1) (s := 0) (by decide) (by decide) (by
    norm_num
    linarith [(h.toLp_le hl).1])
  simpa using hrest

theorem lp_after_le : nearest (lp - toLp) ≤ lp := by
  have hmono := nearest_mono (sub_le_self lp (h.toLp_nonneg hl))
  rwa [h.lp_self] at hmono

theorem gp_after_le : nearest (gp - toGp) ≤ 10 ^ 15 := by
  have hle : gp - toGp ≤ 10 ^ 15 := by
    rcases le_or_gt 1 gp with hgp | hgp
    · linarith [h.toGp_nonneg hl hgp, hl.gp_le]
    · linarith [h.toGp_ge hl]
  have hround := nearest_le_scaled (x := gp - toGp) (n := 10 ^ 15) (s := 0) (by decide)
    (by decide) (by
      norm_num at hle ⊢
      exact hle)
  norm_num at hround ⊢
  exact hround

theorem gp_after_ge_of_pos (hgp : 0 < gp) : -1 / 4 ≤ nearest (gp - toGp) := by
  have hshare₀ : 0 ≤ cash / owed := div_nonneg h.cash_pos.le h.owed_pos.le
  have hshare₁ : cash / owed ≤ 1 := div_le_one_of_le₀ h.cash_lt.le h.owed_pos.le
  have hpart₀ := mul_nonneg hshare₀ hgp.le
  have hpart₁ := mul_le_of_le_one_left hgp.le hshare₁
  have herror := abs_le.mp (h.abs_rest_sub_le hl)
  have hround := (abs_le.mp (h.cash_grid.sub h.toLp_grid).abs_nearest_sub_le).2
  rw [← h.toGp_eq] at hround
  have hcash := h.cash_le hl
  have hle := hl.gp_le
  have hsize : |cash - toLp| ≤ 2 * 10 ^ 15 := by
    rw [quantum_eq] at herror
    rw [abs_le]
    constructor <;> linarith [herror.1, herror.2]
  have hgp' : -1 / 4 ≤ gp - toGp := by
    rw [quantum_eq] at herror hround
    linarith [herror.2]
  have hrest := scaled_le_nearest (x := gp - toGp) (n := -25) (s := 2) (by decide) (by decide) (by
    norm_num at hgp' ⊢
    exact hgp')
  norm_num at hrest ⊢
  exact hrest

section Overpaid
variable (hgp : gp ≤ 0)
include hgp

/-- Little cash goes to the limited partners alone: less than half a quantum is missing from it. -/
theorem gp_after_ge_of_little (hcash : cash < 1 / 2) : gp ≤ nearest (gp - toGp) := by
  have hquot := (abs_le.mp (h.abs_quotient_sub_le hl)).1
  have hpos := h.cash_pos
  have hmax : max (quantum / 3) (43 / 50 * quantum * cash) < quantum / 2 := by
    have := quantum_pos
    have := mul_lt_mul_of_pos_left hcash quantum_pos
    apply max_lt <;> linarith
  have htoLp : cash ≤ toLp := by
    rw [h.toLp_eq]
    apply h.cash_grid.le_nearest
    · rw [abs_of_pos hpos]
      linarith
    · linarith [h.cash_le_share hgp]
  have htoGp : toGp ≤ 0 := by
    rw [h.toGp_eq, ← nearest_zero]
    exact nearest_mono (by linarith)
  have hmono := nearest_mono (by linarith : gp ≤ gp - toGp)
  rwa [h.gp_self] at hmono

theorem toGp_le_of_much (hcash : 1 / 2 ≤ cash) : toGp ≤ 14 * quantum * cash := by
  have herror := (abs_le.mp (h.abs_rest_sub_le hl)).2
  have hpart : cash / owed * gp ≤ 0 :=
    mul_nonpos_of_nonneg_of_nonpos (div_nonneg h.cash_pos.le h.owed_pos.le) hgp
  have hq := mul_le_mul_of_nonneg_left hcash quantum_pos.le
  have hbound : 0 ≤ 7 * quantum * cash := by
    have := quantum_pos
    have := h.cash_pos
    positivity
  calc toGp ≤ nearest (7 * quantum * cash) := by
        rw [h.toGp_eq]
        exact nearest_mono (by linarith)
    _ ≤ 14 * quantum * cash := by linarith [nearest_le_two_mul hbound]

theorem gp_after_ge_of_much (hcash : 1 / 2 ≤ cash) :
    gp - 14 * quantum * cash ≤ nearest (gp - toGp) := by
  have hle := h.toGp_le_of_much hl hgp hcash
  have hge := h.toGp_ge hl
  have hgp' := hl.gp_ge
  have hself : nearest (gp - toGp) = gp - toGp := by
    apply (h.gp_grid.sub h.toGp_grid).nearest_eq
    have := h.cash_le hl
    rw [quantum_eq] at hle
    rw [abs_lt]
    constructor <;> linarith
  linarith

theorem lp_after_le_of_much (hcash : 1 / 2 ≤ cash) : nearest (lp - toLp) ≤ lp - cash / 2 := by
  have herror := (abs_le.mp (h.abs_toLp_sub_le hl)).1
  have hshare := h.cash_le_share hgp
  have hround := (abs_le.mp (h.lp_grid.sub h.toLp_grid).abs_nearest_sub_le).2
  have hsize : |lp - toLp| ≤ 2 * 10 ^ 15 := by
    rw [abs_le]
    constructor <;> linarith [(h.toLp_le hl).1, h.toLp_nonneg hl, hl.lp_le]
  have := h.cash_le hl
  rw [quantum_eq] at herror hround
  linarith

end Overpaid

/-- What the general partner is overpaid is covered by what the limited partners were paid. -/
theorem gp_after_ge (hgp : -1 / 4 - (10 ^ 15 - lp) / (4 * 10 ^ 15) ≤ gp) :
    -1 / 4 - (10 ^ 15 - nearest (lp - toLp)) / (4 * 10 ^ 15) ≤ nearest (gp - toGp) := by
  have hlp := h.lp_after_le hl
  have hle := hl.lp_le
  rcases lt_or_ge 0 gp with hpos | hneg
  · linarith [h.gp_after_ge_of_pos hl hpos]
  · rcases lt_or_ge cash (1 / 2) with hcash | hcash
    · linarith [h.gp_after_ge_of_little hl hneg hcash]
    · have hgp' := h.gp_after_ge_of_much hl hneg hcash
      have hlp' := h.lp_after_le_of_much hl hneg hcash
      rw [quantum_eq] at hgp'
      linarith

theorem steady_large (hgp : -1 / 4 - (10 ^ 15 - lp) / (4 * 10 ^ 15) ≤ gp) :
    SteadyBalances (nearest (lp - toLp)) (nearest (gp - toGp)) := by
  have hlow := h.lp_after_ge hl
  have hhigh := h.lp_after_le hl
  have hle := hl.lp_le
  have hgp' := h.gp_after_ge hl hgp
  rcases le_or_gt (nearest (lp - toLp)) 2 with hsmall | hlarge
  · exact Or.inl (abs_le.mpr ⟨by linarith, hsmall⟩)
  · exact Or.inr ⟨⟨hlarge, hhigh.trans hle, by linarith, h.gp_after_le hl⟩, hgp'⟩

end Large

/-- A pro rata payment keeps the balances steady. -/
theorem steady (h : ProRata lp gp cash owed toLp toGp) (hs : SteadyBalances lp gp) :
    SteadyBalances (nearest (lp - toLp)) (nearest (gp - toGp)) := by
  rcases hs with hsmall | ⟨hl, hgp⟩
  · left
    have hle := abs_sub_quota_le h.lp_grid h.cash_pos h.cash_lt hsmall
    rw [← h.toLp_eq] at hle
    rw [(h.lp_grid.sub h.toLp_grid).nearest_eq (by linarith)]
    linarith
  · exact h.steady_large hl hgp

/-- The limited partners get at most the cash, up to a rounding error. -/
theorem toLp_bounds (h : ProRata lp gp cash owed toLp toGp) (hs : SteadyBalances lp gp) :
    -4 ≤ toLp ∧ toLp ≤ cash + 4 := by
  have hcash := h.cash_pos
  rcases hs with hsmall | ⟨hl, -⟩
  · have hle := abs_le.mp (abs_sub_quota_le h.lp_grid h.cash_pos h.cash_lt hsmall)
    have hlp := abs_le.mp hsmall
    rw [← h.toLp_eq] at hle
    constructor <;> linarith [hle.1, hle.2, hlp.1, hlp.2]
  · constructor <;> linarith [h.toLp_nonneg hl, (h.toLp_le hl).2]

end ProRata

def Balances.Steady (b : Balances) : Prop :=
  SteadyBalances b.lpUnreturned.value b.gpUnreturned.value

namespace Division

variable {d e : Division}

theorem ReturnsCapital.steady {owed toLp toGp : Decimal} (h : ReturnsCapital d e owed toLp toGp)
    (hs : d.balances.Steady) : e.balances.Steady := by
  rw [Balances.Steady, h.lpUnreturned_eq, h.gpUnreturned_eq]
  rcases h.toLp_cases with ⟨-, hall⟩ | ⟨hshort, -⟩
  · left
    rw [hall, sub_self, nearest_zero, abs_zero]
    norm_num
  · exact (h.proRata hshort).steady hs

/-- The limited partners' part of the capital returned is at most the cash used, up to a rounding
error. -/
theorem ReturnsCapital.toLp_bounds {owed toLp toGp : Decimal}
    (h : ReturnsCapital d e owed toLp toGp) (hs : d.balances.Steady) :
    -4 ≤ toLp.value ∧ toLp.value ≤ min d.remaining.value owed.value + 4 := by
  rcases h.toLp_cases with ⟨hfull, hall⟩ | ⟨hshort, -⟩
  · rw [hall, min_eq_right hfull]
    have howed := h.owed_pos
    rcases hs with hsmall | ⟨hl, -⟩
    · have hlp := abs_le.mp hsmall
      constructor <;> linarith [hlp.1, hlp.2]
    · have hround := (abs_le.mp (((onGrid_value d.balances.lpUnreturned).add
        (onGrid_value d.balances.gpUnreturned)).abs_nearest_sub_le_nearest)).1
      rw [← value_add h.owed_eq, abs_of_pos howed] at hround
      have hlp := hl.lp_gt
      have hgp := hl.gp_ge
      have hle := hl.lp_le
      rw [quantum_eq] at hround
      constructor <;> linarith
  · rw [min_eq_left hshort.le]
    exact (h.proRata hshort).toLp_bounds hs

theorem returnCapital_steady (h : d.returnCapital = .ok e) (hs : d.balances.Steady) :
    e.balances.Steady := by
  rcases returnCapital_cases h with ⟨owed, -, -, rfl⟩ | ⟨owed, toLp, toGp, hpay⟩
  · exact hs
  · exact hpay.steady hs

theorem SameCapital.steady (h : SameCapital d e) (hs : d.balances.Steady) : e.balances.Steady := by
  rwa [Balances.Steady, h.1, h.2]

end Division

namespace Waterfall
open Division

variable {terms : WaterfallTerms} {tiers : List PromoteTier} {lpShare : Decimal} {p : Passage}

/-- Every year keeps the balances steady. -/
theorem Steps.steady (h : Steps terms tiers lpShare p) (hs : p.before.balances.Steady) :
    p.after.balances.Steady := by
  rcases h.cases with hcall | ⟨-, d₀, d₁, d₂, d₃, d₄, hstages⟩
  · rwa [hcall.balances_eq]
  · obtain ⟨-, -, -, hlp, hgp⟩ := hstages.start
    have h₀ : d₀.balances.Steady := by rwa [Balances.Steady, hlp, hgp]
    have h₁ := returnCapital_steady hstages.capital h₀
    have hsame := (payPref_sameCapital hstages.pref).trans
      ((catchUp_sameCapital hstages.catchUp).trans (splitRest_sameCapital hstages.rest))
    rw [hstages.balances_eq]
    exact hsame.steady h₁

/-- The balances start steady as long as the equity is of an ordinary size. -/
theorem Stakes.Of.steady {s : Stakes} (hs : s.Of terms)
    (hequity : terms.totalEquity.value ≤ 10 ^ 15) : (State.start s).balances.Steady :=
  steady_of_nonneg hs.lpEquity_nonneg (hs.lpEquity_le.trans hequity) hs.gpEquity_nonneg
    (hs.gpEquity_le.trans hequity)

end Waterfall

end PropertyFinance
