import PropertyFinance.Proofs.Decimal.Places
import PropertyFinance.Proofs.Waterfall.Settlement
import PropertyFinance.Proofs.Waterfall.Years

/-! A year under terms without a preferred return, a catch-up or a promote. A call and the split of the
rest go by the shares of the equity, the return of capital by the balances, which stay in that
proportion. What the year pays the limited partners is taken off their balance or is their share. -/

namespace PropertyFinance
open Decimal
set_option autoImplicit false

/-- A decimal that stands for a share between nothing and the whole. -/
structure Represents (lpShare : Decimal) (share : ℚ) : Prop where
  share_nonneg : 0 ≤ share
  share_le : share ≤ 1
  lpShare_nonneg : 0 ≤ lpShare.value
  lpShare_le : lpShare.value ≤ 1
  error_le : |lpShare.value - share| ≤ 8 * quantum

section Part
variable {lpShare : Decimal} {share : ℚ} (h : Represents lpShare share) (cash : ℚ)
include h

theorem Represents.abs_mul_le : |cash * lpShare.value| ≤ |cash| := by
  rw [mul_comm]
  exact abs_share_mul_le h.lpShare_nonneg h.lpShare_le (le_refl |cash|)

/-- The rounded part of an amount is close to its share. -/
theorem Represents.part_le :
    |nearest (cash * lpShare.value) - share * cash| ≤ quantum * (1 + 9 * |cash|) := by
  have hsize := h.abs_mul_le cash
  have hround := abs_nearest_sub_le (cash * lpShare.value)
  have hshare : |cash * lpShare.value - share * cash| ≤ 8 * quantum * |cash| := by
    rw [show cash * lpShare.value - share * cash = (lpShare.value - share) * cash by ring, abs_mul]
    exact mul_le_mul_of_nonneg_right h.error_le (abs_nonneg cash)
  have htri := abs_sub_le (nearest (cash * lpShare.value)) (cash * lpShare.value) (share * cash)
  have := mul_le_mul_of_nonneg_left hsize quantum_pos.le
  have := mul_nonneg quantum_pos.le (abs_nonneg cash)
  linarith [quantum_pos]

end Part

namespace Division
variable {d e : Division} {terms : WaterfallTerms} {lpShare : Decimal} {lpFlows : List Decimal}
  {equity share : ℚ}

/-- The return of capital in a year, which may also pay nothing. -/
structure Repays (equity : ℚ) (d e : Division) (paid toLp : ℚ) : Prop where
  keeps : KeepsProportion equity d.balances.lpUnreturned.value d.balances.gpUnreturned.value paid toLp
    e.balances.lpUnreturned.value e.balances.gpUnreturned.value
  reserve_le : |toLp| + reserve e.balances.lpUnreturned.value e.balances.gpUnreturned.value
    ≤ reserve d.balances.lpUnreturned.value d.balances.gpUnreturned.value + 2 * equity / 10 ^ 14
  paid_nonneg : 0 ≤ paid
  paid_le : paid ≤ d.remaining.value
  remaining_eq : e.remaining.value = nearest (d.remaining.value - paid)
  accrued_eq : e.balances.lpAccruedPref = d.balances.lpAccruedPref
  sum_eq : d.allocations = [] →
    ∃ sum, Decimal.sum (e.allocations.map Allocation.toLp) = .ok sum ∧ sum.value = toLp

theorem Repays.toLp_le {paid toLp : ℚ} (h : Repays equity d e paid toLp)
    (hs : Sized equity d.balances.lpUnreturned.value d.balances.gpUnreturned.value) :
    |toLp| ≤ 3 * equity := by
  have hequity := hs.equity_ge
  have hbefore := abs_le.mp hs.lp_le
  have hafter := abs_le.mp h.keeps.sized.lp_le
  have hround := abs_le.mp h.keeps.lp_eq
  rw [quantum_eq] at hround
  rw [abs_le]
  constructor <;> linarith [hbefore.1, hbefore.2, hafter.1, hafter.2, hround.1, hround.2]

theorem Repays.remaining_le {paid toLp : ℚ} (h : Repays equity d e paid toLp) :
    0 ≤ e.remaining.value ∧ e.remaining.value ≤ d.remaining.value ∧
      |e.remaining.value - (d.remaining.value - paid)| ≤ quantum * (1 + d.remaining.value) := by
  have hpaid₀ := h.paid_nonneg
  have hleft : 0 ≤ d.remaining.value - paid := sub_nonneg.mpr h.paid_le
  have hround := abs_nearest_sub_le (d.remaining.value - paid)
  rw [h.remaining_eq]
  refine ⟨nearest_nonneg hleft, nearest_le_value (by linarith), hround.trans ?_⟩
  rw [abs_of_nonneg hleft]
  exact mul_le_mul_of_nonneg_left (by linarith) quantum_pos.le

theorem repays_of_returnCapital (h : d.returnCapital = .ok e) (hcash : 0 < d.remaining.value)
    (hs : Sized equity d.balances.lpUnreturned.value d.balances.gpUnreturned.value) :
    ∃ paid toLp, Repays equity d e paid toLp := by
  rcases returnCapital_cases h with ⟨owed, -, -, rfl⟩ | ⟨owed, toLp, toGp, hpay⟩
  · refine ⟨0, 0, ?_, ?_, le_refl _, hcash.le, ?_, rfl, fun hnil => ?_⟩
    · exact keepsProportion_of_none hs
    · have hequity := hs.equity_ge
      rw [abs_zero]
      linarith
    · rw [sub_zero, nearest_value]
    · exact ⟨.zero, by rw [hnil]; rfl, value_zero⟩
  · refine ⟨_, _, hpay.keepsProportion hs, hpay.reserve_le hs, le_min hcash.le hpay.owed_pos.le,
      min_le_left _ _, hpay.remaining_eq, hpay.lpAccruedPref_eq, fun hnil => ?_⟩
    exact ⟨toLp, by rw [hpay.allocations_eq, hnil]; exact sum_singleton toLp, rfl⟩

/-- The split of what is left, which may be nothing. -/
structure Shares (share : ℚ) (d e : Division) (toLp : ℚ) : Prop where
  toLp_nonneg : 0 ≤ toLp
  toLp_le : toLp ≤ d.remaining.value
  share_le : |toLp - share * d.remaining.value| ≤ quantum * (1 + 12 * d.remaining.value)
  sum_le : ∀ sum total, Decimal.sum (d.allocations.map Allocation.toLp) = .ok sum →
    Decimal.sum (e.allocations.map Allocation.toLp) = .ok total →
    |total.value - (sum.value + toLp)| ≤ quantum * |sum.value + toLp|

theorem shares_of_splitRest (h : d.splitRest [] lpShare lpFlows = .ok e)
    (hcash : 0 ≤ d.remaining.value) (hshare : Represents lpShare share) :
    ∃ toLp, Shares share d e toLp := by
  rcases splitRest_cases h with ⟨hnot, rfl⟩ | ⟨tier, toLp, toGp, hpay⟩
  · have hzero : e.remaining.value = 0 := le_antisymm (not_lt.mp hnot) hcash
    refine ⟨0, le_refl _, hcash, ?_, fun sum total hsum htotal => ?_⟩
    · rw [hzero, mul_zero, mul_zero, sub_zero, abs_zero, add_zero, mul_one]
      exact quantum_pos.le
    · cases hsum.symm.trans htotal
      rw [add_zero, sub_self, abs_zero]
      exact mul_nonneg quantum_pos.le (abs_nonneg _)
  · obtain ⟨-, hgp⟩ : tier = .proRata ∧ toGp.value =
        nearest (d.remaining.value - nearest (d.remaining.value * lpShare.value)) := by
      rcases residual_cases hpay.residual_eq with hrata | ⟨t, ht, -⟩
      · exact hrata
      · exact absurd ht List.not_mem_nil
    obtain ⟨hgp₀, hgp₁⟩ := residual_bounds hpay.residual_eq (fun t ht => absurd ht List.not_mem_nil)
      ⟨hshare.lpShare_nonneg, hshare.lpShare_le⟩ hcash
    have hlp := hpay.toLp_eq
    have hpart := abs_le.mp (hshare.part_le d.remaining.value)
    have hpart₀ := nearest_nonneg (mul_nonneg hcash hshare.lpShare_nonneg)
    have hpart₁ := nearest_le_value (mul_le_of_le_one_right hcash hshare.lpShare_le)
    have hrest : |d.remaining.value - nearest (d.remaining.value * lpShare.value)|
        ≤ d.remaining.value := by
      rw [abs_le]
      constructor <;> linarith
    have hrest' : |d.remaining.value - toGp.value| ≤ d.remaining.value := by
      rw [abs_le]
      constructor <;> linarith
    have hround₁ := abs_le.mp (((onGrid_value d.remaining).sub (onGrid_nearest _)).rounding_le hrest)
    have hround₂ := abs_le.mp (((onGrid_value d.remaining).sub (onGrid_value toGp)).rounding_le hrest')
    rw [← hgp] at hround₁
    rw [← hlp] at hround₂
    rw [abs_of_nonneg hcash] at hpart
    refine ⟨toLp.value, ?_, ?_, ?_, fun sum total hsum htotal => ?_⟩
    · rw [hlp]
      exact nearest_nonneg (by linarith)
    · rw [hlp]
      exact nearest_le_value (by linarith)
    · rw [abs_le]
      constructor <;> linarith [hpart.1, hpart.2, hround₁.1, hround₁.2, hround₂.1, hround₂.2]
    · rw [hpay.allocations_eq, List.map_append, List.map_singleton, sum_append_eq_ok] at htotal
      obtain ⟨sum', hsum', hadd⟩ := htotal
      cases hsum.symm.trans hsum'
      rw [value_add hadd]
      exact ((onGrid_value sum).add (onGrid_value toLp)).rounding_le (le_refl _)

/-- Without a preferred return nothing accrues. -/
theorem accruePref_none (h : d.accruePref terms = .ok e) (hpref : terms.preferredReturnPct.value = 0)
    (hnone : d.balances.lpAccruedPref.value = 0) : e.balances.lpAccruedPref.value = 0 := by
  obtain ⟨rate, hrate, h⟩ := bind_eq_ok.mp h
  obtain ⟨interest, hinterest, h⟩ := bind_eq_ok.mp h
  obtain ⟨accrued, haccrued, h⟩ := bind_eq_ok.mp h
  obtain rfl := pure_eq_ok.mp h
  dsimp only
  rw [value_add haccrued, value_mul hinterest, value_percentToRate hrate, hpref, hnone, zero_div,
    nearest_zero, mul_zero, nearest_zero, add_zero, nearest_zero]

end Division

namespace Waterfall
variable {terms : WaterfallTerms} {lpShare : Decimal} {equity share : ℚ} {p : Passage}

/-- Terms by which the partners only ever share alike. -/
structure SharesAlike (terms : WaterfallTerms) : Prop where
  preferredReturn_eq : terms.preferredReturnPct.value = 0
  catchUp_eq : terms.catchUpPct.value = 0
  promoteTiers_eq : terms.promoteTiers = []

/-- What the limited partners are paid in a year less what their balance falls by, beyond their share of
the same for all. -/
def accountChange (share : ℚ) (p : Passage) : ℚ :=
  p.year.lpDistribution.value
    + (p.after.balances.lpUnreturned.value - p.before.balances.lpUnreturned.value)
    - share * (p.year.totalCashFlow.value
      + (p.after.balances.lpUnreturned.value + p.after.balances.gpUnreturned.value)
      - (p.before.balances.lpUnreturned.value + p.before.balances.gpUnreturned.value))

/-- What the balances fall by is what was repaid, so only the split and the roundings remain of it. -/
theorem abs_accountChange_le {lp gp lp' gp' cash paid toLp left rest lpPaid : ℚ}
    (hshare₀ : 0 ≤ share) (hshare₁ : share ≤ 1)
    (hkept : KeepsProportion equity lp gp paid toLp lp' gp')
    (hleft₀ : left ≤ cash) (hleft : |left - (cash - paid)| ≤ quantum * (1 + cash))
    (hpart : |rest - share * left| ≤ quantum * (1 + 12 * left))
    (htotal : |lpPaid - (toLp + rest)| ≤ quantum * (3 * equity + cash)) (hcash : 0 ≤ cash) :
    |lpPaid + (lp' - lp) - share * (cash + (lp' + gp') - (lp + gp))|
      ≤ 35 * quantum * (equity + cash) := by
  have hequity := hkept.sized.equity_ge
  have hsplit : lpPaid + (lp' - lp) - share * (cash + (lp' + gp') - (lp + gp))
      = (lpPaid - (toLp + rest)) + (lp' - (lp - toLp)) + (rest - share * left)
        + share * (left - (cash - paid)) - share * (lp' + gp' - (lp + gp - paid)) := by ring
  have h₁ := abs_le.mp htotal
  have h₂ := abs_le.mp hkept.lp_eq
  have h₃ := abs_le.mp hpart
  have h₄ := abs_le.mp (abs_share_mul_le hshare₀ hshare₁ hleft)
  have h₅ := abs_le.mp (abs_share_mul_le hshare₀ hshare₁ hkept.owed_eq)
  rw [hsplit, abs_le]
  rw [quantum_eq] at *
  constructor
  · linarith [h₁.1, h₂.1, h₃.1, h₄.1, h₅.2]
  · linarith [h₁.2, h₂.2, h₃.2, h₄.2, h₅.1]

/-- What one year does to the balances, and what the limited partners get of its cash. -/
structure PariPassu (equity share : ℚ) (p : Passage) : Prop where
  sized : Sized equity p.after.balances.lpUnreturned.value p.after.balances.gpUnreturned.value
  accrued_eq : p.after.balances.lpAccruedPref.value = 0
  account_le : |accountChange share p| ≤ 35 * quantum * (equity + |p.year.totalCashFlow.value|)
  imbalance_le : |imbalance share p.after.balances.lpUnreturned.value p.after.balances.gpUnreturned.value|
    ≤ |imbalance share p.before.balances.lpUnreturned.value p.before.balances.gpUnreturned.value|
      + equity / 10 ^ 13
  reserve_le : |p.year.lpDistribution.value|
      + reserve p.after.balances.lpUnreturned.value p.after.balances.gpUnreturned.value
    ≤ reserve p.before.balances.lpUnreturned.value p.before.balances.gpUnreturned.value
      + 2 * |p.year.totalCashFlow.value| + 3 * equity / 10 ^ 14

theorem Calls.pariPassu {tiers : List PromoteTier} (hcall : Calls lpShare p)
    (h : Steps terms tiers lpShare p) (hshare : Represents lpShare share)
    (hs : Sized equity p.before.balances.lpUnreturned.value p.before.balances.gpUnreturned.value)
    (haccrued : p.before.balances.lpAccruedPref.value = 0) : PariPassu equity share p := by
  obtain ⟨toLp, toGp, hallocations, htoLp, -⟩ := hcall.allocation
  have hequity := hs.equity_ge
  have hpos := mul_nonneg quantum_pos.le (abs_nonneg p.year.totalCashFlow.value)
  have hquantum := mul_le_mul_of_nonneg_left hequity quantum_pos.le
  have hlp : p.year.lpDistribution = toLp := by
    have hsum := h.lp_eq
    rw [hallocations] at hsum
    exact (Except.ok.inj ((sum_singleton toLp).symm.trans hsum)).symm
  have hpart := hshare.part_le p.year.totalCashFlow.value
  rw [← htoLp, ← hlp] at hpart
  have hsize : |p.year.lpDistribution.value| ≤ |p.year.totalCashFlow.value| := by
    have hself : nearest |p.year.totalCashFlow.value| = |p.year.totalCashFlow.value| := by
      rw [← abs_nearest, nearest_value]
    rw [hlp, htoLp, abs_nearest, ← hself]
    exact nearest_mono (hshare.abs_mul_le _)
  refine ⟨?_, ?_, ?_, ?_, ?_⟩
  · rwa [hcall.balances_eq]
  · rwa [hcall.balances_eq]
  · rw [accountChange, hcall.balances_eq, sub_self, add_zero, add_sub_cancel_right]
    linarith [quantum_pos]
  · rw [hcall.balances_eq]
    linarith
  · rw [hcall.balances_eq]
    linarith [abs_nonneg p.year.totalCashFlow.value]

section Paying
variable {d₀ d₁ d₂ d₃ d₄ : Division} (hstages : Stages terms [] lpShare p d₀ d₁ d₂ d₃ d₄)
  (halike : SharesAlike terms) (haccrued : p.before.balances.lpAccruedPref.value = 0)
include hstages halike haccrued

/-- No cash goes to a preferred return or a catch-up. -/
theorem Stages.idle {paid toLp : ℚ} (hrepays : Division.Repays equity d₀ d₁ paid toLp) :
    d₃ = d₁ ∧ d₁.balances.lpAccruedPref.value = 0 := by
  have hnone : d₁.balances.lpAccruedPref.value = 0 := by
    rw [hrepays.accrued_eq]
    exact Division.accruePref_none hstages.accrue halike.preferredReturn_eq haccrued
  have hpref : d₂ = d₁ := by
    rcases Division.payPref_cases hstages.pref with ⟨-, hidle⟩ | ⟨toLp, hpay⟩
    · exact hidle
    · exact absurd hpay.accrued_pos (by rw [hnone]; exact lt_irrefl 0)
  have hcatch : d₃ = d₂ := by
    rcases Division.catchUp_cases hstages.catchUp with ⟨hidle, -⟩ | ⟨target, shortfall, toGp, hpay⟩
    · exact hidle
    · exact absurd hpay.enabled (by rw [halike.catchUp_eq]; exact lt_irrefl 0)
  exact ⟨hcatch.trans hpref, hnone⟩

theorem Stages.pariPassu (hcash : 0 < p.year.totalCashFlow.value) (h : Steps terms [] lpShare p)
    (hshare : Represents lpShare share)
    (hs : Sized equity p.before.balances.lpUnreturned.value p.before.balances.gpUnreturned.value) :
    PariPassu equity share p := by
  obtain ⟨hremaining, -, hnil, hlp, hgp⟩ := hstages.start
  have hs₀ : Sized equity d₀.balances.lpUnreturned.value d₀.balances.gpUnreturned.value := by
    rwa [hlp, hgp]
  obtain ⟨paid, toLp, hrepays⟩ := Division.repays_of_returnCapital hstages.capital
    (by rwa [hremaining]) hs₀
  obtain ⟨rfl, hnone⟩ := hstages.idle halike haccrued hrepays
  obtain ⟨hleft₀, hleft₁, hleft⟩ := hrepays.remaining_le
  obtain ⟨rest, hshares⟩ := Division.shares_of_splitRest hstages.rest hleft₀ hshare
  obtain ⟨hlp₄, hgp₄⟩ := Division.splitRest_sameCapital hstages.rest
  have haccrued₄ := Division.splitRest_accruedPref hstages.rest
  obtain ⟨sum, hsum, rfl⟩ := hrepays.sum_eq hnil
  have hequity := hs.equity_ge
  have hkept := hrepays.keeps
  have hreserve := hrepays.reserve_le
  rw [hlp, hgp] at hkept hreserve
  rw [hremaining] at hleft₁ hleft
  have hrest₀ := hshares.toLp_nonneg
  have hrest₁ := hshares.toLp_le
  have htoLp := abs_le.mp (hrepays.toLp_le hs₀)
  have htotal : |p.year.lpDistribution.value - (sum.value + rest)|
      ≤ quantum * (3 * equity + p.year.totalCashFlow.value) := by
    refine (hshares.sum_le sum _ hsum (hstages.allocations_eq ▸ h.lp_eq)).trans ?_
    apply mul_le_mul_of_nonneg_left _ quantum_pos.le
    rw [abs_le]
    constructor <;> linarith [htoLp.1, htoLp.2]
  refine ⟨?_, ?_, ?_, ?_, ?_⟩
  · rw [hstages.balances_eq, hlp₄, hgp₄]
    exact hkept.sized
  · rw [hstages.balances_eq, haccrued₄]
    exact hnone
  · rw [accountChange, hstages.balances_eq, hlp₄, hgp₄, abs_of_pos hcash]
    exact abs_accountChange_le hshare.share_nonneg hshare.share_le hkept hleft₁ hleft
      hshares.share_le htotal hcash.le
  · rw [hstages.balances_eq, hlp₄, hgp₄]
    exact hkept.imbalance_le share hshare.share_nonneg hshare.share_le
  · have hsize := abs_sub_abs_le_abs_sub p.year.lpDistribution.value (sum.value + rest)
    have htri := abs_add_le sum.value rest
    rw [abs_of_nonneg hrest₀] at htri
    rw [hstages.balances_eq, hlp₄, hgp₄, abs_of_pos hcash]
    rw [quantum_eq] at htotal
    linarith

end Paying

theorem Steps.pariPassu (h : Steps terms [] lpShare p) (halike : SharesAlike terms)
    (hshare : Represents lpShare share)
    (hs : Sized equity p.before.balances.lpUnreturned.value p.before.balances.gpUnreturned.value)
    (haccrued : p.before.balances.lpAccruedPref.value = 0) : PariPassu equity share p := by
  rcases h.cases with hcall | ⟨hcash, d₀, d₁, d₂, d₃, d₄, hstages⟩
  · exact hcall.pariPassu h hshare hs haccrued
  · exact hstages.pariPassu halike haccrued hcash h hshare hs

end Waterfall

end PropertyFinance
