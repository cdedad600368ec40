import PropertyFinance.Proofs.Waterfall.ExactShares
import PropertyFinance.Proofs.Waterfall.Overpayment
import PropertyFinance.Proofs.Waterfall.Priority

/-! Who is charged in a year with cash. Only a return of capital can pay a negative amount, and only to
take back what rounding has overpaid before; the bound on that grows with the years. Money of a few
places is never rounded, and then nobody is charged at all. -/

namespace PropertyFinance
open Decimal
set_option autoImplicit false

namespace Waterfall
open Division

/-- A year that charges nobody, up to a tolerance: no payment is negative, neither side of the year is,
and the capital balances do not rise and are not overdrawn. -/
structure Spares (tolerance : ℚ) (p : Passage) : Prop where
  payments : ∀ a ∈ p.year.allocations, -tolerance ≤ a.toLp.value ∧ -tolerance ≤ a.toGp.value
  lp_side : -tolerance ≤ p.year.lpDistribution.value
  gp_side : -tolerance ≤ p.year.gpDistribution.value
  lp_falls :
    p.after.balances.lpUnreturned.value ≤ p.before.balances.lpUnreturned.value + tolerance
  gp_falls :
    p.after.balances.gpUnreturned.value ≤ p.before.balances.gpUnreturned.value + tolerance
  lp_left : -tolerance ≤ p.after.balances.lpUnreturned.value
  gp_left : -tolerance ≤ p.after.balances.gpUnreturned.value

theorem Spares.mono {t u : ℚ} {p : Passage} (h : Spares t p) (hle : t ≤ u) : Spares u p := by
  refine ⟨fun a ha => ?_, ?_, ?_, ?_, ?_, ?_, ?_⟩
  · obtain ⟨hlp, hgp⟩ := h.payments a ha
    constructor <;> linarith
  · linarith [h.lp_side]
  · linarith [h.gp_side]
  · linarith [h.lp_falls]
  · linarith [h.gp_falls]
  · linarith [h.lp_left]
  · linarith [h.gp_left]

end Waterfall

namespace Division
variable {d e f : Division} {terms : WaterfallTerms}

/-- Whatever is paid on the way from one division to another charges nobody. -/
def PaysFairly (d e : Division) : Prop :=
  ∀ a ∈ e.allocations, a ∈ d.allocations ∨ (0 ≤ a.toLp.value ∧ 0 ≤ a.toGp.value)

theorem PaysFairly.trans (h₁ : PaysFairly d e) (h₂ : PaysFairly e f) : PaysFairly d f := by
  intro a ha
  rcases h₂ a ha with hin | hfair
  · exact h₁ a hin
  · exact Or.inr hfair

theorem paysFairly_of_append {a : Allocation} (h : e.allocations = d.allocations ++ [a])
    (ha : 0 ≤ a.toLp.value ∧ 0 ≤ a.toGp.value) : PaysFairly d e := by
  intro x hx
  rw [h] at hx
  rcases List.mem_append.mp hx with hin | hlast
  · exact Or.inl hin
  · rw [List.mem_singleton.mp hlast]
    exact Or.inr ha

theorem payPref_paysFairly (h : d.payPref = .ok e) : PaysFairly d e := by
  rcases payPref_cases h with ⟨-, rfl⟩ | ⟨toLp, hpay⟩
  · exact fun a ha => Or.inl ha
  · apply paysFairly_of_append hpay.allocations_eq
    dsimp only
    rw [hpay.toLp_eq, value_zero]
    exact ⟨le_min hpay.cash_pos.le hpay.accrued_pos.le, le_refl _⟩

theorem catchUp_paysFairly (h : d.catchUp terms = .ok e) : PaysFairly d e := by
  rcases catchUp_cases h with ⟨rfl, -⟩ | ⟨target, shortfall, toGp, hpay⟩
  · exact fun a ha => Or.inl ha
  · apply paysFairly_of_append hpay.allocations_eq
    dsimp only
    rw [hpay.toGp_eq, value_zero]
    exact ⟨le_refl _, le_min hpay.cash_pos.le hpay.shortfall_pos.le⟩

section Split
variable {tiers : List PromoteTier} {lpShare : Decimal} {lpFlows : List Decimal}
  (haccepted : ∀ t ∈ tiers, isPercentage t.gpSplitPct = true)
  (hshare : 0 ≤ lpShare.value ∧ lpShare.value ≤ 1)
  (h : d.splitRest tiers lpShare lpFlows = .ok e)
include haccepted hshare h

theorem splitRest_paysFairly : PaysFairly d e := by
  rcases splitRest_cases h with ⟨-, rfl⟩ | ⟨tier, toLp, toGp, hpay⟩
  · exact fun a ha => Or.inl ha
  · obtain ⟨hgp₀, hgp₁⟩ := residual_bounds hpay.residual_eq haccepted hshare hpay.cash_pos.le
    apply paysFairly_of_append hpay.allocations_eq
    dsimp only
    rw [hpay.toLp_eq]
    exact ⟨nearest_nonneg (by linarith), hgp₀⟩

/-- The limited partners end up with what they were paid and at most what was left. -/
theorem splitRest_lp_le {c cash : ℚ} {k : Nat} {lp : Decimal} (hd : d.Covers c cash k)
    (hlp : Decimal.sum (e.allocations.map Allocation.toLp) = .ok lp) :
    lp.value ≤ nearest (d.lpPaid.value + d.remaining.value) := by
  rcases splitRest_cases h with ⟨-, rfl⟩ | ⟨tier, toLp, toGp, hpay⟩
  · rw [hd.sum_eq lp hlp]
    exact value_le_nearest (by linarith [hd.remaining_nonneg])
  · obtain ⟨hgp₀, hgp₁⟩ := residual_bounds hpay.residual_eq haccepted hshare hpay.cash_pos.le
    rw [hpay.allocations_eq, List.map_append] at hlp
    obtain ⟨s, hs, hadd⟩ := sum_append_eq_ok.mp hlp
    rw [value_add hadd, hd.sum_eq s hs]
    apply nearest_mono
    have hle : toLp.value ≤ d.remaining.value := by
      rw [hpay.toLp_eq]
      exact nearest_le_value (by linarith)
    linarith

end Split

end Division

namespace Waterfall
open Division

variable {terms : WaterfallTerms} {tiers : List PromoteTier} {lpShare : Decimal} {p : Passage}
  {d₀ d₁ d₂ d₃ d₄ : Division}

section Stages
variable (hs : Stages terms tiers lpShare p d₀ d₁ d₂ d₃ d₄)
  (haccepted : ∀ t ∈ tiers, isPercentage t.gpSplitPct = true)
  (hshare : 0 ≤ lpShare.value ∧ lpShare.value ≤ 1)
include hs

theorem Stages.after_capital :
    p.after.balances.lpUnreturned = d₁.balances.lpUnreturned ∧
      p.after.balances.gpUnreturned = d₁.balances.gpUnreturned := by
  rw [hs.balances_eq]
  exact hs.sameCapital

include haccepted hshare

/-- Every payment of the year charges nobody, or is the return of capital. -/
theorem Stages.payment_cases :
    ∀ a ∈ p.year.allocations, (0 ≤ a.toLp.value ∧ 0 ≤ a.toGp.value) ∨
      (a.tier = .returnOfCapital ∧ ∃ owed, ReturnsCapital d₀ d₁ owed a.toLp a.toGp) := by
  intro a ha
  rw [hs.allocations_eq] at ha
  have hfair := ((payPref_paysFairly hs.pref).trans (catchUp_paysFairly hs.catchUp)).trans
    (splitRest_paysFairly haccepted hshare hs.rest)
  rcases hfair a ha with hfirst | hpos
  · right
    obtain ⟨-, -, hnil, -, -⟩ := hs.start
    rcases returnCapital_cases hs.capital with ⟨owed, -, -, rfl⟩ | ⟨owed, toLp, toGp, hpay⟩
    · rw [hnil] at hfirst
      exact absurd hfirst List.not_mem_nil
    · rw [hpay.allocations_eq, hnil, List.nil_append] at hfirst
      rw [List.mem_singleton.mp hfirst]
      exact ⟨rfl, owed, hpay⟩
  · exact Or.inl hpos

/-- A payment charges somebody only by a return of capital, and the limited partners only if they
were overpaid. -/
theorem Stages.charge_cases :
    ∀ a ∈ p.year.allocations, (a.toLp.value < 0 ∨ a.toGp.value < 0 → a.tier = .returnOfCapital) ∧
      (a.toLp.value < 0 → p.before.balances.lpUnreturned.value < 0) := by
  intro a ha
  rcases hs.payment_cases haccepted hshare a ha with ⟨hlp, hgp⟩ | ⟨htier, owed, hpay⟩
  · constructor
    · rintro (hneg | hneg) <;> linarith
    · intro hneg
      linarith
  · refine ⟨fun _ => htier, fun hneg => ?_⟩
    rw [← hs.start.2.2.2.1]
    by_contra hnonneg
    rw [Rat.not_lt] at hnonneg
    rcases hpay.toLp_cases with ⟨-, hall⟩ | ⟨-, hquota⟩
    · rw [hall] at hneg
      linarith
    · have hpart := quota_nonneg hpay.cash_pos.le hnonneg hpay.owed_pos.le
      rw [quota, ← hquota] at hpart
      linarith

end Stages

section Bounded
variable {equity bound next : ℚ} (hs : Stages terms tiers lpShare p d₀ d₁ d₂ d₃ d₄)
  (ho : Owes equity bound p.before.balances.lpUnreturned.value
    p.before.balances.gpUnreturned.value) (hslack : Slack equity bound next)
include hs ho hslack

theorem Stages.returned {owed toLp toGp : Decimal} (hpay : ReturnsCapital d₀ d₁ owed toLp toGp) :
    Returned equity next p.before.balances.lpUnreturned.value
      p.before.balances.gpUnreturned.value (min d₀.remaining.value owed.value) toLp.value
      toGp.value := by
  obtain ⟨-, -, -, hlp, hgp⟩ := hs.start
  rw [← hlp, ← hgp] at ho ⊢
  exact hpay.returned ho hslack

theorem Stages.owes_after :
    Owes equity next p.after.balances.lpUnreturned.value p.after.balances.gpUnreturned.value ∧
      p.after.balances.lpUnreturned.value ≤ p.before.balances.lpUnreturned.value + 2 * next ∧
      p.after.balances.gpUnreturned.value ≤ p.before.balances.gpUnreturned.value + 2 * next := by
  obtain ⟨hlp, hgp⟩ := hs.after_capital
  rw [hlp, hgp]
  obtain ⟨-, -, -, hlp₀, hgp₀⟩ := hs.start
  rcases returnCapital_cases hs.capital with ⟨owed, -, -, rfl⟩ | ⟨owed, toLp, toGp, hpay⟩
  · have hnext := hslack.bound_nonneg.trans hslack.bound_le
    rw [hlp₀, hgp₀]
    refine ⟨ho.mono hslack.bound_le, ?_, ?_⟩ <;> linarith
  · have hreturned := hs.returned ho hslack hpay
    rw [hpay.lpUnreturned_eq, hpay.gpUnreturned_eq, hlp₀, hgp₀]
    exact ⟨hreturned.owes, hreturned.lp_after_le, hreturned.gp_after_le⟩

theorem Stages.spares (hgrid : OnGrid next) (hcash : 0 < p.year.totalCashFlow.value)
    (hstep : Steps terms tiers lpShare p)
    (haccepted : ∀ t ∈ tiers, isPercentage t.gpSplitPct = true)
    (hshare : 0 ≤ lpShare.value ∧ lpShare.value ≤ 1) :
    Spares (3 * next + p.year.totalCashFlow.value / 10 ^ 26) p := by
  have hnext : 0 ≤ next := hslack.bound_nonneg.trans hslack.bound_le
  have hnext₁ := hslack.next_le
  have hc : Allowance (2 * next) := ⟨by rw [two_mul]; exact hgrid.add hgrid, by linarith, by linarith⟩
  have hwithin : ReturnsWithin (2 * next) d₀ d₁ := by
    intro owed toLp toGp hpay
    have hreturned := hs.returned ho hslack hpay
    exact ⟨hreturned.toLp_ge, hreturned.toLp_le⟩
  obtain ⟨hlow, hhigh, -⟩ := hs.lp_within hcash hc hwithin hstep haccepted hshare
  obtain ⟨howes, hlp, hgp⟩ := hs.owes_after ho hslack
  have hside : -(3 * next + p.year.totalCashFlow.value / 10 ^ 26)
      ≤ p.year.gpDistribution.value := by
    have hpow : (1 + quantum) ^ 3 ≤ 1 + 4 * quantum := by
      rw [quantum_eq]
      norm_num
    have hcover := hhigh.trans (mul_le_mul_of_nonneg_left hpow
      (by linarith : 0 ≤ p.year.totalCashFlow.value + 3 * (2 * next)))
    have hgrid' := (onGrid_value p.year.totalCashFlow).sub (onGrid_value p.year.lpDistribution)
    have hround := (abs_le.mp hgrid'.abs_nearest_sub_le).1
    rw [← value_sub hstep.gp_eq] at hround
    rw [quantum_eq] at hcover hround
    rcases abs_cases (p.year.totalCashFlow.value - p.year.lpDistribution.value) with h | h <;>
      linarith
  have htolerance : 0 ≤ p.year.totalCashFlow.value / 10 ^ 26 := by positivity
  have hlp₀ := howes.lp_ge
  have hgp₀ := howes.gp_ge
  refine ⟨fun a ha => ?_, ?_, hside, ?_, ?_, ?_, ?_⟩
  · rcases hs.payment_cases haccepted hshare a ha with ⟨hlp, hgp⟩ | ⟨-, owed, hpay⟩
    · constructor <;> linarith
    · have hreturned := hs.returned ho hslack hpay
      constructor <;> linarith [hreturned.toLp_ge, hreturned.toGp_ge]
  all_goals linarith

end Bounded

end Waterfall

end PropertyFinance
