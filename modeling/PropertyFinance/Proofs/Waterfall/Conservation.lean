import PropertyFinance.Proofs.Decimal.Recomposition
import PropertyFinance.Proofs.Waterfall.Balances

/-! The two sides of a year add up to its cash. The general partner's side is the cash less the
limited partners' one, so this rests on how far the latter can be from the cash: the payments to
the limited partners exceed the cash by a rounding error at most, and are negative only where a
return of capital charges them for what they were overpaid before. -/

namespace PropertyFinance
open Decimal
set_option autoImplicit false

/-- A small amount by which a partner may have been overpaid; it is a decimal itself. -/
structure Allowance (c : ℚ) : Prop where
  grid : OnGrid c
  nonneg : 0 ≤ c
  le_four : c ≤ 4

theorem allowance_four : Allowance 4 :=
  ⟨⟨40000000000000000000000000000, by norm_num [quantum_eq]⟩, by norm_num, le_refl _⟩

/-- Rounding raises a number that is hardly negative by a small part of it. -/
theorem Allowance.nearest_bounds {c x : ℚ} (hc : Allowance c) (hx : OnGrid x) (hge : -c ≤ x) :
    -c ≤ nearest x ∧ nearest x ≤ x + quantum * (x + 2 * c) := by
  have hc₀ := hc.nonneg
  constructor
  · have hself := hc.grid.neg.nearest_eq (by
      rw [abs_neg, abs_of_nonneg hc₀]
      linarith [hc.le_four])
    rw [← hself]
    exact nearest_mono hge
  · have hround := (abs_le.mp hx.abs_nearest_sub_le).2
    have habs : |x| ≤ x + 2 * c := abs_le.mpr ⟨by linarith, by linarith⟩
    rw [quantum_eq] at *
    linarith

namespace Division

variable {d e : Division} {c cash : ℚ} {k : Nat} {terms : WaterfallTerms}

/-- A return of capital took something back from the limited partners. -/
def ChargesLp (payments : List Allocation) : Prop :=
  ∃ a ∈ payments, a.tier = .returnOfCapital ∧ a.toLp < .zero

/-- What the limited partners were paid and what is left of the cash, after `k` roundings and up to an
allowance. -/
structure Covers (c cash : ℚ) (k : Nat) (d : Division) : Prop where
  remaining_nonneg : 0 ≤ d.remaining.value
  lpPaid_ge : -c ≤ d.lpPaid.value
  total_le : d.lpPaid.value + d.remaining.value + 2 * c ≤ (cash + 3 * c) * (1 + quantum) ^ k
  sum_eq : ∀ s, Decimal.sum (d.allocations.map Allocation.toLp) = .ok s →
    s.value = d.lpPaid.value
  charges : d.lpPaid.value < 0 → ChargesLp d.allocations

theorem Covers.idle (hc : Allowance c) (h : d.Covers c cash k) : d.Covers c cash (k + 1) := by
  refine ⟨h.remaining_nonneg, h.lpPaid_ge, h.total_le.trans ?_, h.sum_eq, h.charges⟩
  have hbound : 0 ≤ (cash + 3 * c) * (1 + quantum) ^ k := by
    linarith [h.total_le, h.lpPaid_ge, h.remaining_nonneg, hc.nonneg]
  rw [pow_succ, ← mul_assoc]
  linarith [mul_nonneg hbound quantum_pos.le]

theorem ChargesLp.append {xs : List Allocation} (h : ChargesLp xs) (a : Allocation) :
    ChargesLp (xs ++ [a]) := by
  obtain ⟨b, hb, hcharge⟩ := h
  exact ⟨b, List.mem_append_left _ hb, hcharge⟩

/-- One more payment to the limited partners. -/
theorem Covers.add_payment (hc : Allowance c) (hd : d.Covers c cash k) {payment paid : Decimal}
    (hpos : 0 ≤ payment.value) (hpaid : paid.value = nearest (d.lpPaid.value + payment.value)) :
    -c ≤ paid.value ∧
      paid.value ≤ d.lpPaid.value + payment.value
        + quantum * (d.lpPaid.value + payment.value + 2 * c) ∧
      (paid.value < 0 → ChargesLp d.allocations) := by
  have hround := hc.nearest_bounds ((onGrid_value d.lpPaid).add (onGrid_value payment))
    (by linarith [hd.lpPaid_ge])
  rw [← hpaid] at hround
  refine ⟨hround.1, hround.2, fun hneg => hd.charges ?_⟩
  by_contra hnonneg
  rw [hpaid] at hneg
  exact absurd (nearest_nonneg (add_nonneg (Rat.not_lt.mp hnonneg) hpos)) (Rat.not_le.mpr hneg)

theorem covers_start (hc : Allowance c) (hrem : d.remaining.value = cash)
    (hpaid : d.lpPaid = .zero) (hnil : d.allocations = []) (hcash : 0 < cash) :
    d.Covers c cash 0 := by
  have hc₀ := hc.nonneg
  refine ⟨hrem ▸ hcash.le, ?_, ?_, ?_, ?_⟩
  · rw [hpaid, value_zero]
    linarith
  · rw [hpaid, value_zero, hrem]
    linarith
  · intro s hsum
    rw [hnil] at hsum
    rw [← pure_eq_ok.mp hsum, hpaid]
  · intro hneg
    rw [hpaid, value_zero] at hneg
    exact absurd hneg (lt_irrefl _)

/-- A return of capital pays the limited partners no more than the cash it takes, up to an
allowance. -/
def ReturnsWithin (c : ℚ) (d e : Division) : Prop :=
  ∀ owed toLp toGp, ReturnsCapital d e owed toLp toGp →
    -c ≤ toLp.value ∧ toLp.value ≤ min d.remaining.value owed.value + c

/-- The first payment of the year. -/
theorem returnCapital_covers (hc : Allowance c) (hrem : d.remaining.value = cash)
    (hpaid : d.lpPaid = .zero) (hnil : d.allocations = []) (hcash : 0 < cash)
    (hwithin : ReturnsWithin c d e) (h : d.returnCapital = .ok e) : e.Covers c cash 1 := by
  have hc₀ := hc.nonneg
  rcases returnCapital_cases h with ⟨owed, -, -, rfl⟩ | ⟨owed, toLp, toGp, hpay⟩
  · exact (covers_start hc hrem hpaid hnil hcash).idle hc
  · have hlp : e.lpPaid.value = toLp.value := by
      rw [hpay.lpPaid_eq, hpaid, value_zero, zero_add, nearest_value]
    obtain ⟨hge, hle⟩ := hwithin owed toLp toGp hpay
    have hused₀ := le_min hpay.cash_pos.le hpay.owed_pos.le
    have hused₁ := min_le_left d.remaining.value owed.value
    have hround := (hc.nearest_bounds (x := d.remaining.value
      - min d.remaining.value owed.value) (by
        rw [← value_min]
        exact (onGrid_value _).sub (onGrid_value _)) (by linarith)).2
    rw [← hpay.remaining_eq] at hround
    refine ⟨?_, hlp ▸ hge, ?_, ?_, fun hneg => ?_⟩
    · rw [hpay.remaining_eq]
      exact nearest_nonneg (by linarith)
    · rw [hlp, pow_one, ← hrem]
      linarith [mul_nonneg quantum_pos.le hused₀, mul_nonneg quantum_pos.le hc₀]
    · intro s hsum
      rw [hpay.allocations_eq, hnil, List.map_append] at hsum
      obtain ⟨none, hnone, hadd⟩ := sum_append_eq_ok.mp hsum
      rw [value_add hadd, ← pure_eq_ok.mp hnone, value_zero, zero_add, nearest_value, hlp]
    · rw [hlp] at hneg
      refine ⟨⟨.returnOfCapital, toLp, toGp⟩, ?_, rfl, ?_⟩
      · rw [hpay.allocations_eq]
        exact List.mem_append_right _ List.mem_cons_self
      · exact lt_zero_iff.mpr hneg

theorem payPref_covers (hc : Allowance c) (hd : d.Covers c cash k) (h : d.payPref = .ok e) :
    e.Covers c cash (k + 1) := by
  rcases payPref_cases h with ⟨-, rfl⟩ | ⟨toLp, hpay⟩
  · exact hd.idle hc
  · have hle : toLp.value ≤ d.remaining.value := hpay.toLp_eq ▸ min_le_left _ _
    have hpos : 0 ≤ toLp.value := hpay.toLp_eq ▸ le_min hpay.cash_pos.le hpay.accrued_pos.le
    obtain ⟨hlow, hround₁, hcharges⟩ := hd.add_payment hc hpos hpay.lpPaid_eq
    have hround₂ := (abs_le.mp ((onGrid_value d.remaining).sub
      (onGrid_value toLp)).abs_nearest_sub_le).2
    rw [← hpay.remaining_eq, abs_of_nonneg (sub_nonneg.mpr hle)] at hround₂
    refine ⟨?_, hlow, ?_, ?_, fun hneg => ?_⟩
    · rw [hpay.remaining_eq]
      exact nearest_nonneg (by linarith)
    · rw [pow_succ, ← mul_assoc]
      have := mul_le_mul_of_nonneg_left hd.total_le quantum_pos.le
      have := mul_nonneg quantum_pos.le (sub_nonneg.mpr hle)
      linarith [hd.total_le]
    · intro s hsum
      rw [hpay.allocations_eq, List.map_append] at hsum
      obtain ⟨s', hs', hadd⟩ := sum_append_eq_ok.mp hsum
      rw [value_add hadd, hd.sum_eq s' hs', hpay.lpPaid_eq]
    · rw [hpay.allocations_eq]
      exact (hcharges hneg).append _

theorem catchUp_covers (hd : d.Covers c cash k) (h : d.catchUp terms = .ok e) :
    e.Covers c cash k := by
  rcases catchUp_cases h with ⟨rfl, -⟩ | ⟨target, shortfall, toGp, hpay⟩
  · exact hd
  · have hle : toGp.value ≤ d.remaining.value := hpay.toGp_eq ▸ min_le_left _ _
    have hpos : 0 ≤ toGp.value := hpay.toGp_eq ▸ le_min hpay.cash_pos.le hpay.shortfall_pos.le
    have hrem : e.remaining.value ≤ d.remaining.value := by
      rw [hpay.remaining_eq]
      exact nearest_le_value (by linarith)
    refine ⟨?_, ?_, ?_, ?_, ?_⟩
    · rw [hpay.remaining_eq]
      exact nearest_nonneg (by linarith)
    · rw [hpay.lpPaid_eq]
      exact hd.lpPaid_ge
    · rw [hpay.lpPaid_eq]
      linarith [hd.total_le]
    · intro s hsum
      rw [hpay.allocations_eq, List.map_append] at hsum
      obtain ⟨s', hs', hadd⟩ := sum_append_eq_ok.mp hsum
      rw [value_add hadd, value_zero, add_zero, nearest_value, hd.sum_eq s' hs', hpay.lpPaid_eq]
    · intro hneg
      rw [hpay.lpPaid_eq] at hneg
      rw [hpay.allocations_eq]
      exact (hd.charges hneg).append _

/-- The limited partners' side of the year. -/
theorem splitRest_covers {tiers : List PromoteTier} {lpShare lp : Decimal}
    {lpFlows : List Decimal} (hc : Allowance c) (hd : d.Covers c cash k) (haccepted : ∀ t ∈ tiers,
      isPercentage t.gpSplitPct = true) (hshare : 0 ≤ lpShare.value ∧ lpShare.value ≤ 1)
    (h : d.splitRest tiers lpShare lpFlows = .ok e)
    (hlp : Decimal.sum (e.allocations.map Allocation.toLp) = .ok lp) :
    -c ≤ lp.value ∧ lp.value + 2 * c ≤ (cash + 3 * c) * (1 + quantum) ^ (k + 1) ∧
      (lp.value < 0 → ChargesLp e.allocations) := by
  rcases splitRest_cases h with ⟨-, rfl⟩ | ⟨tier, toLp, toGp, hpay⟩
  · rw [hd.sum_eq lp hlp]
    refine ⟨hd.lpPaid_ge, ?_, hd.charges⟩
    linarith [(hd.idle hc).total_le, hd.remaining_nonneg]
  · obtain ⟨hgp₀, hgp₁⟩ := residual_bounds hpay.residual_eq haccepted hshare hpay.cash_pos.le
    have hpos : 0 ≤ toLp.value := by
      rw [hpay.toLp_eq]
      exact nearest_nonneg (by linarith)
    have hle : toLp.value ≤ d.remaining.value := by
      rw [hpay.toLp_eq]
      exact nearest_le_value (by linarith)
    rw [hpay.allocations_eq, List.map_append] at hlp
    obtain ⟨s, hs, hadd⟩ := sum_append_eq_ok.mp hlp
    have hvalue := value_add hadd
    rw [hd.sum_eq s hs] at hvalue
    obtain ⟨hlow, hround, hcharges⟩ := hd.add_payment hc hpos hvalue
    refine ⟨hlow, ?_, fun hneg => ?_⟩
    · rw [pow_succ, ← mul_assoc]
      have := mul_le_mul_of_nonneg_left hd.total_le quantum_pos.le
      have := mul_le_mul_of_nonneg_left hle quantum_pos.le
      linarith [hd.total_le]
    · rw [hpay.allocations_eq]
      exact (hcharges hneg).append _

end Division

namespace Waterfall
open Division

variable {terms : WaterfallTerms} {tiers : List PromoteTier} {lpShare : Decimal} {p : Passage}
  {cashFlows : List Decimal} {results : WaterfallResults}

section Stages
variable {c : ℚ} {d₀ d₁ d₂ d₃ d₄ : Division} (hs : Stages terms tiers lpShare p d₀ d₁ d₂ d₃ d₄)
  (hcash : 0 < p.year.totalCashFlow.value) (hc : Allowance c) (hwithin : ReturnsWithin c d₀ d₁)
include hs hcash hc hwithin

theorem Stages.covers : d₃.Covers c p.year.totalCashFlow.value 2 := by
  obtain ⟨hrem, hpaid, hnil, -, -⟩ := hs.start
  have h₁ := returnCapital_covers hc (congrArg value hrem) hpaid hnil hcash hwithin hs.capital
  exact catchUp_covers (payPref_covers hc h₁ hs.pref) hs.catchUp

/-- The limited partners' side of a year, up to an allowance for the return of capital. -/
theorem Stages.lp_within (hstep : Steps terms tiers lpShare p)
    (haccepted : ∀ t ∈ tiers, isPercentage t.gpSplitPct = true)
    (hshare : 0 ≤ lpShare.value ∧ lpShare.value ≤ 1) :
    -c ≤ p.year.lpDistribution.value ∧
      p.year.lpDistribution.value + 2 * c
        ≤ (p.year.totalCashFlow.value + 3 * c) * (1 + quantum) ^ 3 ∧
      (p.year.lpDistribution.value < 0 → ChargesLp p.year.allocations) := by
  have h₃ := hs.covers hcash hc hwithin
  have hsum := hstep.lp_eq
  rw [hs.allocations_eq] at hsum ⊢
  exact splitRest_covers hc h₃ haccepted hshare hs.rest hsum

end Stages

theorem Stages.lp_bounds {d₀ d₁ d₂ d₃ d₄ : Division}
    (hs : Stages terms tiers lpShare p d₀ d₁ d₂ d₃ d₄) (hstep : Steps terms tiers lpShare p)
    (hcash : 0 < p.year.totalCashFlow.value) (hsteady : p.before.balances.Steady)
    (haccepted : ∀ t ∈ tiers, isPercentage t.gpSplitPct = true)
    (hshare : 0 ≤ lpShare.value ∧ lpShare.value ≤ 1) :
    -4 ≤ p.year.lpDistribution.value ∧
      p.year.lpDistribution.value ≤ 101 / 100 * p.year.totalCashFlow.value + 5 ∧
      (p.year.lpDistribution.value < 0 → ChargesLp p.year.allocations) := by
  obtain ⟨-, -, -, hlp, hgp⟩ := hs.start
  have hsteady₀ : d₀.balances.Steady := by rwa [Balances.Steady, hlp, hgp]
  obtain ⟨hlow, hhigh, hcharges⟩ := hs.lp_within hcash allowance_four
    (fun _ _ _ hpay => hpay.toLp_bounds hsteady₀) hstep haccepted hshare
  refine ⟨hlow, ?_, hcharges⟩
  have hpow : (1 + quantum) ^ 3 ≤ 101 / 100 := by
    rw [quantum_eq]
    norm_num
  have := mul_le_mul_of_nonneg_left hpow (by linarith : 0 ≤ p.year.totalCashFlow.value + 3 * 4)
  linarith

/-- A year's sides that overpay the limited partners by little come to its cash. -/
theorem recompose_year {total lp gp : Decimal} (hdigits : HasDigits 27 total.value)
    (htotal : 0 < total.value) (hgp : total.sub lp = .ok gp) (hlow : 0 ≤ lp.value)
    (hhigh : lp.value ≤ 101 / 100 * total.value + 5) : ∃ t, lp.add gp = .ok t ∧ t.Same total := by
  apply exists_add_eq
  rw [value_sub hgp]
  refine ⟨fits_recompose hdigits htotal.le _, recompose_of_nonneg hdigits hlow ?_⟩
  rcases le_or_gt lp.value (2 * total.value) with h | h
  · exact Or.inl h
  · right
    rw [abs_lt]
    constructor <;> linarith

/-- Where the limited partners are charged, only the rounding of a large rest is lost. -/
theorem recompose_charged {total lp gp : Decimal} (hdigits : HasDigits 27 total.value)
    (htotal : 0 < total.value) (hgp : total.sub lp = .ok gp) (hlow : -4 ≤ lp.value)
    (hneg : lp.value < 0) :
    ∃ t, lp.add gp = .ok t ∧ (t.Same total ∨ (gp.value ≠ total.value - lp.value ∧
      |t.value - total.value| ≤ 1 / 10 ^ 27 * total.value)) := by
  have hvalue := value_sub hgp
  obtain ⟨t, ht⟩ := add_isOk (hvalue ▸ fits_recompose hdigits htotal.le lp.value)
  have hsum := value_add ht
  refine ⟨t, ht, ?_⟩
  by_cases hexact : gp.value = total.value - lp.value
  · left
    rw [same_iff_value_eq, hsum, hexact, add_sub_cancel, nearest_value]
  · right
    refine ⟨hexact, ?_⟩
    have hgrid := (onGrid_value total).sub (onGrid_value lp)
    have hlarge : 79 / 10 ≤ total.value - lp.value := by
      by_contra hsmall
      apply hexact
      rw [hvalue]
      apply hgrid.nearest_eq
      rw [abs_of_nonneg (by linarith)]
      exact Rat.not_le.mp hsmall
    have hround := abs_le.mp hgrid.abs_nearest_sub_le
    rw [← hvalue, abs_of_nonneg (by linarith)] at hround
    have hround' := abs_le.mp ((onGrid_value lp).add (onGrid_value gp)).abs_nearest_sub_le
    rw [quantum_eq] at hround hround'
    rw [← hsum, abs_of_nonneg (by linarith [hround.1])] at hround'
    rw [abs_le]
    constructor <;> linarith [hround.1, hround.2, hround'.1, hround'.2]

/-- What is called in is a share of the total. -/
theorem Calls.recompose (hc : Calls lpShare p) (h : Steps terms tiers lpShare p)
    (hshare : 0 ≤ lpShare.value ∧ lpShare.value ≤ 1)
    (hdigits : HasDigits 27 p.year.totalCashFlow.value) :
    ∃ t, p.year.lpDistribution.add p.year.gpDistribution = .ok t ∧ t.Same p.year.totalCashFlow := by
  obtain ⟨toLp, toGp, hall, hlp, -⟩ := hc.allocation
  have hcash := hc.cash_nonpos
  have hsum := h.lp_eq
  rw [hall] at hsum
  change Decimal.sum ([] ++ [toLp]) = _ at hsum
  obtain ⟨none, hnone, hadd⟩ := sum_append_eq_ok.mp hsum
  have hvalue := value_add hadd
  rw [← pure_eq_ok.mp hnone, value_zero, zero_add, nearest_value, hlp] at hvalue
  have hge : p.year.totalCashFlow.value ≤ p.year.lpDistribution.value := by
    rw [hvalue]
    apply value_le_nearest
    linarith [mul_le_mul_of_nonpos_left hshare.2 hcash]
  have hle : p.year.lpDistribution.value ≤ 0 := by
    rw [hvalue, ← nearest_zero]
    exact nearest_mono (mul_nonpos_of_nonpos_of_nonneg hcash hshare.1)
  have hsides := recompose_of_nonpos hdigits hge hle
  rw [← value_sub h.gp_eq] at hsides
  exact exists_add_eq hsides

theorem Steps.recompose (h : Steps terms tiers lpShare p) (hsteady : p.before.balances.Steady)
    (haccepted : ∀ t ∈ tiers, isPercentage t.gpSplitPct = true)
    (hshare : 0 ≤ lpShare.value ∧ lpShare.value ≤ 1)
    (hdigits : HasDigits 27 p.year.totalCashFlow.value) :
    ∃ t, p.year.lpDistribution.add p.year.gpDistribution = .ok t ∧
      (t.Same p.year.totalCashFlow ∨
        (p.year.lpDistribution < .zero ∧ ChargesLp p.year.allocations ∧
          p.year.gpDistribution.value ≠ p.year.totalCashFlow.value - p.year.lpDistribution.value ∧
          |t.value - p.year.totalCashFlow.value|
            ≤ 1 / 10 ^ 27 * p.year.totalCashFlow.value)) := by
  rcases h.cases with hcall | ⟨hcash, d₀, d₁, d₂, d₃, d₄, hstages⟩
  · obtain ⟨t, ht, hsame⟩ := hcall.recompose h hshare hdigits
    exact ⟨t, ht, Or.inl hsame⟩
  · obtain ⟨hlow, hhigh, hcharges⟩ := hstages.lp_bounds h hcash hsteady haccepted hshare
    rcases lt_or_ge p.year.lpDistribution.value 0 with hneg | hnonneg
    · obtain ⟨t, ht, hsame | ⟨hinexact, herror⟩⟩ := recompose_charged hdigits hcash h.gp_eq hlow hneg
      · exact ⟨t, ht, Or.inl hsame⟩
      · refine ⟨t, ht, Or.inr ⟨?_, hcharges hneg, hinexact, herror⟩⟩
        exact lt_zero_iff.mpr hneg
    · obtain ⟨t, ht, hsame⟩ := recompose_year hdigits hcash h.gp_eq hnonneg hhigh
      exact ⟨t, ht, Or.inl hsame⟩

theorem Stakes.Of.recompose {s : Stakes} (hs : s.Of terms)
    (hdigits : HasDigits 27 terms.totalEquity.value) :
    ∃ t, s.lpEquity.add s.gpEquity = .ok t ∧ t.Same terms.totalEquity := by
  have hgp := hs.gpEquity_nonneg
  have htotal := hgp.trans hs.gpEquity_le
  apply exists_add_eq
  rw [hs.lpEquity_eq, add_comm]
  exact ⟨fits_recompose hdigits htotal _,
    recompose_of_nonneg hdigits hgp (Or.inl (by linarith [hs.gpEquity_le]))⟩

/-- In every run the two sides of a year come to its cash, and the equities of both to the total.
The exception is a year that charges the limited partners for capital returned before and whose
rest for the general partner is rounded: there the sum may be off, but by no more than the last
digits. -/
theorem sides_recompose (h : distribute terms cashFlows = .ok results)
    (hequity : terms.totalEquity.value ≤ 10 ^ 15) :
    (∀ year ∈ results.years, HasDigits 27 year.totalCashFlow.value →
      ∃ t, year.lpDistribution.add year.gpDistribution = .ok t ∧
        (t.Same year.totalCashFlow ∨
          (year.lpDistribution < .zero ∧
            (∃ a ∈ year.allocations, a.tier = .returnOfCapital ∧ a.toLp < .zero) ∧
            year.gpDistribution.value ≠ year.totalCashFlow.value - year.lpDistribution.value ∧
            |t.value - year.totalCashFlow.value| ≤ 1 / 10 ^ 27 * year.totalCashFlow.value))) ∧
    (HasDigits 27 terms.totalEquity.value →
      ∃ t, results.lpEquity.add results.gpEquity = .ok t ∧ t.Same terms.totalEquity) := by
  obtain ⟨hacc, s, hs, hlp, hgp, ps, -, hps, hyears⟩ := cases_of_distribute h
  constructor
  · intro year hyear
    rw [hyears] at hyear
    obtain ⟨p, hp, rfl⟩ := List.mem_map.mp hyear
    obtain ⟨hsteady, -, hstep⟩ := forall_passages (I := fun state => state.balances.Steady) hps
      (hs.steady hequity) (fun _ hbefore hstep => hstep.steady hbefore) p hp
    exact hstep.recompose hsteady
      (fun t ht => hacc.gpSplit t (WaterfallTerms.mem_orderedTiers.mp ht))
      ⟨hs.lpShare_nonneg, hs.lpShare_le⟩
  · rw [hlp, hgp]
    exact hs.recompose

/-- A run with a call, a short year and one that reaches the split. -/
theorem sides_recompose_three_years :
    ∃ results, distribute ⟨.hundred, .ofScaled 10 0, .ofScaled 8 0, .zero, []⟩
        [.ofScaled (-5) 1, .ofScaled 3333 2, .hundred] = .ok results ∧
      (∀ year ∈ results.years, HasDigits 27 year.totalCashFlow.value →
        ∃ t, year.lpDistribution.add year.gpDistribution = .ok t ∧
          (t.Same year.totalCashFlow ∨
            (year.lpDistribution < .zero ∧
              (∃ a ∈ year.allocations, a.tier = .returnOfCapital ∧ a.toLp < .zero) ∧
              year.gpDistribution.value ≠ year.totalCashFlow.value - year.lpDistribution.value ∧
              |t.value - year.totalCashFlow.value|
                ≤ 1 / 10 ^ 27 * year.totalCashFlow.value))) ∧
      (HasDigits 27 hundred.value →
        ∃ t, results.lpEquity.add results.gpEquity = .ok t ∧ t.Same .hundred) := by
  obtain ⟨results, h⟩ := exists_of_isOk (x := distribute
    ⟨.hundred, .ofScaled 10 0, .ofScaled 8 0, .zero, []⟩
    [.ofScaled (-5) 1, .ofScaled 3333 2, .hundred]) (by decide +kernel)
  exact ⟨results, h, sides_recompose h (by norm_num)⟩

/-- The exception does occur. The first two years return a little too much to the limited partners;
the third takes it back, and its rest for the general partner has 29 digits. -/
theorem sides_not_recomposed_when_charged :
    ∃ results, distribute ⟨.hundred, .ofScaled 90 0, .zero, .zero, [⟨.zero, .hundred⟩]⟩
        [.ofScaled 9999999999999997 14, .ofScaled 2 14,
          .ofScaled 792281625142643375935439503 26] = .ok results ∧
      ∃ year ∈ results.years, HasDigits 27 year.totalCashFlow.value ∧
        ∃ t, year.lpDistribution.add year.gpDistribution = .ok t ∧ ¬ t.Same year.totalCashFlow := by
  obtain ⟨results, hresults, hcheck⟩ := exists_of_any (x := distribute
    ⟨.hundred, .ofScaled 90 0, .zero, .zero, [⟨.zero, .hundred⟩]⟩
    [.ofScaled 9999999999999997 14, .ofScaled 2 14, .ofScaled 792281625142643375935439503 26])
    (p := fun results => results.years.any fun year =>
      decide (year.totalCashFlow = .ofScaled 792281625142643375935439503 26) &&
        (year.lpDistribution.add year.gpDistribution).toOption.any fun t : Decimal =>
          decide (¬ t.Same year.totalCashFlow)) (by decide +kernel)
  obtain ⟨year, hyear, hcheck⟩ := List.any_eq_true.mp hcheck
  rw [Bool.and_eq_true, decide_eq_true_eq] at hcheck
  obtain ⟨htotal, hcheck⟩ := hcheck
  obtain ⟨t, ht, hdiffers⟩ := exists_of_any hcheck
  refine ⟨results, hresults, year, hyear, ?_, t, ht, of_decide_eq_true hdiffers⟩
  rw [htotal, value_ofScaled (by decide) (by decide)]
  exact ⟨792281625142643375935439503, -26, by norm_num, by norm_num⟩

end Waterfall

end PropertyFinance
