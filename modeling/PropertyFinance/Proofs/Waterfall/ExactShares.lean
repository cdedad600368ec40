import PropertyFinance.Proofs.Decimal.Places
import PropertyFinance.Proofs.Waterfall.Conservation

/-! Money of a few places and rates of a few places are divided without any rounding. The two balances
then stay in the proportion of the equity all along, so a pro rata quota is the limited partners' share
of the cash itself, and neither partner is ever overpaid. -/

namespace PropertyFinance
open Decimal
set_option autoImplicit false

/-- Room for money of `m` places and `c` whole digits and rates of `b` places: a product of two amounts
with a rate, and of an amount with two rates, still fits. -/
structure Digits (m b c : Nat) : Prop where
  product : 2 * (m + c) + b ≤ 28
  accrual : m + 2 * b + c ≤ 28

/-- What both partners together are owed. -/
structure Capital (m c : Nat) (x : ℚ) : Prop where
  places : HasPlaces m x
  nonneg : 0 ≤ x
  le : x ≤ 10 ^ c

/-- The general partner's share of the equity. -/
structure Share (b : Nat) (share : ℚ) : Prop where
  places : HasPlaces b share
  nonneg : 0 ≤ share
  le_one : share ≤ 1

variable {m b c : Nat} {share x y : ℚ}

theorem Share.rest (h : Share b share) : Share b (1 - share) :=
  ⟨(hasPlaces_one b).sub h.places, by linarith [h.le_one], by linarith [h.nonneg]⟩

theorem Share.mul_mem (h : Share b share) (hx : Capital m c x) :
    0 ≤ share * x ∧ share * x ≤ x ∧ HasPlaces (m + b) (share * x) := by
  refine ⟨mul_nonneg h.nonneg hx.nonneg, mul_le_of_le_one_left hx.nonneg h.le_one, ?_⟩
  rw [mul_comm]
  exact hx.places.mul h.places

theorem Share.nearest_mul (hd : Digits m b c) (h : Share b share) (hx : Capital m c x) :
    nearest (share * x) = share * x := by
  obtain ⟨h₀, h₁, hplaces⟩ := h.mul_mem hx
  apply hplaces.nearest_eq (c := c) _ (by have := hd.product; omega)
  rw [abs_of_nonneg h₀]
  exact h₁.trans hx.le

theorem Capital.sub (hx : Capital m c x) (hy : Capital m c y) (h : y ≤ x) : Capital m c (x - y) :=
  ⟨hx.places.sub hy.places, by linarith, by linarith [hx.le, hy.nonneg]⟩

theorem Capital.min (hx : Capital m c x) (hy : Capital m c y) : Capital m c (min x y) :=
  ⟨hx.places.min hy.places, le_min hx.nonneg hy.nonneg, (min_le_left _ _).trans hx.le⟩

theorem Capital.nearest_eq (hd : Digits m b c) (hx : Capital m c x) : nearest x = x := by
  apply hx.places.nearest_eq (c := c) _ (by have := hd.product; omega)
  rw [abs_of_nonneg hx.nonneg]
  exact hx.le

/-- The quota of cash that falls short is the same share of it. -/
theorem quota_share (hd : Digits m b c) (h : Share b share) (hx : Capital m c x)
    (hy : Capital m c y) (hpos : 0 < y) : quota x (share * y) y = share * x := by
  obtain ⟨h₀, h₁, hplaces⟩ := h.mul_mem hy
  have hproduct : nearest (x * (share * y)) = x * (share * y) := by
    apply (hx.places.mul hplaces).nearest_eq (c := c + c) _ (by have := hd.product; omega)
    rw [abs_of_nonneg (mul_nonneg hx.nonneg h₀), pow_add]
    exact mul_le_mul hx.le (h₁.trans hy.le) h₀ (by positivity)
  have hquotient : x * (share * y) / y = share * x := by
    field_simp
  rw [quota, hproduct, hquotient, h.nearest_mul hd hx]

namespace Division
variable {d e : Division} {terms : WaterfallTerms} {owed : ℚ}

/-- The balances are the shares of what is owed to both. -/
structure Shared (m b c : Nat) (share : ℚ) (balances : Balances) (owed : ℚ) : Prop where
  capital : Capital m c owed
  lp_eq : balances.lpUnreturned.value = (1 - share) * owed
  gp_eq : balances.gpUnreturned.value = share * owed
  accrued : HasPlaces (m + 2 * b) balances.lpAccruedPref.value

/-- What a return of capital does with the cash it takes. -/
structure ReturnsShares (m b c : Nat) (share owed : ℚ) (d e : Division) (toLp toGp : Decimal) :
    Prop where
  paid : Capital m c (min d.remaining.value owed)
  toLp_eq : toLp.value = (1 - share) * min d.remaining.value owed
  toGp_eq : toGp.value = share * min d.remaining.value owed
  remaining_eq : e.remaining.value = d.remaining.value - min d.remaining.value owed
  after : Shared m b c share e.balances (owed - min d.remaining.value owed)

section Returns
variable {sum toLp toGp : Decimal} (h : ReturnsCapital d e sum toLp toGp) (hd : Digits m b c)
  (hs : Share b share) (hb : Shared m b c share d.balances owed)
  (hcash : Capital m c d.remaining.value)

include h hd hb in
theorem ReturnsCapital.owed_eq_of_shared : sum.value = owed := by
  rw [value_add h.owed_eq, hb.lp_eq, hb.gp_eq, ← add_mul, sub_add_cancel, one_mul]
  exact hb.capital.nearest_eq hd

include h hd hs hb hcash

theorem ReturnsCapital.shares : ReturnsShares m b c share owed d e toLp toGp := by
  have hsum := h.owed_eq_of_shared hd hb
  have hpaid : Capital m c (min d.remaining.value owed) := hcash.min hb.capital
  have htoLp : toLp.value = (1 - share) * min d.remaining.value owed := by
    rcases h.toLp_cases with ⟨hle, rfl⟩ | ⟨hlt, hquota⟩
    · rw [hb.lp_eq, min_eq_right (hsum ▸ hle)]
    · rw [hsum] at hlt hquota
      rw [hquota, hb.lp_eq, min_eq_left hlt.le]
      exact quota_share hd hs.rest hcash hb.capital (h.cash_pos.trans hlt)
  have htoGp : toGp.value = share * min d.remaining.value owed := by
    rw [h.toGp_eq, hsum, htoLp, ← one_sub_mul, sub_sub_cancel, hs.nearest_mul hd hpaid]
  have hleft := hb.capital.sub hpaid (min_le_right _ _)
  refine ⟨hpaid, htoLp, htoGp, ?_, hleft, ?_, ?_, ?_⟩
  · rw [h.remaining_eq, hsum]
    exact (hcash.sub hpaid (min_le_left _ _)).nearest_eq hd
  · rw [h.lpUnreturned_eq, hb.lp_eq, htoLp, ← mul_sub, hs.rest.nearest_mul hd hleft]
  · rw [h.gpUnreturned_eq, hb.gp_eq, htoGp, ← mul_sub, hs.nearest_mul hd hleft]
  · rw [h.lpAccruedPref_eq]
    exact hb.accrued

theorem ReturnsCapital.sides_of_shared :
    0 ≤ toLp.value ∧ toLp.value ≤ min d.remaining.value sum.value ∧ 0 ≤ toGp.value := by
  have hreturns := h.shares hd hs hb hcash
  obtain ⟨hlp₀, hlp₁, -⟩ := hs.rest.mul_mem hreturns.paid
  rw [h.owed_eq_of_shared hd hb, hreturns.toLp_eq, hreturns.toGp_eq]
  exact ⟨hlp₀, hlp₁, (hs.mul_mem hreturns.paid).1⟩

end Returns

theorem accruePref_shared (h : d.accruePref terms = .ok e)
    (hs : Share b share) (hrate : HasPlaces b (terms.preferredReturnPct.value / 100))
    (hb : Shared m b c share d.balances owed) : Shared m b c share e.balances owed := by
  obtain ⟨rate, hpercent, h⟩ := bind_eq_ok.mp h
  obtain ⟨interest, hinterest, h⟩ := bind_eq_ok.mp h
  obtain ⟨accrued, haccrued, h⟩ := bind_eq_ok.mp h
  obtain rfl := pure_eq_ok.mp h
  refine ⟨hb.capital, hb.lp_eq, hb.gp_eq, ?_⟩
  dsimp only
  rw [value_add haccrued, value_mul hinterest, value_percentToRate hpercent, hb.lp_eq]
  have hproduct := (hs.rest.mul_mem hb.capital).2.2.mul hrate.nearest
  rw [show m + b + b = m + 2 * b by omega] at hproduct
  exact (hb.accrued.add hproduct.nearest).nearest

/-- What the limited partners were paid and what is left come to at most the cash. -/
structure Exact (m b : Nat) (cash : ℚ) (d : Division) : Prop where
  lpPaid_places : HasPlaces (m + 2 * b) d.lpPaid.value
  remaining_places : HasPlaces (m + 2 * b) d.remaining.value
  lpPaid_nonneg : 0 ≤ d.lpPaid.value
  total_le : d.lpPaid.value + d.remaining.value ≤ cash

theorem ReturnsShares.exact {toLp toGp : Decimal} (h : ReturnsShares m b c share owed d e toLp toGp)
    (hs : Share b share) (hcash : Capital m c d.remaining.value)
    (hpaid : e.lpPaid.value = toLp.value) : Exact m b d.remaining.value e := by
  obtain ⟨hlp₀, hlp₁, hplaces⟩ := hs.rest.mul_mem h.paid
  rw [← h.toLp_eq, ← hpaid] at hlp₀ hlp₁ hplaces
  refine ⟨hplaces.mono (by omega), ?_, hlp₀, ?_⟩
  · rw [h.remaining_eq]
    exact (hcash.places.sub h.paid.places).mono (by omega)
  · rw [h.remaining_eq]
    linarith

theorem returnCapital_exact (h : d.returnCapital = .ok e) (hd : Digits m b c) (hs : Share b share)
    (hb : Shared m b c share d.balances owed) (hcash : Capital m c d.remaining.value)
    (hpaid : d.lpPaid = .zero) :
    (∃ left, left ≤ owed ∧ Shared m b c share e.balances left) ∧
      Exact m b d.remaining.value e := by
  rcases returnCapital_cases h with ⟨sum, -, -, rfl⟩ | ⟨sum, toLp, toGp, hpay⟩
  · refine ⟨⟨owed, le_refl _, hb⟩, ?_, hcash.places.mono (by omega), ?_, ?_⟩
    · rw [hpaid, value_zero]
      exact hasPlaces_zero _
    · rw [hpaid, value_zero]
    · rw [hpaid, value_zero, zero_add]
  · have hreturns := hpay.shares hd hs hb hcash
    refine ⟨⟨_, ?_, hreturns.after⟩, hreturns.exact hs hcash ?_⟩
    · linarith [hreturns.paid.nonneg]
    · rw [hpay.lpPaid_eq, hpaid, value_zero, zero_add, nearest_value]

/-- A preferred return of few places is taken off exactly. -/
theorem payPref_exact {cash : ℚ} (h : d.payPref = .ok e) (hd : Digits m b c) (hle : cash ≤ 10 ^ c)
    (hb : Shared m b c share d.balances owed) (hx : Exact m b cash d) :
    Shared m b c share e.balances owed ∧ Exact m b cash e := by
  rcases payPref_cases h with ⟨-, rfl⟩ | ⟨toLp, hpay⟩
  · exact ⟨hb, hx⟩
  · have hplaces : HasPlaces (m + 2 * b) toLp.value := by
      rw [hpay.toLp_eq]
      exact hx.remaining_places.min hb.accrued
    have hpos : 0 ≤ toLp.value := hpay.toLp_eq ▸ le_min hpay.cash_pos.le hpay.accrued_pos.le
    have hle' : toLp.value ≤ d.remaining.value := hpay.toLp_eq ▸ min_le_left _ _
    have hdigits : m + 2 * b + c ≤ 28 := hd.accrual
    have htotal := hx.total_le
    have hlp := hx.lpPaid_nonneg
    have hrem : e.remaining.value = d.remaining.value - toLp.value := by
      rw [hpay.remaining_eq]
      apply (hx.remaining_places.sub hplaces).nearest_eq _ hdigits
      rw [abs_of_nonneg (by linarith)]
      linarith
    have hpaid : e.lpPaid.value = d.lpPaid.value + toLp.value := by
      rw [hpay.lpPaid_eq]
      apply (hx.lpPaid_places.add hplaces).nearest_eq _ hdigits
      rw [abs_of_nonneg (by linarith)]
      linarith
    refine ⟨⟨hb.capital, ?_, ?_, ?_⟩, ?_, ?_, ?_, ?_⟩
    · rw [hpay.lpUnreturned_eq, hb.lp_eq]
    · rw [hpay.gpUnreturned_eq, hb.gp_eq]
    · rw [hpay.lpAccruedPref_eq]
      exact (hb.accrued.sub hplaces).nearest
    · rw [hpaid]
      exact hx.lpPaid_places.add hplaces
    · rw [hrem]
      exact hx.remaining_places.sub hplaces
    · linarith
    · linarith

theorem catchUp_total_le (h : d.catchUp terms = .ok e) :
    e.lpPaid.value + e.remaining.value ≤ d.lpPaid.value + d.remaining.value := by
  rcases catchUp_cases h with ⟨rfl, -⟩ | ⟨target, shortfall, toGp, hpay⟩
  · exact le_refl _
  · have hpos : 0 ≤ toGp.value := hpay.toGp_eq ▸ le_min hpay.cash_pos.le hpay.shortfall_pos.le
    have hle : e.remaining.value ≤ d.remaining.value := by
      rw [hpay.remaining_eq]
      exact nearest_le_value (by linarith)
    rw [hpay.lpPaid_eq]
    linarith

end Division

end PropertyFinance
