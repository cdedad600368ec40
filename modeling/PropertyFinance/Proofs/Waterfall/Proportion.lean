import PropertyFinance.Proofs.Waterfall.ProRata

/-! The proportion of the two balances over the years. A return of capital lets both fall by what it
pays, the limited partners' never grows in size, and the two keep their proportion up to a drift that
is the same every year, however long the run. -/

namespace PropertyFinance
open Decimal
set_option autoImplicit false

variable {equity share lp gp cash owed toLp toGp : ℚ}

namespace ProRata

/-- What is left to the limited partners is no larger in size than what they were owed. -/
theorem abs_lp_sub_le (h : ProRata lp gp cash owed toLp toGp) : |lp - toLp| ≤ |lp| := by
  rcases le_total |lp| 2 with hsmall | hlarge
  · rw [h.toLp_eq]
    exact abs_sub_quota_le h.lp_grid h.cash_pos h.cash_lt hsmall
  -- of a large balance the errors are at most half
  have howed := h.owed_pos
  have hinverse : quantum / (2 * owed) ≤ 1 / 4 := by
    rw [div_le_iff₀ (by positivity)]
    linarith [h.two_quantum_le_owed]
  have hshare₀ : 0 ≤ cash / owed := div_nonneg h.cash_pos.le howed.le
  have hshare₁ : cash / owed ≤ 1 := div_le_one_of_le₀ h.cash_lt.le howed.le
  have hexact := abs_share_mul_le hshare₀ hshare₁ (le_refl |lp|)
  have herror := abs_le.mp (h.abs_toLp_sub_share.trans (by
    rw [quantum_eq] at hinverse ⊢
    linarith : _ ≤ |lp| / 2))
  have hquota := h.toLp_eq
  rcases le_total 0 lp with hpos | hneg
  · have htoLp : 0 ≤ toLp := hquota ▸ quota_nonneg h.cash_pos.le hpos howed.le
    have hle := mul_le_of_le_one_left hpos hshare₁
    rw [abs_of_nonneg hpos] at *
    rw [abs_le]
    constructor <;> linarith [herror.2]
  · have htoLp : toLp ≤ 0 := by
      have := quota_nonneg h.cash_pos.le (neg_nonneg.mpr hneg) howed.le
      rw [quota_neg, ← hquota] at this
      linarith
    have hle := mul_le_of_le_one_left (neg_nonneg.mpr hneg) hshare₁
    rw [abs_of_nonpos hneg] at *
    rw [abs_le]
    constructor <;> linarith [herror.1]

theorem abs_lp_after_le (h : ProRata lp gp cash owed toLp toGp) : |nearest (lp - toLp)| ≤ |lp| := by
  have hself : nearest |lp| = |lp| := by rw [← abs_nearest, h.lp_self]
  rw [abs_nearest, ← hself]
  exact nearest_mono h.abs_lp_sub_le

/-- The general partner is not charged where the limited partners are owed at most half. -/
theorem gp_after_le_of_half (h : ProRata lp gp cash owed toLp toGp) (hhalf : 2 * lp ≤ owed) :
    nearest (gp - toGp) ≤ gp := by
  have hcash := h.cash_pos
  have hproduct : nearest (cash * lp) ≤ cash * owed := by
    rcases le_total 0 lp with hpos | hneg
    · have := nearest_le_two_mul (mul_nonneg hcash.le hpos)
      have := mul_le_mul_of_nonneg_left hhalf hcash.le
      linarith
    · have hle := nearest_mono (mul_nonpos_of_nonneg_of_nonpos hcash.le hneg)
      rw [nearest_zero] at hle
      exact hle.trans (mul_nonneg hcash.le h.owed_pos.le)
  have htoLp : toLp ≤ cash := by
    rw [h.toLp_eq, ← h.cash_self]
    apply nearest_mono
    rwa [h.cash_self, div_le_iff₀ h.owed_pos]
  have htoGp : 0 ≤ toGp := by
    rw [h.toGp_eq]
    exact nearest_nonneg (by linarith)
  calc nearest (gp - toGp) ≤ nearest gp := nearest_mono (by linarith)
    _ = gp := h.gp_self

end ProRata

/-- Balances of the size of the equity, which is at least one. -/
structure Sized (equity lp gp : ℚ) : Prop where
  equity_ge : 1 ≤ equity
  lp_le : |lp| ≤ equity
  gp_ge : -(2 * equity) ≤ gp
  gp_le : gp ≤ 4 * equity

/-- How far the limited partners' balance is from its share of both. -/
def imbalance (share lp gp : ℚ) : ℚ := lp - share * (lp + gp)

/-- The balances before and after a return of capital. -/
structure KeepsProportion (equity lp gp paid toLp lp' gp' : ℚ) : Prop where
  lp_le : |lp'| ≤ |lp|
  lp_eq : |lp' - (lp - toLp)| ≤ quantum * equity
  owed_eq : |lp' + gp' - (lp + gp - paid)| ≤ 25 * quantum * equity
  sized : Sized equity lp' gp'
  imbalance_le : ∀ share, 0 ≤ share → share ≤ 1 →
    |imbalance share lp' gp'| ≤ |imbalance share lp gp| + equity / 10 ^ 13

section Sizes
variable (hs : Sized equity lp gp)
include hs

theorem Sized.owed_le (hsum : |owed - (lp + gp)| ≤ quantum * owed) : owed ≤ 6 * equity := by
  have hle := (abs_le.mp hsum).2
  have := (abs_le.mp hs.lp_le).2
  have := hs.gp_le
  have := hs.equity_ge
  rw [quantum_eq] at hle
  linarith

/-- The rounding errors of the general partner's part and of both balances. -/
theorem Sized.owed_after {paid : ℚ} (hlp : OnGrid lp) (hgp : OnGrid gp) (hpaid : OnGrid paid)
    (htoLp : OnGrid toLp) (hpaid₀ : 0 ≤ paid) (hpaid₁ : paid ≤ 6 * equity)
    (hle : |lp - toLp| ≤ |lp|) (hrest : toGp = nearest (paid - toLp)) :
    |nearest (lp - toLp) - (lp - toLp)| ≤ quantum * equity ∧
      |nearest (lp - toLp) + nearest (gp - toGp) - (lp + gp - paid)| ≤ 25 * quantum * equity := by
  have hlp' := abs_le.mp hs.lp_le
  have hleft := abs_le.mp (hle.trans hs.lp_le)
  have hgp₀ := hs.gp_ge
  have hgp₁ := hs.gp_le
  have hequity := hs.equity_ge
  have hround₁ := (hlp.sub htoLp).rounding_le (hle.trans hs.lp_le)
  have hsize₂ : |paid - toLp| ≤ 8 * equity := by
    rw [abs_le]
    constructor <;> linarith [hlp'.1, hlp'.2, hleft.1, hleft.2]
  have hround₂ := abs_le.mp ((hpaid.sub htoLp).rounding_le hsize₂)
  rw [← hrest] at hround₂
  have hsize₃ : |gp - toGp| ≤ 14 * equity := by
    rw [quantum_eq] at hround₂
    rw [abs_le]
    constructor <;> linarith [hlp'.1, hlp'.2, hleft.1, hleft.2, hround₂.1, hround₂.2]
  have hround₃ := abs_le.mp ((hgp.sub (hrest ▸ onGrid_nearest _)).rounding_le hsize₃)
  refine ⟨hround₁, ?_⟩
  have hround₁ := abs_le.mp hround₁
  rw [abs_le]
  constructor <;> linarith [hround₁.1, hround₁.2, hround₂.1, hround₂.2, hround₃.1, hround₃.2]

end Sizes

/-- The new balances are as large as the old ones may be, if the general partner's does not grow or
little is owed after the payment. -/
theorem Sized.after {paid lp' gp' : ℚ} (hs : Sized equity lp gp) (hlp : |lp'| ≤ |lp|)
    (howed : |lp' + gp' - (lp + gp - paid)| ≤ 25 * quantum * equity)
    (hleft : -(6 * quantum * equity) ≤ lp + gp - paid)
    (hgp : gp' ≤ gp ∨ lp + gp - paid ≤ 5 / 2 * equity) : Sized equity lp' gp' := by
  have hlp' := abs_le.mp (hlp.trans hs.lp_le)
  have howed := abs_le.mp howed
  have hequity := hs.equity_ge
  rw [quantum_eq] at howed hleft
  refine ⟨hequity, hlp.trans hs.lp_le, by linarith [hlp'.2, howed.1], ?_⟩
  rcases hgp with hgp | hgp
  · linarith [hs.gp_le]
  · linarith [hlp'.1, howed.2]

namespace ProRata
variable (h : ProRata lp gp cash owed toLp toGp) (hs : Sized equity lp gp)
include h hs

theorem owed_after :
    |nearest (lp - toLp) - (lp - toLp)| ≤ quantum * equity ∧
      |nearest (lp - toLp) + nearest (gp - toGp) - (lp + gp - cash)| ≤ 25 * quantum * equity :=
  hs.owed_after h.lp_grid h.gp_grid h.cash_grid h.toLp_grid h.cash_pos.le
    (h.cash_lt.le.trans (hs.owed_le h.abs_owed_sub_le)) h.abs_lp_sub_le h.toGp_eq

theorem sized_after : Sized equity (nearest (lp - toLp)) (nearest (gp - toGp)) := by
  have hsum := abs_le.mp h.abs_owed_sub_le
  have howed := hs.owed_le h.abs_owed_sub_le
  have hcash := h.cash_lt
  have hequity := hs.equity_ge
  have hlp := abs_le.mp hs.lp_le
  have htiny : quantum * owed ≤ 6 * quantum * equity := by
    have := mul_le_mul_of_nonneg_left howed quantum_pos.le
    linarith
  refine hs.after h.abs_lp_after_le (h.owed_after hs).2 (by linarith [hsum.2]) ?_
  rcases le_total (2 * lp) owed with hhalf | hhalf
  · exact Or.inl (h.gp_after_le_of_half hhalf)
  · right
    rw [quantum_eq] at htiny hsum
    linarith [hsum.1, h.cash_pos]

section Share
variable (hshare₀ : 0 ≤ share) (hshare₁ : share ≤ 1)
include hshare₀ hshare₁

/-- The paid part of the imbalance is paid off; what the roundings add does not depend on it. -/
theorem imbalance_le_of_ample (hample : 1 / 10 ^ 14 ≤ owed) :
    |imbalance share (nearest (lp - toLp)) (nearest (gp - toGp))|
      ≤ |imbalance share lp gp| + equity / 10 ^ 13 := by
  obtain ⟨hlp, hboth⟩ := h.owed_after hs
  have hequity := hs.equity_ge
  have howed := h.owed_pos
  have hpart₀ : 0 ≤ cash / owed := div_nonneg h.cash_pos.le howed.le
  have hpart₁ : cash / owed ≤ 1 := div_le_one_of_le₀ h.cash_lt.le howed.le
  have hquota : |toLp - cash / owed * lp| ≤ 5 / 10 ^ 15 + quantum * (1 + 2 * equity) := by
    have hinverse : quantum / (2 * owed) ≤ 5 / 10 ^ 15 := by
      rw [div_le_iff₀ (by positivity), quantum_eq]
      linarith
    have hexact := mul_le_mul_of_nonneg_left (abs_share_mul_le hpart₀ hpart₁ hs.lp_le) quantum_pos.le
    have hpos := mul_nonneg quantum_pos.le (abs_nonneg (cash / owed * lp))
    linarith [h.abs_toLp_sub_share, quantum_pos]
  have hsum : |cash / owed * share * (lp + gp - owed)| ≤ 6 * quantum * equity := by
    apply abs_share_mul_le (mul_nonneg hpart₀ hshare₀) (mul_le_one₀ hpart₁ hshare₀ hshare₁)
    have := mul_le_mul_of_nonneg_left (hs.owed_le h.abs_owed_sub_le) quantum_pos.le
    rw [abs_sub_comm]
    linarith [h.abs_owed_sub_le]
  have hrest : |(1 - cash / owed) * imbalance share lp gp| ≤ |imbalance share lp gp| :=
    abs_share_mul_le (by linarith) (by linarith) (le_refl _)
  have hround : |share * (nearest (lp - toLp) + nearest (gp - toGp) - (lp + gp - cash))|
      ≤ 25 * quantum * equity := abs_share_mul_le hshare₀ hshare₁ hboth
  -- the first term is what an exact payment would leave; all others are rounding errors
  have hsplit : imbalance share (nearest (lp - toLp)) (nearest (gp - toGp))
      = (1 - cash / owed) * imbalance share lp gp - (toLp - cash / owed * lp)
        - cash / owed * share * (lp + gp - owed) + (nearest (lp - toLp) - (lp - toLp))
        - share * (nearest (lp - toLp) + nearest (gp - toGp) - (lp + gp - cash)) := by
    unfold imbalance
    field_simp
    ring
  have h₁ := abs_le.mp hrest
  have h₂ := abs_le.mp hquota
  have h₃ := abs_le.mp hsum
  have h₄ := abs_le.mp hlp
  have h₅ := abs_le.mp hround
  rw [hsplit, abs_le]
  rw [quantum_eq] at h₂ h₃ h₄ h₅
  constructor
  · linarith [h₁.1, h₂.2, h₃.2, h₄.1, h₅.2]
  · linarith [h₁.2, h₂.1, h₃.1, h₄.2, h₅.1]

/-- Where next to nothing is owed, the imbalance is all but the limited partners' balance. -/
theorem imbalance_le_of_little (hlittle : owed < 1 / 10 ^ 14) :
    |imbalance share (nearest (lp - toLp)) (nearest (gp - toGp))|
      ≤ |imbalance share lp gp| + equity / 10 ^ 13 := by
  have hboth := abs_le.mp (h.owed_after hs).2
  have hequity := hs.equity_ge
  have hsum := abs_le.mp h.abs_owed_sub_le
  have hcash₀ := h.cash_pos
  have hcash₁ := h.cash_lt
  rw [quantum_eq] at hsum hboth
  have hbefore : |share * (lp + gp)| ≤ 2 / 10 ^ 14 :=
    abs_share_mul_le hshare₀ hshare₁ (by rw [abs_le]; constructor <;> linarith [hsum.1, hsum.2])
  have hafter : |share * (nearest (lp - toLp) + nearest (gp - toGp))|
      ≤ 2 / 10 ^ 14 + 25 / 10 ^ 28 * equity :=
    abs_share_mul_le hshare₀ hshare₁ (by rw [abs_le]; constructor <;> linarith [hsum.1, hsum.2, hboth.1, hboth.2])
  have htri := abs_sub (nearest (lp - toLp)) (share * (nearest (lp - toLp) + nearest (gp - toGp)))
  have htri' := abs_sub_abs_le_abs_sub lp (share * (lp + gp))
  unfold imbalance
  linarith [h.abs_lp_after_le]

end Share

theorem keepsProportion :
    KeepsProportion equity lp gp cash toLp (nearest (lp - toLp)) (nearest (gp - toGp)) where
  lp_le := h.abs_lp_after_le
  lp_eq := (h.owed_after hs).1
  owed_eq := (h.owed_after hs).2
  sized := h.sized_after hs
  imbalance_le share hshare₀ hshare₁ := by
    rcases lt_or_ge owed (1 / 10 ^ 14) with hlittle | hample
    · exact h.imbalance_le_of_little hs hshare₀ hshare₁ hlittle
    · exact h.imbalance_le_of_ample hs hshare₀ hshare₁ hample

end ProRata

/-- All that is owed is returned, and nothing but rounding errors remains. -/
theorem keepsProportion_of_all (hs : Sized equity lp gp) (hlp : OnGrid lp) (hgp : OnGrid gp)
    (howed : owed = nearest (lp + gp)) (hpos : 0 < owed) (hrest : toGp = nearest (owed - lp)) :
    KeepsProportion equity lp gp owed lp (nearest (lp - lp)) (nearest (gp - toGp)) := by
  have hsum := (hlp.add hgp).abs_nearest_sub_le_nearest
  rw [← howed, abs_of_pos hpos] at hsum
  have hle := hs.owed_le hsum
  have hequity := hs.equity_ge
  have htiny := mul_le_mul_of_nonneg_left hle quantum_pos.le
  have hzero : |lp - lp| ≤ |lp| := by
    rw [sub_self, abs_zero]
    exact abs_nonneg lp
  obtain ⟨hround, hboth⟩ := hs.owed_after hlp hgp (howed ▸ onGrid_nearest _) hlp hpos.le hle hzero hrest
  have hnone : nearest (lp - lp) = 0 := by rw [sub_self, nearest_zero]
  have hsum' := abs_le.mp hsum
  have hafter : |nearest (lp - lp)| ≤ |lp| := by
    rw [hnone, abs_zero]
    exact abs_nonneg lp
  refine ⟨hafter, hround, hboth, ?_, fun share hshare₀ hshare₁ => ?_⟩
  · refine hs.after hafter hboth (by linarith [hsum'.2]) (Or.inr ?_)
    rw [quantum_eq] at htiny hsum'
    linarith [hsum'.1]
  · have hboth := abs_le.mp hboth
    have hpart : |share * (nearest (lp - lp) + nearest (gp - toGp))| ≤ equity / 10 ^ 13 := by
      apply abs_share_mul_le hshare₀ hshare₁
      rw [quantum_eq] at htiny hsum' hboth
      rw [abs_le]
      constructor <;> linarith [hboth.1, hboth.2, hsum'.1, hsum'.2]
    have := abs_nonneg (imbalance share lp gp)
    rw [imbalance, hnone, zero_sub, abs_neg, ← hnone]
    linarith

theorem keepsProportion_of_none (hs : Sized equity lp gp) : KeepsProportion equity lp gp 0 0 lp gp := by
  have hequity : 0 ≤ equity := by linarith [hs.equity_ge]
  have hquantum := mul_nonneg quantum_pos.le hequity
  refine ⟨le_refl _, ?_, ?_, hs, fun share _ _ => by linarith⟩
  · rwa [sub_zero, sub_self, abs_zero]
  · rw [sub_zero, sub_self, abs_zero]
    linarith

namespace Division

theorem ReturnsCapital.keepsProportion {d e : Division} {owed toLp toGp : Decimal}
    (h : ReturnsCapital d e owed toLp toGp)
    (hs : Sized equity d.balances.lpUnreturned.value d.balances.gpUnreturned.value) :
    KeepsProportion equity d.balances.lpUnreturned.value d.balances.gpUnreturned.value
      (min d.remaining.value owed.value) toLp.value e.balances.lpUnreturned.value
      e.balances.gpUnreturned.value := by
  have hrest := h.toGp_eq
  rw [h.lpUnreturned_eq, h.gpUnreturned_eq]
  rcases h.toLp_cases with ⟨hfull, rfl⟩ | ⟨hshort, -⟩
  · rw [min_eq_right hfull] at hrest ⊢
    exact keepsProportion_of_all hs (onGrid_value _) (onGrid_value _) (value_add h.owed_eq)
      h.owed_pos hrest
  · rw [min_eq_left hshort.le]
    exact (h.proRata hshort).keepsProportion hs

end Division

end PropertyFinance
