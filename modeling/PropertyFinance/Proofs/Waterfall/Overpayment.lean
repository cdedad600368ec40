import PropertyFinance.Proofs.Waterfall.Conservation

/-! How far rounding can overpay a partner. A pro rata quota is off by a few quanta relative to the
balances, and by half a quantum over what is owed; where next to nothing is owed, it is at most twice
the balance instead. So each year adds a little to what either partner may have been overpaid, and
later years charge no more than that. -/

namespace PropertyFinance
open Decimal
set_option autoImplicit false

/-- Neither partner has been overpaid by more than a bound, and no more than the equity is owed. -/
structure Owes (equity bound lp gp : ℚ) : Prop where
  lp_ge : -bound ≤ lp
  gp_ge : -bound ≤ gp
  sum_le : lp + gp ≤ equity + bound

/-- The bound in one year, and in the next. -/
structure Slack (equity bound next : ℚ) : Prop where
  equity_nonneg : 0 ≤ equity
  bound_nonneg : 0 ≤ bound
  next_ge : bound + 1 / 10 ^ 13 + equity / 10 ^ 26 ≤ next
  next_le : next ≤ 1

/-- What a return of capital pays, and the balances after it, up to the bound. -/
structure Returned (equity bound lp gp paid toLp toGp : ℚ) : Prop where
  toLp_ge : -(2 * bound) ≤ toLp
  toGp_ge : -(2 * bound) ≤ toGp
  toLp_le : toLp ≤ paid + 2 * bound
  lp_after_le : nearest (lp - toLp) ≤ lp + 2 * bound
  gp_after_le : nearest (gp - toGp) ≤ gp + 2 * bound
  owes : Owes equity bound (nearest (lp - toLp)) (nearest (gp - toGp))

variable {equity bound next lp gp cash owed toLp toGp : ℚ}

theorem abs_rounding_le {x size : ℚ} (hx : OnGrid x) (hsize : |x| ≤ 3 * size) :
    |nearest x - x| ≤ 2 * quantum * size := by
  have hround := hx.abs_nearest_sub_le
  have hmul := mul_le_mul_of_nonneg_left hsize quantum_pos.le
  rw [quantum_eq] at *
  linarith [abs_nonneg x]

theorem Owes.symm (h : Owes equity bound lp gp) : Owes equity bound gp lp :=
  ⟨h.gp_ge, h.lp_ge, by linarith [h.sum_le]⟩

section Sizes
variable (ho : Owes equity bound lp gp) (hs : Slack equity bound next)
include ho hs

theorem Owes.abs_lp_le : |lp| ≤ equity + 2 := by
  have := hs.next_ge
  have := hs.next_le
  have := hs.equity_nonneg
  have := ho.sum_le
  rw [abs_le]
  constructor <;> linarith [ho.lp_ge, ho.gp_ge]

theorem Owes.abs_gp_le : |gp| ≤ equity + 2 := ho.symm.abs_lp_le hs

theorem Owes.owed_le (howed : 0 < owed) (hsum : |owed - (lp + gp)| ≤ quantum * owed) :
    owed ≤ equity + 2 := by
  have hle := (abs_le.mp hsum).2
  have := hs.next_ge
  have := hs.next_le
  have := hs.bound_nonneg
  have := hs.equity_nonneg
  have := ho.sum_le
  rw [quantum_eq] at hle
  linarith

end Sizes

namespace ProRata
variable (h : ProRata lp gp cash owed toLp toGp) (ho : Owes equity bound lp gp)
  (hs : Slack equity bound next)
include h ho hs

section Ample
variable (hample : 1 / 10 ^ 14 ≤ owed)
include hample

/-- The product is rounded before it is divided, so its half quantum counts by the inverse of what
is owed. -/
theorem abs_toLp_sub_share_le :
    |toLp - cash / owed * lp| ≤ 6 / 10 ^ 15 + 2 * quantum * (equity + 2) := by
  have howed := h.owed_pos
  have hlp := abs_share_mul_le (div_nonneg h.cash_pos.le howed.le)
    (div_le_one_of_le₀ h.cash_lt.le howed.le) (ho.abs_lp_le hs)
  have hinverse : quantum / (2 * owed) ≤ 5 / 10 ^ 15 := by
    rw [div_le_iff₀ (by positivity), quantum_eq]
    linarith
  have hmul := mul_le_mul_of_nonneg_left hlp quantum_pos.le
  have hshare := h.abs_toLp_sub_share
  have hequity := hs.equity_nonneg
  rw [quantum_eq] at *
  linarith

theorem abs_rest_sub_share_le :
    |cash - toLp - cash / owed * gp| ≤ 6 / 10 ^ 15 + 3 * quantum * (equity + 2) := by
  have howed := h.owed_pos
  have hlp := h.abs_toLp_sub_share_le ho hs hample
  have hle := ho.owed_le hs howed h.abs_owed_sub_le
  have hsum : |cash - cash / owed * lp - cash / owed * gp| ≤ quantum * (equity + 2) := by
    have hsplit : cash - cash / owed * lp - cash / owed * gp
        = cash / owed * (owed - (lp + gp)) := by
      field_simp
      ring
    have hshare : 0 ≤ cash / owed := div_nonneg h.cash_pos.le howed.le
    rw [hsplit, abs_mul, abs_of_nonneg hshare]
    calc _ ≤ cash / owed * (quantum * owed) :=
          mul_le_mul_of_nonneg_left h.abs_owed_sub_le hshare
      _ = quantum * cash := by field_simp
      _ ≤ quantum * (equity + 2) :=
          mul_le_mul_of_nonneg_left (h.cash_lt.le.trans hle) quantum_pos.le
  have hlp' := abs_le.mp hlp
  have hsum' := abs_le.mp hsum
  rw [abs_le]
  constructor <;> linarith [hlp'.1, hlp'.2, hsum'.1, hsum'.2]

theorem returned_of_ample : Returned equity next lp gp cash toLp toGp := by
  have hlp := abs_le.mp (h.abs_toLp_sub_share_le ho hs hample)
  have hgp := abs_le.mp (h.abs_rest_sub_share_le ho hs hample)
  have hlpsize := abs_le.mp (ho.abs_lp_le hs)
  have hgpsize := abs_le.mp (ho.abs_gp_le hs)
  have hshare₀ : 0 ≤ cash / owed := div_nonneg h.cash_pos.le h.owed_pos.le
  have hshare₁ : cash / owed ≤ 1 := div_le_one_of_le₀ h.cash_lt.le h.owed_pos.le
  have hpart {x : ℚ} (hx : -bound ≤ x) :
      -bound ≤ cash / owed * x ∧ -bound ≤ x - cash / owed * x := by
    have h₁ := mul_nonneg hshare₀ (by linarith : 0 ≤ x + bound)
    have h₂ := mul_nonneg (by linarith : 0 ≤ 1 - cash / owed) (by linarith : 0 ≤ x + bound)
    have h₃ := mul_le_of_le_one_left hs.bound_nonneg hshare₁
    have h₄ := mul_nonneg hshare₀ hs.bound_nonneg
    constructor <;> linarith
  have hlppart := hpart ho.lp_ge
  have hgppart := hpart ho.gp_ge
  have hcash := h.cash_pos
  have hequity := hs.equity_nonneg
  have hbound := hs.bound_nonneg
  have hnext := hs.next_ge
  have hnext₁ := hs.next_le
  have hround {x : ℚ} (hx : OnGrid x) (hsize : |x| ≤ 3 * (equity + 2)) := abs_rounding_le hx hsize
  generalize cash / owed * lp = lpShare at *
  generalize cash / owed * gp = gpShare at *
  rw [quantum_eq] at hlp hgp hround
  have hround₁ := abs_le.mp (hround (h.cash_grid.sub h.toLp_grid)
    (by rw [abs_le]; constructor <;> linarith [hgp.1, hgp.2]))
  rw [← h.toGp_eq] at hround₁
  have hround₂ := abs_le.mp (hround (h.lp_grid.sub h.toLp_grid)
    (by rw [abs_le]; constructor <;> linarith [hlp.1, hlp.2]))
  have hround₃ := abs_le.mp (hround (h.gp_grid.sub h.toGp_grid)
    (by rw [abs_le]; constructor <;> linarith [hgp.1, hgp.2, hround₁.1, hround₁.2]))
  exact {
    toLp_ge := by linarith [hlp.1, hlppart.1]
    toGp_ge := by linarith [hround₁.1, hgp.1, hgppart.1]
    toLp_le := by linarith [hgp.1, hgppart.1]
    lp_after_le := by linarith [hround₂.2, hlp.1, hlppart.1]
    gp_after_le := by linarith [hround₃.2, hround₁.1, hgp.1, hgppart.1]
    owes := {
      lp_ge := by linarith [hround₂.1, hlp.2, hlppart.2]
      gp_ge := by linarith [hround₃.1, hround₁.2, hgp.2, hgppart.2]
      sum_le := by linarith [hround₂.2, hround₃.2, hround₁.1, ho.sum_le] } }

end Ample

/-- Where next to nothing is owed, every figure is exact but the quota, which is between nothing and
twice the balance. -/
theorem returned_of_little (hlittle : owed < 1 / 10 ^ 14) :
    Returned equity next lp gp cash toLp toGp := by
  have hcash := h.cash_pos
  have hlt := h.cash_lt
  have hequity := hs.equity_nonneg
  have hbound := hs.bound_nonneg
  have hnext := hs.next_ge
  have hnext₁ := hs.next_le
  have howed : owed = lp + gp := by
    rw [h.owed_eq]
    apply (h.lp_grid.add h.gp_grid).nearest_eq
    have hsum := abs_le.mp h.abs_owed_sub_le
    rw [quantum_eq] at hsum
    rw [abs_lt]
    constructor <;> linarith [hsum.1, hsum.2, h.owed_pos]
  have hlp : |lp| ≤ next := by
    rw [abs_le]
    constructor <;> linarith [ho.lp_ge, ho.gp_ge]
  have hquota := abs_le.mp (abs_sub_quota_le h.lp_grid hcash hlt (by linarith))
  rw [← h.toLp_eq] at hquota
  have hlow := ho.lp_ge
  have hlow' := ho.gp_ge
  -- the quota and the exact share of the other side, by the sign of the balance
  have hsides : -(2 * next) ≤ toLp ∧ toLp ≤ 2 * next ∧ toLp ≤ cash + 2 * next ∧
      -next ≤ lp - toLp ∧ -next ≤ gp - (cash - toLp) := by
    rcases le_total 0 lp with hpos | hneg
    · rw [abs_of_nonneg hpos] at hquota
      refine ⟨?_, ?_, ?_, ?_, ?_⟩ <;> linarith [hquota.1, hquota.2]
    · rw [abs_of_nonpos hneg] at hquota
      refine ⟨?_, ?_, ?_, ?_, ?_⟩ <;> linarith [hquota.1, hquota.2]
  obtain ⟨h₁, h₂, h₃, h₄, h₅⟩ := hsides
  have hself {x : ℚ} (hx : OnGrid x) (hle : -7 ≤ x) (hge : x ≤ 7) : nearest x = x :=
    hx.nearest_eq (abs_lt.mpr ⟨by linarith, by linarith⟩)
  have hlp' := abs_le.mp hlp
  have htoGp : toGp = cash - toLp := by
    rw [h.toGp_eq]
    exact hself (h.cash_grid.sub h.toLp_grid) (by linarith) (by linarith)
  have hafter : nearest (lp - toLp) = lp - toLp :=
    hself (h.lp_grid.sub h.toLp_grid) (by linarith) (by linarith)
  have hafter' : nearest (gp - toGp) = gp - toGp :=
    hself (h.gp_grid.sub h.toGp_grid) (by linarith) (by linarith)
  rw [← htoGp] at h₅
  exact {
    toLp_ge := h₁
    toGp_ge := by linarith
    toLp_le := h₃
    lp_after_le := by linarith
    gp_after_le := by linarith
    owes := {
      lp_ge := by rwa [hafter]
      gp_ge := by rwa [hafter']
      sum_le := by linarith [ho.sum_le] } }

theorem returned : Returned equity next lp gp cash toLp toGp := by
  rcases lt_or_ge owed (1 / 10 ^ 14) with hlittle | hample
  · exact h.returned_of_little ho hs hlittle
  · exact h.returned_of_ample ho hs hample

end ProRata

/-- All that is owed is returned: the limited partners get their balance, the general partner the
rest. -/
theorem returned_of_all (ho : Owes equity bound lp gp) (hs : Slack equity bound next)
    (hlp : OnGrid lp) (hgp : OnGrid gp) (howed : owed = nearest (lp + gp)) (hpos : 0 < owed)
    (hrest : toGp = nearest (owed - lp)) : Returned equity next lp gp owed lp toGp := by
  have hsum := (hlp.add hgp).abs_nearest_sub_le_nearest
  rw [← howed, abs_of_pos hpos] at hsum
  have hle := ho.owed_le hs hpos hsum
  have hequity := hs.equity_nonneg
  have hbound := hs.bound_nonneg
  have hnext := hs.next_ge
  have hnext₁ := hs.next_le
  have hsum' := abs_le.mp hsum
  have hlpsize := abs_le.mp (ho.abs_lp_le hs)
  have hgpsize := abs_le.mp (ho.abs_gp_le hs)
  have hround {x : ℚ} (hx : OnGrid x) (hsize : |x| ≤ 3 * (equity + 2)) := abs_rounding_le hx hsize
  have howed' : OnGrid owed := howed ▸ onGrid_nearest _
  rw [quantum_eq] at hsum' hround
  have hround₁ := abs_le.mp (hround (howed'.sub hlp)
    (by rw [abs_le]; constructor <;> linarith [hsum'.1, hsum'.2]))
  rw [← hrest] at hround₁
  have hround₂ := abs_le.mp (hround (hgp.sub (hrest ▸ onGrid_nearest _))
    (by rw [abs_le]; constructor <;> linarith [hsum'.1, hsum'.2, hround₁.1, hround₁.2]))
  have hlow := ho.lp_ge
  have hlow' := ho.gp_ge
  have hnone : nearest (lp - lp) = 0 := by rw [sub_self, nearest_zero]
  exact {
    toLp_ge := by linarith
    toGp_ge := by linarith [hsum'.1, hround₁.1]
    toLp_le := by linarith [hsum'.1]
    lp_after_le := by linarith
    gp_after_le := by linarith [hround₂.2, hround₁.1, hsum'.1]
    owes := {
      lp_ge := by linarith
      gp_ge := by linarith [hround₂.1, hround₁.2, hsum'.2]
      sum_le := by linarith [hround₂.2, hround₁.1, hsum'.1] } }

theorem Owes.mono (h : Owes equity bound lp gp) (hle : bound ≤ next) : Owes equity next lp gp :=
  ⟨by linarith [h.lp_ge], by linarith [h.gp_ge], by linarith [h.sum_le]⟩

theorem Slack.bound_le (h : Slack equity bound next) : bound ≤ next := by
  linarith [h.next_ge, h.equity_nonneg]

namespace Division

theorem ReturnsCapital.returned {d e : Division} {owed toLp toGp : Decimal}
    (h : ReturnsCapital d e owed toLp toGp)
    (ho : Owes equity bound d.balances.lpUnreturned.value d.balances.gpUnreturned.value)
    (hs : Slack equity bound next) :
    Returned equity next d.balances.lpUnreturned.value d.balances.gpUnreturned.value
      (min d.remaining.value owed.value) toLp.value toGp.value := by
  have hrest := h.toGp_eq
  rcases h.toLp_cases with ⟨hfull, rfl⟩ | ⟨hshort, -⟩
  · rw [min_eq_right hfull] at hrest ⊢
    exact returned_of_all ho hs (onGrid_value _) (onGrid_value _) (value_add h.owed_eq) h.owed_pos
      hrest
  · rw [min_eq_left hshort.le]
    exact (h.proRata hshort).returned ho hs

end Division

end PropertyFinance
