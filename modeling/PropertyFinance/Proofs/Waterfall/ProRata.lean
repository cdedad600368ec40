import PropertyFinance.Proofs.Waterfall.Tiers

/-! Cash that falls short of the capital owed, divided in proportion to the two balances. The quota
of the limited partners is a rounded product over a rounded sum; its error is a few quanta, and a
few quanta for each unit of cash. -/

namespace PropertyFinance
open Decimal
set_option autoImplicit false

/-- A share of a small number is small. -/
theorem abs_share_mul_le {share x bound : ℚ} (hshare₀ : 0 ≤ share) (hshare₁ : share ≤ 1)
    (hx : |x| ≤ bound) : |share * x| ≤ bound := by
  rw [abs_mul, abs_of_nonneg hshare₀]
  exact (mul_le_of_le_one_left (abs_nonneg x) hshare₁).trans hx

/-- What short cash pays on a balance. -/
def quota (cash balance owed : ℚ) : ℚ := nearest (nearest (cash * balance) / owed)

section Quota
variable {cash balance owed : ℚ}

theorem quota_neg : quota cash (-balance) owed = -quota cash balance owed := by
  rw [quota, mul_neg, nearest_neg, neg_div, nearest_neg, quota]

theorem quota_nonneg (hcash : 0 ≤ cash) (hbalance : 0 ≤ balance) (howed : 0 ≤ owed) :
    0 ≤ quota cash balance owed :=
  nearest_nonneg (div_nonneg (nearest_nonneg (mul_nonneg hcash hbalance)) howed)

theorem quota_le_two_mul (hgrid : OnGrid balance) (hcash : 0 < cash) (hlt : cash < owed)
    (hbalance : 0 ≤ balance) (hsmall : balance ≤ 2) : quota cash balance owed ≤ 2 * balance := by
  have hround := nearest_le_two_mul (mul_nonneg hcash.le hbalance)
  have hquot : nearest (cash * balance) / owed ≤ 2 * balance := by
    rw [div_le_iff₀ (hcash.trans hlt)]
    have := mul_le_mul_of_nonneg_right hlt.le hbalance
    linarith
  have hself : nearest (2 * balance) = 2 * balance := by
    rw [two_mul]
    apply (hgrid.add hgrid).nearest_eq
    rw [abs_of_nonneg (by linarith)]
    linarith
  rw [← hself]
  exact nearest_mono hquot

/-- A small balance does not grow, of whatever sign it is. -/
theorem abs_sub_quota_le (hgrid : OnGrid balance) (hcash : 0 < cash) (hlt : cash < owed)
    (hsmall : |balance| ≤ 2) :
    |balance - quota cash balance owed| ≤ |balance| := by
  have hpos (b : ℚ) (hgrid : OnGrid b) (hb : 0 ≤ b) (hsmall : b ≤ 2) :
      |b - quota cash b owed| ≤ |b| := by
    have hlow := quota_nonneg hcash.le hb (hcash.trans hlt).le
    have hhigh := quota_le_two_mul hgrid hcash hlt hb hsmall
    rw [abs_of_nonneg hb, abs_le]
    constructor <;> linarith
  rcases le_total 0 balance with h | h
  · exact hpos balance hgrid h ((le_abs_self _).trans hsmall)
  · have hneg := hpos (-balance) hgrid.neg (by linarith) ((neg_le_abs _).trans hsmall)
    rwa [quota_neg, abs_neg, ← neg_add', abs_neg, ← sub_eq_add_neg] at hneg

end Quota

/-- Short cash between two balances, all of them decimals. -/
structure ProRata (lp gp cash owed toLp toGp : ℚ) : Prop where
  lp_self : nearest lp = lp
  gp_self : nearest gp = gp
  cash_self : nearest cash = cash
  cash_pos : 0 < cash
  cash_lt : cash < owed
  owed_eq : owed = nearest (lp + gp)
  toLp_eq : toLp = quota cash lp owed
  toGp_eq : toGp = nearest (cash - toLp)

theorem Division.ReturnsCapital.proRata {d e : Division} {owed toLp toGp : Decimal}
    (h : Division.ReturnsCapital d e owed toLp toGp) (hshort : d.remaining.value < owed.value) :
    ProRata d.balances.lpUnreturned.value d.balances.gpUnreturned.value d.remaining.value
      owed.value toLp.value toGp.value where
  lp_self := nearest_value _
  gp_self := nearest_value _
  cash_self := nearest_value _
  cash_pos := h.cash_pos
  cash_lt := hshort
  owed_eq := value_add h.owed_eq
  toLp_eq := by
    rcases h.toLp_cases with ⟨hle, -⟩ | ⟨-, heq⟩
    · exact absurd hshort (Rat.not_lt.mpr hle)
    · exact heq
  toGp_eq := by rw [h.toGp_eq, min_eq_left hshort.le]

/-- A balance of the limited partners too large to be a mere rounding error, beside one of the
general partner that is at most overpaid by a fraction. -/
structure LargeBalances (lp gp : ℚ) : Prop where
  lp_gt : 2 < lp
  lp_le : lp ≤ 10 ^ 15
  gp_ge : -1 / 2 ≤ gp
  gp_le : gp ≤ 10 ^ 15

namespace ProRata

variable {lp gp cash owed toLp toGp : ℚ}

theorem owed_pos (h : ProRata lp gp cash owed toLp toGp) : 0 < owed :=
  h.cash_pos.trans h.cash_lt

theorem lp_grid (h : ProRata lp gp cash owed toLp toGp) : OnGrid lp :=
  h.lp_self ▸ onGrid_nearest _

theorem gp_grid (h : ProRata lp gp cash owed toLp toGp) : OnGrid gp :=
  h.gp_self ▸ onGrid_nearest _

theorem cash_grid (h : ProRata lp gp cash owed toLp toGp) : OnGrid cash :=
  h.cash_self ▸ onGrid_nearest _

theorem toLp_grid (h : ProRata lp gp cash owed toLp toGp) : OnGrid toLp :=
  h.toLp_eq ▸ onGrid_nearest _

theorem toGp_grid (h : ProRata lp gp cash owed toLp toGp) : OnGrid toGp :=
  h.toGp_eq ▸ onGrid_nearest _

theorem abs_owed_sub_le (h : ProRata lp gp cash owed toLp toGp) :
    |owed - (lp + gp)| ≤ quantum * owed := by
  have hround := (h.lp_grid.add h.gp_grid).abs_nearest_sub_le_nearest
  rwa [← h.owed_eq, abs_of_pos h.owed_pos] at hround

theorem two_quantum_le_owed (h : ProRata lp gp cash owed toLp toGp) : 2 * quantum ≤ owed := by
  have hcash := h.cash_grid.quantum_le h.cash_pos
  have hgap := ((h.owed_eq ▸ onGrid_nearest _ : OnGrid owed).sub h.cash_grid).quantum_le
    (sub_pos.mpr h.cash_lt)
  linarith

/-- The division magnifies the rounding of the product. -/
theorem abs_quotient_sub_share (h : ProRata lp gp cash owed toLp toGp) :
    |nearest (cash * lp) / owed - cash / owed * lp|
      ≤ max (quantum / (2 * owed)) (16 / 25 * quantum * |cash / owed * lp|) := by
  have howed := h.owed_pos
  have hsplit : nearest (cash * lp) / owed - cash / owed * lp
      = (nearest (cash * lp) - cash * lp) / owed := by ring
  have hleft := mul_le_mul_of_nonneg_right (le_max_left (quantum / (2 * owed))
    (16 / 25 * quantum * |cash / owed * lp|)) howed.le
  have hright := mul_le_mul_of_nonneg_right (le_max_right (quantum / (2 * owed))
    (16 / 25 * quantum * |cash / owed * lp|)) howed.le
  have hhalf : quantum / (2 * owed) * owed = quantum / 2 := by field_simp
  have hsize : |cash / owed * lp| * owed = |cash * lp| := by
    rw [div_mul_eq_mul_div, abs_div, abs_of_pos howed, div_mul_cancel₀ _ howed.ne']
  rw [mul_assoc, hsize] at hright
  rw [hsplit, abs_div, abs_of_pos howed, div_le_iff₀ howed]
  exact (abs_nearest_sub_le_max (cash * lp)).trans (max_le (hhalf ▸ hleft) hright)

/-- The quota is the exact share, but for that and the rounding of the quotient. -/
theorem abs_toLp_sub_share (h : ProRata lp gp cash owed toLp toGp) :
    |toLp - cash / owed * lp|
      ≤ quantum / (2 * owed) + quantum * (2 / 3 + 13 / 10 * |cash / owed * lp|) := by
  have howed := h.owed_pos
  have hinverse : quantum / (2 * owed) ≤ 1 / 4 := by
    rw [div_le_iff₀ (by positivity)]
    linarith [h.two_quantum_le_owed]
  have hexact := abs_nonneg (cash / owed * lp)
  have hproduct : |nearest (cash * lp) / owed - cash / owed * lp|
      ≤ quantum / (2 * owed) + 16 / 25 * quantum * |cash / owed * lp| :=
    h.abs_quotient_sub_share.trans (max_le_add_of_nonneg
      (div_nonneg quantum_pos.le (by positivity)) (mul_nonneg (by linarith [quantum_pos]) hexact))
  have hround := abs_nearest_sub_le (nearest (cash * lp) / owed)
  rw [show nearest (nearest (cash * lp) / owed) = toLp from h.toLp_eq.symm] at hround
  have hsize := abs_sub_abs_le_abs_sub (nearest (cash * lp) / owed) (cash / owed * lp)
  have htri := abs_sub_le toLp (nearest (cash * lp) / owed) (cash / owed * lp)
  rw [quantum_eq] at *
  linarith

section Large
variable (h : ProRata lp gp cash owed toLp toGp) (hl : LargeBalances lp gp)
include h hl

theorem owed_ge : 3 / 2 ≤ owed := by
  have hsum := scaled_le_nearest (x := lp + gp) (n := 15) (s := 1) (by decide) (by decide) (by
    norm_num
    linarith [hl.lp_gt, hl.gp_ge])
  rw [h.owed_eq]
  norm_num at hsum ⊢
  exact hsum

theorem owed_le : owed ≤ 3 * 10 ^ 15 := by
  have hround := (abs_le.mp h.abs_owed_sub_le).2
  have := hl.lp_le
  have := hl.gp_le
  rw [quantum_eq] at hround
  linarith

theorem lp_le_owed : lp ≤ 67 / 50 * owed ∧ lp ≤ owed + 1 := by
  have hround := (abs_le.mp h.abs_owed_sub_le).1
  have howed := h.owed_ge hl
  have hle := h.owed_le hl
  have hgp := hl.gp_ge
  rw [quantum_eq] at hround
  constructor <;> linarith

theorem cash_le : cash ≤ 3 * 10 ^ 15 := h.cash_lt.le.trans (h.owed_le hl)

theorem abs_share_le : |cash / owed * lp| ≤ 67 / 50 * cash := by
  have howed := h.owed_pos
  have hcash := h.cash_pos
  have hlp := hl.lp_gt
  rw [abs_of_nonneg (by positivity), div_mul_eq_mul_div, div_le_iff₀ howed]
  have := mul_le_mul_of_nonneg_left (h.lp_le_owed hl).1 hcash.le
  linarith

theorem half_quantum_div_le : quantum / (2 * owed) ≤ quantum / 3 := by
  have howed := h.owed_ge hl
  have hquantum := quantum_pos
  gcongr
  linarith

/-- The rounding of the product, seen in the quotient. -/
theorem abs_quotient_sub_le :
    |nearest (cash * lp) / owed - cash / owed * lp|
      ≤ max (quantum / 3) (43 / 50 * quantum * cash) := by
  have hmul := mul_le_mul_of_nonneg_left (h.abs_share_le hl) quantum_pos.le
  have hpos := mul_pos quantum_pos h.cash_pos
  exact h.abs_quotient_sub_share.trans (max_le_max (h.half_quantum_div_le hl) (by linarith))

theorem abs_toLp_sub_le : |toLp - cash / owed * lp| ≤ quantum * (2 + 2 * cash) := by
  have hmul := mul_le_mul_of_nonneg_left (h.abs_share_le hl) quantum_pos.le
  have hpos := mul_pos quantum_pos h.cash_pos
  linarith [h.abs_toLp_sub_share, h.half_quantum_div_le hl, quantum_pos]

/-- The other side gets its own share up to the same error. -/
theorem abs_rest_sub_le : |cash - toLp - cash / owed * gp| ≤ quantum * (2 + 3 * cash) := by
  have howed := h.owed_pos
  have hlp := abs_le.mp (h.abs_toLp_sub_le hl)
  have hsum : |cash - cash / owed * lp - cash / owed * gp| ≤ quantum * cash := by
    have hsplit : cash - cash / owed * lp - cash / owed * gp
        = cash / owed * (owed - (lp + gp)) := by
      field_simp
      ring
    have hshare : 0 ≤ cash / owed := div_nonneg h.cash_pos.le howed.le
    rw [hsplit, abs_mul, abs_of_nonneg hshare]
    calc _ ≤ cash / owed * (quantum * owed) :=
          mul_le_mul_of_nonneg_left h.abs_owed_sub_le hshare
      _ = quantum * cash := by field_simp
  have hsum' := abs_le.mp hsum
  rw [abs_le]
  constructor <;> linarith [hlp.1, hlp.2, hsum'.1, hsum'.2]

theorem toLp_nonneg : 0 ≤ toLp :=
  h.toLp_eq ▸ quota_nonneg h.cash_pos.le (by linarith [hl.lp_gt]) h.owed_pos.le

/-- No more than the balance and no more than the cash, up to a unit. -/
theorem toLp_le : toLp ≤ lp + 1 ∧ toLp ≤ cash + 1 := by
  have hshare₀ : 0 ≤ cash / owed := div_nonneg h.cash_pos.le h.owed_pos.le
  have hshare₁ : cash / owed ≤ 1 := div_le_one_of_le₀ h.cash_lt.le h.owed_pos.le
  have hlp := (abs_le.mp (h.abs_toLp_sub_le hl)).2
  have hgp := (abs_le.mp (h.abs_rest_sub_le hl)).1
  have hcash := h.cash_le hl
  rw [quantum_eq] at hlp hgp
  constructor
  · have := mul_le_of_le_one_left (by linarith [hl.lp_gt] : 0 ≤ lp) hshare₁
    linarith
  · have : -1 / 2 ≤ cash / owed * gp := by
      have h₁ := mul_le_mul_of_nonneg_left hl.gp_ge hshare₀
      linarith
    linarith

/-- Next to a balance of at least one, the general partner is not charged. -/
theorem toGp_nonneg (hgp : 1 ≤ gp) : 0 ≤ toGp := by
  have hcash := h.cash_pos
  have hprod : 0 ≤ cash * lp := mul_nonneg hcash.le (by linarith [hl.lp_gt])
  have hround := (abs_le.mp (abs_nearest_sub_le (cash * lp))).2
  rw [abs_of_nonneg hprod] at hround
  have howed := mul_le_mul_of_nonneg_left (abs_le.mp h.abs_owed_sub_le).1 hcash.le
  have hlarge := mul_le_mul_of_nonneg_left (h.owed_le hl) (mul_nonneg quantum_pos.le hcash.le)
  have hlp := mul_le_mul_of_nonneg_left hl.lp_le (mul_nonneg quantum_pos.le hcash.le)
  have hgp' := mul_le_mul_of_nonneg_left hgp hcash.le
  have hquantum := h.cash_grid.quantum_le hcash
  have hle : nearest (cash * lp) ≤ cash * owed := by
    rw [quantum_eq] at *
    linarith
  have htoLp : toLp ≤ cash := by
    rw [h.toLp_eq, ← h.cash_self]
    apply nearest_mono
    rwa [h.cash_self, div_le_iff₀ h.owed_pos]
  rw [h.toGp_eq]
  exact nearest_nonneg (by linarith)

end Large

end ProRata

end PropertyFinance
