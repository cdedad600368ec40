import PropertyFinance.Proofs.Decimal.Capacity
import PropertyFinance.Proofs.Decimal.Places

/-! Sums of rounded shares. A share is rounded twice and the sum once more; but an entry whose share is not
rounded to nothing has a probability of half a quantum or more, so that the roundings of the sum grow like
interest on the probabilities, which are one in all. The error is then a few quanta for each entry, however
many there are. -/

namespace PropertyFinance.Stress
open Decimal
set_option autoImplicit false

variable {M W p v share t x : ℚ} {k : Nat}

/-- How much a rounding error can have spread over the sum by a total probability of `W`. -/
def spread (W : ℚ) : ℚ := (1 + W / 2) ^ 4

theorem one_le_spread (hW : 0 ≤ W) : 1 ≤ spread W := one_le_pow₀ (by linarith)

theorem spread_le (hW : 0 ≤ W) (hW₁ : W ≤ 1) : spread W ≤ 81 / 16 := by
  calc spread W ≤ (3 / 2) ^ 4 := pow_le_pow_left₀ (by linarith) (by linarith) 4
    _ = 81 / 16 := by norm_num

theorem spread_add (hW : 0 ≤ W) (hp : 0 ≤ p) (hsum : W + p ≤ 1) :
    (1 + 32 / 25 * p) * spread W ≤ spread (W + p) := by
  unfold spread
  have hle : 1 + W / 2 ≤ 25 / 16 := by linarith
  have hpos : 0 ≤ 1 + W / 2 := by linarith
  rw [show 1 + (W + p) / 2 = (1 + W / 2) + p / 2 by ring]
  generalize 1 + W / 2 = y at *
  have hcube := mul_le_mul_of_nonneg_left hle (mul_nonneg hp (pow_nonneg hpos 3))
  calc (1 + 32 / 25 * p) * y ^ 4 = y ^ 4 + 32 / 25 * (p * y ^ 3 * y) := by ring
    _ ≤ y ^ 4 + 2 * (p * y ^ 3) := by linarith
    _ ≤ y ^ 4 + 2 * (p * y ^ 3) + (3 / 2 * (y * p) ^ 2 + y * p ^ 3 / 2 + p ^ 4 / 16) := by
      apply le_add_of_nonneg_right
      positivity
    _ = (y + p / 2) ^ 4 := by ring

/-- What one entry adds to the error, before that spreads. -/
def fresh (M : ℚ) : ℚ := 48 / 25 * (quantum * (1 + M))

theorem fresh_nonneg (hM : 0 ≤ M) : 0 ≤ fresh M :=
  mul_nonneg (by norm_num) (mul_nonneg quantum_pos.le (by linarith))

theorem nearest_le_one (h : x ≤ 1) : nearest x ≤ 1 := by
  rw [← value_one] at h ⊢
  exact nearest_le_value h

/-- The rounded share of a value. -/
theorem abs_share_sub_le (hp : 0 ≤ p) (hp₁ : p ≤ 1) (hv : |v| ≤ M)
    (hshare : share = nearest (nearest p * v)) :
    |share - p * v| ≤ quantum * (1 / 2 + 32 / 25 * M) := by
  have hrate : |nearest p - p| ≤ 16 / 25 * quantum := by
    refine (abs_nearest_sub_le_max p).trans (max_le (by linarith [quantum_pos]) ?_)
    rw [abs_of_nonneg hp]
    exact mul_le_of_le_one_right (by linarith [quantum_pos]) hp₁
  have hprod : |nearest p * v| ≤ M := by
    rw [abs_mul, abs_of_nonneg (nearest_nonneg hp)]
    exact (mul_le_of_le_one_left (abs_nonneg v) (nearest_le_one hp₁)).trans hv
  have hround := abs_nearest_sub_le (nearest p * v)
  have hround' : quantum * (1 / 2 + 16 / 25 * |nearest p * v|) ≤ quantum * (1 / 2 + 16 / 25 * M) :=
    mul_le_mul_of_nonneg_left (by linarith) quantum_pos.le
  have hexact : |nearest p * v - p * v| ≤ 16 / 25 * quantum * M := by
    rw [← sub_mul, abs_mul]
    exact mul_le_mul hrate hv (abs_nonneg v) (by linarith [quantum_pos])
  have htri := abs_sub_le share (nearest p * v) (p * v)
  rw [hshare] at htri ⊢
  linarith

/-- A probability that is not rounded away is at least half a quantum. -/
theorem quantum_le_of_share_ne (hp : 0 ≤ p) (hshare : nearest (nearest p * v) ≠ 0) :
    quantum ≤ 2 * p := by
  by_contra hsmall
  apply hshare
  have hrate : nearest p = 0 := nearest_eq_zero (by rw [abs_of_nonneg hp]; linarith)
  rw [hrate, zero_mul, nearest_zero]

/-- The computed sum and the exact one, after `k` entries of a total probability of `W`. -/
structure Near (M W : ℚ) (k : Nat) (t x : ℚ) : Prop where
  weight_nonneg : 0 ≤ W
  size_le : |x| ≤ M * W
  error_le : |t - x| ≤ fresh M * (k * spread W)

/-- The error comes to ten quanta an entry. -/
theorem Near.abs_sub_le (h : Near M W k t x) (hM : 0 ≤ M) (hW₁ : W ≤ 1) :
    |t - x| ≤ k / 10 ^ 27 * (1 + M) := by
  have hspread := spread_le h.weight_nonneg hW₁
  have hentries : (0 : ℚ) ≤ k * (1 + M) := mul_nonneg (Nat.cast_nonneg k) (by linarith)
  calc |t - x| ≤ fresh M * (k * spread W) := h.error_le
    _ ≤ fresh M * (k * (81 / 16)) :=
      mul_le_mul_of_nonneg_left (mul_le_mul_of_nonneg_left hspread (Nat.cast_nonneg k))
        (fresh_nonneg hM)
    _ ≤ k / 10 ^ 27 * (1 + M) := by
      rw [fresh, quantum_eq]
      linarith

theorem Near.size_add (h : Near M W k t x) (hp : 0 ≤ p) (hv : |v| ≤ M) :
    |x + p * v| ≤ M * (W + p) := by
  have hprod : |p * v| ≤ M * p := by
    rw [abs_mul, abs_of_nonneg hp, mul_comm]
    exact mul_le_mul_of_nonneg_right hv hp
  rw [mul_add]
  exact (abs_add_le x (p * v)).trans (add_le_add h.size_le hprod)

/-- What has to fit for the next share to be added. -/
theorem Near.abs_sum_le (h : Near M W k t x) (hp : 0 ≤ p) (hsum : W + p ≤ 1) (hv : |v| ≤ M)
    (hshare : share = nearest (nearest p * v)) :
    |t + share| ≤ M + (k + 1) / 10 ^ 27 * (1 + M) := by
  have hW := h.weight_nonneg
  have hM := (abs_nonneg v).trans hv
  have herror := h.abs_sub_le hM (by linarith)
  have hfresh := abs_share_sub_le hp (by linarith) hv hshare
  have hfresh' : quantum * (1 / 2 + 32 / 25 * M) ≤ 1 / 10 ^ 27 * (1 + M) := by
    rw [quantum_eq]
    linarith
  have hsize := (h.size_add hp hv).trans (mul_le_of_le_one_right hM hsum)
  have htri := abs_add_three (x + p * v) (t - x) (share - p * v)
  rw [show x + p * v + (t - x) + (share - p * v) = t + share by ring] at htri
  rw [add_div, add_mul]
  linarith

theorem Near.skip (h : Near M W k t x) (hM : 0 ≤ M) (hp : 0 ≤ p) (hsum : W + p ≤ 1) :
    Near M (W + p) (k + 1) t x := by
  have hW := h.weight_nonneg
  refine ⟨by linarith, h.size_le.trans (mul_le_mul_of_nonneg_left (by linarith) hM), ?_⟩
  refine h.error_le.trans (mul_le_mul_of_nonneg_left ?_ (fresh_nonneg hM))
  have hspread : spread W ≤ spread (W + p) := by
    refine le_trans ?_ (spread_add hW hp hsum)
    exact le_mul_of_one_le_left (by linarith [one_le_spread hW]) (by linarith)
  exact mul_le_mul (by push_cast; linarith) hspread (by linarith [one_le_spread hW])
    (Nat.cast_nonneg _)

/-- The sum with a share, rounded: the error before grows by the probability at most. -/
theorem abs_sum_sub_le (ht : OnGrid t) (hself : nearest t = t) (hp : 0 ≤ p)
    (hshare : share = nearest (nearest p * v)) (hM : 0 ≤ M) (hx : |x + p * v| ≤ M) :
    |nearest (t + share) - (x + p * v)|
      ≤ 16 / 25 * quantum * M + (1 + 32 / 25 * p) * (|t - x| + |share - p * v|) := by
  have hsum := abs_add_le (t - x) (share - p * v)
  rw [show t - x + (share - p * v) = t + share - (x + p * v) by ring] at hsum
  have herror := add_nonneg (abs_nonneg (t - x)) (abs_nonneg (share - p * v))
  have hquantum := quantum_pos
  -- a share of nothing leaves the sum alone, however small its probability is
  by_cases hzero : share = 0
  · rw [hzero, add_zero] at hsum ⊢
    rw [hzero] at herror
    rw [hself]
    have := mul_nonneg hp herror
    have := mul_nonneg hquantum.le hM
    linarith
  have hgrid : OnGrid (t + share) := ht.add (hshare ▸ onGrid_nearest _)
  have hround := hgrid.abs_nearest_sub_le
  have htri := abs_sub_le (nearest (t + share)) (t + share) (x + p * v)
  have hsize : |t + share| ≤ M + (|t - x| + |share - p * v|) := by
    have := abs_sub_abs_le_abs_sub (t + share) (x + p * v)
    linarith
  have hround' := mul_le_mul_of_nonneg_left hsize (by linarith : 0 ≤ 16 / 25 * quantum)
  -- any other pays for the rounding with its probability
  have hsmall := quantum_le_of_share_ne hp (hshare ▸ hzero)
  have hgrow := mul_le_mul_of_nonneg_right hsmall herror
  linarith

theorem Near.add (h : Near M W k t x) (ht : OnGrid t) (hself : nearest t = t) (hp : 0 ≤ p)
    (hsum : W + p ≤ 1) (hv : |v| ≤ M) (hshare : share = nearest (nearest p * v)) :
    Near M (W + p) (k + 1) (nearest (t + share)) (x + p * v) := by
  have hW := h.weight_nonneg
  have hM := (abs_nonneg v).trans hv
  have hsize := h.size_add hp hv
  refine ⟨by linarith, hsize, ?_⟩
  have hstep := abs_sum_sub_le ht hself hp hshare hM
    (hsize.trans (mul_le_of_le_one_right hM hsum))
  have hfresh := abs_share_sub_le hp (by linarith) hv hshare
  have hspread := spread_add hW hp hsum
  have hgrowth : 1 + 32 / 25 * p ≤ spread (W + p) :=
    (le_mul_of_one_le_right (by linarith) (one_le_spread hW)).trans hspread
  have hone : 1 ≤ spread (W + p) := one_le_spread (by linarith)
  have hquantum := quantum_pos
  have hbefore : (1 + 32 / 25 * p) * |t - x|
      ≤ fresh M * (k * spread (W + p)) := by
    calc (1 + 32 / 25 * p) * |t - x|
        ≤ (1 + 32 / 25 * p) * (fresh M * (k * spread W)) :=
          mul_le_mul_of_nonneg_left h.error_le (by linarith)
      _ = fresh M * (k * ((1 + 32 / 25 * p) * spread W)) := by ring
      _ ≤ fresh M * (k * spread (W + p)) :=
          mul_le_mul_of_nonneg_left (mul_le_mul_of_nonneg_left hspread (Nat.cast_nonneg k))
            (fresh_nonneg hM)
  have hnow : 16 / 25 * quantum * M + (1 + 32 / 25 * p) * |share - p * v|
      ≤ fresh M * spread (W + p) := by
    have hfresh' : 0 ≤ quantum * (1 / 2 + 32 / 25 * M) := mul_nonneg hquantum.le (by linarith)
    have hround := mul_nonneg (mul_nonneg (by norm_num : (0 : ℚ) ≤ 16 / 25) hquantum.le) hM
    calc 16 / 25 * quantum * M + (1 + 32 / 25 * p) * |share - p * v|
        ≤ 16 / 25 * quantum * M * spread (W + p)
            + spread (W + p) * (quantum * (1 / 2 + 32 / 25 * M)) :=
          add_le_add (le_mul_of_one_le_right hround hone)
            (mul_le_mul hgrowth hfresh (abs_nonneg _) (by linarith))
      _ = quantum * (1 / 2 + 48 / 25 * M) * spread (W + p) := by ring
      _ ≤ quantum * (48 / 25 * (1 + M)) * spread (W + p) :=
          mul_le_mul_of_nonneg_right (mul_le_mul_of_nonneg_left (by linarith) hquantum.le)
            (by linarith)
      _ = fresh M * spread (W + p) := by
        rw [fresh]
        ring
  push_cast
  linarith

end PropertyFinance.Stress
