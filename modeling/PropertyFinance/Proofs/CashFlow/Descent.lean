import PropertyFinance.Proofs.CashFlow.Convergence
import PropertyFinance.Proofs.Decimal.Capacity

/-! Newton's descent, one step at a time. At a clamped rate every sum exists or overflows in a checked
operation; the descent ends there, at a root or stalled, or takes a step and clamps the rate again. So
all its rates lie between -99% and 10000%, and it makes no more steps than it is allowed. -/

namespace PropertyFinance.Yield
open Decimal
set_option autoImplicit false

variable {flows : List Decimal} {tolerance rate last r : Decimal} {left done n k : Nat}

section Rates

theorem growth_isOk (hlow : -99 / 100 ≤ rate.value) (hhigh : rate.value ≤ 100) :
    ∃ growth, Decimal.one.add rate = .ok growth := by
  apply add_isOk
  apply fits_of_abs_le
  rw [value_one, abs_of_nonneg (by linarith)]
  linarith

theorem valueAndSlope_isOk (flows : List Decimal) (hlow : -99 / 100 ≤ rate.value)
    (hhigh : rate.value ≤ 100) : ∃ sums, valueAndSlope flows rate = .ok sums := by
  obtain ⟨growth, hgrowth⟩ := growth_isOk hlow hhigh
  exact ⟨_, bind_eq_ok.mpr ⟨growth, hgrowth, rfl⟩⟩

theorem scaledValue_isOk (flows : List Decimal) (hlow : -99 / 100 ≤ rate.value)
    (hhigh : rate.value ≤ 100) : ∃ sum, scaledValue flows rate = .ok sum := by
  obtain ⟨growth, hgrowth⟩ := growth_isOk hlow hhigh
  exact ⟨_, bind_eq_ok.mpr ⟨growth, hgrowth, rfl⟩⟩

theorem isWithin_isOk (flows : List Decimal) (tolerance : Decimal) (hlow : -99 / 100 ≤ rate.value)
    (hhigh : rate.value ≤ 100) : ∃ within, isWithin flows tolerance rate = .ok within := by
  obtain ⟨sums, hsums⟩ := valueAndSlope_isOk flows hlow hhigh
  exact ⟨_, bind_eq_ok.mpr ⟨sums, hsums, rfl⟩⟩

end Rates

theorem clamp_le (rate : Decimal) : (rate.clamp floorRate ceilingRate).value ≤ 100 := by
  rw [← value_ceilingRate]
  refine (value_clamp ?_ rate).2
  rw [value_floorRate, value_ceilingRate]
  norm_num

/-- The step that Newton's method takes off a rate, unless it ends there. -/
def newtonStep (flows : List Decimal) (tolerance rate : Decimal) : Option Decimal :=
  match valueAndSlope flows rate with
  | .ok (some (value, slope)) =>
    if value.abs < tolerance then none
    else if slope.isZero then none
    else value.div? slope
  | _ => none

theorem newton_succ (flows : List Decimal) (tolerance : Decimal) (left done : Nat)
    (hlow : -99 / 100 ≤ rate.value) (hhigh : rate.value ≤ 100) :
    (newtonStep flows tolerance rate = none ∧ Accepts flows tolerance rate ∧
      newton flows tolerance (left + 1) done rate = .ok (.root rate (done + 1))) ∨
    (newtonStep flows tolerance rate = none ∧
      newton flows tolerance (left + 1) done rate = .ok (.stalled rate (done + 1))) ∨
    ∃ step, newtonStep flows tolerance rate = some step ∧
      newton flows tolerance (left + 1) done rate = (do
        newton flows tolerance left (done + 1)
          ((← rate.sub step).clamp floorRate ceilingRate)) := by
  obtain ⟨sums, hsums⟩ := valueAndSlope_isOk flows hlow hhigh
  rw [newton, newtonStep, hsums, ok_bind]
  cases sums with
  | none => exact Or.inr (Or.inl ⟨rfl, rfl⟩)
  | some sums =>
    obtain ⟨value, slope⟩ := sums
    dsimp only
    split_ifs with hwithin hflat
    · rw [lt_iff_value_lt, value_abs] at hwithin
      exact Or.inl ⟨rfl, ⟨value, slope, hsums, hwithin⟩, rfl⟩
    · exact Or.inr (Or.inl ⟨rfl, rfl⟩)
    · cases hdiv : value.div? slope with
      | none => exact Or.inr (Or.inl ⟨rfl, rfl⟩)
      | some step => exact Or.inr (Or.inr ⟨step, rfl, rfl⟩)

theorem newton_root_bounds (hlow : -99 / 100 ≤ rate.value) (hhigh : rate.value ≤ 100)
    (h : newton flows tolerance left done rate = .ok (.root r k)) :
    r.value ≤ 100 ∧ done < k ∧ k ≤ done + left := by
  induction left generalizing done rate with
  | zero => exact nomatch pure_eq_ok.mp h
  | succ left ih =>
    rcases newton_succ flows tolerance left done hlow hhigh with
      ⟨-, -, hroot⟩ | ⟨-, hstalled⟩ | ⟨step, -, hnext⟩
    · cases hroot.symm.trans h
      exact ⟨hhigh, by omega, by omega⟩
    · exact nomatch hstalled.symm.trans h
    · rw [hnext] at h
      obtain ⟨next, -, h⟩ := bind_eq_ok.mp h
      obtain ⟨hr, hk, hk'⟩ := ih (clamp_ge next) (clamp_le next) h
      exact ⟨hr, by omega, by omega⟩

theorem newton_stalled_rate (hlow : -99 / 100 ≤ rate.value) (hhigh : rate.value ≤ 100)
    (h : newton flows tolerance left done rate = .ok (.stalled r k)) :
    -99 / 100 ≤ r.value ∧ r.value ≤ 100 := by
  induction left generalizing done rate with
  | zero =>
    cases h
    exact ⟨hlow, hhigh⟩
  | succ left ih =>
    rcases newton_succ flows tolerance left done hlow hhigh with
      ⟨-, -, hroot⟩ | ⟨-, hstalled⟩ | ⟨step, -, hnext⟩
    · exact nomatch hroot.symm.trans h
    · cases hstalled.symm.trans h
      exact ⟨hlow, hhigh⟩
    · rw [hnext] at h
      obtain ⟨next, -, h⟩ := bind_eq_ok.mp h
      exact ih (clamp_ge next) (clamp_le next) h

end PropertyFinance.Yield
