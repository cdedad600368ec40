import PropertyFinance.Proofs.Waterfall.Years

/-! The payments of a year account for its cash. Each tier takes its payment off the cash that is
left and gives one partner what the other does not get; both are differences, so they are rounded
only relative to their size, and over a year no cash is lost or paid twice beyond that. -/

namespace PropertyFinance
open Decimal
set_option autoImplicit false

/-- All that the payments come to, exactly. -/
def paidOut (payments : List Allocation) : ℚ :=
  (payments.map fun a => a.toLp.value + a.toGp.value).sum

/-- The sum of the sizes of the payments. -/
def turnover (payments : List Allocation) : ℚ :=
  (payments.map fun a => |a.toLp.value|).sum + (payments.map fun a => |a.toGp.value|).sum

theorem paidOut_append (xs : List Allocation) (a : Allocation) :
    paidOut (xs ++ [a]) = paidOut xs + (a.toLp.value + a.toGp.value) := by
  simp [paidOut]

theorem turnover_append (xs : List Allocation) (a : Allocation) :
    turnover (xs ++ [a]) = turnover xs + (|a.toLp.value| + |a.toGp.value|) := by
  simp only [turnover, List.map_append, List.sum_append, List.map_cons, List.map_nil,
    List.sum_cons, List.sum_nil]
  ring

theorem turnover_nonneg (xs : List Allocation) : 0 ≤ turnover xs := by
  apply add_nonneg <;> apply List.sum_nonneg <;> intro x hx <;>
    obtain ⟨a, -, rfl⟩ := List.mem_map.mp hx <;> exact abs_nonneg _

/-- The part that the other partner gets is off only relative to its size. -/
theorem abs_rest_le {x : ℚ} {given rest : Decimal} (hx : OnGrid x)
    (hrest : rest.value = nearest (x - given.value)) :
    |given.value + rest.value - x| ≤ quantum * |rest.value| := by
  have h := (hx.sub (onGrid_value given)).abs_nearest_sub_le_nearest
  rw [← hrest] at h
  rwa [show given.value + rest.value - x = rest.value - (x - given.value) by ring]

namespace Division

variable {d e : Division} {k : Nat} {cash x : ℚ} {a : Allocation} {terms : WaterfallTerms}

/-- The payments and the cash left come to the cash of the year, after `k` roundings of the cash
left. -/
structure Accounts (cash : ℚ) (k : Nat) (d : Division) : Prop where
  remaining_nonneg : 0 ≤ d.remaining.value
  remaining_le : d.remaining.value ≤ cash
  error_le : |paidOut d.allocations + d.remaining.value - cash|
    ≤ quantum * (k * cash + turnover d.allocations)

theorem Accounts.idle (h : d.Accounts cash k) : d.Accounts cash (k + 1) := by
  refine ⟨h.remaining_nonneg, h.remaining_le, h.error_le.trans ?_⟩
  have := h.remaining_nonneg.trans h.remaining_le
  apply mul_le_mul_of_nonneg_left _ quantum_pos.le
  push_cast
  linarith

/-- A payment of `x` out of the cash left. -/
theorem Accounts.pay (h : d.Accounts cash k) (hgrid : OnGrid x) (hx : 0 ≤ x)
    (hle : x ≤ d.remaining.value) (hrem : e.remaining.value = nearest (d.remaining.value - x))
    (hall : e.allocations = d.allocations ++ [a])
    (ha : |a.toLp.value + a.toGp.value - x| ≤ quantum * (|a.toLp.value| + |a.toGp.value|)) :
    e.Accounts cash (k + 1) := by
  have hround := ((onGrid_value d.remaining).sub hgrid).abs_nearest_sub_le
  rw [← hrem, abs_of_nonneg (sub_nonneg.mpr hle)] at hround
  have hcash : 16 / 25 * quantum * (d.remaining.value - x) ≤ quantum * cash := by
    have := h.remaining_le
    have := quantum_pos
    nlinarith
  refine ⟨?_, ?_, ?_⟩
  · rw [hrem]
    exact nearest_nonneg (sub_nonneg.mpr hle)
  · rw [hrem]
    exact (nearest_le_value (by linarith)).trans h.remaining_le
  · rw [hall, paidOut_append, turnover_append]
    have hsplit : paidOut d.allocations + (a.toLp.value + a.toGp.value) + e.remaining.value - cash
        = (paidOut d.allocations + d.remaining.value - cash)
          + (a.toLp.value + a.toGp.value - x)
          + (e.remaining.value - (d.remaining.value - x)) := by ring
    rw [hsplit]
    calc _ ≤ |paidOut d.allocations + d.remaining.value - cash|
          + |a.toLp.value + a.toGp.value - x|
          + |e.remaining.value - (d.remaining.value - x)| := abs_add_three _ _ _
      _ ≤ quantum * (k * cash + turnover d.allocations)
          + quantum * (|a.toLp.value| + |a.toGp.value|) + quantum * cash :=
        add_le_add (add_le_add h.error_le ha) (hround.trans hcash)
      _ = quantum * ((k + 1 : Nat) * cash
          + (turnover d.allocations + (|a.toLp.value| + |a.toGp.value|))) := by
        push_cast
        ring

theorem returnCapital_accounts (hd : d.Accounts cash k) (h : d.returnCapital = .ok e) :
    e.Accounts cash (k + 1) := by
  rcases returnCapital_cases h with ⟨owed, -, -, rfl⟩ | ⟨owed, toLp, toGp, hpay⟩
  · exact hd.idle
  · have hgrid := (onGrid_value d.remaining).min (onGrid_value owed)
    apply hd.pay hgrid (le_min hpay.cash_pos.le hpay.owed_pos.le) (min_le_left _ _)
      hpay.remaining_eq hpay.allocations_eq
    refine (abs_rest_le hgrid hpay.toGp_eq).trans ?_
    exact mul_le_mul_of_nonneg_left (le_add_of_nonneg_left (abs_nonneg _)) quantum_pos.le

theorem payPref_accounts (hd : d.Accounts cash k) (h : d.payPref = .ok e) :
    e.Accounts cash (k + 1) := by
  rcases payPref_cases h with ⟨-, rfl⟩ | ⟨toLp, hpay⟩
  · exact hd.idle
  · have hle : toLp.value ≤ d.remaining.value := hpay.toLp_eq ▸ min_le_left _ _
    have hpos : 0 ≤ toLp.value := hpay.toLp_eq ▸ le_min hpay.cash_pos.le hpay.accrued_pos.le
    apply hd.pay (onGrid_value toLp) hpos hle hpay.remaining_eq hpay.allocations_eq
    have := quantum_pos
    simp only [value_zero, add_zero, sub_self, abs_zero]
    positivity

theorem catchUp_accounts (hd : d.Accounts cash k) (h : d.catchUp terms = .ok e) :
    e.Accounts cash (k + 1) := by
  rcases catchUp_cases h with ⟨rfl, -⟩ | ⟨target, shortfall, toGp, hpay⟩
  · exact hd.idle
  · have hle : toGp.value ≤ d.remaining.value := hpay.toGp_eq ▸ min_le_left _ _
    have hpos : 0 ≤ toGp.value := hpay.toGp_eq ▸ le_min hpay.cash_pos.le hpay.shortfall_pos.le
    apply hd.pay (onGrid_value toGp) hpos hle hpay.remaining_eq hpay.allocations_eq
    have := quantum_pos
    simp only [value_zero, zero_add, sub_self, abs_zero]
    positivity

/-- The split leaves no cash. -/
theorem splitRest_accounts {tiers : List PromoteTier} {lpShare : Decimal} {lpFlows : List Decimal}
    (hd : d.Accounts cash k) (h : d.splitRest tiers lpShare lpFlows = .ok e) :
    |paidOut e.allocations - cash| ≤ quantum * (k * cash + turnover e.allocations) := by
  have herror := hd.error_le
  rcases splitRest_cases h with ⟨hidle, rfl⟩ | ⟨tier, toLp, toGp, hpay⟩
  · have hzero : e.remaining.value = 0 := le_antisymm (Rat.not_lt.mp hidle) hd.remaining_nonneg
    rwa [hzero, add_zero] at herror
  · rw [hpay.allocations_eq, paidOut_append, turnover_append]
    have hrest := abs_rest_le (onGrid_value d.remaining) hpay.toLp_eq
    have hsplit : paidOut d.allocations + (toLp.value + toGp.value) - cash
        = (paidOut d.allocations + d.remaining.value - cash)
          + (toGp.value + toLp.value - d.remaining.value) := by ring
    rw [hsplit]
    calc _ ≤ |paidOut d.allocations + d.remaining.value - cash|
          + |toGp.value + toLp.value - d.remaining.value| := abs_add_le _ _
      _ ≤ quantum * (k * cash + turnover d.allocations) + quantum * |toLp.value| :=
        add_le_add herror hrest
      _ ≤ quantum * (k * cash + (turnover d.allocations + (|toLp.value| + |toGp.value|))) := by
        rw [← mul_add]
        apply mul_le_mul_of_nonneg_left _ quantum_pos.le
        linarith [abs_nonneg toGp.value]

end Division

namespace Waterfall
open Division

variable {terms : WaterfallTerms} {tiers : List PromoteTier} {lpShare : Decimal} {p : Passage}

theorem Stages.abs_paidOut_sub_le {d₀ d₁ d₂ d₃ d₄ : Division}
    (hs : Stages terms tiers lpShare p d₀ d₁ d₂ d₃ d₄) (hcash : 0 < p.year.totalCashFlow.value) :
    |paidOut p.year.allocations - p.year.totalCashFlow.value|
      ≤ quantum * (3 * p.year.totalCashFlow.value + turnover p.year.allocations) := by
  obtain ⟨hrem, -, hnil, -⟩ := hs.start
  have h₀ : d₀.Accounts p.year.totalCashFlow.value 0 := by
    refine ⟨?_, ?_, ?_⟩ <;> rw [hrem]
    · exact hcash.le
    · simp [hnil, paidOut, turnover]
  have h₁ := returnCapital_accounts h₀ hs.capital
  have h₂ := payPref_accounts h₁ hs.pref
  have h₃ := catchUp_accounts h₂ hs.catchUp
  have h := splitRest_accounts h₃ hs.rest
  rw [← hs.allocations_eq] at h
  exact_mod_cast h

theorem Calls.abs_paidOut_sub_le (hc : Calls lpShare p) :
    |paidOut p.year.allocations - p.year.totalCashFlow.value|
      ≤ quantum * turnover p.year.allocations := by
  obtain ⟨toLp, toGp, hall, -, hgp⟩ := hc.allocation
  have h := abs_rest_le (onGrid_value p.year.totalCashFlow) hgp
  rw [hall]
  simp only [paidOut, turnover, List.map_cons, List.map_nil, List.sum_cons, List.sum_nil, add_zero]
  exact h.trans (mul_le_mul_of_nonneg_left (le_add_of_nonneg_left (abs_nonneg _)) quantum_pos.le)

/-- In every run the payments of each year account for its cash, beyond rounding. -/
theorem payments_account_for_cash {cashFlows : List Decimal} {results : WaterfallResults}
    (h : distribute terms cashFlows = .ok results) :
    ∀ year ∈ results.years,
      |(year.allocations.map fun a => a.toLp.value + a.toGp.value).sum - year.totalCashFlow.value|
        ≤ 1 / 10 ^ 27 * (|year.totalCashFlow.value|
          + (year.allocations.map fun a => |a.toLp.value|).sum
          + (year.allocations.map fun a => |a.toGp.value|).sum) := by
  obtain ⟨-, s, -, -, -, ps, -, hps, hyears⟩ := cases_of_distribute h
  intro year hyear
  rw [hyears] at hyear
  obtain ⟨p, hp, rfl⟩ := List.mem_map.mp hyear
  obtain ⟨-, -, hsteps⟩ := forall_passages (I := fun _ => True) hps trivial
    (fun _ _ _ => trivial) p hp
  have hturn := turnover_nonneg p.year.allocations
  have hq : quantum * 10 = 1 / 10 ^ 27 := by norm_num [quantum, maxScale]
  change |paidOut p.year.allocations - p.year.totalCashFlow.value| ≤ _
  rw [add_assoc, ← hq]
  change _ ≤ quantum * 10 * (|p.year.totalCashFlow.value| + turnover p.year.allocations)
  have hq₀ := quantum_pos
  rcases hsteps.cases with hcall | ⟨hcash, d₀, d₁, d₂, d₃, d₄, hstages⟩
  · refine hcall.abs_paidOut_sub_le.trans ?_
    have := abs_nonneg p.year.totalCashFlow.value
    nlinarith
  · refine (hstages.abs_paidOut_sub_le hcash).trans ?_
    rw [abs_of_pos hcash]
    nlinarith

/-- A run with a call, a short year and one that reaches the split. -/
theorem payments_account_for_cash_three_years :
    ∃ results, distribute ⟨.hundred, .ofScaled 10 0, .ofScaled 8 0, .zero, []⟩
        [.ofScaled (-5) 1, .ofScaled 3333 2, .hundred] = .ok results ∧
      ∀ year ∈ results.years,
        |(year.allocations.map fun a => a.toLp.value + a.toGp.value).sum
            - year.totalCashFlow.value|
          ≤ 1 / 10 ^ 27 * (|year.totalCashFlow.value|
            + (year.allocations.map fun a => |a.toLp.value|).sum
            + (year.allocations.map fun a => |a.toGp.value|).sum) := by
  obtain ⟨results, h⟩ := exists_of_isOk (x := distribute
    ⟨.hundred, .ofScaled 10 0, .ofScaled 8 0, .zero, []⟩
    [.ofScaled (-5) 1, .ofScaled 3333 2, .hundred]) (by decide +kernel)
  exact ⟨results, h, payments_account_for_cash h⟩

end Waterfall

end PropertyFinance
