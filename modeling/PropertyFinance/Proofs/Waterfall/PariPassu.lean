import PropertyFinance.Proofs.Waterfall.SharedYears

/-! Without promote terms the partners are pari passu. The limited partners' account, what they got and
are still owed, follows their share of all the cash from year to year, and the balances left at the end
are in that proportion, so they get their share of the cash, however many years there are. -/

namespace PropertyFinance.Waterfall
open Decimal
set_option autoImplicit false

variable {terms : WaterfallTerms} {lpShare : Decimal} {equity share : ℚ} {p : Passage}

section Run
variable {past : List Decimal} {state : State} {s : Stakes}

def netFlow (flows : List Decimal) : ℚ := (flows.map Decimal.value).sum

def grossFlow (flows : List Decimal) : ℚ := (flows.map fun cash => |cash.value|).sum

theorem netFlow_append (flows : List Decimal) (cash : Decimal) :
    netFlow (flows ++ [cash]) = netFlow flows + cash.value := by
  simp [netFlow]

theorem grossFlow_append (flows : List Decimal) (cash : Decimal) :
    grossFlow (flows ++ [cash]) = grossFlow flows + |cash.value| := by
  simp [grossFlow]

theorem abs_netFlow_le (flows : List Decimal) : |netFlow flows| ≤ grossFlow flows := by
  induction flows with
  | nil => simp [netFlow, grossFlow]
  | cons cash flows ih =>
    have htri := abs_add_le cash.value (netFlow flows)
    simp only [netFlow, grossFlow, List.map_cons, List.sum_cons] at *
    linarith

/-- What the limited partners have been paid and are still owed, less their share of the cash there has
been and of all that is owed. -/
def account (share : ℚ) (past : List Decimal) (state : State) : ℚ :=
  state.lpCumulative.value + state.balances.lpUnreturned.value
    - share * (netFlow past + (state.balances.lpUnreturned.value + state.balances.gpUnreturned.value))

/-- What is known after the years of a run. The account is kept up to rounding, while the rounding of the
sum that is carried is little; else the reserve bounds that sum. -/
structure Tracks (equity share : ℚ) (past : List Decimal) (state : State) : Prop where
  sized : Sized equity state.balances.lpUnreturned.value state.balances.gpUnreturned.value
  accrued_eq : state.balances.lpAccruedPref.value = 0
  imbalance_le : |imbalance share state.balances.lpUnreturned.value state.balances.gpUnreturned.value|
    ≤ (past.length + 1) * (equity / 10 ^ 13)
  account_le : (past.length + 1) * (2 * quantum) ≤ 1 →
    |account share past state| ≤ (past.length + 1) * (200 * quantum * (equity + grossFlow past))
  reserve_le : |state.lpCumulative.value|
      + 11 * reserve state.balances.lpUnreturned.value state.balances.gpUnreturned.value
    ≤ 33 * equity + 22 * 10 ^ 14 + 22 * grossFlow past + past.length * (33 * equity / 10 ^ 14)

theorem Tracks.reserve_step (ht : Tracks equity share past p.before) (hp : PariPassu equity share p)
    (h : Steps terms [] lpShare p) :
    |p.after.lpCumulative.value|
      + 11 * reserve p.after.balances.lpUnreturned.value p.after.balances.gpUnreturned.value
    ≤ 33 * equity + 22 * 10 ^ 14 + 22 * (grossFlow past + |p.year.totalCashFlow.value|)
      + (past.length + 1) * (33 * equity / 10 ^ 14) := by
  have hbefore := ht.reserve_le
  have hyear := hp.reserve_le
  have hround := abs_nearest_add_sub_le_mul p.before.lpCumulative p.year.lpDistribution
  rw [← value_add h.lpCumulative_eq] at hround
  have hsize := abs_sub_abs_le_abs_sub p.after.lpCumulative.value
    (p.before.lpCumulative.value + p.year.lpDistribution.value)
  have htri := abs_add_le p.before.lpCumulative.value p.year.lpDistribution.value
  linarith

/-- The account changes by what the year adds, and by the rounding of the sum that is carried. -/
theorem account_append (share : ℚ) (past : List Decimal) (p : Passage) :
    account share (past ++ [p.year.totalCashFlow]) p.after
      = account share past p.before + accountChange share p
        + (p.after.lpCumulative.value
          - (p.before.lpCumulative.value + p.year.lpDistribution.value)) := by
  rw [account, account, accountChange, netFlow_append]
  ring

/-- The sum that is carried, before it is rounded, is of the size of the amounts. -/
theorem Tracks.carried_le (ht : Tracks equity share past p.before) (hp : PariPassu equity share p)
    (hshare : Represents lpShare share) (hyears : (past.length + 1) * (2 * quantum) ≤ 1) :
    |p.before.lpCumulative.value + p.year.lpDistribution.value|
      ≤ 120 * (equity + (grossFlow past + |p.year.totalCashFlow.value|)) := by
  have hequity := hp.sized.equity_ge
  have hgross := (abs_nonneg _).trans (abs_netFlow_le past)
  have hcash := abs_nonneg p.year.totalCashFlow.value
  have haccount : |account share past p.before| ≤ 100 * (equity + grossFlow past) := by
    have := mul_le_of_le_one_left (by positivity : 0 ≤ 100 * (equity + grossFlow past)) hyears
    linarith [ht.account_le hyears]
  have hshared : |share * (netFlow past + p.year.totalCashFlow.value
      + (p.after.balances.lpUnreturned.value + p.after.balances.gpUnreturned.value))|
      ≤ grossFlow past + |p.year.totalCashFlow.value| + 5 * equity := by
    have hnet := abs_le.mp (abs_netFlow_le past)
    have hflow := abs_le.mp (le_refl |p.year.totalCashFlow.value|)
    have hlp := abs_le.mp hp.sized.lp_le
    have hgp₀ := hp.sized.gp_ge
    have hgp₁ := hp.sized.gp_le
    apply abs_share_mul_le hshare.share_nonneg hshare.share_le
    rw [abs_le]
    constructor <;> linarith [hnet.1, hnet.2, hflow.1, hflow.2, hlp.1, hlp.2]
  have hsplit : p.before.lpCumulative.value + p.year.lpDistribution.value
      = account share past p.before + accountChange share p - p.after.balances.lpUnreturned.value
        + share * (netFlow past + p.year.totalCashFlow.value
          + (p.after.balances.lpUnreturned.value + p.after.balances.gpUnreturned.value)) := by
    rw [account, accountChange]
    ring
  have h₁ := abs_le.mp haccount
  have h₂ := abs_le.mp hp.account_le
  have h₃ := abs_le.mp hp.sized.lp_le
  have h₄ := abs_le.mp hshared
  rw [hsplit, abs_le]
  rw [quantum_eq] at h₂
  constructor
  · linarith [h₁.1, h₂.1, h₃.2, h₄.1]
  · linarith [h₁.2, h₂.2, h₃.1, h₄.2]

theorem Tracks.account_step (ht : Tracks equity share past p.before) (hp : PariPassu equity share p)
    (h : Steps terms [] lpShare p) (hshare : Represents lpShare share)
    (hyears : (past.length + 1 + 1) * (2 * quantum) ≤ 1) :
    |account share (past ++ [p.year.totalCashFlow]) p.after|
      ≤ (past.length + 1 + 1)
        * (200 * quantum * (equity + (grossFlow past + |p.year.totalCashFlow.value|))) := by
  have hquantum := quantum_pos
  have hequity := hp.sized.equity_ge
  have hgross := (abs_nonneg _).trans (abs_netFlow_le past)
  have hcash := abs_nonneg p.year.totalCashFlow.value
  have hyears' : (past.length + 1) * (2 * quantum) ≤ 1 := by linarith
  have hround := ((onGrid_value p.before.lpCumulative).add
    (onGrid_value p.year.lpDistribution)).rounding_le (ht.carried_le hp hshare hyears')
  rw [← value_add h.lpCumulative_eq] at hround
  have hgrows : (past.length + 1) * (200 * quantum * (equity + grossFlow past))
      ≤ (past.length + 1)
        * (200 * quantum * (equity + (grossFlow past + |p.year.totalCashFlow.value|))) := by
    have : (0 : ℚ) ≤ past.length + 1 := by positivity
    gcongr
    linarith
  have h₁ := abs_le.mp (ht.account_le hyears')
  have h₂ := abs_le.mp hp.account_le
  have h₃ := abs_le.mp hround
  have hpos := mul_nonneg hquantum.le (by positivity :
    0 ≤ equity + (grossFlow past + |p.year.totalCashFlow.value|))
  have hpos' := mul_nonneg hquantum.le hgross
  rw [account_append, abs_le]
  constructor
  · linarith [h₁.1, h₂.1, h₃.1]
  · linarith [h₁.2, h₂.2, h₃.2]

theorem Steps.tracks (h : Steps terms [] lpShare p) (halike : SharesAlike terms)
    (hshare : Represents lpShare share) (ht : Tracks equity share past p.before) :
    Tracks equity share (past ++ [p.year.totalCashFlow]) p.after := by
  have hp := h.pariPassu halike hshare ht.sized ht.accrued_eq
  refine ⟨hp.sized, hp.accrued_eq, ?_, ?_, ?_⟩ <;>
    rw [List.length_append, List.length_singleton] <;> push_cast
  · linarith [hp.imbalance_le, ht.imbalance_le]
  · rw [grossFlow_append]
    exact ht.account_step hp h hshare
  · rw [grossFlow_append]
    exact ht.reserve_step hp h

end Run

section Start
variable {s : Stakes} (hacc : terms.Accepted) (hequity : 1 ≤ terms.totalEquity.value)
include hacc hequity

/-- The equities by the general partner's share, up to a few quanta of the total. -/
theorem Stakes.Of.equities_near (hs : s.Of terms) :
    |s.lpEquity.value - (1 - terms.gpCoinvestPct.value / 100) * terms.totalEquity.value|
        ≤ 5 * quantum * terms.totalEquity.value ∧
      |s.lpEquity.value + s.gpEquity.value - terms.totalEquity.value|
        ≤ quantum * terms.totalEquity.value := by
  have hquantum := mul_le_mul_of_nonneg_left hequity quantum_pos.le
  obtain ⟨hgp₀, hgp₁⟩ := isPercentage_iff.mp hacc.gpCoinvest
  generalize hrate : terms.gpCoinvestPct.value / 100 = rate
  have hrate₀ : 0 ≤ rate := by linarith
  have hrate₁ : rate ≤ 1 := by linarith
  have hround₁ := abs_nearest_sub_le rate
  rw [abs_of_nonneg hrate₀] at hround₁
  have hnear : |nearest rate - rate| ≤ 2 * quantum :=
    hround₁.trans (by linarith [mul_le_mul_of_nonneg_left hrate₁ quantum_pos.le, quantum_pos])
  have hround₂ := abs_nearest_sub_le (terms.totalEquity.value * nearest rate)
  rw [← hrate, ← hs.gpEquity_eq, hrate] at hround₂
  have hrest : |terms.totalEquity.value - s.gpEquity.value| ≤ terms.totalEquity.value := by
    rw [abs_le]
    constructor <;> linarith [hs.gpEquity_nonneg, hs.gpEquity_le]
  have hgrid := ((onGrid_value terms.totalEquity).sub (onGrid_value s.gpEquity)).rounding_le hrest
  rw [← hs.lpEquity_eq] at hgrid
  have hscaled : |terms.totalEquity.value * nearest rate - rate * terms.totalEquity.value|
      ≤ 2 * quantum * terms.totalEquity.value := by
    rw [mul_comm rate, ← mul_sub, abs_mul, abs_of_nonneg hacc.totalEquity_nonneg, mul_comm]
    exact mul_le_mul_of_nonneg_right hnear hacc.totalEquity_nonneg
  have hsize : |terms.totalEquity.value * nearest rate| ≤ 11 / 10 * terms.totalEquity.value := by
    have := abs_le.mp hscaled
    have := mul_le_mul_of_nonneg_right hrate₁ hacc.totalEquity_nonneg
    have := mul_nonneg hrate₀ hacc.totalEquity_nonneg
    rw [quantum_eq] at *
    rw [abs_le]
    constructor <;> linarith
  have hmul := mul_le_mul_of_nonneg_left hsize quantum_pos.le
  have h₁ := abs_le.mp hround₂
  have h₂ := abs_le.mp hgrid
  have h₃ := abs_le.mp hscaled
  constructor <;> rw [abs_le]
  · constructor <;> linarith [h₁.1, h₁.2, h₂.1, h₂.2, h₃.1, h₃.2]
  · constructor <;> linarith [h₂.1, h₂.2]

theorem represents_of_stakes (h : stakes terms = .ok s) :
    Represents s.lpShare (1 - terms.gpCoinvestPct.value / 100) := by
  have hs := stakes_of_accepted hacc h
  have hpos : 0 < terms.totalEquity.value := by linarith
  obtain ⟨hgp₀, hgp₁⟩ := isPercentage_iff.mp hacc.gpCoinvest
  obtain ⟨hnear, -⟩ := hs.equities_near hacc hequity
  have hround := abs_nearest_sub_le (s.lpEquity.value / terms.totalEquity.value)
  rw [← lpShare_of_stakes h hpos.ne',
    abs_of_nonneg (div_nonneg hs.lpEquity_nonneg hpos.le)] at hround
  have hle : s.lpEquity.value / terms.totalEquity.value ≤ 1 := div_le_one_of_le₀ hs.lpEquity_le hpos.le
  have hquotient : |s.lpEquity.value / terms.totalEquity.value - (1 - terms.gpCoinvestPct.value / 100)|
      ≤ 5 * quantum := by
    rw [div_sub' hpos.ne', abs_div, abs_of_pos hpos, div_le_iff₀ hpos, mul_comm terms.totalEquity.value]
    exact hnear
  have htri := abs_sub_le s.lpShare.value (s.lpEquity.value / terms.totalEquity.value)
    (1 - terms.gpCoinvestPct.value / 100)
  have := mul_le_mul_of_nonneg_left hle quantum_pos.le
  exact ⟨by linarith, by linarith, hs.lpShare_nonneg, hs.lpShare_le, by linarith [quantum_pos]⟩

theorem tracks_start (h : stakes terms = .ok s) :
    Tracks terms.totalEquity.value (1 - terms.gpCoinvestPct.value / 100) [] (.start s) := by
  have hs := stakes_of_accepted hacc h
  have hshare := represents_of_stakes hacc hequity h
  obtain ⟨hnear, hboth⟩ := hs.equities_near hacc hequity
  have hsmall : |imbalance (1 - terms.gpCoinvestPct.value / 100) s.lpEquity.value s.gpEquity.value|
      ≤ 6 * quantum * terms.totalEquity.value := by
    have hpart : |(1 - terms.gpCoinvestPct.value / 100)
        * (s.lpEquity.value + s.gpEquity.value - terms.totalEquity.value)|
        ≤ quantum * terms.totalEquity.value :=
      abs_share_mul_le hshare.share_nonneg hshare.share_le hboth
    have h₁ := abs_le.mp hnear
    have h₂ := abs_le.mp hpart
    unfold imbalance
    rw [abs_le]
    constructor <;> linarith [h₁.1, h₁.2, h₂.1, h₂.2]
  have hlp : |s.lpEquity.value| ≤ terms.totalEquity.value := by
    rw [abs_of_nonneg hs.lpEquity_nonneg]
    exact hs.lpEquity_le
  refine ⟨⟨hequity, hlp, ?_, ?_⟩, value_zero, ?_, ?_, ?_⟩
  · change -(2 * terms.totalEquity.value) ≤ s.gpEquity.value
    linarith [hs.gpEquity_nonneg]
  · change s.gpEquity.value ≤ 4 * terms.totalEquity.value
    linarith [hs.gpEquity_le]
  · change |imbalance _ s.lpEquity.value s.gpEquity.value| ≤ _
    rw [quantum_eq] at hsmall
    simp only [List.length_nil, Nat.cast_zero]
    linarith
  · intro _
    have haccount : account (1 - terms.gpCoinvestPct.value / 100) [] (.start s)
        = imbalance (1 - terms.gpCoinvestPct.value / 100) s.lpEquity.value s.gpEquity.value := by
      simp [account, imbalance, netFlow, State.start]
    rw [haccount]
    have := mul_nonneg quantum_pos.le hacc.totalEquity_nonneg
    simp only [List.length_nil, Nat.cast_zero, grossFlow, List.map_nil, List.sum_nil]
    linarith
  · change |Decimal.zero.value| + 11 * reserve s.lpEquity.value s.gpEquity.value ≤ _
    rw [value_zero, abs_zero]
    simp only [List.length_nil, Nat.cast_zero, grossFlow, List.map_nil, List.sum_nil]
    linarith [reserve_le s.lpEquity.value s.gpEquity.value]

end Start

/-- Once the run has ended the account tells what the limited partners have got. -/
theorem Tracks.deviation_le {flows : List Decimal} {final : State}
    (ht : Tracks equity share flows final) (hshare₀ : 0 ≤ share) (hshare₁ : share ≤ 1) :
    |final.lpCumulative.value - share * netFlow flows|
      ≤ (flows.length + 1) / 10 ^ 12 * (1 + equity + grossFlow flows) := by
  have hequity := ht.sized.equity_ge
  have hgross := (abs_nonneg _).trans (abs_netFlow_le flows)
  have hlength : (0 : ℚ) ≤ flows.length + 1 := by positivity
  have hmul := mul_nonneg hlength hgross
  have hmul' := mul_le_mul_of_nonneg_left hequity hlength
  rcases le_or_gt (((flows.length : ℚ) + 1) * (2 * quantum)) 1 with hyears | hyears
  · have haccount := abs_le.mp (ht.account_le hyears)
    have himbalance := abs_le.mp ht.imbalance_le
    have hsplit : final.lpCumulative.value - share * netFlow flows
        = account share flows final
          - imbalance share final.balances.lpUnreturned.value final.balances.gpUnreturned.value := by
      unfold account imbalance
      ring
    rw [hsplit, abs_le]
    rw [quantum_eq] at haccount
    constructor
    · linarith [haccount.1, himbalance.2]
    · linarith [haccount.2, himbalance.1]
  -- after so many years the bound is larger than anything that can have been paid
  · have hreserve := ht.reserve_le
    have hnonneg := reserve_nonneg final.balances.lpUnreturned.value final.balances.gpUnreturned.value
    have hnet := abs_share_mul_le hshare₀ hshare₁ (abs_netFlow_le flows)
    have htri := abs_sub final.lpCumulative.value (share * netFlow flows)
    have hmany : (5 * 10 ^ 27 : ℚ) ≤ flows.length + 1 := by
      rw [quantum_eq] at hyears
      linarith
    have h₁ := mul_le_mul_of_nonneg_right hmany (by linarith : 0 ≤ equity)
    have h₂ := mul_le_mul_of_nonneg_right hmany hgross
    linarith

/-- Without promote terms the limited partners get their share of all the cash, up to a rounding error
that grows with the years and the amounts. -/
theorem pari_passu_without_promote {terms : WaterfallTerms} {cashFlows : List Decimal}
    {results : WaterfallResults} (hequity : 1 ≤ terms.totalEquity.value)
    (hpref : terms.preferredReturnPct.value = 0) (hcatch : terms.catchUpPct.value = 0)
    (htiers : terms.promoteTiers = []) (h : distribute terms cashFlows = .ok results) :
    |results.lpTotalDistributions.value
        - (1 - terms.gpCoinvestPct.value / 100) * (cashFlows.map Decimal.value).sum|
      ≤ (cashFlows.length + 1) / 10 ^ 12
        * (1 + terms.totalEquity.value + (cashFlows.map fun cash => |cash.value|).sum) := by
  obtain ⟨hacc, s, final, hstakes, hrun, -, -, htotal⟩ := run_of_distribute h
  have hordered : terms.orderedTiers = [] := by
    rw [WaterfallTerms.orderedTiers, htiers, List.mergeSort_nil]
  rw [hordered] at hrun
  have hshare := represents_of_stakes hacc hequity hstakes
  have htracks := law_of_runFrom (I := Tracks terms.totalEquity.value _) hrun
    (tracks_start hacc hequity hstakes)
    (fun past p ht hstep => hstep.tracks ⟨hpref, hcatch, htiers⟩ hshare ht)
  rw [htotal]
  exact htracks.deviation_le hshare.share_nonneg hshare.share_le

/-- A third to the general partner: a call, a year that returns capital and one that reaches the split. -/
theorem pari_passu_without_promote_third :
    ∃ results, distribute ⟨.hundred, .ofScaled 3333 2, .zero, .zero, []⟩
        [.ofScaled (-5) 1, .ofScaled 3333 2, .hundred] = .ok results ∧
      |results.lpTotalDistributions.value - (1 - 3333 / 10000) * (13283 / 100)| ≤ 1 / 10 ^ 9 := by
  obtain ⟨results, h⟩ := exists_of_isOk (x := distribute
    ⟨.hundred, .ofScaled 3333 2, .zero, .zero, []⟩
    [.ofScaled (-5) 1, .ofScaled 3333 2, .hundred]) (by decide +kernel)
  have hshared := pari_passu_without_promote (by norm_num) value_zero value_zero rfl h
  simp only [List.map_cons, List.map_nil, List.sum_cons, List.sum_nil, List.length_cons,
    List.length_nil] at hshared
  rw [value_ofScaled (by decide) (by decide), value_ofScaled (by decide) (by decide),
    value_hundred] at hshared
  refine ⟨results, h, ?_⟩
  norm_num [abs_of_pos, abs_of_neg] at hshared ⊢
  exact hshared.trans (by norm_num)

end PropertyFinance.Waterfall
