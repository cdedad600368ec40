import PropertyFinance.Proofs.Waterfall.Charges

/-! The years with cash of a whole run. What they charge anybody is bounded by what rounding can have
overpaid so far, and is nothing for money and rates of a few digits. -/

namespace PropertyFinance.Waterfall
open Decimal Division
set_option autoImplicit false

variable {terms : WaterfallTerms} {tiers : List PromoteTier} {lpShare : Decimal} {p : Passage}
  {cashFlows : List Decimal} {results : WaterfallResults}

section Exact
variable {d₀ d₁ d₂ d₃ d₄ : Division} {m b c : Nat} {share owed : ℚ}

theorem Stages.exact (hs : Stages terms tiers lpShare p d₀ d₁ d₂ d₃ d₄)
    (hd : Digits m b c) (hgp : Share b share)
    (hrate : HasPlaces b (terms.preferredReturnPct.value / 100))
    (hb : Shared m b c share p.before.balances owed)
    (hcash : 0 < p.year.totalCashFlow.value) (hcapital : Capital m c p.year.totalCashFlow.value)
    (hstep : Steps terms tiers lpShare p)
    (haccepted : ∀ t ∈ tiers, isPercentage t.gpSplitPct = true)
    (hshare : 0 ≤ lpShare.value ∧ lpShare.value ≤ 1) :
    (∃ left, Shared m b c share p.after.balances left) ∧ Spares 0 p := by
  obtain ⟨hrem, hpaid, -, hlp₀, hgp₀⟩ := hs.start
  have hb₀ := accruePref_shared hs.accrue hgp hrate hb
  have hcapital₀ : Capital m c d₀.remaining.value := hrem ▸ hcapital
  obtain ⟨⟨left, hle, hb₁⟩, hx₁⟩ := returnCapital_exact hs.capital hd hgp hb₀ hcapital₀ hpaid
  rw [hrem] at hx₁
  obtain ⟨hb₂, hx₂⟩ := payPref_exact hs.pref hd hcapital.le hb₁ hx₁
  obtain ⟨hlp₁, hgp₁⟩ := hs.after_capital
  have hafter : Shared m b c share p.after.balances left := by
    refine ⟨hb₁.capital, hlp₁ ▸ hb₁.lp_eq, hgp₁ ▸ hb₁.gp_eq, ?_⟩
    rw [hs.balances_eq, splitRest_accruedPref hs.rest, catchUp_accruedPref hs.catchUp]
    exact hb₂.accrued
  have hwithin : ReturnsWithin 0 d₀ d₁ := by
    intro sum toLp toGp hpay
    obtain ⟨hlp, hle, -⟩ := hpay.sides_of_shared hd hgp hb₀ hcapital₀
    rw [neg_zero, add_zero]
    exact ⟨hlp, hle⟩
  have hc : Allowance 0 := ⟨value_zero ▸ onGrid_value .zero, le_refl _, by norm_num⟩
  obtain ⟨hlow, -, -⟩ := hs.lp_within hcash hc hwithin hstep haccepted hshare
  have hhigh : p.year.lpDistribution.value ≤ p.year.totalCashFlow.value := by
    have hsum := hstep.lp_eq
    rw [hs.allocations_eq] at hsum
    have htotal := splitRest_lp_le haccepted hshare hs.rest (hs.covers hcash hc hwithin) hsum
    exact htotal.trans (nearest_le_value ((catchUp_total_le hs.catchUp).trans hx₂.total_le))
  refine ⟨⟨left, hafter⟩, ?_, ?_, ?_, ?_, ?_, ?_, ?_⟩
  · intro a ha
    rw [neg_zero]
    rcases hs.payment_cases haccepted hshare a ha with hpos | ⟨-, sum, hpay⟩
    · exact hpos
    · obtain ⟨hlp, -, hgp⟩ := hpay.sides_of_shared hd hgp hb₀ hcapital₀
      exact ⟨hlp, hgp⟩
  · exact hlow
  · rw [value_sub hstep.gp_eq, neg_zero]
    exact nearest_nonneg (by linarith)
  · rw [hafter.lp_eq, hb.lp_eq, add_zero]
    exact mul_le_mul_of_nonneg_left hle hgp.rest.nonneg
  · rw [hafter.gp_eq, hb.gp_eq, add_zero]
    exact mul_le_mul_of_nonneg_left hle hgp.nonneg
  · rw [hafter.lp_eq, neg_zero]
    exact (hgp.rest.mul_mem hafter.capital).1
  · rw [hafter.gp_eq, neg_zero]
    exact (hgp.mul_mem hafter.capital).1

end Exact

/-- Terms and cash flows of so few digits that capital is returned without rounding: money of `m`
places and `c` whole digits, rates of `b` places. Cents and hundredths of a percent leave room for ten
thousand millions. -/
structure FewDigits (m b c : Nat) (terms : WaterfallTerms) (cashFlows : List Decimal) : Prop where
  digits : Digits m b c
  equity : Capital m c terms.totalEquity.value
  gpShare : HasPlaces b (terms.gpCoinvestPct.value / 100)
  prefRate : HasPlaces b (terms.preferredReturnPct.value / 100)
  flows : ∀ cash ∈ cashFlows, 0 < cash.value → Capital m c cash.value

section Exact
variable {m b c : Nat} {s : Stakes} {share : ℚ}

theorem FewDigits.gp_share (h : FewDigits m b c terms cashFlows) (hacc : terms.Accepted) :
    Share b (terms.gpCoinvestPct.value / 100) := by
  obtain ⟨hge, hle⟩ := isPercentage_iff.mp hacc.gpCoinvest
  exact ⟨h.gpShare, by linarith, by linarith⟩

theorem FewDigits.start (h : FewDigits m b c terms cashFlows) (hacc : terms.Accepted)
    (hs : s.Of terms) :
    Shared m b c (terms.gpCoinvestPct.value / 100) (State.start s).balances
      terms.totalEquity.value := by
  have hshare := h.gp_share hacc
  have hrate : nearest (terms.gpCoinvestPct.value / 100) = terms.gpCoinvestPct.value / 100 := by
    apply h.gpShare.nearest_eq (c := 0) _ (by have := h.digits.product; omega)
    rw [abs_of_nonneg hshare.nonneg, pow_zero]
    exact hshare.le_one
  have hgp : s.gpEquity.value = terms.gpCoinvestPct.value / 100 * terms.totalEquity.value := by
    rw [hs.gpEquity_eq, hrate, mul_comm, hshare.nearest_mul h.digits h.equity]
  refine ⟨h.equity, ?_, hgp, ?_⟩
  · change s.lpEquity.value = _
    rw [hs.lpEquity_eq, hgp, ← one_sub_mul, hshare.rest.nearest_mul h.digits h.equity]
  · change HasPlaces _ Decimal.zero.value
    rw [value_zero]
    exact hasPlaces_zero _

theorem Steps.shared (h : Steps terms tiers lpShare p) (hd : Digits m b c) (hgp : Share b share)
    (hrate : HasPlaces b (terms.preferredReturnPct.value / 100))
    (hb : ∃ owed, Shared m b c share p.before.balances owed)
    (hcapital : 0 < p.year.totalCashFlow.value → Capital m c p.year.totalCashFlow.value)
    (haccepted : ∀ t ∈ tiers, isPercentage t.gpSplitPct = true)
    (hshare : 0 ≤ lpShare.value ∧ lpShare.value ≤ 1) :
    (∃ owed, Shared m b c share p.after.balances owed) ∧
      (0 < p.year.totalCashFlow.value → Spares 0 p) := by
  obtain ⟨owed, hb⟩ := hb
  rcases h.cases with hcall | ⟨hcash, d₀, d₁, d₂, d₃, d₄, hstages⟩
  · rw [hcall.balances_eq]
    exact ⟨⟨owed, hb⟩, fun hcash => absurd hcash (not_lt_of_ge hcall.cash_nonpos)⟩
  · obtain ⟨hafter, hspares⟩ :=
      hstages.exact hd hgp hrate hb hcash (hcapital hcash) h haccepted hshare
    exact ⟨hafter, fun _ => hspares⟩

end Exact

/-- What the rounding of one year can add to the overpayment of a partner. -/
def yearlyDrift (equity : ℚ) : ℚ := 2 / 10 ^ 13 + equity / 10 ^ 26

/-- The same, less a little, as a decimal. -/
def yearlySlack (equity : ℚ) : ℚ := ⌈10 ^ 15 + 100 * equity⌉ * quantum

section Bounded
variable {equity : ℚ} {k : Nat}

theorem yearlySlack_ge (equity : ℚ) : 1 / 10 ^ 13 + equity / 10 ^ 26 ≤ yearlySlack equity := by
  have := mul_le_mul_of_nonneg_right (Int.le_ceil (10 ^ 15 + 100 * equity)) quantum_pos.le
  rw [yearlySlack]
  rw [quantum_eq] at *
  linarith

theorem yearlySlack_le (equity : ℚ) : yearlySlack equity ≤ yearlyDrift equity := by
  have := mul_le_mul_of_nonneg_right (Int.ceil_lt_add_one (10 ^ 15 + 100 * equity)).le quantum_pos.le
  rw [yearlySlack, yearlyDrift]
  rw [quantum_eq] at *
  linarith

theorem onGrid_years (equity : ℚ) (k : Nat) : OnGrid (k * yearlySlack equity) :=
  ⟨k * ⌈10 ^ 15 + 100 * equity⌉, by rw [yearlySlack]; push_cast; ring⟩

theorem slack_years (hequity : 0 ≤ equity) (hle : (k + 1) * yearlySlack equity ≤ 1) :
    Slack equity (k * yearlySlack equity) ((k + 1) * yearlySlack equity) := by
  have hge := yearlySlack_ge equity
  have hslack : 0 ≤ yearlySlack equity := le_trans (by positivity) hge
  exact ⟨hequity, by positivity, by linarith, hle⟩

/-- What the partners have been overpaid before the year of that number, while the bound is below one. -/
def OwesAt (equity : ℚ) (k : Nat) (state : State) : Prop :=
  k * yearlySlack equity ≤ 1 → Owes equity (k * yearlySlack equity)
    state.balances.lpUnreturned.value state.balances.gpUnreturned.value

/-- Both equities together are the total, up to a rounding error. -/
theorem Stakes.Of.owes {s : Stakes} (hs : s.Of terms) :
    OwesAt terms.totalEquity.value 1 (.start s) := by
  intro _
  rw [Nat.cast_one, one_mul]
  change Owes _ _ s.lpEquity.value s.gpEquity.value
  have hge := yearlySlack_ge terms.totalEquity.value
  have hlp := hs.lpEquity_nonneg
  have hgp := hs.gpEquity_nonneg
  have hle := hs.gpEquity_le
  have hround := (abs_le.mp ((onGrid_value terms.totalEquity).sub
    (onGrid_value s.gpEquity)).abs_nearest_sub_le).2
  rw [← hs.lpEquity_eq, abs_of_nonneg (by linarith), quantum_eq] at hround
  constructor <;> linarith

theorem OwesAt.owes {state : State} (h : OwesAt equity k state) (hequity : 0 ≤ equity)
    (hle : (k + 1) * yearlySlack equity ≤ 1) :
    Owes equity (k * yearlySlack equity) state.balances.lpUnreturned.value
      state.balances.gpUnreturned.value := by
  have hslack := slack_years hequity hle
  exact h (hslack.bound_le.trans hle)

theorem Steps.owes (h : Steps terms tiers lpShare p) (hequity : 0 ≤ equity)
    (ho : OwesAt equity k p.before) : OwesAt equity (k + 1) p.after := by
  intro hle
  push_cast at hle ⊢
  have howes := ho.owes hequity hle
  have hslack := slack_years hequity hle
  rcases h.cases with hcall | ⟨-, d₀, d₁, d₂, d₃, d₄, hstages⟩
  · rw [hcall.balances_eq]
    exact howes.mono hslack.bound_le
  · exact (hstages.owes_after howes hslack).1

end Bounded

/-- The years begin with the equities and follow on one another. -/
structure Linked (results : WaterfallResults) (ps : List Passage) : Prop where
  lp_start : ∀ p ∈ ps.head?, p.before.balances.lpUnreturned = results.lpEquity
  gp_start : ∀ p ∈ ps.head?, p.before.balances.gpUnreturned = results.gpEquity
  follows : ps.IsChain fun p q => p.after = q.before

/-- What a year with cash may charge the partners. -/
structure SparesPartners (terms : WaterfallTerms) (cashFlows : List Decimal) (p : Passage) : Prop where
  charges : ∀ a ∈ p.year.allocations,
    (a.toLp < .zero ∨ a.toGp < .zero → a.tier = .returnOfCapital) ∧
      (a.toLp < .zero → p.before.balances.lpUnreturned < .zero)
  bounded : (p.year.year + 1) * yearlyDrift terms.totalEquity.value ≤ 1 →
    Spares (3 * ((p.year.year + 1) * yearlyDrift terms.totalEquity.value)
      + p.year.totalCashFlow.value / 10 ^ 26) p
  exact : ∀ m b c, FewDigits m b c terms cashFlows → Spares 0 p

section Run
variable {s : Stakes} {ps : List Passage}
  (hps : passages terms terms.orderedTiers s.lpShare cashFlows 1 (.start s) = .ok ps)
  (hacc : terms.Accepted) (hs : s.Of terms)
include hps hacc hs

theorem spares_along : ∀ p ∈ ps, 0 < p.year.totalCashFlow.value →
    (p.year.year + 1) * yearlyDrift terms.totalEquity.value ≤ 1 →
    Spares (3 * ((p.year.year + 1) * yearlyDrift terms.totalEquity.value)
      + p.year.totalCashFlow.value / 10 ^ 26) p := by
  intro p hp hcash hyears
  have hequity := hacc.totalEquity_nonneg
  obtain ⟨-, hbefore, -, hstep⟩ := forall_passages_numbered (I := OwesAt terms.totalEquity.value)
    hps hs.owes (fun q _ hq hstep => hstep.owes hequity hq) p hp
  have hdrift : (p.year.year + 1) * yearlySlack terms.totalEquity.value
      ≤ (p.year.year + 1) * yearlyDrift terms.totalEquity.value :=
    mul_le_mul_of_nonneg_left (yearlySlack_le _) (by positivity)
  have hle := hdrift.trans hyears
  have hgrid := onGrid_years terms.totalEquity.value (p.year.year + 1)
  push_cast at hgrid
  obtain ⟨d₀, d₁, d₂, d₃, d₄, hstages⟩ := hstep.stages hcash
  apply (hstages.spares (hbefore.owes hequity hle) (slack_years hequity hle) hgrid hcash hstep
    hacc.orderedTiers_gpSplit hs.lpShare_mem).mono
  linarith

theorem exact_along {m b c : Nat} (h : FewDigits m b c terms cashFlows) :
    ∀ p ∈ ps, 0 < p.year.totalCashFlow.value → Spares 0 p := by
  intro p hp
  have hshare := h.gp_share hacc
  have haccepted := hacc.orderedTiers_gpSplit
  obtain ⟨hmem, hbefore, -, hstep⟩ := forall_passages_numbered
    (I := fun _ state => ∃ owed, Shared m b c (terms.gpCoinvestPct.value / 100) state.balances owed)
    hps ⟨_, h.start hacc hs⟩
    (fun q hq hb hstep => (hstep.shared h.digits hshare h.prefRate hb (h.flows _ hq) haccepted
      hs.lpShare_mem).1) p hp
  exact (hstep.shared h.digits hshare h.prefRate hbefore (h.flows _ hmem) haccepted
    hs.lpShare_mem).2

end Run

/-- In every run, a year with cash charges nobody, beyond what rounding can have overpaid: nothing at all
when money and rates have few digits. -/
theorem paying_years_spare_partners (h : distribute terms cashFlows = .ok results) :
    ∃ ps, history terms cashFlows = .ok ps ∧ results.years = ps.map Passage.year ∧
      Linked results ps ∧
      ∀ p ∈ ps, Decimal.zero < p.year.totalCashFlow → SparesPartners terms cashFlows p := by
  obtain ⟨hacc, s, hs, hlp, hgp, ps, hhistory, hps, hyears⟩ := cases_of_distribute h
  obtain ⟨hfirst, hchain⟩ := passages_isChain hps
  refine ⟨ps, hhistory, hyears, ⟨?_, ?_, hchain⟩, fun p hp hcash => ?_⟩
  · intro p hp
    rw [hfirst p hp, hlp]
    rfl
  · intro p hp
    rw [hfirst p hp, hgp]
    rfl
  · rw [zero_lt_iff] at hcash
    refine ⟨?_, spares_along hps hacc hs p hp hcash, fun m b c hfew =>
      exact_along hps hacc hs hfew p hp hcash⟩
    obtain ⟨-, -, hstep⟩ := forall_passages (I := fun _ => True) hps trivial
      (fun _ _ _ => trivial) p hp
    obtain ⟨d₀, d₁, d₂, d₃, d₄, hstages⟩ := hstep.stages hcash
    simp only [lt_zero_iff]
    exact hstages.charge_cases hacc.orderedTiers_gpSplit hs.lpShare_mem

theorem fewDigits_three_years :
    FewDigits 2 4 10 ⟨.hundred, .ofScaled 10 0, .ofScaled 8 0, .zero, []⟩
      [.ofScaled (-5) 1, .ofScaled 3333 2, .hundred] := by
  refine ⟨⟨by decide, by decide⟩, ?_, ?_, ?_, ?_⟩
  · rw [value_hundred]
    exact ⟨⟨10000, by norm_num⟩, by norm_num, by norm_num⟩
  · rw [value_ofScaled (by decide) (by decide)]
    exact ⟨1000, by norm_num⟩
  · rw [value_ofScaled (by decide) (by decide)]
    exact ⟨800, by norm_num⟩
  · intro cash hcash hpos
    simp only [List.mem_cons, List.not_mem_nil, or_false] at hcash
    rcases hcash with rfl | rfl | rfl
    · rw [value_ofScaled (by decide) (by decide)] at hpos
      norm_num at hpos
    · rw [value_ofScaled (by decide) (by decide)]
      exact ⟨⟨3333, by norm_num⟩, by norm_num, by norm_num⟩
    · rw [value_hundred]
      exact ⟨⟨10000, by norm_num⟩, by norm_num, by norm_num⟩

/-- Cents and whole percents: a call, a short year and one that reaches the split charge nobody. -/
theorem paying_years_spare_partners_three_years :
    ∃ results, distribute ⟨.hundred, .ofScaled 10 0, .ofScaled 8 0, .zero, []⟩
        [.ofScaled (-5) 1, .ofScaled 3333 2, .hundred] = .ok results ∧
      ∃ ps, history ⟨.hundred, .ofScaled 10 0, .ofScaled 8 0, .zero, []⟩
          [.ofScaled (-5) 1, .ofScaled 3333 2, .hundred] = .ok ps ∧
        results.years = ps.map Passage.year ∧ Linked results ps ∧
        ∀ p ∈ ps, Decimal.zero < p.year.totalCashFlow → Spares 0 p := by
  obtain ⟨results, h⟩ := exists_of_isOk (x := distribute
    ⟨.hundred, .ofScaled 10 0, .ofScaled 8 0, .zero, []⟩
    [.ofScaled (-5) 1, .ofScaled 3333 2, .hundred]) (by decide +kernel)
  obtain ⟨ps, hhistory, hyears, hlinked, hspares⟩ := paying_years_spare_partners h
  exact ⟨results, h, ps, hhistory, hyears, hlinked,
    fun p hp hcash => (hspares p hp hcash).exact 2 4 10 fewDigits_three_years⟩

/-- More digits do let it happen. One year pays the limited partners more than their balance, and the
next takes it back. -/
theorem partners_charged_after_overpayment :
    ∃ results, distribute ⟨.hundred, .ofScaled 90 0, .zero, .zero, []⟩
        [.ofScaled 9999999999999997 14, .ofScaled 2 14, .one] = .ok results ∧
      ∃ ps, history ⟨.hundred, .ofScaled 90 0, .zero, .zero, []⟩
          [.ofScaled 9999999999999997 14, .ofScaled 2 14, .one] = .ok ps ∧
        (∃ p ∈ ps, Decimal.zero < p.year.totalCashFlow ∧
          p.after.balances.lpUnreturned < .zero) ∧
        ∃ p ∈ ps, Decimal.zero < p.year.totalCashFlow ∧ (∃ a ∈ p.year.allocations, a.toLp < .zero) ∧
          p.before.balances.lpUnreturned < p.after.balances.lpUnreturned := by
  obtain ⟨results, h⟩ := exists_of_isOk (x := distribute
    ⟨.hundred, .ofScaled 90 0, .zero, .zero, []⟩
    [.ofScaled 9999999999999997 14, .ofScaled 2 14, .one]) (by decide +kernel)
  obtain ⟨ps, hps, hcheck⟩ := exists_of_any (x := history
    ⟨.hundred, .ofScaled 90 0, .zero, .zero, []⟩
    [.ofScaled 9999999999999997 14, .ofScaled 2 14, .one])
    (p := fun ps => decide ((∃ p ∈ ps, Decimal.zero < p.year.totalCashFlow ∧
          p.after.balances.lpUnreturned < .zero) ∧
        ∃ p ∈ ps, Decimal.zero < p.year.totalCashFlow ∧ (∃ a ∈ p.year.allocations, a.toLp < .zero) ∧
          p.before.balances.lpUnreturned < p.after.balances.lpUnreturned)) (by decide +kernel)
  exact ⟨results, h, ps, hps, of_decide_eq_true hcheck⟩

end PropertyFinance.Waterfall
