import PropertyFinance.Proofs.Waterfall.Priority

/-! The catch-up brings the general partner's profit to its target. The profits carried along a run are the
sums of all payments but the returns of capital, so the target does not miss a tier. What is paid is
the rounded difference to the target, and adding it back rounds once more; both numbers are on the grid,
so each of the two errors is a small part of the target. -/

namespace PropertyFinance
open Decimal
set_option autoImplicit false

section Profits
variable {xs : List Decimal} {a total total' : Decimal} {payments : List Allocation} {b b' : Balances}

/-- The sum of the numbers, but perhaps with other places. -/
def SumsTo (xs : List Decimal) (total : Decimal) : Prop :=
  ∃ s, Decimal.sum xs = .ok s ∧ s.value = total.value

theorem SumsTo.append (h : SumsTo xs total) (htotal : total'.value = nearest (total.value + a.value)) :
    SumsTo (xs ++ [a]) total' := by
  obtain ⟨s, hs, hvalue⟩ := h
  rw [← hvalue] at htotal
  obtain ⟨t, ht⟩ := add_isOk (fits_of_value_eq htotal)
  exact ⟨t, sum_append_eq_ok.mpr ⟨s, hs, ht⟩, (value_add ht).trans htotal.symm⟩

/-- The profits carried are the sums of these payments, and the general partner's is not negative. -/
structure Profits (payments : List Allocation) (b : Balances) : Prop where
  lp : SumsTo (payments.map Allocation.toLp) b.lpProfit
  gp : SumsTo (payments.map Allocation.toGp) b.gpProfit
  gp_nonneg : 0 ≤ b.gpProfit.value

theorem Profits.same (h : Profits payments b) (hlp : b'.lpProfit = b.lpProfit)
    (hgp : b'.gpProfit = b.gpProfit) : Profits payments b' := by
  obtain ⟨h₁, h₂, h₃⟩ := h
  rw [← hlp] at h₁
  rw [← hgp] at h₂ h₃
  exact ⟨h₁, h₂, h₃⟩

theorem Profits.pay (h : Profits payments b) {a : Allocation}
    (hlp : b'.lpProfit.value = nearest (b.lpProfit.value + a.toLp.value))
    (hgp : b'.gpProfit.value = nearest (b.gpProfit.value + a.toGp.value))
    (hgp₀ : 0 ≤ a.toGp.value) : Profits (payments ++ [a]) b' := by
  refine ⟨?_, ?_, ?_⟩
  · rw [List.map_append]
    exact h.lp.append hlp
  · rw [List.map_append]
    exact h.gp.append hgp
  · rw [hgp]
    exact nearest_nonneg (add_nonneg h.gp_nonneg hgp₀)

/-- Payments other than returns of capital. -/
def earned (payments : List Allocation) : List Allocation :=
  payments.filter fun a => decide (a.tier ≠ .returnOfCapital)

theorem earned_append (xs ys : List Allocation) : earned (xs ++ ys) = earned xs ++ earned ys :=
  List.filter_append _ _

theorem earned_singleton {a : Allocation} (h : a.tier ≠ .returnOfCapital) : earned [a] = [a] := by
  simp [earned, h]

end Profits

namespace Division
variable {d e : Division} {terms : WaterfallTerms} {past : List Allocation}

def Earns (past : List Allocation) (d : Division) : Prop := Profits (past ++ earned d.allocations) d.balances

theorem Earns.pay (h : d.Earns past) {a : Allocation} (he : e.allocations = d.allocations ++ [a])
    (htier : a.tier ≠ .returnOfCapital)
    (hlp : e.balances.lpProfit.value = nearest (d.balances.lpProfit.value + a.toLp.value))
    (hgp : e.balances.gpProfit.value = nearest (d.balances.gpProfit.value + a.toGp.value))
    (hgp₀ : 0 ≤ a.toGp.value) : e.Earns past := by
  rw [Earns, he, earned_append, earned_singleton htier, ← List.append_assoc]
  exact Profits.pay h hlp hgp hgp₀

theorem returnCapital_earns (hd : d.Earns past) (h : d.returnCapital = .ok e) : e.Earns past := by
  rcases returnCapital_cases h with ⟨owed, -, -, rfl⟩ | ⟨owed, toLp, toGp, hpay⟩
  · exact hd
  · rw [Earns, hpay.allocations_eq, earned_append]
    simp only [earned, List.filter_cons, List.filter_nil, ne_eq, not_true_eq_false, decide_false,
      Bool.false_eq_true, if_false, List.append_nil]
    exact Profits.same hd hpay.lpProfit_eq hpay.gpProfit_eq

theorem payPref_earns (hd : d.Earns past) (h : d.payPref = .ok e) : e.Earns past := by
  rcases payPref_cases h with ⟨-, rfl⟩ | ⟨toLp, hpay⟩
  · exact hd
  · apply hd.pay hpay.allocations_eq nofun hpay.lpProfit_eq
    · rw [hpay.gpProfit_eq, value_zero, add_zero, nearest_value]
    · exact value_zero.ge

theorem catchUp_earns (hd : d.Earns past) (h : d.catchUp terms = .ok e) : e.Earns past := by
  rcases catchUp_cases h with ⟨rfl, -⟩ | ⟨target, shortfall, toGp, hpay⟩
  · exact hd
  · apply hd.pay hpay.allocations_eq nofun _ hpay.gpProfit_eq
    · rw [hpay.toGp_eq]
      exact le_min hpay.cash_pos.le hpay.shortfall_pos.le
    · rw [hpay.lpProfit_eq, value_zero, add_zero, nearest_value]

theorem splitRest_earns {tiers : List PromoteTier} {lpShare : Decimal} {lpFlows : List Decimal}
    (hsplit : ∀ t ∈ tiers, isPercentage t.gpSplitPct = true)
    (hshare : 0 ≤ lpShare.value ∧ lpShare.value ≤ 1) (hd : d.Earns past)
    (h : d.splitRest tiers lpShare lpFlows = .ok e) : e.Earns past := by
  rcases splitRest_cases h with ⟨-, rfl⟩ | ⟨tier, toLp, toGp, hpay⟩
  · exact hd
  · have hgp₀ := (residual_bounds hpay.residual_eq hsplit hshare hpay.cash_pos.le).1
    apply hd.pay hpay.allocations_eq _ hpay.lpProfit_eq hpay.gpProfit_eq hgp₀
    rcases residual_cases hpay.residual_eq with ⟨rfl, -⟩ | ⟨t, -, rfl | rfl, -⟩ <;> exact nofun

end Division

section Target
variable {gp target : ℚ} {terms : WaterfallTerms} {lpProfit gpProfit cash t : Decimal}

theorem abs_nearest_add_sub_le (hgp : OnGrid gp) (htarget : OnGrid target) (hgp₀ : 0 ≤ gp)
    (hlt : gp < target) :
    |nearest (gp + nearest (target - gp)) - target| ≤ 1 / 10 ^ 27 * (target + gp) := by
  have hround := abs_le.mp (htarget.sub hgp).abs_nearest_sub_le
  have hround' := abs_le.mp (hgp.add (onGrid_nearest (target - gp))).abs_nearest_sub_le
  have hpos : 0 ≤ nearest (target - gp) := nearest_nonneg (by linarith)
  rw [abs_of_nonneg (by linarith), quantum_eq] at hround hround'
  rw [abs_le]
  constructor <;> linarith [hround.1, hround.2, hround'.1, hround'.2]

theorem catchUpTarget_same {lpProfit' gpProfit' : Decimal}
    (h : Division.catchUpTarget terms lpProfit gpProfit cash = .ok t)
    (hlp : lpProfit'.value = lpProfit.value) (hgp : gpProfit'.value = gpProfit.value) :
    ∃ t', Division.catchUpTarget terms lpProfit' gpProfit' cash = .ok t' ∧ t'.value = t.value := by
  obtain ⟨both, hboth, h⟩ := bind_eq_ok.mp h
  obtain ⟨profit, hprofit, h⟩ := bind_eq_ok.mp h
  obtain ⟨rate, hrate, h⟩ := bind_eq_ok.mp h
  obtain ⟨both', hboth', hsame⟩ := add_same hboth hlp hgp
  obtain ⟨profit', hprofit', hsame⟩ := add_same hprofit hsame rfl
  obtain ⟨t', ht', hsame⟩ := mul_same h hsame rfl
  refine ⟨t', ?_, hsame⟩
  rw [Division.catchUpTarget, hboth', ok_bind, hprofit', ok_bind, hrate, ok_bind, ht']

end Target

namespace Division
variable {d e : Division} {terms : WaterfallTerms} {target shortfall toGp : Decimal}

section Payment
variable (h : CatchesUp terms d e target shortfall toGp) (hgp : 0 ≤ d.balances.gpProfit.value)
include h

theorem CatchesUp.gp_lt : d.balances.gpProfit.value < target.value := by
  by_contra hreached
  have hpos := h.shortfall_pos
  have hle := nearest_mono (sub_nonpos.mpr (Rat.not_lt.mp hreached))
  rw [h.shortfall_eq] at hpos
  rw [nearest_zero] at hle
  linarith

include hgp

theorem CatchesUp.gp_sub_le :
    e.balances.gpProfit.value - target.value
      ≤ 1 / 10 ^ 27 * (target.value + d.balances.gpProfit.value) := by
  have hle : e.balances.gpProfit.value
      ≤ nearest (d.balances.gpProfit.value + nearest (target.value - d.balances.gpProfit.value)) := by
    rw [h.gpProfit_eq, ← h.shortfall_eq, h.toGp_eq]
    exact nearest_mono (add_le_add_right (min_le_right _ _) _)
  have hround := (abs_le.mp (abs_nearest_add_sub_le (onGrid_value d.balances.gpProfit)
    (onGrid_value target) hgp h.gp_lt)).2
  linarith

theorem CatchesUp.abs_gp_sub_le (hcash : 0 < e.remaining.value) :
    |e.balances.gpProfit.value - target.value|
      ≤ 1 / 10 ^ 27 * (target.value + d.balances.gpProfit.value) := by
  -- otherwise all the cash would have gone towards the shortfall
  have hlt : shortfall.value < d.remaining.value := by
    by_contra hle
    rw [h.remaining_eq, h.toGp_eq, min_eq_left (Rat.not_lt.mp hle), sub_self, nearest_zero] at hcash
    exact lt_irrefl _ hcash
  rw [h.gpProfit_eq, h.toGp_eq, min_eq_right hlt.le, h.shortfall_eq]
  exact abs_nearest_add_sub_le (onGrid_value _) (onGrid_value _) hgp h.gp_lt

end Payment

end Division

namespace Waterfall
open Division

section Years
variable {terms : WaterfallTerms} {tiers : List PromoteTier} {lpShare : Decimal} {p : Passage}
  {d₀ d₁ d₂ d₃ d₄ : Division} {past : List AnnualDistribution}

def profitPayments (years : List AnnualDistribution) : List Allocation :=
  (years.filter fun year => decide (Decimal.zero < year.totalCashFlow)).flatMap fun year =>
    earned year.allocations

/-- How the catch-up of a year relates to its target: `d` is the year before it, `e` after it. -/
structure MeetsTarget (gp target : Decimal) (d e : Division) (payments : List Allocation) : Prop where
  pays_iff : (∃ a ∈ payments, a.tier = .gpCatchUp) ↔ gp < target
  lands : ∀ a ∈ payments, a.tier = .gpCatchUp → ∃ after, gp.add a.toGp = .ok after ∧
    after.value - target.value ≤ 1 / 10 ^ 27 * (target.value + gp.value) ∧
    (Decimal.zero < e.remaining →
      |after.value - target.value| ≤ 1 / 10 ^ 27 * (target.value + gp.value))
  idle : target ≤ gp → e = d

theorem Stages.earns (hs : Stages terms tiers lpShare p d₀ d₁ d₂ d₃ d₄) {payments : List Allocation}
    (hbefore : Profits payments p.before.balances) : d₂.Earns payments := by
  obtain ⟨-, -, hnil, -, -, hlp, hgp⟩ := accruePref_cases hs.accrue
  have h₀ : d₀.Earns payments := by
    rw [Earns, hnil]
    change Profits (payments ++ []) _
    rw [List.append_nil]
    exact hbefore.same hlp hgp
  exact payPref_earns (returnCapital_earns h₀ hs.capital) hs.pref

theorem Steps.profits (h : Steps terms tiers lpShare p)
    (hsplit : ∀ t ∈ tiers, isPercentage t.gpSplitPct = true)
    (hshare : 0 ≤ lpShare.value ∧ lpShare.value ≤ 1)
    (hbefore : Profits (profitPayments past) p.before.balances) :
    Profits (profitPayments (past ++ [p.year])) p.after.balances := by
  rw [profitPayments, List.filter_append, List.flatMap_append, ← profitPayments]
  rcases h.cases with hcall | ⟨hcash, d₀, d₁, d₂, d₃, d₄, hs⟩
  · have hnone : ¬ Decimal.zero < p.year.totalCashFlow := by
      rw [zero_lt_iff]
      exact not_lt_of_ge hcall.cash_nonpos
    simpa [hnone, hcall.balances_eq] using hbefore
  · have h₃ := catchUp_earns (hs.earns hbefore) hs.catchUp
    have h₄ := splitRest_earns hsplit hshare h₃ hs.rest
    rw [Earns, ← hs.allocations_eq, ← hs.balances_eq] at h₄
    simpa [zero_lt_iff.mpr hcash] using h₄

/-- The catch-up's payment is the only one of its tier. -/
theorem Stages.catchUp_mem (hs : Stages terms tiers lpShare p d₀ d₁ d₂ d₃ d₄) {a : Allocation}
    (ha : a ∈ p.year.allocations) (htier : a.tier = .gpCatchUp) :
    ∃ target shortfall, CatchesUp terms d₂ d₃ target shortfall a.toGp := by
  -- the tiers before it are of lower rank, the split after it of a higher one
  have h₂ : a ∉ d₂.allocations := by
    intro hmem
    have := (hs.ranked.2.1.2 a hmem).2
    rw [htier] at this
    exact absurd this (by decide)
  have h₃ : a ∈ d₃.allocations := by
    rw [hs.allocations_eq] at ha
    rcases splitRest_adds hs.rest with heq | ⟨rest, hrank, heq, -⟩
    · exact heq ▸ ha
    · rw [heq, List.mem_append, List.mem_singleton] at ha
      rcases ha with ha | rfl
      · exact ha
      · rw [htier] at hrank
        exact absurd hrank (by decide)
  rcases catchUp_cases hs.catchUp with ⟨heq, -⟩ | ⟨target, shortfall, toGp, hpay⟩
  · exact absurd (heq ▸ h₃) h₂
  · rw [hpay.allocations_eq, List.mem_append, List.mem_singleton] at h₃
    obtain rfl := h₃.resolve_left h₂
    exact ⟨target, shortfall, hpay⟩

section Meeting
variable (hs : Stages terms tiers lpShare p d₀ d₁ d₂ d₃ d₄) {gp target : Decimal}
  (hgp : gp.value = d₂.balances.gpProfit.value)
include hs hgp

theorem Stages.meetsTarget_of_idle {t : Decimal} (hidle : d₃ = d₂) (htarget : target.value = t.value)
    (ht : catchUpTarget terms d₂.balances.lpProfit d₂.balances.gpProfit d₂.remaining = .ok t)
    (hreached : t.value ≤ d₂.balances.gpProfit.value) :
    MeetsTarget gp target d₂ d₃ p.year.allocations := by
  have hnone : ∀ a ∈ p.year.allocations, a.tier ≠ .gpCatchUp := by
    intro a ha htier
    obtain ⟨t', shortfall, hpay⟩ := hs.catchUp_mem ha htier
    cases ht.symm.trans hpay.target_of
    exact absurd hpay.gp_lt (not_lt_of_ge hreached)
  refine ⟨?_, fun a ha htier => absurd htier (hnone a ha), fun _ => hidle⟩
  constructor
  · rintro ⟨a, ha, htier⟩
    exact absurd htier (hnone a ha)
  · intro hlt
    rw [lt_iff_value_lt, htarget, hgp] at hlt
    exact absurd hlt (not_lt_of_ge hreached)

theorem Stages.meetsTarget_of_paid {t shortfall toGp : Decimal}
    (hpay : CatchesUp terms d₂ d₃ t shortfall toGp) (htarget : target.value = t.value)
    (hgp₀ : 0 ≤ d₂.balances.gpProfit.value) : MeetsTarget gp target d₂ d₃ p.year.allocations := by
  have hlt : gp < target := by
    rw [lt_iff_value_lt, htarget, hgp]
    exact hpay.gp_lt
  refine ⟨⟨fun _ => hlt, fun _ => ?_⟩, ?_, ?_⟩
  · refine ⟨⟨.gpCatchUp, .zero, toGp⟩, ?_, rfl⟩
    rw [hs.allocations_eq]
    apply (splitRest_adds hs.rest).allocations_le.subset
    rw [hpay.allocations_eq]
    exact List.mem_append_right _ (List.mem_singleton_self _)
  · intro a ha htier
    obtain ⟨t', shortfall', hpay'⟩ := hs.catchUp_mem ha htier
    cases hpay.target_of.symm.trans hpay'.target_of
    have hvalue := hpay'.gpProfit_eq
    rw [← hgp] at hvalue
    obtain ⟨after, hafter⟩ := add_isOk (fits_of_value_eq hvalue)
    refine ⟨after, hafter, ?_, ?_⟩ <;> rw [value_add hafter, ← hvalue, htarget, hgp]
    · exact hpay'.gp_sub_le hgp₀
    · intro hleft
      exact hpay'.abs_gp_sub_le hgp₀ (zero_lt_iff.mp hleft)
  · intro hle
    rw [le_iff_value_le] at hle
    rw [lt_iff_value_lt] at hlt
    exact absurd hlt (not_lt_of_ge hle)

end Meeting

end Years

/-- In every year that comes to the catch-up with cash left, it pays exactly if the target is not reached, and
then up to the target. -/
theorem catchUp_meets_target {terms : WaterfallTerms} {flows : List Decimal} {results : WaterfallResults}
    (h : distribute terms flows = .ok results) (henabled : Decimal.zero < terms.catchUpPct) :
    ∃ ps, history terms flows = .ok ps ∧ results.years = ps.map Passage.year ∧
      ∀ past p later, ps = past ++ p :: later → Decimal.zero < p.year.totalCashFlow →
        ∃ d e, beforeCatchUp terms p.before.balances p.year.totalCashFlow = .ok d ∧
          beforeSplit terms p.before.balances p.year.totalCashFlow = .ok e ∧
          d.allocations <+: p.year.allocations ∧
          (Decimal.zero < d.remaining → ∃ payments lp gp target,
            payments = profitPayments (past.map Passage.year) ++ earned d.allocations ∧
            Decimal.sum (payments.map Allocation.toLp) = .ok lp ∧
            Decimal.sum (payments.map Allocation.toGp) = .ok gp ∧
            catchUpTarget terms lp gp d.remaining = .ok target ∧
            MeetsTarget gp target d e p.year.allocations) := by
  obtain ⟨hacc, s, hstakes, -, -, ps, hhistory, hps, hyears⟩ := cases_of_distribute h
  refine ⟨ps, hhistory, hyears, ?_⟩
  intro past p later hsplit hcash
  have hstart : Profits (profitPayments []) (State.start s).balances :=
    ⟨⟨.zero, rfl, rfl⟩, ⟨.zero, rfl, rfl⟩, value_zero.ge⟩
  obtain ⟨hprofits, hstep⟩ := forall_passages_since
    (I := fun past state => Profits (profitPayments past) state.balances) hps hstart
    (fun past p hbefore hstep => hstep.profits hacc.orderedTiers_gpSplit hstakes.lpShare_mem hbefore)
    past p later hsplit
  rw [List.nil_append] at hprofits
  obtain ⟨d₀, d₁, d₂, d₃, d₄, hs⟩ := hstep.stages (zero_lt_iff.mp hcash)
  have hearns := hs.earns hprofits
  obtain ⟨lp, hlp, hlpvalue⟩ := hearns.lp
  obtain ⟨gp, hgp, hgpvalue⟩ := hearns.gp
  have hprefix : d₂.allocations <+: p.year.allocations := by
    rw [hs.allocations_eq]
    exact (catchUp_adds hs.catchUp).allocations_le.trans (splitRest_adds hs.rest).allocations_le
  refine ⟨d₂, d₃, hs.beforeCatchUp_eq, hs.beforeSplit_eq, hprefix, ?_⟩
  intro hleft
  rw [zero_lt_iff] at hleft henabled
  rcases catchUp_cases hs.catchUp with ⟨hidle, hreached⟩ | ⟨t, shortfall, toGp, hpay⟩
  · obtain ⟨t, ht, hreached⟩ := hreached henabled hleft
    obtain ⟨target, htarget, hvalue⟩ := catchUpTarget_same ht hlpvalue hgpvalue
    exact ⟨_, lp, gp, target, rfl, hlp, hgp, htarget,
      hs.meetsTarget_of_idle hgpvalue hidle hvalue ht hreached⟩
  · obtain ⟨target, htarget, hvalue⟩ := catchUpTarget_same hpay.target_of hlpvalue hgpvalue
    exact ⟨_, lp, gp, target, rfl, hlp, hgp, htarget,
      hs.meetsTarget_of_paid hgpvalue hpay hvalue hearns.gp_nonneg⟩

def fifthToGp : WaterfallTerms := ⟨.hundred, .ofScaled 10 0, .ofScaled 8 0, .ofScaled 20 0, []⟩

/-- In the second year the catch-up makes up for the first, and leaves cash to split. -/
theorem catchUp_meets_target_two_years :
    ∃ results, distribute fifthToGp [.ofScaled 112 0, .ofScaled 50 0] = .ok results ∧
      ∃ year ∈ results.years, year.year = 2 ∧ ∃ d e gp target, Decimal.zero < e.remaining ∧
        MeetsTarget gp target d e year.allocations := by
  obtain ⟨results, hresults⟩ :=
    exists_of_isOk (x := distribute fifthToGp [.ofScaled 112 0, .ofScaled 50 0]) (by decide +kernel)
  obtain ⟨ps, hps, hyears, hall⟩ := catchUp_meets_target hresults (by decide)
  obtain ⟨past, p, later, hps', hcheck⟩ :=
    exists_passage_of_any fifthToGp [.ofScaled 112 0, .ofScaled 50 0]
      (fun p => decide (p.year.year = 2 ∧ Decimal.zero < p.year.totalCashFlow) &&
        ((beforeCatchUp fifthToGp p.before.balances p.year.totalCashFlow).toOption.any fun d =>
          decide (Decimal.zero < d.remaining)) &&
        (beforeSplit fifthToGp p.before.balances p.year.totalCashFlow).toOption.any fun e =>
          decide (Decimal.zero < e.remaining)) (by decide +kernel)
  cases hps.symm.trans hps'
  rw [Bool.and_eq_true, Bool.and_eq_true, decide_eq_true_eq] at hcheck
  obtain ⟨⟨⟨hyear, hcash⟩, hcheck⟩, hcheck'⟩ := hcheck
  obtain ⟨d, hd, hleft⟩ := exists_of_any hcheck
  obtain ⟨e, he, hleft'⟩ := exists_of_any hcheck'
  obtain ⟨d', e', hd', he', -, hmeets⟩ := hall past p later rfl hcash
  cases hd.symm.trans hd'
  cases he.symm.trans he'
  obtain ⟨payments, lp, gp, target, -, -, -, -, hmeets⟩ := hmeets (of_decide_eq_true hleft)
  have hmem : p.year ∈ results.years := by simp [hyears]
  exact ⟨results, hresults, p.year, hmem, hyear, d, e, gp, target, of_decide_eq_true hleft', hmeets⟩

end Waterfall

end PropertyFinance
