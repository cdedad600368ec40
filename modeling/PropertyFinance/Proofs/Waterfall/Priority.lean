import PropertyFinance.Proofs.Waterfall.Years

/-! Strict priority of the tiers. In a year with cash the payments follow one another in rank, and
a tier is reached only when the tiers before it have nothing more to ask for: capital has been
returned to the last figure, and no preferred return is owed. -/

namespace PropertyFinance
open Decimal
set_option autoImplicit false

/-- The place of a tier in the order of payment; a capital call stands outside of it. -/
def Tier.rank : Tier → Nat
  | .capitalCall => 0
  | .returnOfCapital => 1
  | .preferredReturn => 2
  | .gpCatchUp => 3
  | .promote _ => 4
  | .belowHurdle _ => 4
  | .proRata => 4

namespace Division

variable {d e : Division} {r : Nat} {terms : WaterfallTerms}

/-- The payments so far are of rising ranks up to `r`. -/
def Ranked (r : Nat) (d : Division) : Prop :=
  (d.allocations.map fun a => a.tier.rank).Pairwise (· < ·) ∧
    ∀ a ∈ d.allocations, 1 ≤ a.tier.rank ∧ a.tier.rank ≤ r

/-- At most one payment is added, of the given rank, and its tier becomes the active one. -/
def Adds (r : Nat) (d e : Division) : Prop :=
  e = d ∨ ∃ a, a.tier.rank = r ∧ e.allocations = d.allocations ++ [a] ∧ e.activeTier = a.tier.label

/-- The active tier is that of the last payment. -/
def Labelled (d : Division) : Prop :=
  d.activeTier = ((d.allocations.getLast?).map fun a => a.tier.label).getD "None"

theorem Ranked.step (hd : Ranked r d) (h : Adds (r + 1) d e) : Ranked (r + 1) e := by
  obtain ⟨hsorted, hbounds⟩ := hd
  rcases h with rfl | ⟨a, ha, he, -⟩
  · exact ⟨hsorted, fun a ha => ⟨(hbounds a ha).1, (hbounds a ha).2.trans (Nat.le_succ r)⟩⟩
  · constructor
    · rw [he, List.map_append, List.pairwise_append]
      refine ⟨hsorted, List.pairwise_singleton _ _, ?_⟩
      intro m hm n hn
      obtain ⟨b, hb, rfl⟩ := List.mem_map.mp hm
      have hn' : n = a.tier.rank := by simpa using hn
      have := (hbounds b hb).2
      omega
    · intro b hb
      rw [he, List.mem_append, List.mem_singleton] at hb
      rcases hb with hb | rfl
      · have := hbounds b hb
        omega
      · omega

theorem Labelled.step (hd : Labelled d) (h : Adds r d e) : Labelled e := by
  rcases h with rfl | ⟨a, -, hall, hactive⟩
  · exact hd
  · rw [Labelled, hactive, hall, List.getLast?_concat]
    rfl

theorem returnCapital_adds (h : d.returnCapital = .ok e) : Adds 1 d e := by
  rcases returnCapital_cases h with ⟨owed, -, -, rfl⟩ | ⟨owed, toLp, toGp, hpay⟩
  · exact Or.inl rfl
  · exact Or.inr ⟨_, rfl, hpay.allocations_eq, hpay.activeTier_eq⟩

theorem payPref_adds (h : d.payPref = .ok e) : Adds 2 d e := by
  rcases payPref_cases h with ⟨-, rfl⟩ | ⟨toLp, hpay⟩
  · exact Or.inl rfl
  · exact Or.inr ⟨_, rfl, hpay.allocations_eq, hpay.activeTier_eq⟩

theorem catchUp_adds (h : d.catchUp terms = .ok e) : Adds 3 d e := by
  rcases catchUp_cases h with ⟨rfl, -⟩ | ⟨target, shortfall, toGp, hpay⟩
  · exact Or.inl rfl
  · exact Or.inr ⟨_, rfl, hpay.allocations_eq, hpay.activeTier_eq⟩

theorem splitRest_adds {tiers : List PromoteTier} {lpShare : Decimal} {lpFlows : List Decimal}
    (h : d.splitRest tiers lpShare lpFlows = .ok e) : Adds 4 d e := by
  rcases splitRest_cases h with ⟨-, rfl⟩ | ⟨tier, toLp, toGp, hpay⟩
  · exact Or.inl rfl
  · refine Or.inr ⟨_, ?_, hpay.allocations_eq, hpay.activeTier_eq⟩
    rcases residual_cases hpay.residual_eq with ⟨rfl, -⟩ | ⟨t, -, rfl | rfl, -⟩ <;> rfl

theorem Adds.allocations_le (h : Adds r d e) : d.allocations <+: e.allocations := by
  rcases h with rfl | ⟨a, -, he, -⟩
  · exact List.prefix_refl _
  · exact he ▸ List.prefix_append _ _

end Division

namespace Waterfall
open Division

variable {terms : WaterfallTerms} {tiers : List PromoteTier} {lpShare : Decimal} {p : Passage}
  {d₀ d₁ d₂ d₃ d₄ : Division}

/-- All capital owed at the start of the year was returned, by the first payment. -/
structure CapitalReturned (terms : WaterfallTerms) (p : Passage) (owed : Decimal) : Prop where
  first : ∃ paid toGp later, p.year.allocations =
      ⟨.returnOfCapital, p.before.balances.lpUnreturned, toGp⟩ :: later ∧
    paid.Same owed ∧ paid.sub p.before.balances.lpUnreturned = .ok toGp ∧
    ∃ d, ((Division.begin p.before.balances p.year.totalCashFlow).accruePref terms >>=
        returnCapital) = .ok d ∧ p.year.totalCashFlow.sub paid = .ok d.remaining
  settled : p.after.balances.lpUnreturned.Same .zero

/-- The priority of the tiers in a year. -/
structure Prioritized (terms : WaterfallTerms) (p : Passage) : Prop where
  ordered : (p.year.allocations.map fun a => a.tier.rank).Pairwise (· < ·)
  no_call : ∀ a ∈ p.year.allocations, a.tier ≠ .capitalCall
  active : ∃ last, p.year.allocations.getLast? = some last ∧
    p.year.activeTier = last.tier.label
  capital_first : (∃ a ∈ p.year.allocations, a.tier ≠ .returnOfCapital) →
    ∃ owed, p.before.balances.lpUnreturned.add p.before.balances.gpUnreturned = .ok owed ∧
      (¬ Decimal.zero < owed ∨ CapitalReturned terms p owed)
  pref_settled : (∃ a ∈ p.year.allocations, 3 ≤ a.tier.rank) →
    ¬ Decimal.zero < p.after.balances.lpAccruedPref

section Stages
variable (hs : Stages terms tiers lpShare p d₀ d₁ d₂ d₃ d₄)
include hs

theorem Stages.ranked : Ranked 1 d₁ ∧ Ranked 2 d₂ ∧ Ranked 4 d₄ := by
  have h₀ : Ranked 0 d₀ := by simp [Ranked, hs.start.2.2.1]
  have h₁ := h₀.step (returnCapital_adds hs.capital)
  have h₂ := h₁.step (payPref_adds hs.pref)
  have h₃ := h₂.step (catchUp_adds hs.catchUp)
  exact ⟨h₁, h₂, h₃.step (splitRest_adds hs.rest)⟩

theorem Stages.labelled : Labelled d₄ := by
  have h₀ : Labelled d₀ := by
    rw [Labelled, accruePref_activeTier hs.accrue, hs.start.2.2.1]
    rfl
  have h₁ := h₀.step (returnCapital_adds hs.capital)
  have h₂ := h₁.step (payPref_adds hs.pref)
  have h₃ := h₂.step (catchUp_adds hs.catchUp)
  exact h₃.step (splitRest_adds hs.rest)

theorem Stages.idle_of_capital (hcash : ¬ 0 < d₁.remaining.value) : d₄ = d₁ := by
  obtain rfl := payPref_idle hs.pref hcash
  obtain rfl := catchUp_idle hs.catchUp hcash
  exact splitRest_idle hs.rest hcash

theorem Stages.idle_of_pref (hcash : ¬ 0 < d₂.remaining.value) : d₄ = d₂ := by
  obtain rfl := catchUp_idle hs.catchUp hcash
  exact splitRest_idle hs.rest hcash

theorem Stages.sameCapital : SameCapital d₁ d₄ :=
  ((payPref_sameCapital hs.pref).trans (catchUp_sameCapital hs.catchUp)).trans
    (splitRest_sameCapital hs.rest)

theorem Stages.allocations_le : d₁.allocations <+: d₄.allocations :=
  ((payPref_adds hs.pref).allocations_le.trans (catchUp_adds hs.catchUp).allocations_le).trans
    (splitRest_adds hs.rest).allocations_le

/-- Without any payment the cash would still be there, and the split would take it. -/
theorem Stages.allocations_ne_nil (hcash : 0 < p.year.totalCashFlow.value) :
    d₄.allocations ≠ [] := by
  have append_ne : ∀ (xs : List Allocation) (a : Allocation), xs ++ [a] ≠ [] := by simp
  rcases splitRest_cases hs.rest with ⟨hidle, rfl⟩ | ⟨tier, toLp, toGp, hpay⟩
  swap
  · exact hpay.allocations_eq ▸ append_ne _ _
  rcases catchUp_cases hs.catchUp with ⟨rfl, -⟩ | ⟨target, shortfall, toGp, hpay⟩
  swap
  · exact hpay.allocations_eq ▸ append_ne _ _
  rcases payPref_cases hs.pref with ⟨-, rfl⟩ | ⟨toLp, hpay⟩
  swap
  · exact hpay.allocations_eq ▸ append_ne _ _
  rcases returnCapital_cases hs.capital with ⟨owed, -, -, rfl⟩ | ⟨owed, toLp, toGp, hpay⟩
  · rw [hs.start.1] at hidle
    exact absurd hcash hidle
  · exact hpay.allocations_eq ▸ append_ne _ _

theorem Stages.capital_first (hcash : 0 < p.year.totalCashFlow.value)
    (hother : ∃ a ∈ d₄.allocations, a.tier ≠ .returnOfCapital) :
    ∃ owed, p.before.balances.lpUnreturned.add p.before.balances.gpUnreturned = .ok owed ∧
      (¬ Decimal.zero < owed ∨ CapitalReturned terms p owed) := by
  have hleft : 0 < d₁.remaining.value := by
    by_contra hnone
    obtain ⟨a, ha, hne⟩ := hother
    rw [hs.idle_of_capital hnone] at ha
    have hrank := hs.ranked.1.2 a ha
    apply hne
    cases htier : a.tier <;> simp [htier, Tier.rank] at hrank ⊢
  obtain ⟨hrem, -, hnil, hlp, hgp⟩ := hs.start
  rcases returnCapital_cases hs.capital with ⟨owed, howed, hidle, -⟩ | ⟨owed, toLp, toGp, hpay⟩
  · rw [hlp, hgp] at howed
    rw [hrem] at hidle
    exact ⟨owed, howed, Or.inl fun h => hidle ⟨hcash, zero_lt_iff.mp h⟩⟩
  · have howed := hpay.owed_eq
    rw [hlp, hgp] at howed
    have hlt := hpay.owed_lt hleft
    rcases hpay.toLp_cases with ⟨-, rfl⟩ | ⟨hgt, -⟩
    swap
    · exact absurd hgt (not_lt_of_gt hlt)
    obtain ⟨later, hlater⟩ := hs.allocations_le
    rw [hpay.allocations_eq, hnil, List.nil_append, List.singleton_append, hlp] at hlater
    refine ⟨owed, howed, Or.inr ⟨⟨d₀.remaining.min owed, toGp, later, ?_, ?_, ?_, ?_⟩, ?_⟩⟩
    · rw [hs.allocations_eq, hlater]
    · rw [same_iff_value_eq, value_min, min_eq_right hlt.le]
    · rw [← hlp]
      exact hpay.toGp_sub
    · refine ⟨d₁, bind_eq_ok.mpr ⟨d₀, hs.accrue, hs.capital⟩, ?_⟩
      rw [← hrem]
      exact hpay.remaining_sub
    · rw [same_iff_value_eq, value_zero, hs.balances_eq, hs.sameCapital.1, hpay.lpUnreturned_eq,
        sub_self, nearest_zero]

theorem Stages.pref_settled (hlate : ∃ a ∈ d₄.allocations, 3 ≤ a.tier.rank) :
    ¬ Decimal.zero < d₄.balances.lpAccruedPref := by
  have hleft : 0 < d₂.remaining.value := by
    by_contra hnone
    obtain ⟨a, ha, hrank⟩ := hlate
    rw [hs.idle_of_pref hnone] at ha
    have := (hs.ranked.2.1.2 a ha).2
    omega
  rw [splitRest_accruedPref hs.rest, catchUp_accruedPref hs.catchUp, zero_lt_iff]
  rcases payPref_cases hs.pref with ⟨hidle, rfl⟩ | ⟨toLp, hpay⟩
  · exact fun h => hidle ⟨hleft, h⟩
  · rw [hpay.accruedPref_eq_zero hleft]
    exact lt_irrefl 0

theorem Stages.prioritized (hcash : 0 < p.year.totalCashFlow.value) : Prioritized terms p := by
  obtain ⟨-, -, hsorted, hbounds⟩ := hs.ranked
  refine ⟨?_, ?_, ?_, ?_, ?_⟩
  · rw [hs.allocations_eq]
    exact hsorted
  · intro a ha hcall
    rw [hs.allocations_eq] at ha
    have := (hbounds a ha).1
    rw [hcall] at this
    exact absurd this (by decide)
  · have hne := hs.allocations_ne_nil hcash
    rw [← hs.allocations_eq] at hne
    have hlast := List.getLast?_eq_some_getLast hne
    refine ⟨_, hlast, ?_⟩
    rw [hs.activeTier_eq, hs.labelled, ← hs.allocations_eq, hlast]
    rfl
  · intro hother
    rw [hs.allocations_eq] at hother
    exact hs.capital_first hcash hother
  · intro hlate
    rw [hs.allocations_eq] at hlate
    rw [hs.balances_eq]
    exact hs.pref_settled hlate

end Stages

/-- In every run, every year with cash keeps to the order of the tiers. -/
theorem tiers_prioritized {cashFlows : List Decimal} {results : WaterfallResults}
    (h : distribute terms cashFlows = .ok results) :
    ∃ ps, history terms cashFlows = .ok ps ∧ results.years = ps.map Passage.year ∧
      ∀ p ∈ ps, Decimal.zero < p.year.totalCashFlow → Prioritized terms p := by
  obtain ⟨-, s, -, -, -, ps, hhistory, hps, hyears⟩ := cases_of_distribute h
  refine ⟨ps, hhistory, hyears, fun p hp hcash => ?_⟩
  rw [zero_lt_iff] at hcash
  obtain ⟨-, -, hsteps⟩ := forall_passages (I := fun _ => True) hps trivial
    (fun _ _ _ => trivial) p hp
  rcases hsteps.cases with hcall | ⟨-, d₀, d₁, d₂, d₃, d₄, hstages⟩
  · exact absurd hcash (not_lt_of_ge hcall.cash_nonpos)
  · exact hstages.prioritized hcash

/-- A short year, then one that reaches the split after two years of preferred return. -/
theorem tiers_prioritized_two_years :
    ∃ results, distribute ⟨.hundred, .ofScaled 10 0, .ofScaled 8 0, .zero, []⟩
        [.ofScaled 50 0, .hundred] = .ok results ∧
      ∃ ps, history ⟨.hundred, .ofScaled 10 0, .ofScaled 8 0, .zero, []⟩
          [.ofScaled 50 0, .hundred] = .ok ps ∧
        results.years = ps.map Passage.year ∧
        ∀ p ∈ ps, Decimal.zero < p.year.totalCashFlow →
          Prioritized ⟨.hundred, .ofScaled 10 0, .ofScaled 8 0, .zero, []⟩ p := by
  obtain ⟨results, h⟩ := exists_of_isOk (x := distribute
    ⟨.hundred, .ofScaled 10 0, .ofScaled 8 0, .zero, []⟩ [.ofScaled 50 0, .hundred])
    (by decide +kernel)
  exact ⟨results, h, tiers_prioritized h⟩

end Waterfall

end PropertyFinance
