import PropertyFinance.Proofs.Waterfall.Years

/-! The split of a year goes by the highest hurdle that the limited partners would reach. The search runs
down the sorted tiers, and sorting keeps the order of equal hurdles, so among these the last one listed
is found. Where all hurdles differ the sorted tiers do not depend on the listing, nor does the run. -/

namespace PropertyFinance
open Decimal
set_option autoImplicit false

section Order
variable {tiers lower upper : List PromoteTier} {t u : PromoteTier} {P : PromoteTier → Bool}

/-- The tiers in the order in which the waterfall takes them. -/
def byHurdle (tiers : List PromoteTier) : List PromoteTier :=
  tiers.mergeSort fun a b => decide (a.hurdleIrrPct ≤ b.hurdleIrrPct)

theorem hurdle_trans (a b c : PromoteTier) (hab : decide (a.hurdleIrrPct ≤ b.hurdleIrrPct) = true)
    (hbc : decide (b.hurdleIrrPct ≤ c.hurdleIrrPct) = true) :
    decide (a.hurdleIrrPct ≤ c.hurdleIrrPct) = true := by
  simp only [decide_eq_true_eq, le_iff_value_le] at *
  exact hab.trans hbc

theorem hurdle_total (a b : PromoteTier) :
    (decide (a.hurdleIrrPct ≤ b.hurdleIrrPct) || decide (b.hurdleIrrPct ≤ a.hurdleIrrPct)) = true := by
  simp only [Bool.or_eq_true, decide_eq_true_eq, le_iff_value_le]
  exact le_total _ _

theorem byHurdle_pairwise (tiers : List PromoteTier) :
    (byHurdle tiers).Pairwise fun a b => a.hurdleIrrPct ≤ b.hurdleIrrPct :=
  (List.pairwise_mergeSort hurdle_trans hurdle_total tiers).imp of_decide_eq_true

/-- A tier listed first comes before those of its hurdle, and behind lower ones only. -/
theorem byHurdle_cons (t : PromoteTier) (tiers : List PromoteTier) :
    ∃ lower upper, byHurdle (t :: tiers) = lower ++ t :: upper ∧ byHurdle tiers = lower ++ upper ∧
      (∀ u ∈ lower, u.hurdleIrrPct < t.hurdleIrrPct) ∧ ∀ u ∈ upper, t.hurdleIrrPct ≤ u.hurdleIrrPct := by
  obtain ⟨lower, upper, hsorted, hrest, hlower⟩ := List.mergeSort_cons hurdle_trans hurdle_total t tiers
  refine ⟨lower, upper, hsorted, hrest, ?_, ?_⟩
  · intro u hu
    simpa [le_iff_value_le, lt_iff_value_lt] using hlower u hu
  · have hpairwise := byHurdle_pairwise (t :: tiers)
    rw [byHurdle, hsorted, List.pairwise_append, List.pairwise_cons] at hpairwise
    exact hpairwise.2.1.1

/-- Of the tiers that pass the test, the last one listed with the highest hurdle. -/
def LastHighest (P : PromoteTier → Bool) (tiers : List PromoteTier) (t : PromoteTier) : Prop :=
  P t = true ∧ ∃ before after, tiers = before ++ t :: after ∧
    (∀ u ∈ before, P u = true → u.hurdleIrrPct ≤ t.hurdleIrrPct) ∧
    ∀ u ∈ after, P u = true → u.hurdleIrrPct < t.hurdleIrrPct

/-- The first one listed with the lowest hurdle. -/
def FirstLowest (tiers : List PromoteTier) (t : PromoteTier) : Prop :=
  ∃ before after, tiers = before ++ t :: after ∧
    (∀ u ∈ before, t.hurdleIrrPct < u.hurdleIrrPct) ∧ ∀ u ∈ after, t.hurdleIrrPct ≤ u.hurdleIrrPct

theorem LastHighest.cons (h : LastHighest P tiers t)
    (hu : P u = true → u.hurdleIrrPct ≤ t.hurdleIrrPct) : LastHighest P (u :: tiers) t := by
  obtain ⟨hP, before, after, rfl, hbefore, hafter⟩ := h
  refine ⟨hP, u :: before, after, rfl, ?_, hafter⟩
  rw [List.forall_mem_cons]
  exact ⟨hu, hbefore⟩

theorem FirstLowest.cons (h : FirstLowest tiers t) (hu : t.hurdleIrrPct < u.hurdleIrrPct) :
    FirstLowest (u :: tiers) t := by
  obtain ⟨before, after, rfl, hbefore, hafter⟩ := h
  refine ⟨u :: before, after, rfl, ?_, hafter⟩
  rw [List.forall_mem_cons]
  exact ⟨hu, hbefore⟩

theorem lastHighest_of_find (h : (byHurdle tiers).reverse.find? P = some t) : LastHighest P tiers t := by
  induction tiers with
  | nil => simp [byHurdle] at h
  | cons u tiers ih =>
    obtain ⟨lower, upper, hsorted, hrest, hlower, hupper⟩ := byHurdle_cons u tiers
    rw [hsorted, List.reverse_append, List.reverse_cons, List.append_assoc, List.find?_append] at h
    rw [hrest, List.reverse_append, List.find?_append] at ih
    -- the search comes to the upper tiers first, and to the lower ones only past `u`
    cases hfound : upper.reverse.find? P with
    | some v =>
      rw [hfound, Option.some_or] at h ih
      obtain rfl := Option.some.inj h
      apply (ih rfl).cons
      intro _
      exact hupper v (List.mem_reverse.mp (List.mem_of_find?_eq_some hfound))
    | none =>
      rw [hfound, Option.none_or] at h ih
      rw [List.singleton_append, List.find?_cons] at h
      cases hu : P u with
      | true =>
        rw [hu] at h
        obtain rfl := Option.some.inj h
        -- every other tier that passes is among the lower ones
        refine ⟨hu, [], tiers, rfl, by simp, ?_⟩
        intro v hv hP
        have hmem : v ∈ lower ++ upper := by
          rw [← hrest]
          exact List.mem_mergeSort.mpr hv
        rcases List.mem_append.mp hmem with hv | hv
        · exact hlower v hv
        · exact absurd hP (List.find?_eq_none.mp hfound v (List.mem_reverse.mpr hv))
      | false =>
        rw [hu] at h
        apply (ih h).cons
        rw [hu]
        exact nofun

theorem firstLowest_of_head (h : (byHurdle tiers).head? = some t) : FirstLowest tiers t := by
  induction tiers with
  | nil => simp [byHurdle] at h
  | cons u tiers ih =>
    obtain ⟨lower, upper, hsorted, hrest, hlower, hupper⟩ := byHurdle_cons u tiers
    rw [hsorted] at h
    cases lower with
    | nil =>
      obtain rfl := Option.some.inj h
      refine ⟨[], tiers, rfl, by simp, ?_⟩
      intro v hv
      apply hupper
      rw [List.nil_append] at hrest
      rw [← hrest]
      exact List.mem_mergeSort.mpr hv
    | cons v lower =>
      obtain rfl := Option.some.inj h
      rw [hrest] at ih
      exact (ih rfl).cons (hlower v List.mem_cons_self)

theorem byHurdle_eq_of_perm {tiers' : List PromoteTier} (hperm : tiers.Perm tiers')
    (hdistinct : tiers.Pairwise fun t u => ¬ t.hurdleIrrPct.Same u.hurdleIrrPct) :
    byHurdle tiers' = byHurdle tiers := by
  have hperm' : (byHurdle tiers').Perm (byHurdle tiers) :=
    ((List.mergeSort_perm _ _).trans hperm.symm).trans (List.mergeSort_perm _ _).symm
  apply List.Perm.eq_of_pairwise _ (byHurdle_pairwise _) (byHurdle_pairwise _) hperm'
  intro t u ht hu htu hut
  have hnodup : (tiers.map fun t => t.hurdleIrrPct.value).Nodup := by
    apply List.pairwise_map.mpr
    exact hdistinct.imp fun hne heq => hne (same_iff_value_eq.mpr heq)
  rw [le_iff_value_le] at htu hut
  exact List.inj_on_of_nodup_map hnodup (hperm.mem_iff.mpr (List.mem_mergeSort.mp ht))
    (List.mem_mergeSort.mp hu) (le_antisymm htu hut)

end Order

namespace Division
variable {d e : Division} {terms : WaterfallTerms}

/-- What was paid to the limited partners is the sum of their payments, but for the places of a zero. -/
def Tallies (d : Division) : Prop :=
  ∃ paid, Decimal.sum (d.allocations.map Allocation.toLp) = .ok paid ∧ ∀ x, paid.add x = d.lpPaid.add x

theorem Tallies.pay (h : d.Tallies) {a : Allocation} (hpaid : d.lpPaid.add a.toLp = .ok e.lpPaid)
    (he : e.allocations = d.allocations ++ [a]) : e.Tallies := by
  obtain ⟨paid, hsum, hsame⟩ := h
  refine ⟨e.lpPaid, ?_, fun _ => rfl⟩
  rw [he, List.map_append, List.map_singleton, sum_append_eq_ok]
  exact ⟨paid, hsum, (hsame a.toLp).trans hpaid⟩

theorem Tallies.pay_gp (h : d.Tallies) {tier : Tier} {toGp : Decimal} (hpaid : e.lpPaid = d.lpPaid)
    (he : e.allocations = d.allocations ++ [⟨tier, .zero, toGp⟩]) : e.Tallies := by
  obtain ⟨paid, hsum, hsame⟩ := h
  obtain ⟨paid', hadd, hsame'⟩ : ∃ paid', paid.add .zero = .ok paid' ∧ ∀ x, paid'.add x = paid.add x := by
    cases hzero : paid.isZero with
    | true => exact ⟨.zero, add_of_isZero hzero _, fun x => by rw [add_of_isZero hzero, add_of_isZero rfl]⟩
    | false => exact ⟨paid, add_isZero hzero rfl, fun _ => rfl⟩
  refine ⟨paid', ?_, ?_⟩
  · rw [he, List.map_append, List.map_singleton, sum_append_eq_ok]
    exact ⟨paid, hsum, hadd⟩
  · intro x
    rw [hpaid, hsame', hsame]

theorem returnCapital_tallies (hd : d.Tallies) (h : d.returnCapital = .ok e) : e.Tallies := by
  rcases returnCapital_cases h with ⟨owed, -, -, rfl⟩ | ⟨owed, toLp, toGp, hpay⟩
  · exact hd
  · exact hd.pay hpay.lpPaid_add hpay.allocations_eq

theorem payPref_tallies (hd : d.Tallies) (h : d.payPref = .ok e) : e.Tallies := by
  rcases payPref_cases h with ⟨-, rfl⟩ | ⟨toLp, hpay⟩
  · exact hd
  · exact hd.pay hpay.lpPaid_add hpay.allocations_eq

theorem catchUp_tallies (hd : d.Tallies) (h : d.catchUp terms = .ok e) : e.Tallies := by
  rcases catchUp_cases h with ⟨rfl, -⟩ | ⟨target, shortfall, toGp, hpay⟩
  · exact hd
  · exact hd.pay_gp hpay.lpPaid_eq hpay.allocations_eq

end Division

namespace Waterfall
open Division

section Promote
variable {terms : WaterfallTerms} {listed : List PromoteTier} {lpShare : Decimal} {p : Passage}
  {d d₀ d₁ d₂ d₃ d₄ : Division} {q : Option Decimal} {t : PromoteTier} {tier : Tier}

/-- The rate that the limited partners would earn if they had all that is left of a year. -/
def TrialRate (lpFlows : List Decimal) (d : Division) (q : Option Decimal) : Prop :=
  ∃ paid trial, Decimal.sum (d.allocations.map Allocation.toLp) = .ok paid ∧
    paid.add d.remaining = .ok trial ∧ Yield.rate? (lpFlows ++ [trial]) = .ok q

/-- The tier `t` is the one to split by at the rate `q`, under this label. -/
def SplitsAt (listed : List PromoteTier) (q : Option Decimal) (t : PromoteTier) (label : String) : Prop :=
  (LastHighest (Reaches q) listed t ∧ label = "Promote " ++ t.hurdleIrrPct.normalize.toText ++ "%+") ∨
  ((∀ u ∈ listed, Reaches q u = false) ∧ FirstLowest listed t ∧
    label = "Below " ++ t.hurdleIrrPct.normalize.toText ++ "% Hurdle")

/-- All that is left of a year is paid by the split of one tier. -/
structure Promotes (listed : List PromoteTier) (lpFlows : List Decimal) (d : Division)
    (q : Option Decimal) (t : PromoteTier) (a : Allocation) : Prop where
  trial : TrialRate lpFlows d q
  splits : SplitsAt listed q t a.tier.label
  toGp_eq : ∃ split, percentToRate t.gpSplitPct = .ok split ∧ d.remaining.mul split = .ok a.toGp
  toLp_eq : d.remaining.sub a.toGp = .ok a.toLp

/-- The limited partners' flows: their equity, and what each year so far gave them. -/
def FlowsAre (s : Stakes) (past : List AnnualDistribution) (state : State) : Prop :=
  state.lpFlows = s.lpEquity.negate :: past.map AnnualDistribution.lpDistribution

theorem Steps.flowsAre {tiers : List PromoteTier} {s : Stakes} {past : List AnnualDistribution}
    (h : Steps terms tiers lpShare p) (hbefore : FlowsAre s past p.before) :
    FlowsAre s (past ++ [p.year]) p.after := by
  rw [FlowsAre] at hbefore ⊢
  rw [h.lpFlows_eq, hbefore, List.map_append]
  rfl

theorem splitsAt_of_sets (h : Sets q (byHurdle listed) t tier) : SplitsAt listed q t tier.label := by
  rcases h with ⟨hfound, rfl⟩ | ⟨hnone, hhead, rfl⟩
  · exact Or.inl ⟨lastHighest_of_find hfound, rfl⟩
  · right
    refine ⟨?_, firstLowest_of_head hhead, rfl⟩
    intro u hu
    have hmem : u ∈ (byHurdle listed).reverse := List.mem_reverse.mpr (List.mem_mergeSort.mpr hu)
    simpa using List.find?_eq_none.mp hnone u hmem

theorem Stages.tallies (hs : Stages terms listed lpShare p d₀ d₁ d₂ d₃ d₄) : d₃.Tallies := by
  obtain ⟨-, hpaid, hnil, -, -⟩ := hs.start
  have h₀ : d₀.Tallies := ⟨.zero, by rw [hnil]; rfl, by simp [hpaid]⟩
  have h₁ := returnCapital_tallies h₀ hs.capital
  have h₂ := payPref_tallies h₁ hs.pref
  exact catchUp_tallies h₂ hs.catchUp

theorem Stages.promotes (hs : Stages terms (byHurdle listed) lpShare p d₀ d₁ d₂ d₃ d₄)
    (hne : listed ≠ []) (hcash : 0 < d₃.remaining.value) :
    ∃ q t a, Promotes listed p.before.lpFlows d₃ q t a ∧ p.year.allocations = d₃.allocations ++ [a] := by
  have hne' : byHurdle listed ≠ [] := by
    intro hnil
    apply hne
    rw [← List.length_eq_zero_iff] at hnil ⊢
    rw [← hnil, byHurdle, List.length_mergeSort]
  rcases splitRest_cases hs.rest with ⟨hnot, -⟩ | ⟨tier, toLp, toGp, hpay⟩
  · exact absurd hcash hnot
  · obtain ⟨trial, q, htrial, hq, t, split, hsets, hsplit, hgp⟩ := residual_sets hpay.residual_eq hne'
    obtain ⟨paid, hsum, hsame⟩ := hs.tallies
    have hrate : TrialRate p.before.lpFlows d₃ q := ⟨paid, trial, hsum, (hsame _).trans htrial, hq⟩
    exact ⟨q, t, ⟨tier, toLp, toGp⟩,
      ⟨hrate, splitsAt_of_sets hsets, ⟨split, hsplit, hgp⟩, hpay.toLp_sub⟩,
      hs.allocations_eq.trans hpay.allocations_eq⟩

end Promote

section Listing
variable {terms : WaterfallTerms} {tiers : List PromoteTier} {lpShare : Decimal}

theorem orderedTiers_eq (terms : WaterfallTerms) : terms.orderedTiers = byHurdle terms.promoteTiers := rfl

theorem runFrom_of_listed (listed : List PromoteTier) (flows : List Decimal) (n : Nat) (state : State) :
    runFrom { terms with promoteTiers := listed } tiers lpShare flows n state
      = runFrom terms tiers lpShare flows n state := by
  induction flows generalizing n state with
  | nil => rfl
  | cons cash rest ih =>
    simp only [runFrom, ih]
    -- a year reads the preferred return and the catch-up of its terms, and no tier
    rfl

theorem distribute_of_perm (hvalid : terms.validate = .ok ()) (hperm : terms.promoteTiers.Perm tiers)
    (hdistinct : terms.promoteTiers.Pairwise fun t u => ¬ t.hurdleIrrPct.Same u.hurdleIrrPct)
    (flows : List Decimal) :
    distribute { terms with promoteTiers := tiers } flows = distribute terms flows := by
  have haccepted := WaterfallTerms.accepted_of_validate hvalid
  have haccepted' : WaterfallTerms.Accepted { terms with promoteTiers := tiers } := {
    haccepted with
    hurdle_nonneg := fun t ht => haccepted.hurdle_nonneg t (hperm.mem_iff.mpr ht)
    gpSplit := fun t ht => haccepted.gpSplit t (hperm.mem_iff.mpr ht) }
  have horder : WaterfallTerms.orderedTiers { terms with promoteTiers := tiers } = terms.orderedTiers :=
    byHurdle_eq_of_perm hperm hdistinct
  simp only [distribute, haccepted'.validate_eq_ok, hvalid, horder, runFrom_of_listed]
  rfl

end Listing

/-- In every year that comes to the split, the tier is the highest one that the limited partners would
reach, or else the lowest; and where all hurdles differ, the listing does not matter. -/
theorem promote_takes_highest_hurdle {terms : WaterfallTerms} (hvalid : terms.validate = .ok ())
    (hne : terms.promoteTiers ≠ []) :
    (∀ flows results, distribute terms flows = .ok results →
      ∃ ps, history terms flows = .ok ps ∧ results.years = ps.map Passage.year ∧
        ∀ past p later, ps = past ++ p :: later → Decimal.zero < p.year.totalCashFlow →
          ∃ d, beforeSplit terms p.before.balances p.year.totalCashFlow = .ok d ∧
            (Decimal.zero < d.remaining →
              ∃ q t a, Promotes terms.promoteTiers
                  (results.lpEquity.negate :: past.map fun earlier => earlier.year.lpDistribution) d q t a ∧
                p.year.allocations = d.allocations ++ [a])) ∧
    ((terms.promoteTiers.Pairwise fun t u => ¬ t.hurdleIrrPct.Same u.hurdleIrrPct) →
      ∀ tiers, terms.promoteTiers.Perm tiers → ∀ flows,
        distribute { terms with promoteTiers := tiers } flows = distribute terms flows) := by
  constructor
  · intro flows results h
    obtain ⟨-, s, -, hlp, -, ps, hhistory, hps, hyears⟩ := cases_of_distribute h
    refine ⟨ps, hhistory, hyears, ?_⟩
    intro past p later hsplit hcash
    have hstart : FlowsAre s [] (.start s) := rfl
    obtain ⟨hflows, hstep⟩ := forall_passages_since (I := FlowsAre s) hps hstart
      (fun past p hbefore hstep => hstep.flowsAre hbefore) past p later hsplit
    rw [zero_lt_iff] at hcash
    obtain ⟨d₀, d₁, d₂, d₃, d₄, hs⟩ := hstep.stages hcash
    refine ⟨d₃, hs.beforeSplit_eq, ?_⟩
    intro hrest
    rw [orderedTiers_eq] at hs
    have hpromotes := hs.promotes hne (zero_lt_iff.mp hrest)
    rw [FlowsAre] at hflows
    rw [hflows, List.nil_append, List.map_map, ← hlp] at hpromotes
    exact hpromotes
  · intro hdistinct tiers hperm flows
    exact distribute_of_perm hvalid hperm hdistinct flows

def twoHurdles : WaterfallTerms :=
  ⟨.hundred, .ofScaled 10 0, .ofScaled 8 0, .zero,
    [⟨.ofScaled 10 0, .ofScaled 20 0⟩, ⟨.ofScaled 15 0, .ofScaled 30 0⟩]⟩

/-- The second year comes to the split, at a rate between the two hurdles. -/
theorem promote_takes_highest_hurdle_two_years :
    (∃ results, distribute twoHurdles [.ofScaled 8 0, .ofScaled 112 0] = .ok results ∧
      ∃ year ∈ results.years, year.activeTier = "Promote 10%+" ∧
        ∃ lpFlows d q t a, Decimal.zero < d.remaining ∧
          Promotes twoHurdles.promoteTiers lpFlows d q t a ∧ year.allocations = d.allocations ++ [a]) ∧
    distribute { twoHurdles with promoteTiers := twoHurdles.promoteTiers.reverse }
        [.ofScaled 8 0, .ofScaled 112 0]
      = distribute twoHurdles [.ofScaled 8 0, .ofScaled 112 0] := by
  have horder : twoHurdles.orderedTiers = twoHurdles.promoteTiers := List.mergeSort_of_pairwise (by decide)
  obtain ⟨hpromotes, hlisting⟩ := promote_takes_highest_hurdle (rfl : twoHurdles.validate = .ok ()) (by decide)
  constructor
  · obtain ⟨results, hresults⟩ :=
      exists_of_isOk (x := distribute twoHurdles [.ofScaled 8 0, .ofScaled 112 0]) (by
        rw [distribute, horder]
        decide +kernel)
    obtain ⟨ps, hps, hyears, hall⟩ := hpromotes _ _ hresults
    obtain ⟨past, p, later, hps', hcheck⟩ :=
      exists_passage_of_any twoHurdles [.ofScaled 8 0, .ofScaled 112 0]
        (fun p => decide (p.year.activeTier = "Promote 10%+" ∧ Decimal.zero < p.year.totalCashFlow) &&
          (beforeSplit twoHurdles p.before.balances p.year.totalCashFlow).toOption.any fun d =>
            decide (Decimal.zero < d.remaining)) (by
        rw [history, horder]
        decide +kernel)
    cases hps.symm.trans hps'
    rw [Bool.and_eq_true, decide_eq_true_eq] at hcheck
    obtain ⟨⟨hactive, hcash⟩, hcheck⟩ := hcheck
    obtain ⟨d, hd, hrest⟩ := exists_of_any hcheck
    obtain ⟨d', hd', hpays⟩ := hall past p later rfl hcash
    cases hd.symm.trans hd'
    obtain ⟨q, t, a, hpays, hlast⟩ := hpays (of_decide_eq_true hrest)
    have hyear : p.year ∈ results.years := by simp [hyears]
    exact ⟨results, hresults, p.year, hyear, hactive, _, d, q, t, a, of_decide_eq_true hrest, hpays, hlast⟩
  · exact hlisting (by decide) _ (List.reverse_perm _).symm _

end Waterfall

end PropertyFinance
