import PropertyFinance.Proofs.Decimal.Capacity
import PropertyFinance.Waterfall.Allocation

/-! What each tier does to a year under division. A tier either leaves the division as it is, or
makes the one payment that its structure below describes: who gets what, which balances change and
what cash is left, every figure as the exact one rounded. -/

namespace PropertyFinance.Division
open Decimal
set_option autoImplicit false

variable {d e : Division} {terms : WaterfallTerms}

/-- Capital is returned: all that is owed, or all the cash in proportion to the balances. -/
structure ReturnsCapital (d e : Division) (owed toLp toGp : Decimal) : Prop where
  owed_eq : d.balances.lpUnreturned.add d.balances.gpUnreturned = .ok owed
  cash_pos : 0 < d.remaining.value
  owed_pos : 0 < owed.value
  toLp_cases :
    (owed.value ≤ d.remaining.value ∧ toLp = d.balances.lpUnreturned) ∨
    (d.remaining.value < owed.value ∧ toLp.value =
      nearest (nearest (d.remaining.value * d.balances.lpUnreturned.value) / owed.value))
  toGp_sub : (d.remaining.min owed).sub toLp = .ok toGp
  lpUnreturned_eq :
    e.balances.lpUnreturned.value = nearest (d.balances.lpUnreturned.value - toLp.value)
  gpUnreturned_eq :
    e.balances.gpUnreturned.value = nearest (d.balances.gpUnreturned.value - toGp.value)
  lpAccruedPref_eq : e.balances.lpAccruedPref = d.balances.lpAccruedPref
  lpProfit_eq : e.balances.lpProfit = d.balances.lpProfit
  gpProfit_eq : e.balances.gpProfit = d.balances.gpProfit
  remaining_sub : d.remaining.sub (d.remaining.min owed) = .ok e.remaining
  lpPaid_add : d.lpPaid.add toLp = .ok e.lpPaid
  allocations_eq : e.allocations = d.allocations ++ [⟨.returnOfCapital, toLp, toGp⟩]
  activeTier_eq : e.activeTier = Tier.returnOfCapital.label

theorem ReturnsCapital.toGp_eq {owed toLp toGp : Decimal} (h : ReturnsCapital d e owed toLp toGp) :
    toGp.value = nearest (min d.remaining.value owed.value - toLp.value) := by
  rw [value_sub h.toGp_sub, value_min]

theorem ReturnsCapital.lpPaid_eq {owed toLp toGp : Decimal} (h : ReturnsCapital d e owed toLp toGp) :
    e.lpPaid.value = nearest (d.lpPaid.value + toLp.value) := value_add h.lpPaid_add

theorem ReturnsCapital.remaining_eq {owed toLp toGp : Decimal}
    (h : ReturnsCapital d e owed toLp toGp) :
    e.remaining.value = nearest (d.remaining.value - min d.remaining.value owed.value) := by
  rw [value_sub h.remaining_sub, value_min]

/-- The preferred return is paid as far as the cash goes. -/
structure PaysPref (d e : Division) (toLp : Decimal) : Prop where
  cash_pos : 0 < d.remaining.value
  accrued_pos : 0 < d.balances.lpAccruedPref.value
  toLp_eq : toLp.value = min d.remaining.value d.balances.lpAccruedPref.value
  lpUnreturned_eq : e.balances.lpUnreturned = d.balances.lpUnreturned
  gpUnreturned_eq : e.balances.gpUnreturned = d.balances.gpUnreturned
  lpAccruedPref_eq :
    e.balances.lpAccruedPref.value = nearest (d.balances.lpAccruedPref.value - toLp.value)
  lpProfit_eq : e.balances.lpProfit.value = nearest (d.balances.lpProfit.value + toLp.value)
  gpProfit_eq : e.balances.gpProfit = d.balances.gpProfit
  remaining_eq : e.remaining.value = nearest (d.remaining.value - toLp.value)
  lpPaid_add : d.lpPaid.add toLp = .ok e.lpPaid
  allocations_eq : e.allocations = d.allocations ++ [⟨.preferredReturn, toLp, .zero⟩]
  activeTier_eq : e.activeTier = Tier.preferredReturn.label

theorem PaysPref.lpPaid_eq {toLp : Decimal} (h : PaysPref d e toLp) :
    e.lpPaid.value = nearest (d.lpPaid.value + toLp.value) := value_add h.lpPaid_add

/-- The general partner's share of all profit, the cash still to be divided counted as profit. -/
def catchUpTarget (terms : WaterfallTerms) (lpProfit gpProfit cash : Decimal) : Arith Decimal := do
  (← (← lpProfit.add gpProfit).add cash).mul (← percentToRate terms.catchUpPct)

/-- The general partner is paid towards the target share of the profit. -/
structure CatchesUp (terms : WaterfallTerms) (d e : Division) (target shortfall toGp : Decimal) :
    Prop where
  enabled : 0 < terms.catchUpPct.value
  cash_pos : 0 < d.remaining.value
  target_of : catchUpTarget terms d.balances.lpProfit d.balances.gpProfit d.remaining = .ok target
  shortfall_eq : shortfall.value = nearest (target.value - d.balances.gpProfit.value)
  shortfall_pos : 0 < shortfall.value
  toGp_eq : toGp.value = min d.remaining.value shortfall.value
  lpUnreturned_eq : e.balances.lpUnreturned = d.balances.lpUnreturned
  gpUnreturned_eq : e.balances.gpUnreturned = d.balances.gpUnreturned
  lpAccruedPref_eq : e.balances.lpAccruedPref = d.balances.lpAccruedPref
  lpProfit_eq : e.balances.lpProfit = d.balances.lpProfit
  gpProfit_eq : e.balances.gpProfit.value = nearest (d.balances.gpProfit.value + toGp.value)
  remaining_eq : e.remaining.value = nearest (d.remaining.value - toGp.value)
  lpPaid_eq : e.lpPaid = d.lpPaid
  allocations_eq : e.allocations = d.allocations ++ [⟨.gpCatchUp, .zero, toGp⟩]
  activeTier_eq : e.activeTier = Tier.gpCatchUp.label

/-- All that is left is split. -/
structure Splits (tiers : List PromoteTier) (lpShare : Decimal) (lpFlows : List Decimal)
    (d e : Division) (tier : Tier) (toLp toGp : Decimal) : Prop where
  cash_pos : 0 < d.remaining.value
  residual_eq : residual tiers lpShare lpFlows d = .ok (tier, toGp)
  toLp_sub : d.remaining.sub toGp = .ok toLp
  lpUnreturned_eq : e.balances.lpUnreturned = d.balances.lpUnreturned
  gpUnreturned_eq : e.balances.gpUnreturned = d.balances.gpUnreturned
  lpAccruedPref_eq : e.balances.lpAccruedPref = d.balances.lpAccruedPref
  lpProfit_eq : e.balances.lpProfit.value = nearest (d.balances.lpProfit.value + toLp.value)
  gpProfit_eq : e.balances.gpProfit.value = nearest (d.balances.gpProfit.value + toGp.value)
  allocations_eq : e.allocations = d.allocations ++ [⟨tier, toLp, toGp⟩]
  activeTier_eq : e.activeTier = tier.label

theorem Splits.toLp_eq {tiers : List PromoteTier} {lpShare : Decimal} {lpFlows : List Decimal}
    {tier : Tier} {toLp toGp : Decimal} (h : Splits tiers lpShare lpFlows d e tier toLp toGp) :
    toLp.value = nearest (d.remaining.value - toGp.value) := value_sub h.toLp_sub

theorem accruePref_cases (h : d.accruePref terms = .ok e) :
    e.remaining = d.remaining ∧ e.lpPaid = d.lpPaid ∧ e.allocations = d.allocations ∧
      e.balances.lpUnreturned = d.balances.lpUnreturned ∧
      e.balances.gpUnreturned = d.balances.gpUnreturned ∧
      e.balances.lpProfit = d.balances.lpProfit ∧ e.balances.gpProfit = d.balances.gpProfit := by
  obtain ⟨rate, -, h⟩ := bind_eq_ok.mp h
  obtain ⟨interest, -, h⟩ := bind_eq_ok.mp h
  obtain ⟨accrued, -, h⟩ := bind_eq_ok.mp h
  obtain rfl := pure_eq_ok.mp h
  exact ⟨rfl, rfl, rfl, rfl, rfl, rfl, rfl⟩

theorem accruePref_activeTier (h : d.accruePref terms = .ok e) : e.activeTier = d.activeTier := by
  obtain ⟨rate, -, h⟩ := bind_eq_ok.mp h
  obtain ⟨interest, -, h⟩ := bind_eq_ok.mp h
  obtain ⟨accrued, -, h⟩ := bind_eq_ok.mp h
  obtain rfl := pure_eq_ok.mp h
  rfl

/-- The payments once the limited partners' part is known. -/
theorem returnsCapital_of_payments {owed toLp : Decimal}
    (howed : d.balances.lpUnreturned.add d.balances.gpUnreturned = .ok owed)
    (hpos : 0 < d.remaining.value ∧ 0 < owed.value)
    (hcases : (owed.value ≤ d.remaining.value ∧ toLp = d.balances.lpUnreturned) ∨
      (d.remaining.value < owed.value ∧ toLp.value =
        nearest (nearest (d.remaining.value * d.balances.lpUnreturned.value) / owed.value)))
    (h : (do
      let toGp ← (d.remaining.min owed).sub toLp
      let lpUnreturned ← d.balances.lpUnreturned.sub toLp
      let gpUnreturned ← d.balances.gpUnreturned.sub toGp
      let remaining ← d.remaining.sub (d.remaining.min owed)
      let lpPaid ← d.lpPaid.add toLp
      pure {
        balances := { d.balances with lpUnreturned, gpUnreturned }
        remaining, lpPaid
        allocations := d.record .returnOfCapital toLp toGp
        activeTier := Tier.returnOfCapital.label } : Arith Division) = .ok e) :
    ∃ toGp, ReturnsCapital d e owed toLp toGp := by
  obtain ⟨toGp, hgp, h⟩ := bind_eq_ok.mp h
  obtain ⟨lp, hlpu, h⟩ := bind_eq_ok.mp h
  obtain ⟨gp, hgpu, h⟩ := bind_eq_ok.mp h
  obtain ⟨remaining, hrem, h⟩ := bind_eq_ok.mp h
  obtain ⟨paid, hpaid, h⟩ := bind_eq_ok.mp h
  obtain rfl := pure_eq_ok.mp h
  exact ⟨toGp, {
    owed_eq := howed
    cash_pos := hpos.1
    owed_pos := hpos.2
    toLp_cases := hcases
    toGp_sub := hgp
    lpUnreturned_eq := value_sub hlpu
    gpUnreturned_eq := value_sub hgpu
    lpAccruedPref_eq := rfl
    lpProfit_eq := rfl
    gpProfit_eq := rfl
    remaining_sub := hrem
    lpPaid_add := hpaid
    allocations_eq := rfl
    activeTier_eq := rfl }⟩

theorem returnCapital_cases (h : d.returnCapital = .ok e) :
    (∃ owed, d.balances.lpUnreturned.add d.balances.gpUnreturned = .ok owed ∧
      ¬ (0 < d.remaining.value ∧ 0 < owed.value) ∧ e = d) ∨
    ∃ owed toLp toGp, ReturnsCapital d e owed toLp toGp := by
  obtain ⟨owed, howed, h⟩ := bind_eq_ok.mp h
  dsimp only at h
  split at h
  case isFalse hnot =>
    rw [zero_lt_iff, zero_lt_iff] at hnot
    exact Or.inl ⟨owed, howed, hnot, (pure_eq_ok.mp h).symm⟩
  case isTrue hpos =>
    right
    rw [zero_lt_iff, zero_lt_iff] at hpos
    split at h
    case isTrue hsame =>
      rw [same_iff_value_eq, value_min, min_eq_right_iff] at hsame
      obtain ⟨toLp, hlp, h⟩ := bind_eq_ok.mp h
      have hall := (pure_eq_ok.mp hlp).symm
      exact ⟨owed, toLp, returnsCapital_of_payments howed hpos (Or.inl ⟨hsame, hall⟩) h⟩
    case isFalse hsame =>
      rw [same_iff_value_eq, value_min, min_eq_right_iff, Rat.not_le] at hsame
      obtain ⟨x, hx, h⟩ := bind_eq_ok.mp h
      obtain ⟨toLp, hlp, h⟩ := bind_eq_ok.mp h
      have hquot : toLp.value =
          nearest (nearest (d.remaining.value * d.balances.lpUnreturned.value) / owed.value) := by
        rw [(value_div hlp).2, value_mul hx, value_min, min_eq_left hsame.le]
      exact ⟨owed, toLp, returnsCapital_of_payments howed hpos (Or.inr ⟨hsame, hquot⟩) h⟩

theorem payPref_cases (h : d.payPref = .ok e) :
    (¬ (0 < d.remaining.value ∧ 0 < d.balances.lpAccruedPref.value) ∧ e = d) ∨
    ∃ toLp, PaysPref d e toLp := by
  unfold payPref at h
  dsimp only at h
  split at h
  case isFalse hnot =>
    rw [zero_lt_iff, zero_lt_iff] at hnot
    exact Or.inl ⟨hnot, (pure_eq_ok.mp h).symm⟩
  case isTrue hpos =>
    right
    rw [zero_lt_iff, zero_lt_iff] at hpos
    obtain ⟨accrued, hacc, h⟩ := bind_eq_ok.mp h
    obtain ⟨profit, hprofit, h⟩ := bind_eq_ok.mp h
    obtain ⟨remaining, hrem, h⟩ := bind_eq_ok.mp h
    obtain ⟨paid, hpaid, h⟩ := bind_eq_ok.mp h
    obtain rfl := pure_eq_ok.mp h
    exact ⟨_, {
      cash_pos := hpos.1
      accrued_pos := hpos.2
      toLp_eq := value_min _ _
      lpUnreturned_eq := rfl
      gpUnreturned_eq := rfl
      lpAccruedPref_eq := value_sub hacc
      lpProfit_eq := value_add hprofit
      gpProfit_eq := rfl
      remaining_eq := value_sub hrem
      lpPaid_add := hpaid
      allocations_eq := rfl
      activeTier_eq := rfl }⟩

/-- Nothing is paid without cash or a target, or when the target is reached already. -/
theorem catchUp_cases (h : d.catchUp terms = .ok e) :
    (e = d ∧ (0 < terms.catchUpPct.value → 0 < d.remaining.value →
      ∃ target, catchUpTarget terms d.balances.lpProfit d.balances.gpProfit d.remaining = .ok target ∧
        target.value ≤ d.balances.gpProfit.value)) ∨
    ∃ target shortfall toGp, CatchesUp terms d e target shortfall toGp := by
  unfold catchUp at h
  dsimp only at h
  split at h
  case isFalse hnot =>
    rw [zero_lt_iff, zero_lt_iff] at hnot
    exact Or.inl ⟨(pure_eq_ok.mp h).symm, fun henabled hcash => absurd ⟨henabled, hcash⟩ hnot⟩
  case isTrue hpos =>
    rw [zero_lt_iff, zero_lt_iff] at hpos
    obtain ⟨both, hboth, h⟩ := bind_eq_ok.mp h
    obtain ⟨profit, hprofit, h⟩ := bind_eq_ok.mp h
    obtain ⟨rate, hrate, h⟩ := bind_eq_ok.mp h
    obtain ⟨target, htarget, h⟩ := bind_eq_ok.mp h
    obtain ⟨shortfall, hshort, h⟩ := bind_eq_ok.mp h
    have htarget' : catchUpTarget terms d.balances.lpProfit d.balances.gpProfit d.remaining = .ok target := by
      rw [catchUpTarget, hboth, ok_bind, hprofit, ok_bind, hrate, ok_bind, htarget]
    split at h
    case isFalse hreached =>
      refine Or.inl ⟨(pure_eq_ok.mp h).symm, fun _ _ => ⟨target, htarget', ?_⟩⟩
      rw [zero_lt_iff, value_sub hshort] at hreached
      by_contra hlt
      apply hreached
      apply ((onGrid_value target).sub (onGrid_value _)).nearest_pos
      linarith
    case isTrue hshortpos =>
      right
      obtain ⟨gpProfit, hgp, h⟩ := bind_eq_ok.mp h
      obtain ⟨remaining, hrem, h⟩ := bind_eq_ok.mp h
      obtain rfl := pure_eq_ok.mp h
      exact ⟨target, shortfall, _, {
        enabled := hpos.1
        cash_pos := hpos.2
        target_of := htarget'
        shortfall_eq := value_sub hshort
        shortfall_pos := zero_lt_iff.mp hshortpos
        toGp_eq := value_min _ _
        lpUnreturned_eq := rfl
        gpUnreturned_eq := rfl
        lpAccruedPref_eq := rfl
        lpProfit_eq := rfl
        gpProfit_eq := value_add hgp
        remaining_eq := value_sub hrem
        lpPaid_eq := rfl
        allocations_eq := rfl
        activeTier_eq := rfl }⟩

theorem splitRest_cases {tiers : List PromoteTier} {lpShare : Decimal} {lpFlows : List Decimal}
    (h : d.splitRest tiers lpShare lpFlows = .ok e) :
    (¬ 0 < d.remaining.value ∧ e = d) ∨
    ∃ tier toLp toGp, Splits tiers lpShare lpFlows d e tier toLp toGp := by
  unfold splitRest at h
  dsimp only at h
  split at h
  case isFalse hnot =>
    rw [zero_lt_iff] at hnot
    exact Or.inl ⟨hnot, (pure_eq_ok.mp h).symm⟩
  case isTrue hpos =>
    right
    obtain ⟨⟨tier, toGp⟩, hres, h⟩ := bind_eq_ok.mp h
    obtain ⟨toLp, hlp, h⟩ := bind_eq_ok.mp h
    obtain ⟨lpProfit, hlpp, h⟩ := bind_eq_ok.mp h
    obtain ⟨gpProfit, hgpp, h⟩ := bind_eq_ok.mp h
    obtain rfl := pure_eq_ok.mp h
    exact ⟨tier, toLp, toGp, {
      cash_pos := zero_lt_iff.mp hpos
      residual_eq := hres
      toLp_sub := hlp
      lpUnreturned_eq := rfl
      gpUnreturned_eq := rfl
      lpAccruedPref_eq := rfl
      lpProfit_eq := value_add hlpp
      gpProfit_eq := value_add hgpp
      allocations_eq := rfl
      activeTier_eq := rfl }⟩

section Idle
variable {tiers : List PromoteTier} {lpShare : Decimal} {lpFlows : List Decimal}

theorem payPref_idle (h : d.payPref = .ok e) (hcash : ¬ 0 < d.remaining.value) : e = d := by
  rcases payPref_cases h with ⟨-, rfl⟩ | ⟨toLp, hpay⟩
  · rfl
  · exact absurd hpay.cash_pos hcash

theorem catchUp_idle (h : d.catchUp terms = .ok e) (hcash : ¬ 0 < d.remaining.value) : e = d := by
  rcases catchUp_cases h with ⟨rfl, -⟩ | ⟨target, shortfall, toGp, hpay⟩
  · rfl
  · exact absurd hpay.cash_pos hcash

theorem splitRest_idle (h : d.splitRest tiers lpShare lpFlows = .ok e)
    (hcash : ¬ 0 < d.remaining.value) : e = d := by
  rcases splitRest_cases h with ⟨-, rfl⟩ | ⟨tier, toLp, toGp, hpay⟩
  · rfl
  · exact absurd hpay.cash_pos hcash

end Idle

/-- Only the return of capital changes the capital balances. -/
def SameCapital (d e : Division) : Prop :=
  e.balances.lpUnreturned = d.balances.lpUnreturned ∧
    e.balances.gpUnreturned = d.balances.gpUnreturned

theorem payPref_sameCapital (h : d.payPref = .ok e) : SameCapital d e := by
  rcases payPref_cases h with ⟨-, rfl⟩ | ⟨toLp, hpay⟩
  · exact ⟨rfl, rfl⟩
  · exact ⟨hpay.lpUnreturned_eq, hpay.gpUnreturned_eq⟩

theorem catchUp_sameCapital (h : d.catchUp terms = .ok e) : SameCapital d e := by
  rcases catchUp_cases h with ⟨rfl, -⟩ | ⟨target, shortfall, toGp, hpay⟩
  · exact ⟨rfl, rfl⟩
  · exact ⟨hpay.lpUnreturned_eq, hpay.gpUnreturned_eq⟩

theorem splitRest_sameCapital {tiers : List PromoteTier} {lpShare : Decimal}
    {lpFlows : List Decimal} (h : d.splitRest tiers lpShare lpFlows = .ok e) : SameCapital d e := by
  rcases splitRest_cases h with ⟨-, rfl⟩ | ⟨tier, toLp, toGp, hpay⟩
  · exact ⟨rfl, rfl⟩
  · exact ⟨hpay.lpUnreturned_eq, hpay.gpUnreturned_eq⟩

theorem SameCapital.trans {f : Division} (h₁ : SameCapital d e) (h₂ : SameCapital e f) :
    SameCapital d f := ⟨h₂.1.trans h₁.1, h₂.2.trans h₁.2⟩

theorem catchUp_accruedPref (h : d.catchUp terms = .ok e) :
    e.balances.lpAccruedPref = d.balances.lpAccruedPref := by
  rcases catchUp_cases h with ⟨rfl, -⟩ | ⟨target, shortfall, toGp, hpay⟩
  · rfl
  · exact hpay.lpAccruedPref_eq

theorem splitRest_accruedPref {tiers : List PromoteTier} {lpShare : Decimal}
    {lpFlows : List Decimal} (h : d.splitRest tiers lpShare lpFlows = .ok e) :
    e.balances.lpAccruedPref = d.balances.lpAccruedPref := by
  rcases splitRest_cases h with ⟨-, rfl⟩ | ⟨tier, toLp, toGp, hpay⟩
  · rfl
  · exact hpay.lpAccruedPref_eq

/-- Cash is left after the return of capital only when all that was owed was returned. -/
theorem ReturnsCapital.owed_lt {owed toLp toGp : Decimal} (h : ReturnsCapital d e owed toLp toGp)
    (hcash : 0 < e.remaining.value) : owed.value < d.remaining.value := by
  by_contra hle
  rw [h.remaining_eq, min_eq_left (Rat.not_lt.mp hle), sub_self, nearest_zero] at hcash
  exact lt_irrefl _ hcash

/-- Cash is left after the preferred return only when nothing more is owed of it. -/
theorem PaysPref.accruedPref_eq_zero {toLp : Decimal} (h : PaysPref d e toLp)
    (hcash : 0 < e.remaining.value) : e.balances.lpAccruedPref.value = 0 := by
  have hlt : d.balances.lpAccruedPref.value < d.remaining.value := by
    by_contra hle
    rw [h.remaining_eq, h.toLp_eq, min_eq_left (Rat.not_lt.mp hle), sub_self, nearest_zero] at hcash
    exact lt_irrefl _ hcash
  rw [h.lpAccruedPref_eq, h.toLp_eq, min_eq_right hlt.le, sub_self, nearest_zero]

section Residual
variable {tiers : List PromoteTier} {lpShare toGp rate : Decimal} {lpFlows : List Decimal}
  {tier : Tier} {q : Option Decimal}

/-- A rate reaches the hurdle of the tier; no rate reaches none. -/
def Reaches (q : Option Decimal) (t : PromoteTier) : Bool :=
  q.any fun rate => (percentToRate t.hurdleIrrPct).toOption.any fun hurdle => decide (hurdle ≤ rate)

theorem firstReached_eq (rate : Decimal) (tiers : List PromoteTier) :
    firstReached rate tiers = .ok (tiers.find? (Reaches (some rate))) := by
  induction tiers with
  | nil => rfl
  | cons t rest ih =>
    obtain ⟨hurdle, hhurdle⟩ := percentToRate_isOk t.hurdleIrrPct
    have hreaches : Reaches (some rate) t = decide (hurdle ≤ rate) := by
      rw [Reaches, Option.any_some, hhurdle]
      rfl
    rw [firstReached, hhurdle, ok_bind, ih, List.find?_cons, hreaches]
    by_cases hle : hurdle ≤ rate
    · rw [if_pos hle, decide_eq_true hle]
      rfl
    · rw [if_neg hle, decide_eq_false hle]

/-- The tier that sets the split: the first one reached from the top, else the lowest. -/
def Sets (q : Option Decimal) (tiers : List PromoteTier) (t : PromoteTier) (tier : Tier) : Prop :=
  (tiers.reverse.find? (Reaches q) = some t ∧ tier = .promote t.hurdleIrrPct) ∨
  (tiers.reverse.find? (Reaches q) = none ∧ tiers.head? = some t ∧ tier = .belowHurdle t.hurdleIrrPct)

theorem Sets.mem {t : PromoteTier} (h : Sets q tiers t tier) : t ∈ tiers := by
  rcases h with ⟨hfound, -⟩ | ⟨-, hhead, -⟩
  · exact List.mem_reverse.mp (List.mem_of_find?_eq_some hfound)
  · exact List.mem_of_head? hhead

/-- The split with promote tiers, `q` being the rate if all that is left were the limited partners'. -/
theorem residual_sets (h : residual tiers lpShare lpFlows d = .ok (tier, toGp)) (hne : tiers ≠ []) :
    ∃ trial q, d.lpPaid.add d.remaining = .ok trial ∧ Yield.rate? (lpFlows ++ [trial]) = .ok q ∧
      ∃ t split, Sets q tiers t tier ∧ percentToRate t.gpSplitPct = .ok split ∧
        d.remaining.mul split = .ok toGp := by
  obtain ⟨lowest, higher, rfl⟩ := List.exists_cons_of_ne_nil hne
  obtain ⟨trial, htrial, h⟩ := bind_eq_ok.mp h
  obtain ⟨q, hq, h⟩ := bind_eq_ok.mp h
  refine ⟨trial, q, htrial, hq, ?_⟩
  obtain ⟨reached, hreached, h⟩ : ∃ reached : Option PromoteTier,
      (lowest :: higher).reverse.find? (Reaches q) = reached ∧
      reached.elim
        (do
          pure (Tier.belowHurdle lowest.hurdleIrrPct,
            ← d.remaining.mul (← percentToRate lowest.gpSplitPct)))
        (fun t => do
          pure (Tier.promote t.hurdleIrrPct, ← d.remaining.mul (← percentToRate t.gpSplitPct)))
        = .ok (tier, toGp) := by
    dsimp only at h
    cases q with
    | some rate =>
      obtain ⟨reached, hreached, h⟩ := bind_eq_ok.mp h
      rw [firstReached_eq] at hreached
      refine ⟨reached, Except.ok.inj hreached, ?_⟩
      cases reached <;> exact h
    | none => exact ⟨none, by simp [Reaches], h⟩
  cases reached with
  | some t =>
    obtain ⟨split, hsplit, h⟩ := bind_eq_ok.mp h
    obtain ⟨gp, hgp, h⟩ := bind_eq_ok.mp h
    obtain ⟨rfl, rfl⟩ := Prod.mk.inj (pure_eq_ok.mp h)
    exact ⟨t, split, Or.inl ⟨hreached, rfl⟩, hsplit, hgp⟩
  | none =>
    obtain ⟨split, hsplit, h⟩ := bind_eq_ok.mp h
    obtain ⟨gp, hgp, h⟩ := bind_eq_ok.mp h
    obtain ⟨rfl, rfl⟩ := Prod.mk.inj (pure_eq_ok.mp h)
    exact ⟨lowest, split, Or.inr ⟨hreached, rfl, rfl⟩, hsplit, hgp⟩

/-- The split is pro rata without promote tiers, and else by the terms of one of them. -/
theorem residual_cases (h : residual tiers lpShare lpFlows d = .ok (tier, toGp)) :
    (tier = .proRata ∧
      toGp.value = nearest (d.remaining.value - nearest (d.remaining.value * lpShare.value))) ∨
    ∃ t ∈ tiers, (tier = .promote t.hurdleIrrPct ∨ tier = .belowHurdle t.hurdleIrrPct) ∧
      ∃ rate, percentToRate t.gpSplitPct = .ok rate ∧
        toGp.value = nearest (d.remaining.value * rate.value) := by
  cases tiers with
  | nil =>
    obtain ⟨part, hpart, h⟩ := bind_eq_ok.mp h
    obtain ⟨gp, hgp, h⟩ := bind_eq_ok.mp h
    obtain ⟨rfl, rfl⟩ := Prod.mk.inj (pure_eq_ok.mp h)
    exact Or.inl ⟨rfl, by rw [value_sub hgp, value_mul hpart]⟩
  | cons lowest higher =>
    obtain ⟨trial, q, -, -, t, split, hsets, hsplit, hgp⟩ := residual_sets h (List.cons_ne_nil _ _)
    refine Or.inr ⟨t, hsets.mem, ?_, split, hsplit, value_mul hgp⟩
    exact hsets.imp (fun hfound => hfound.2) (fun hlowest => hlowest.2.2)

/-- Under accepted terms neither partner's part of the split is negative. -/
theorem residual_bounds (h : residual tiers lpShare lpFlows d = .ok (tier, toGp))
    (hsplit : ∀ t ∈ tiers, isPercentage t.gpSplitPct = true)
    (hshare : 0 ≤ lpShare.value ∧ lpShare.value ≤ 1) (hcash : 0 ≤ d.remaining.value) :
    0 ≤ toGp.value ∧ toGp.value ≤ d.remaining.value := by
  rcases residual_cases h with ⟨-, hgp⟩ | ⟨t, ht, -, rate, hrate, hgp⟩
  · have hpart₀ := nearest_nonneg (mul_nonneg hcash hshare.1)
    have hpart₁ := nearest_le_value (mul_le_of_le_one_right hcash hshare.2)
    rw [hgp]
    exact ⟨nearest_nonneg (by linarith), nearest_le_value (by linarith)⟩
  · obtain ⟨hrate₀, hrate₁⟩ := rate_mem_of_percentage hrate (hsplit t ht)
    rw [hgp]
    exact ⟨nearest_nonneg (mul_nonneg hcash hrate₀),
      nearest_le_value (mul_le_of_le_one_right hcash hrate₁)⟩

end Residual

end PropertyFinance.Division
