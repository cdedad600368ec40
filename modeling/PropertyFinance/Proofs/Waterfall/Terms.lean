import PropertyFinance.Proofs.Decimal.Checked
import PropertyFinance.Waterfall.Distribution

/-! Terms that were accepted, and the stakes that follow from them: both equities lie between zero
and the total, and the limited partners' share between zero and one. -/

namespace PropertyFinance
open Decimal
set_option autoImplicit false

namespace WaterfallTerms

/-- What the checks on the terms leave. -/
structure Accepted (terms : WaterfallTerms) : Prop where
  totalEquity_nonneg : 0 ≤ terms.totalEquity.value
  gpCoinvest : isPercentage terms.gpCoinvestPct = true
  preferredReturn_nonneg : 0 ≤ terms.preferredReturnPct.value
  catchUp : isPercentage terms.catchUpPct = true
  hurdle_nonneg : ∀ tier ∈ terms.promoteTiers, 0 ≤ tier.hurdleIrrPct.value
  gpSplit : ∀ tier ∈ terms.promoteTiers, isPercentage tier.gpSplitPct = true

variable {terms : WaterfallTerms}

theorem validateTiers_eq_ok_iff {tiers : List PromoteTier} {i : Nat} :
    validateTiers tiers i = .ok () ↔
      ∀ tier ∈ tiers, 0 ≤ tier.hurdleIrrPct.value ∧ isPercentage tier.gpSplitPct = true := by
  induction tiers generalizing i with
  | nil => exact iff_of_true rfl nofun
  | cons tier rest ih =>
    rw [validateTiers, unless_reject_eq_ok, unless_reject_eq_ok, ih, not_lt_zero_iff,
      List.forall_mem_cons, and_assoc]
    simp

theorem accepted_of_validate (h : terms.validate = .ok ()) : terms.Accepted := by
  unfold validate at h
  obtain ⟨htotal, h⟩ := unless_reject_eq_ok.mp h
  obtain ⟨hgp, h⟩ := unless_reject_eq_ok.mp h
  obtain ⟨hpref, h⟩ := unless_reject_eq_ok.mp h
  obtain ⟨hcatch, h⟩ := unless_reject_eq_ok.mp h
  have htiers := validateTiers_eq_ok_iff.mp h
  rw [not_lt_zero_iff] at htotal hpref
  exact {
    totalEquity_nonneg := htotal
    gpCoinvest := by simpa using hgp
    preferredReturn_nonneg := hpref
    catchUp := by simpa using hcatch
    hurdle_nonneg := fun tier ht => (htiers tier ht).1
    gpSplit := fun tier ht => (htiers tier ht).2 }

theorem Accepted.validate_eq_ok (h : terms.Accepted) : terms.validate = .ok () := by
  have htotal := h.totalEquity_nonneg
  have hpref := h.preferredReturn_nonneg
  unfold validate
  rw [unless_reject_eq_ok, unless_reject_eq_ok, unless_reject_eq_ok, unless_reject_eq_ok,
    validateTiers_eq_ok_iff, not_lt_zero_iff, not_lt_zero_iff]
  refine ⟨htotal, ?_, hpref, ?_, fun tier ht => ⟨h.hurdle_nonneg tier ht, h.gpSplit tier ht⟩⟩
  · simpa using h.gpCoinvest
  · simpa using h.catchUp

theorem mem_orderedTiers {tier : PromoteTier} :
    tier ∈ terms.orderedTiers ↔ tier ∈ terms.promoteTiers := List.mem_mergeSort

theorem Accepted.orderedTiers_gpSplit (h : terms.Accepted) :
    ∀ tier ∈ terms.orderedTiers, isPercentage tier.gpSplitPct = true :=
  fun tier ht => h.gpSplit tier (mem_orderedTiers.mp ht)

end WaterfallTerms

namespace Waterfall

variable {terms : WaterfallTerms} {s : Stakes}

/-- The stakes as rounded figures of the terms. -/
structure Stakes.Of (s : Stakes) (terms : WaterfallTerms) : Prop where
  gpEquity_eq : s.gpEquity.value =
    nearest (terms.totalEquity.value * nearest (terms.gpCoinvestPct.value / 100))
  lpEquity_eq : s.lpEquity.value = nearest (terms.totalEquity.value - s.gpEquity.value)
  gpEquity_nonneg : 0 ≤ s.gpEquity.value
  gpEquity_le : s.gpEquity.value ≤ terms.totalEquity.value
  lpEquity_nonneg : 0 ≤ s.lpEquity.value
  lpEquity_le : s.lpEquity.value ≤ terms.totalEquity.value
  lpShare_nonneg : 0 ≤ s.lpShare.value
  lpShare_le : s.lpShare.value ≤ 1

theorem stakes_of_accepted (hacc : terms.Accepted) (h : stakes terms = .ok s) : s.Of terms := by
  obtain ⟨rate, hrate, h⟩ := bind_eq_ok.mp h
  obtain ⟨gp, hgp, h⟩ := bind_eq_ok.mp h
  obtain ⟨lp, hlp, h⟩ := bind_eq_ok.mp h
  obtain ⟨share, hshare, h⟩ : ∃ share, (terms.totalEquity.isZero = true ∧ share = .one ∨
      terms.totalEquity.value ≠ 0 ∧ share.value = nearest (lp.value / terms.totalEquity.value)) ∧
      (pure ⟨lp, gp, share⟩ : Arith Stakes) = .ok s := by
    split at h
    case isTrue hzero =>
      obtain ⟨share, hshare, h⟩ := bind_eq_ok.mp h
      exact ⟨share, Or.inl ⟨hzero, (pure_eq_ok.mp hshare).symm⟩, h⟩
    case isFalse hne =>
      obtain ⟨share, hshare, h⟩ := bind_eq_ok.mp h
      exact ⟨share, Or.inr (value_div hshare), h⟩
  obtain rfl := pure_eq_ok.mp h
  have hE := hacc.totalEquity_nonneg
  obtain ⟨hrate₀, hrate₁⟩ := rate_mem_of_percentage hrate hacc.gpCoinvest
  have hgp₀ : 0 ≤ gp.value := by
    rw [value_mul hgp]
    exact nearest_nonneg (mul_nonneg hE hrate₀)
  have hgp₁ : gp.value ≤ terms.totalEquity.value := by
    rw [value_mul hgp]
    exact nearest_le_value (mul_le_of_le_one_right hE hrate₁)
  have hlp₀ : 0 ≤ lp.value := by
    rw [value_sub hlp]
    exact nearest_nonneg (by linarith)
  have hlp₁ : lp.value ≤ terms.totalEquity.value := by
    rw [value_sub hlp]
    exact nearest_le_value (by linarith)
  have hshare' : 0 ≤ share.value ∧ share.value ≤ 1 := by
    rcases hshare with ⟨-, rfl⟩ | ⟨-, hvalue⟩
    · norm_num
    · rw [hvalue]
      refine ⟨nearest_nonneg (div_nonneg hlp₀ hE), ?_⟩
      have := nearest_le_value (a := .one) (x := lp.value / terms.totalEquity.value) (by
        rw [value_one]
        exact div_le_one_of_le₀ hlp₁ hE)
      simpa using this
  exact {
    gpEquity_eq := by rw [value_mul hgp, value_percentToRate hrate]
    lpEquity_eq := value_sub hlp
    gpEquity_nonneg := hgp₀
    gpEquity_le := hgp₁
    lpEquity_nonneg := hlp₀
    lpEquity_le := hlp₁
    lpShare_nonneg := hshare'.1
    lpShare_le := hshare'.2 }

theorem lpShare_of_stakes (h : stakes terms = .ok s) (hne : terms.totalEquity.value ≠ 0) :
    s.lpShare.value = nearest (s.lpEquity.value / terms.totalEquity.value) := by
  obtain ⟨rate, -, h⟩ := bind_eq_ok.mp h
  obtain ⟨gp, -, h⟩ := bind_eq_ok.mp h
  obtain ⟨lp, -, h⟩ := bind_eq_ok.mp h
  rw [if_neg (by rwa [isZero_iff])] at h
  obtain ⟨share, hshare, h⟩ := bind_eq_ok.mp h
  cases pure_eq_ok.mp h
  exact (value_div hshare).2

theorem Stakes.Of.lpShare_mem (hs : s.Of terms) : 0 ≤ s.lpShare.value ∧ s.lpShare.value ≤ 1 :=
  ⟨hs.lpShare_nonneg, hs.lpShare_le⟩

end Waterfall

end PropertyFinance
