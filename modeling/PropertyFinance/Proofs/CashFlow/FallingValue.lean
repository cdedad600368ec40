import PropertyFinance.Proofs.CashFlow.Discounting
import PropertyFinance.Proofs.Decimal.Monotonicity

/-! The present values of one series at two rates. If only the first flow may be an outlay, the greater
rate has the smaller value: its divisors are greater and its discount factors smaller, and rounding keeps
the order in every step, also where a factor or a term vanishes. -/

namespace PropertyFinance
open Decimal Yield
set_option autoImplicit false

variable {rate rate' growth growth' factor factor' total total' flow : Decimal} {flows : List Decimal}
  {t : Nat}

theorem growth_nonnegLe (hrate : -1 < rate.value) (hle : rate.value ≤ rate'.value) :
    Agree (Decimal.one.add rate) (Decimal.one.add rate') NonnegLe := by
  intro growth growth' hgrowth hgrowth'
  constructor
  · rw [value_add hgrowth, value_one]
    exact nearest_nonneg (by linarith)
  · exact add_monotone (le_refl _) hle growth growth' hgrowth hgrowth'

section Divided

theorem discountFactor_nonnegLe (hgrowth : NonnegLe growth growth')
    (h : discountFactor growth t = some factor) (h' : discountFactor growth' t = some factor') :
    NonnegLe factor factor' := by
  induction t generalizing factor factor' with
  | zero =>
    cases h
    cases h'
    exact nonnegLe_self (by rw [value_one]; norm_num)
  | succ t ih =>
    obtain ⟨before, hbefore, hvalue⟩ := discountFactor_succ h
    obtain ⟨before', hbefore', hvalue'⟩ := discountFactor_succ h'
    have hpast := ih hbefore hbefore'
    constructor
    · rw [hvalue]
      exact nearest_nonneg (mul_nonneg hpast.nonneg hgrowth.nonneg)
    · rw [hvalue, hvalue']
      apply nearest_mono
      exact mul_le_mul hpast.le hgrowth.le hgrowth.nonneg (hpast.nonneg.trans hpast.le)

theorem addTerm_le (hflow : 0 ≤ flow.value) (hfactor : NonnegLe factor factor')
    (htotal : total'.value ≤ total.value) :
    Agree (addTerm total' flow factor') (addTerm total flow factor) fun x y => x.value ≤ y.value :=
  ((nonnegLe_self hflow).div hfactor).bind fun _ _ hterm => add_monotone htotal hterm

/-- Over the flows, with the factors of the period before in hand. -/
theorem addDiscounted_le (hgrowth : NonnegLe growth growth') (hflows : ∀ flow ∈ flows, 0 ≤ flow.value)
    (h : discountFactor growth (t - 1) = some factor)
    (h' : discountFactor growth' (t - 1) = some factor') (htotal : total'.value ≤ total.value) :
    Agree (addDiscounted growth' flows t factor' total') (addDiscounted growth flows t factor total)
      fun x y => x.value ≤ y.value := by
  induction flows generalizing t factor factor' total total' with
  | nil => exact agree_pure htotal
  | cons flow rest ih =>
    obtain ⟨hflow, hrest⟩ := List.forall_mem_cons.mp hflows
    rw [addDiscounted_cons h, addDiscounted_cons h']
    cases hnext : discountFactor growth t with
    | none =>
      intro x y _ hy
      exact nomatch hy
    | some next =>
      cases hnext' : discountFactor growth' t with
      | none =>
        intro x y hx
        exact nomatch hx
      | some next' =>
        have hterm := addTerm_le hflow (discountFactor_nonnegLe hgrowth hnext hnext') htotal
        refine hterm.lift.bind fun sum' sum hsum => ?_
        exact ih (t := t + 1) hrest hnext hnext' hsum

theorem addDiscounted_start_le (hgrowth : NonnegLe growth growth')
    (hflows : ∀ flow ∈ flows.tail, 0 ≤ flow.value) :
    Agree (addDiscounted growth' flows 0 .one .zero) (addDiscounted growth flows 0 .one .zero)
      fun x y => x.value ≤ y.value := by
  cases flows with
  | nil => exact agree_pure (le_refl _)
  | cons first rest =>
    rw [addDiscounted_cons (t := 0) rfl, addDiscounted_cons (t := 0) rfl]
    -- the first flow is divided by one at either rate
    refine (agree_self (addTerm .zero first .one)).lift.bind ?_
    rintro sum _ rfl
    exact addDiscounted_le (t := 1) hgrowth hflows rfl rfl (le_refl _)

end Divided

section Multiplied
variable {inverse inverse' discount discount' value value' : Decimal}

theorem inverse_nonnegLe (hgrowth : NonnegLe growth growth') (h : Decimal.one.div? growth = some inverse)
    (h' : Decimal.one.div? growth' = some inverse') : NonnegLe inverse' inverse := by
  obtain ⟨hne, hvalue⟩ := value_div? h
  obtain ⟨-, hvalue'⟩ := value_div? h'
  have hpos : 0 < growth.value := lt_of_le_of_ne hgrowth.nonneg hne.symm
  rw [value_one] at hvalue hvalue'
  constructor
  · rw [hvalue']
    exact nearest_nonneg (one_div_pos.mpr (hpos.trans_le hgrowth.le)).le
  · rw [hvalue, hvalue']
    exact nearest_mono (one_div_le_one_div_of_le hpos hgrowth.le)

theorem discount_nonnegLe (hinverse : NonnegLe inverse' inverse) (hdiscount : NonnegLe discount' discount)
    (h : (if t = 0 then some discount else discount.mul? inverse) = some factor)
    (h' : (if t = 0 then some discount' else discount'.mul? inverse') = some factor') :
    NonnegLe factor' factor := by
  cases t with
  | zero =>
    cases h
    cases h'
    exact hdiscount
  | succ t =>
    exact hdiscount.mul hinverse _ _ (orFault_eq_ok.mpr h') (orFault_eq_ok.mpr h)

theorem discountedFrom_le (hinverse : NonnegLe inverse' inverse)
    (hflows : ∀ flow ∈ flows, 0 ≤ flow.value) (hdiscount : NonnegLe discount' discount)
    (htotal : total'.value ≤ total.value)
    (h : discountedFrom inverse flows t discount total = some value)
    (h' : discountedFrom inverse' flows t discount' total' = some value') :
    value'.value ≤ value.value := by
  induction flows generalizing t discount discount' total total' with
  | nil =>
    cases h
    cases h'
    exact htotal
  | cons flow rest ih =>
    obtain ⟨hflow, hrest⟩ := List.forall_mem_cons.mp hflows
    obtain ⟨factor, hfactor, present, hpresent, next, hnext, h⟩ := discountedFrom_cons.mp h
    obtain ⟨factor', hfactor', present', hpresent', next', hnext', h'⟩ := discountedFrom_cons.mp h'
    have hfactors := discount_nonnegLe hinverse hdiscount hfactor hfactor'
    have hterms := (nonnegLe_self hflow).mul hfactors present' present (orFault_eq_ok.mpr hpresent')
      (orFault_eq_ok.mpr hpresent)
    have hsums := add_monotone htotal hterms.le next' next (orFault_eq_ok.mpr hnext')
      (orFault_eq_ok.mpr hnext)
    exact ih hrest hfactors hsums h h'

theorem discountedFrom_start_le (hinverse : NonnegLe inverse' inverse)
    (hflows : ∀ flow ∈ flows.tail, 0 ≤ flow.value)
    (h : discountedFrom inverse flows 0 .one .zero = some value)
    (h' : discountedFrom inverse' flows 0 .one .zero = some value') :
    value'.value ≤ value.value := by
  cases flows with
  | nil =>
    cases h
    cases h'
    exact le_refl _
  | cons first rest =>
    obtain ⟨_, hfactor, present, hpresent, next, hnext, h⟩ := discountedFrom_cons.mp h
    obtain ⟨_, hfactor', present', hpresent', next', hnext', h'⟩ := discountedFrom_cons.mp h'
    cases hfactor
    cases hfactor'
    cases hpresent.symm.trans hpresent'
    cases hnext.symm.trans hnext'
    have hone : NonnegLe .one .one := nonnegLe_self (by rw [value_one]; norm_num)
    exact discountedFrom_le hinverse hflows hone (le_refl _) h h'

theorem valueAndSlope_discounted {sums : Decimal × Decimal}
    (h : valueAndSlope flows rate = .ok (some sums)) :
    ∃ growth inverse, Decimal.one.add rate = .ok growth ∧ Decimal.one.div? growth = some inverse ∧
      discountedFrom inverse flows 0 .one .zero = some sums.1 := by
  obtain ⟨growth, hgrowth, h⟩ := bind_eq_ok.mp h
  obtain ⟨inverse, hinverse, h⟩ := Option.bind_eq_some_iff.mp (pure_eq_ok.mp h)
  exact ⟨growth, inverse, hgrowth, hinverse, discountedFrom_of_sumsFrom h⟩

end Multiplied

/-- A series that pays back after its first flow is worth no more at a greater rate, by either of the two
ways in which its present value is computed. -/
theorem present_value_falls (hflows : ∀ flow ∈ flows.tail, 0 ≤ flow.value) (hrate : -1 < rate.value)
    (hle : rate.value ≤ rate'.value) :
    (∀ value value', presentValue rate flows = .ok value → presentValue rate' flows = .ok value' →
      value' ≤ value) ∧
    ∀ sums sums', valueAndSlope flows rate = .ok (some sums) →
      valueAndSlope flows rate' = .ok (some sums') → sums'.1 ≤ sums.1 := by
  constructor
  · intro value value' h h'
    rw [presentValue_of_gt hrate] at h
    rw [presentValue_of_gt (hrate.trans_le hle)] at h'
    obtain ⟨growth, hgrowth, h⟩ := bind_eq_ok.mp h
    obtain ⟨growth', hgrowth', h'⟩ := bind_eq_ok.mp h'
    have hgrowths := growth_nonnegLe hrate hle growth growth' (liftM_eq_ok.mp hgrowth)
      (liftM_eq_ok.mp hgrowth')
    rw [le_iff_value_le]
    exact addDiscounted_start_le hgrowths hflows value' value h' h
  · intro sums sums' h h'
    obtain ⟨growth, inverse, hgrowth, hinverse, h⟩ := valueAndSlope_discounted h
    obtain ⟨growth', inverse', hgrowth', hinverse', h'⟩ := valueAndSlope_discounted h'
    have hgrowths := growth_nonnegLe hrate hle growth growth' hgrowth hgrowth'
    rw [le_iff_value_le]
    exact discountedFrom_start_le (inverse_nonnegLe hgrowths hinverse hinverse') hflows h h'

/-- An outlay that comes back in two instalments, the last of them a quantum. -/
def instalments : List Decimal := [.ofScaled (-100) 0, .ofScaled 60 0, .ofScaled 1 28]

theorem present_value_falls_instalments :
    ∃ value value' sums sums', presentValue (.ofScaled (-99) 2) instalments = .ok value ∧
      presentValue (.ofScaled 1 2) instalments = .ok value' ∧ value' ≤ value ∧
      valueAndSlope instalments (.ofScaled (-99) 2) = .ok (some sums) ∧
      valueAndSlope instalments (.ofScaled 1 2) = .ok (some sums') ∧ sums'.1 ≤ sums.1 := by
  obtain ⟨value, hvalue⟩ := exists_of_isOk (x := presentValue (.ofScaled (-99) 2) instalments)
    (by decide +kernel)
  obtain ⟨value', hvalue'⟩ := exists_of_isOk (x := presentValue (.ofScaled 1 2) instalments)
    (by decide +kernel)
  obtain ⟨found, hfound, hsome⟩ := exists_of_any (x := valueAndSlope instalments (.ofScaled (-99) 2))
    (p := Option.isSome) (by decide +kernel)
  obtain ⟨found', hfound', hsome'⟩ := exists_of_any (x := valueAndSlope instalments (.ofScaled 1 2))
    (p := Option.isSome) (by decide +kernel)
  obtain ⟨sums, rfl⟩ := Option.isSome_iff_exists.mp hsome
  obtain ⟨sums', rfl⟩ := Option.isSome_iff_exists.mp hsome'
  have hflows : ∀ flow ∈ instalments.tail, 0 ≤ flow.value := by
    rw [instalments, List.tail_cons, List.forall_mem_cons, List.forall_mem_singleton,
      value_ofScaled (by decide) (by decide), value_ofScaled (by decide) (by decide)]
    norm_num
  have hrates : -1 < (Decimal.ofScaled (-99) 2).value ∧
      (Decimal.ofScaled (-99) 2).value ≤ (Decimal.ofScaled 1 2).value := by
    rw [value_ofScaled (by decide) (by decide), value_ofScaled (by decide) (by decide)]
    norm_num
  obtain ⟨hpresent, hsums⟩ := present_value_falls hflows hrates.1 hrates.2
  exact ⟨value, value', sums, sums', hvalue, hvalue', hpresent value value' hvalue hvalue', hfound,
    hfound', hsums sums sums' hfound hfound'⟩

end PropertyFinance
