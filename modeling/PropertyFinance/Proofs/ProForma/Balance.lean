import PropertyFinance.Proofs.Decimal.Recomposition
import PropertyFinance.Proofs.ProForma.PropertySide

/-! A capital stack that follows from the loan-to-value ratio. The debt is a rounded part of the uses
and the equity a rounded rest, yet both together are the uses again, so such a stack balances and
nothing warns of it. -/

namespace PropertyFinance
open Decimal
set_option autoImplicit false

/-- Steps on decimals may be lifted one by one. -/
theorem lift_bind {α β : Type} (x : Arith α) (f : α → Arith β) :
    (liftM (x >>= f) : Outcome β) = liftM x >>= fun a => liftM (f a) := by
  cases x <;> rfl

theorem Decimal.sum_pair (a b : Decimal) : Decimal.sum [a, b] = a.add b := by
  change (zero.add a >>= fun s => s.add b >>= pure) = _
  rw [add_of_isZero rfl, ok_bind, bind_pure]

/-- A part between nothing and the whole, and the rounded rest, come to the whole again. -/
theorem Decimal.add_rest_same {whole part rest : Decimal} {share : ℚ} (hdigits : HasDigits 27 whole.value)
    (hshare₀ : 0 ≤ share) (hshare₁ : share ≤ 1) (hpart : part.value = nearest (whole.value * share))
    (hrest : whole.sub part = .ok rest) : ∃ t, part.add rest = .ok t ∧ t.Same whole := by
  apply exists_add_eq
  rw [value_sub hrest]
  rcases le_total 0 whole.value with hwhole | hwhole
  · have hle : part.value ≤ whole.value := by
      rw [hpart]
      exact nearest_le_value (mul_le_of_le_one_right hwhole hshare₁)
    have hnonneg : 0 ≤ part.value := by
      rw [hpart]
      exact nearest_nonneg (mul_nonneg hwhole hshare₀)
    exact ⟨fits_recompose hdigits hwhole _, recompose_of_nonneg hdigits hnonneg (Or.inl (by linarith))⟩
  · have hge : whole.value ≤ part.value := by
      rw [hpart]
      apply value_le_nearest
      linarith [mul_le_mul_of_nonpos_left hshare₁ hwhole]
    have hnonpos : part.value ≤ 0 := by
      rw [hpart, ← nearest_zero]
      exact nearest_mono (mul_nonpos_of_nonpos_of_nonneg hwhole hshare₀)
    exact recompose_of_nonpos hdigits hge hnonpos

namespace CapitalStack
variable {deal : Deal} {options : CapitalOptions} {stack : CapitalStack}

/-- The debt by the loan-to-value ratio, and the equity that is left to pay. -/
def derive (financing : FinancingTerms) (totalUses : Decimal) : Arith (Decimal × Decimal) := do
  let debt ← totalUses.mul (← percentToRate financing.ltvPct)
  let equity ← totalUses.sub debt
  pure (debt, equity)

theorem sourcesOf_none (financing : FinancingTerms) (totalUses : Decimal) :
    sourcesOf financing none totalUses = (do
      let (debt, equity) ← derive financing totalUses
      pure ([(SourceKind.debt.label, debt), ("Sponsor Equity", equity)], debt, equity)) := by
  simp only [sourcesOf, derive, lift_bind, bind_assoc]
  rfl

theorem Builds.derive_eq (h : Builds deal options stack) (hnone : options.sources = none) :
    derive deal.financing stack.totalUses = .ok (stack.debtSources, stack.equitySources) ∧
      total stack.sources = stack.debtSources.add stack.equitySources := by
  have hsources := h.sources_eq
  rw [hnone, sourcesOf_none] at hsources
  obtain ⟨⟨debt, equity⟩, hderive, hsources⟩ := bind_eq_ok.mp hsources
  obtain ⟨hlines, hparts⟩ := Prod.mk.inj (pure_eq_ok.mp hsources)
  obtain ⟨rfl, rfl⟩ := Prod.mk.inj hparts
  rw [← hlines]
  exact ⟨liftM_eq_ok.mp hderive, sum_pair _ _⟩

/-- Every sum over the stack is the same number. -/
structure Balances (stack : CapitalStack) : Prop where
  parts : ∃ t, stack.debtSources.add stack.equitySources = .ok t ∧ t.Same stack.totalUses
  totalSources_same : stack.totalSources.Same stack.totalUses
  usesDelta_isZero : stack.usesDelta.isZero = true
  isBalanced_eq : stack.isBalanced = true

theorem Builds.balances (h : Builds deal options stack) (hnone : options.sources = none)
    (hltv : isPercentage deal.financing.ltvPct = true) (hdigits : HasDigits 27 stack.totalUses.value) :
    stack.Balances := by
  obtain ⟨hderive, hsum⟩ := h.derive_eq hnone
  obtain ⟨rate, hrate, hderive⟩ := bind_eq_ok.mp hderive
  obtain ⟨debt, hdebt, hderive⟩ := bind_eq_ok.mp hderive
  obtain ⟨equity, hequity, hderive⟩ := bind_eq_ok.mp hderive
  obtain ⟨rfl, rfl⟩ := Prod.mk.inj (pure_eq_ok.mp hderive)
  obtain ⟨hrate₀, hrate₁⟩ := rate_mem_of_percentage hrate hltv
  have hparts := add_rest_same hdigits hrate₀ hrate₁ (value_mul hdebt) hequity
  have hsame : stack.totalSources.Same stack.totalUses := by
    obtain ⟨t, ht, hsame⟩ := hparts
    have htotal := h.totalSources_eq
    rw [hsum, ht] at htotal
    rwa [← Except.ok.inj htotal]
  have hzero : stack.usesDelta.isZero = true := by
    rw [isZero_iff, value_sub h.usesDelta_eq, same_iff_value_eq.mp hsame, sub_self, nearest_zero]
  exact ⟨hparts, hsame, hzero, hzero⟩

end CapitalStack

namespace ProForma
variable {assumptions : Assumptions} {options : CapitalOptions} {a : Analysis ProFormaBasis ProForma}

/-- A warning of an unbalanced capital stack, by its first words. -/
def ReportsImbalance (warning : String) : Prop :=
  "Capital stack unbalanced".toList <+: warning.toList

theorem mem_warnIf {condition : Bool} {text warning : String} :
    warning ∈ warnIf condition text ↔ condition = true ∧ warning = text := by
  unfold warnIf
  split <;> simp_all

theorem not_reportsImbalance_returnWarnings {metrics : ReturnMetrics} {warning : String}
    (h : warning ∈ returnWarnings metrics) : ¬ ReportsImbalance warning := by
  rcases List.mem_append.mp h with h | h
  · rw [(mem_warnIf.mp h).2]
    simp [ReportsImbalance]
  · cases hdscr : metrics.dscrYear1 with
    | none => simp [hdscr] at h
    | some dscr =>
      rw [hdscr] at h
      rw [(mem_warnIf.mp h).2]
      simp [ReportsImbalance, String.toList_append]

/-- The warnings name an imbalance just when there is one. -/
theorem reportsImbalance_iff {capital : CapitalStack} {metrics : ReturnMetrics} :
    (∃ warning ∈ capitalWarnings capital ++ returnWarnings metrics, ReportsImbalance warning) ↔
      capital.isBalanced = false := by
  constructor
  · rintro ⟨warning, hmem, hreports⟩
    rcases List.mem_append.mp hmem with hmem | hmem
    · rcases List.mem_append.mp hmem with hmem | hmem
      · simpa using (mem_warnIf.mp hmem).1
      · rw [(mem_warnIf.mp hmem).2] at hreports
        simp [ReportsImbalance] at hreports
    · exact absurd hreports (not_reportsImbalance_returnWarnings hmem)
  · intro hunbalanced
    refine ⟨"Capital stack unbalanced: sources minus uses = " ++ capital.usesDelta.toText, ?_, ?_⟩
    · apply List.mem_append_left
      apply List.mem_append_left
      simp [warnIf, hunbalanced]
    · simp [ReportsImbalance, String.toList_append]

/-- Debt and equity that follow from a loan-to-value ratio between 0% and 100% come to uses of at most
27 digits, whatever was rounded, and no warning of the pro forma says otherwise. -/
theorem derived_stack_balances {stack : CapitalStack} (hnone : options.sources = none)
    (hltv₀ : Decimal.zero ≤ assumptions.deal.financing.ltvPct)
    (hltv₁ : assumptions.deal.financing.ltvPct ≤ Decimal.hundred)
    (h : CapitalStack.ofDeal assumptions.deal options = .ok stack)
    (hdigits : HasDigits 27 stack.totalUses.value) :
    (∃ t, stack.debtSources.add stack.equitySources = .ok t ∧ t.Same stack.totalUses) ∧
      stack.totalSources.Same stack.totalUses ∧
      stack.usesDelta.isZero = true ∧ stack.isBalanced = true ∧
      ∀ a, analyse assumptions options = .ok a → ∀ warning ∈ a.warnings, ¬ ReportsImbalance warning := by
  have hltv : isPercentage assumptions.deal.financing.ltvPct = true := by
    simp [isPercentage, hltv₀, hltv₁]
  have hbalances := (CapitalStack.builds_of_ofDeal h).balances hnone hltv hdigits
  refine ⟨hbalances.parts, hbalances.totalSources_same, hbalances.usesDelta_isZero,
    hbalances.isBalanced_eq, fun a ha warning hmem hreports => ?_⟩
  obtain ⟨loan, hprojects, hsummary⟩ := summary_of_analyse ha
  rw [hsummary.warnings_eq] at hmem
  have hunbalanced := reportsImbalance_iff.mp ⟨warning, hmem, hreports⟩
  rw [← Except.ok.inj (h.symm.trans hprojects.capital_eq), hbalances.isBalanced_eq] at hunbalanced
  cases hunbalanced

/-- A third of the price is borrowed, so the equity has more digits than there is room for. -/
def thirdBorrowed : Deal :=
  { office with
    acquisition := ⟨.ofScaled 2000000 0, .two, 3⟩
    financing := ⟨.ofScaled 3333333333333333333333333333 26, .ofScaled 6 0, 25⟩ }

/-- The exact sum of debt and equity is not the total; the stack balances all the same. -/
theorem derived_stack_balances_third :
    ∃ stack a, CapitalStack.ofDeal thirdBorrowed ⟨none, some renovation⟩ = .ok stack ∧
      HasDigits 27 stack.totalUses.value ∧
      stack.debtSources.value + stack.equitySources.value ≠ stack.totalUses.value ∧
      stack.isBalanced = true ∧
      analyse (.ofDeal thirdBorrowed) ⟨none, some renovation⟩ = .ok a ∧
      ∀ warning ∈ a.warnings, ¬ ReportsImbalance warning := by
  obtain ⟨stack, hstack, hfigures⟩ := exists_of_any
    (x := CapitalStack.ofDeal thirdBorrowed ⟨none, some renovation⟩)
    (p := fun stack => decide (stack.totalUses = .ofScaled 210600000 2 ∧
      stack.debtSources = .ofScaled 70199999999999999999999999993 23 ∧
      stack.equitySources = .ofScaled 14040000000000000000000000001 22)) (by decide +kernel)
  obtain ⟨huses, hdebt, hequity⟩ := of_decide_eq_true hfigures
  obtain ⟨a, ha⟩ := exists_of_isOk
    (x := analyse (.ofDeal thirdBorrowed) ⟨none, some renovation⟩) (by decide +kernel)
  have hdigits : HasDigits 27 stack.totalUses.value := by
    rw [huses, value_ofScaled (by decide) (by decide)]
    exact ⟨210600000, -2, by norm_num, by norm_num⟩
  have hstack' : CapitalStack.ofDeal (Assumptions.ofDeal thirdBorrowed).deal ⟨none, some renovation⟩ =
    .ok stack := hstack
  obtain ⟨-, -, -, hbalanced, hwarnings⟩ := derived_stack_balances (by rfl) (by decide) (by decide)
    hstack' hdigits
  refine ⟨stack, a, hstack, hdigits, ?_, hbalanced, ha, hwarnings a ha⟩
  rw [huses, hdebt, hequity, value_ofScaled (by decide) (by decide),
    value_ofScaled (by decide) (by decide), value_ofScaled (by decide) (by decide)]
  norm_num

end ProForma

end PropertyFinance
