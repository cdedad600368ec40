import PropertyFinance.Proofs.CashFlow.Faults
import PropertyFinance.Proofs.Lending.Amortization
import PropertyFinance.Proofs.ProForma.PropertySide

/-! The divisors of a pro forma. Each is a constant, a number that has been compared with zero before (the
months of a loan when it is written), or the exit cap rate. That one is compared with zero as a percentage
and divides as a rate, so a percentage of a few quanta passes its check and is rounded away before it
divides. -/

namespace PropertyFinance
open Decimal
set_option autoImplicit false

/-- The failure that tells of a zero divisor. -/
class DivisionFailure (ε : Type) where
  byZero : ε

instance : DivisionFailure Fault := ⟨.divisionByZero⟩
instance : DivisionFailure Failure := ⟨.fault .divisionByZero⟩

section SafelyDivides
variable {ε α β : Type} [DivisionFailure ε] {x : Except ε α} {f : α → Except ε β}

/-- The computation may fail, but never by dividing by zero. -/
def SafelyDivides (x : Except ε α) : Prop := x ≠ .error DivisionFailure.byZero

theorem safelyDivides_error_iff {e : ε} :
    SafelyDivides (.error e : Except ε α) ↔ e ≠ DivisionFailure.byZero :=
  not_congr ⟨fun h => Except.error.inj h, fun h => congrArg _ h⟩

theorem safelyDivides_pure (a : α) : SafelyDivides (pure a : Except ε α) := nofun

theorem safelyDivides_bind_iff :
    SafelyDivides (x >>= f) ↔ SafelyDivides x ∧ ∀ a, x = .ok a → SafelyDivides (f a) := by
  cases x with
  | error e =>
    rw [error_bind, safelyDivides_error_iff, safelyDivides_error_iff]
    exact ⟨fun h => ⟨h, nofun⟩, fun h => h.1⟩
  | ok a =>
    constructor
    · intro h
      refine ⟨nofun, fun b hb => ?_⟩
      cases hb
      exact h
    · intro h
      exact h.2 a rfl

theorem SafelyDivides.bind (hx : SafelyDivides x) (hf : ∀ a, x = .ok a → SafelyDivides (f a)) :
    SafelyDivides (x >>= f) := safelyDivides_bind_iff.mpr ⟨hx, hf⟩

/-- A step that never divides by zero leaves that to what follows its result. -/
theorem SafelyDivides.bind_iff (hx : SafelyDivides x) :
    SafelyDivides (x >>= f) ↔ ∀ a, x = .ok a → SafelyDivides (f a) := by
  rw [safelyDivides_bind_iff, and_iff_right hx]

/-- The other way round, where what follows never does. -/
theorem safelyDivides_bind_iff_left (hf : ∀ a, SafelyDivides (f a)) :
    SafelyDivides (x >>= f) ↔ SafelyDivides x := by
  rw [safelyDivides_bind_iff, and_iff_left fun a _ => hf a]

theorem safelyDivides_lift_iff {x : Arith α} :
    SafelyDivides (liftM x : Outcome α) ↔ SafelyDivides x := by
  cases x with
  | ok a => exact ⟨fun _ => nofun, fun _ => nofun⟩
  | error g =>
    refine not_congr ⟨fun h => ?_, fun h => ?_⟩
    · cases h
      rfl
    · cases h
      rfl

theorem SafelyDivides.lift {x : Arith α} (h : SafelyDivides x) :
    SafelyDivides (liftM x : Outcome α) := safelyDivides_lift_iff.mpr h

theorem safelyDivides_reject (cause : Rejection) : SafelyDivides (reject cause : Outcome α) := nofun

/-- A check whose rest never divides by zero. -/
theorem safelyDivides_unless_reject {c : Prop} [Decidable c] {field reason : String}
    {f : Unit → Outcome α} (h : ¬ c → SafelyDivides (f ())) :
    SafelyDivides (if c then (rejectField field reason : Outcome Unit) >>= f else f ()) := by
  split
  case isTrue => exact nofun
  case isFalse hc => exact h hc

end SafelyDivides

section Operations
variable {a b : Decimal}

theorem safelyDivides_add (a b : Decimal) : SafelyDivides (a.add b) :=
  fun h => nomatch (add_eq_error_iff.mp h).1

theorem safelyDivides_sub (a b : Decimal) : SafelyDivides (a.sub b) :=
  fun h => nomatch (sub_eq_error_iff.mp h).1

theorem safelyDivides_mul (a b : Decimal) : SafelyDivides (a.mul b) :=
  fun h => nomatch (orFault_eq_error.mp h).1

theorem safelyDivides_div_iff : SafelyDivides (a.div b) ↔ b.value ≠ 0 := by
  refine not_congr ⟨fun h => ?_, fun h => div_eq_error_iff.mpr (Or.inl ⟨rfl, h⟩)⟩
  rcases div_eq_error_iff.mp h with ⟨-, hzero⟩ | ⟨hother, -⟩
  · exact hzero
  · exact nomatch hother

theorem safelyDivides_div (a : Decimal) (hb : b.value ≠ 0) : SafelyDivides (a.div b) :=
  safelyDivides_div_iff.mpr hb

theorem safelyDivides_percentToRate (percent : Decimal) : SafelyDivides (percentToRate percent) :=
  safelyDivides_div percent (by norm_num [value_hundred])

theorem safelyDivides_sumFrom (xs : List Decimal) (total : Decimal) :
    SafelyDivides (xs.foldlM add total) := by
  induction xs generalizing total with
  | nil => exact safelyDivides_pure total
  | cons x xs ih =>
    rw [List.foldlM_cons]
    exact (safelyDivides_add total x).bind fun next _ => ih next

theorem safelyDivides_sum (xs : List Decimal) : SafelyDivides (Decimal.sum xs) :=
  safelyDivides_sumFrom xs .zero

/-- A count divides unless it is none. -/
theorem ofNat_value_ne_zero {n : Nat} (hn : 0 < n) : (Decimal.ofNat n).value ≠ 0 := by
  rw [← isZero_eq_false_iff, isZero, beq_eq_false_iff_ne]
  dsimp only [Decimal.ofNat]
  unfold capacity
  omega

theorem safelyDivides_rate? (flows : List Decimal) : SafelyDivides (Yield.rate? flows) := by
  refine SafelyDivides.bind ?_ fun _ _ => safelyDivides_pure _
  intro h
  exact nomatch ((Yield.solve_faults_iff _ _ _).mp h).1

end Operations

namespace CapitalStack

theorem safelyDivides_usesOf (acquisition : AcquisitionTerms) (budget : Option DevelopmentBudget) :
    SafelyDivides (usesOf acquisition budget) := by
  refine (safelyDivides_percentToRate _).bind fun _ _ => ?_
  refine (safelyDivides_mul _ _).bind fun _ _ => ?_
  cases budget with
  | none => exact safelyDivides_pure _
  | some budget =>
    have hbudget : SafelyDivides budget.total := by
      refine (safelyDivides_add _ _).bind fun _ _ => ?_
      refine SafelyDivides.bind ?_ fun _ _ => safelyDivides_add _ _
      refine (safelyDivides_add _ _).bind fun _ _ => ?_
      refine (safelyDivides_mul _ _).bind fun _ _ => ?_
      exact safelyDivides_percentToRate _
    exact hbudget.bind fun _ _ => safelyDivides_pure _

theorem safelyDivides_tally (sources : List CapitalSource) (debt equity : Decimal) :
    SafelyDivides (tally sources debt equity) := by
  induction sources generalizing debt equity with
  | nil => exact safelyDivides_pure _
  | cons source rest ih =>
    unfold tally
    refine safelyDivides_unless_reject fun _ => ?_
    split
    · exact (safelyDivides_add _ _).lift.bind fun _ _ => ih _ _
    · exact (safelyDivides_add _ _).lift.bind fun _ _ => ih _ _

theorem safelyDivides_sourcesOf (financing : FinancingTerms)
    (sources : Option (List CapitalSource)) (totalUses : Decimal) :
    SafelyDivides (sourcesOf financing sources totalUses) := by
  cases sources with
  | some sources => exact (safelyDivides_tally sources _ _).bind fun _ _ => safelyDivides_pure _
  | none =>
    refine (safelyDivides_percentToRate _).lift.bind fun _ _ => ?_
    refine (safelyDivides_mul _ _).lift.bind fun _ _ => ?_
    exact (safelyDivides_sub _ _).lift.bind fun _ _ => safelyDivides_pure _

theorem safelyDivides_ofDeal (deal : Deal) (options : CapitalOptions) :
    SafelyDivides (ofDeal deal options) := by
  rw [ofDeal_eq]
  refine safelyDivides_unless_reject fun _ => ?_
  refine (safelyDivides_usesOf _ _).lift.bind fun _ _ => ?_
  refine (safelyDivides_sum _).lift.bind fun _ _ => ?_
  refine (safelyDivides_sourcesOf _ _ _).bind fun _ _ => ?_
  refine (safelyDivides_sum _).lift.bind fun _ _ => ?_
  exact (safelyDivides_sub _ _).lift.bind fun _ _ => safelyDivides_pure _

end CapitalStack

namespace Loan

theorem safelyDivides_monthlyRate (interestRatePct : Decimal) :
    SafelyDivides (monthlyRate interestRatePct) := by
  refine (safelyDivides_percentToRate _).bind fun _ _ => ?_
  exact safelyDivides_div _ (by norm_num [value_twelve])

theorem safelyDivides_compoundFrom (rate : Decimal) (periods : Nat) (factor : Decimal) :
    SafelyDivides (compoundFrom rate periods factor) := by
  induction periods generalizing factor with
  | zero => exact safelyDivides_pure factor
  | succ periods ih =>
    refine (safelyDivides_add _ _).bind fun _ _ => ?_
    exact (safelyDivides_mul _ _).bind fun next _ => ih next

/-- The gain is a rounded difference and may vanish, but it is looked at before it divides. -/
theorem safelyDivides_monthlyPayment (principal rate : Decimal) (months : Nat) :
    SafelyDivides (monthlyPayment principal rate months) := by
  unfold monthlyPayment
  split
  case isTrue => exact safelyDivides_reject _
  case isFalse hmonths =>
    split
    case isTrue =>
      exact (safelyDivides_div principal (ofNat_value_ne_zero (Nat.pos_of_ne_zero hmonths))).lift
    case isFalse =>
      refine (safelyDivides_compoundFrom _ _ _).lift.bind fun compound _ => ?_
      refine (safelyDivides_sub _ _).lift.bind fun gain _ => ?_
      split
      case isTrue => exact safelyDivides_reject _
      case isFalse hgain =>
        refine (safelyDivides_mul _ _).lift.bind fun _ _ => ?_
        refine (safelyDivides_mul _ _).lift.bind fun _ _ => ?_
        exact (safelyDivides_div _ fun h => hgain (isZero_iff.mpr h)).lift

end Loan

namespace LoanTerms
variable {terms : LoanTerms}

theorem safelyDivides_ofLoan (loanAmount interestRatePct : Decimal) (amortizationYears : UInt32) :
    SafelyDivides (ofLoan loanAmount interestRatePct amortizationYears) := by
  unfold ofLoan
  refine safelyDivides_unless_reject fun _ => ?_
  refine safelyDivides_unless_reject fun _ => ?_
  refine (Loan.safelyDivides_monthlyRate _).lift.bind fun rate _ => ?_
  have hrest (payment : Decimal) : SafelyDivides (do
      let service ← payment.mul .twelve
      pure ⟨loanAmount, interestRatePct, amortizationYears, payment, service⟩ : Outcome LoanTerms) :=
    (safelyDivides_mul _ _).lift.bind fun _ _ => safelyDivides_pure _
  dsimp only
  split
  · exact (safelyDivides_mul _ _).lift.bind fun payment _ => hrest payment
  · exact (Loan.safelyDivides_monthlyPayment _ _ _).bind fun payment _ => hrest payment

theorem safelyDivides_payDown (rate payment : Decimal) (payments : Nat) (balance : Decimal) :
    SafelyDivides (payDown rate payment payments balance) := by
  induction payments generalizing balance with
  | zero => exact safelyDivides_pure balance
  | succ payments ih =>
    refine (safelyDivides_mul _ _).bind fun _ _ => ?_
    refine (safelyDivides_sub _ _).bind fun _ _ => ?_
    refine (safelyDivides_sub _ _).bind fun _ _ => ?_
    split
    · exact safelyDivides_pure _
    · exact ih _

/-- A loan over months that have wrapped around to none is not written, so the months of a loan that is
written divide. -/
theorem months_ne_zero_of_ofLoan {loanAmount interestRatePct : Decimal} {years : UInt32}
    (h : ofLoan loanAmount interestRatePct years = .ok terms) (hyears : terms.amortizationYears ≠ 0) :
    terms.months ≠ 0 := by
  obtain ⟨rate, hissued⟩ := issued_of_ofLoan h
  rw [hissued.years_eq] at hyears
  exact (hissued.months_pos hyears).ne'

theorem safelyDivides_balanceAfter (hmonths : terms.amortizationYears ≠ 0 → terms.months ≠ 0)
    (years : UInt32) : SafelyDivides (terms.balanceAfter years) := by
  unfold balanceAfter
  split
  case isTrue => exact safelyDivides_pure _
  case isFalse hterms =>
    simp only [Bool.or_eq_true, decide_eq_true_eq, not_or] at hterms
    have hpos := Nat.pos_of_ne_zero (hmonths hterms.1)
    refine (Loan.safelyDivides_monthlyRate _).bind fun rate _ => ?_
    dsimp only
    split
    case isTrue =>
      refine (safelyDivides_mul _ _).bind fun _ _ => ?_
      refine (safelyDivides_div _ (ofNat_value_ne_zero hpos)).bind fun _ _ => ?_
      exact safelyDivides_sub _ _
    case isFalse => exact safelyDivides_payDown _ _ _ _

end LoanTerms

namespace ProForma
variable {deal : Deal} {options : CapitalOptions} {years : List AnnualCashFlow}

theorem safelyDivides_growth (deal : Deal) : SafelyDivides (Growth.ofDeal deal) := by
  refine (safelyDivides_percentToRate _).bind fun _ _ => ?_
  refine (safelyDivides_add _ _).bind fun _ _ => ?_
  refine (safelyDivides_percentToRate _).bind fun _ _ => ?_
  refine (safelyDivides_add _ _).bind fun _ _ => ?_
  refine (safelyDivides_percentToRate _).bind fun _ _ => ?_
  refine (safelyDivides_percentToRate _).bind fun _ _ => ?_
  exact (safelyDivides_add _ _).bind fun _ _ => safelyDivides_pure _

theorem safelyDivides_ratio? (a b : Decimal) : SafelyDivides (ratio? a b) := by
  unfold ratio?
  split
  case isTrue => exact safelyDivides_pure _
  case isFalse hb =>
    exact (safelyDivides_div a fun h => hb (isZero_iff.mpr h)).bind fun _ _ => safelyDivides_pure _

theorem safelyDivides_yearRow (deal : Deal) (incomeLoss debtService equity : Decimal) (year : Nat)
    (rentFactor expenseFactor paidBefore : Decimal) :
    SafelyDivides
      (yearRow deal incomeLoss debtService equity year rentFactor expenseFactor paidBefore) := by
  unfold yearRow
  dsimp only
  refine (safelyDivides_mul _ _).bind fun _ _ => ?_
  refine (safelyDivides_mul _ _).bind fun _ _ => ?_
  refine (safelyDivides_sub _ _).bind fun _ _ => ?_
  refine (safelyDivides_mul _ _).bind fun _ _ => ?_
  refine (safelyDivides_mul _ _).bind fun _ _ => ?_
  refine (safelyDivides_add _ _).bind fun _ _ => ?_
  refine (safelyDivides_mul _ _).bind fun _ _ => ?_
  refine (safelyDivides_mul _ _).bind fun _ _ => ?_
  refine (safelyDivides_percentToRate _).bind fun _ _ => ?_
  refine (safelyDivides_mul _ _).bind fun _ _ => ?_
  refine (safelyDivides_add _ _).bind fun _ _ => ?_
  refine (safelyDivides_sub _ _).bind fun _ _ => ?_
  refine (safelyDivides_sub _ _).bind fun _ _ => ?_
  refine (safelyDivides_add _ _).bind fun _ _ => ?_
  refine (safelyDivides_ratio? _ _).bind fun _ _ => ?_
  exact (safelyDivides_ratio? _ _).bind fun _ _ => safelyDivides_pure _

theorem safelyDivides_grown (year : Nat) (factor growth : Decimal) :
    SafelyDivides (grown year factor growth) := by
  unfold grown
  split
  · exact safelyDivides_mul _ _
  · exact safelyDivides_pure _

theorem safelyDivides_rowsFrom (deal : Deal) (growth : Growth) (debtService equity : Decimal)
    (left year : Nat) (rentFactor expenseFactor paidBefore : Decimal) :
    SafelyDivides
      (rowsFrom deal growth debtService equity left year rentFactor expenseFactor paidBefore) := by
  induction left generalizing year rentFactor expenseFactor paidBefore with
  | zero => exact safelyDivides_pure _
  | succ left ih =>
    rw [rowsFrom_succ]
    refine (safelyDivides_grown _ _ _).bind fun _ _ => ?_
    refine (safelyDivides_grown _ _ _).bind fun _ _ => ?_
    refine (safelyDivides_yearRow _ _ _ _ _ _ _ _).bind fun _ _ => ?_
    exact (ih _ _ _ _).bind fun _ _ => safelyDivides_pure _

theorem safelyDivides_projectYears (deal : Deal) (loan : LoanTerms) (equity : Decimal) :
    SafelyDivides (projectYears deal loan equity) :=
  (safelyDivides_growth deal).bind fun _ _ => safelyDivides_rowsFrom _ _ _ _ _ _ _ _ _

theorem safelyDivides_returnFlows (exit : ExitAnalysis) (rows : List AnnualCashFlow) :
    SafelyDivides (returnFlows exit rows) := by
  induction rows with
  | nil => exact safelyDivides_pure _
  | cons row rest ih =>
    cases rest with
    | nil =>
      refine (safelyDivides_add _ _).bind fun _ _ => ?_
      exact (safelyDivides_add _ _).bind fun _ _ => safelyDivides_pure _
    | cons next rest => exact ih.bind fun _ _ => safelyDivides_pure _

theorem safelyDivides_metricsOf (rows : List AnnualCashFlow) (levered unlevered : List Decimal)
    (equity loanAmount : Decimal) :
    SafelyDivides (metricsOf rows levered unlevered equity loanAmount) := by
  have hmultiple : SafelyDivides (equityMultiple? levered equity) := by
    unfold equityMultiple?
    split
    case isTrue hequity =>
      have hne : equity.value ≠ 0 := (zero_lt_iff.mp hequity).ne'
      refine (safelyDivides_sum _).bind fun _ _ => ?_
      exact (safelyDivides_div _ hne).bind fun _ _ => safelyDivides_pure _
    case isFalse => exact safelyDivides_pure _
  have haverage : SafelyDivides (averageCashOnCash? rows) := by
    unfold averageCashOnCash?
    split
    case isTrue => exact safelyDivides_pure _
    case isFalse hrows =>
      have hlength : 0 < rows.length := by
        rw [List.length_pos_iff]
        rintro rfl
        exact hrows rfl
      refine (safelyDivides_sum _).bind fun _ _ => ?_
      exact (safelyDivides_div _ (ofNat_value_ne_zero hlength)).bind fun _ _ => safelyDivides_pure _
  have hyield : SafelyDivides (debtYield? rows loanAmount) := by
    unfold debtYield?
    split
    · exact safelyDivides_ratio? _ _
    · exact safelyDivides_pure _
  rw [metricsOf_eq]
  refine hmultiple.bind fun _ _ => ?_
  refine haverage.bind fun _ _ => ?_
  refine hyield.bind fun _ _ => ?_
  refine (safelyDivides_rate? _).bind fun _ _ => ?_
  exact (safelyDivides_rate? _).bind fun _ _ => safelyDivides_pure _

/-- The exit divides by the rate of the exit cap percentage, which has been rounded. -/
theorem safelyDivides_projectExit_iff (deal : Deal) {loan : LoanTerms}
    (hmonths : loan.amortizationYears ≠ 0 → loan.months ≠ 0) (exitNoi : Decimal) :
    SafelyDivides (projectExit deal loan exitNoi) ↔
      ∀ rate, percentToRate deal.exit.exitCapRatePct = .ok rate → rate.value ≠ 0 := by
  unfold projectExit
  rw [(safelyDivides_percentToRate _).bind_iff]
  refine forall₂_congr fun rate _ => ?_
  rw [safelyDivides_bind_iff_left, safelyDivides_div_iff]
  intro gross
  refine (safelyDivides_percentToRate _).bind fun _ _ => ?_
  refine (safelyDivides_mul _ _).bind fun _ _ => ?_
  refine (LoanTerms.safelyDivides_balanceAfter hmonths _).bind fun _ _ => ?_
  refine (safelyDivides_sub _ _).bind fun _ _ => ?_
  exact (safelyDivides_sub _ _).bind fun _ _ => safelyDivides_pure _

/-- Half a quantum is rounded to zero, which is even. -/
theorem nearest_half_quantum : nearest (quantum / 2) = 0 := by
  have hfits : Fits (quantum / 2) maxScale := by norm_num [Fits, quantum, maxScale, capacity]
  rw [nearest_eq hfits (le_refl _) (Or.inl rfl), halfEven_eq_of_even (n := 0) (by decide)]
  · norm_num
  · norm_num [quantum, maxScale]

theorem rate_eq_zero_iff {percent rate : Decimal} (h : percentToRate percent = .ok rate)
    (hpos : 0 < percent.value) : rate.value = 0 ↔ percent.value ≤ 50 * quantum := by
  rw [value_percentToRate h]
  constructor
  · intro hzero
    by_contra hlarge
    have hgrid : OnGrid quantum := ⟨1, by rw [Int.cast_one, one_mul]⟩
    have hsmall : |quantum| < 7 := by norm_num [quantum, maxScale]
    have hrate : quantum ≤ nearest (percent.value / 100) := hgrid.le_nearest hsmall (by linarith)
    linarith [quantum_pos]
  · intro hsmall
    apply le_antisymm
    · rw [← nearest_half_quantum]
      exact nearest_mono (by linarith)
    · exact nearest_nonneg (by linarith)

/-- The deal gets as far as its sale: it is accepted, and its capital, loan and years are computed. -/
def ReachesSale (deal : Deal) (options : CapitalOptions) : Prop :=
  deal.validate = .ok () ∧ ∃ capital loan years, CapitalStack.ofDeal deal options = .ok capital ∧
    LoanTerms.ofLoan capital.debtSources deal.financing.interestRatePct
      deal.financing.amortizationYears = .ok loan ∧
    projectYears deal loan capital.equitySources = .ok years

theorem safelyDivides_validate (deal : Deal) : SafelyDivides deal.validate := by
  unfold Deal.validate
  refine safelyDivides_unless_reject fun _ => ?_
  refine safelyDivides_unless_reject fun _ => ?_
  split
  · exact safelyDivides_reject _
  · exact safelyDivides_pure _

theorem safelyDivides_project_iff (deal : Deal) (options : CapitalOptions) :
    SafelyDivides (project deal options) ↔
      (ReachesSale deal options → 50 * quantum < deal.exit.exitCapRatePct.value) := by
  have hsale : SafelyDivides (project deal options) ↔
      ∀ u, deal.validate = .ok u → ∀ capital, CapitalStack.ofDeal deal options = .ok capital →
        ∀ loan, LoanTerms.ofLoan capital.debtSources deal.financing.interestRatePct
          deal.financing.amortizationYears = .ok loan →
        ∀ years, (projectYears deal loan capital.equitySources : Outcome _) = .ok years →
        ∀ rate, percentToRate deal.exit.exitCapRatePct = .ok rate → rate.value ≠ 0 := by
    unfold project
    rw [(safelyDivides_validate deal).bind_iff]
    refine forall₂_congr fun _ _ => ?_
    rw [(CapitalStack.safelyDivides_ofDeal deal options).bind_iff]
    refine forall₂_congr fun capital _ => ?_
    rw [(LoanTerms.safelyDivides_ofLoan _ _ _).bind_iff]
    refine forall₂_congr fun loan hloan => ?_
    rw [(safelyDivides_projectYears _ _ _).lift.bind_iff]
    refine forall₂_congr fun years _ => ?_
    have hmonths := LoanTerms.months_ne_zero_of_ofLoan hloan
    rw [safelyDivides_bind_iff_left, safelyDivides_lift_iff, safelyDivides_projectExit_iff deal hmonths]
    intro exit
    refine (safelyDivides_returnFlows _ _).lift.bind fun flows _ => ?_
    exact (safelyDivides_metricsOf _ _ _ _ _).lift.bind fun _ _ => safelyDivides_pure _
  obtain ⟨rate, hrate⟩ := percentToRate_isOk deal.exit.exitCapRatePct
  rw [hsale]
  constructor
  · rintro h ⟨hvalid, capital, loan, years, hcapital, hloan, hyears⟩
    have hne := h () hvalid capital hcapital loan hloan years (liftM_eq_ok.mpr hyears) rate hrate
    rwa [Ne, rate_eq_zero_iff hrate (exitCapRate_pos hvalid), Rat.not_le] at hne
  · intro h _ hvalid capital hcapital loan hloan years hyears rate' hrate' hzero
    rw [rate_eq_zero_iff hrate' (exitCapRate_pos hvalid)] at hzero
    have hreaches : ReachesSale deal options :=
      ⟨hvalid, capital, loan, years, hcapital, hloan, liftM_eq_ok.mp hyears⟩
    exact absurd hzero (not_le_of_gt (h hreaches))

/-- The sale is the one place where a pro forma divides by zero, and the exit cap rate the one divisor:
of the positive percentages just those up to fifty quanta are rates of zero. -/
theorem divides_by_zero_iff (assumptions : Assumptions) (options : CapitalOptions) :
    analyse assumptions options = .error (.fault .divisionByZero) ↔
      ReachesSale assumptions.deal options ∧
        assumptions.deal.exit.exitCapRatePct.value ≤ 5 / 10 ^ 27 := by
  have hquanta : 50 * quantum = 5 / 10 ^ 27 := by norm_num [quantum, maxScale]
  have hproject : SafelyDivides (analyse assumptions options) ↔
      SafelyDivides (project assumptions.deal options) :=
    safelyDivides_bind_iff_left fun _ => safelyDivides_pure _
  rw [← not_iff_not, ← hquanta]
  refine hproject.trans ((safelyDivides_project_iff _ _).trans ?_)
  rw [not_and, Rat.not_le]

/-- An office that passes every check and is to be sold at a positive percentage. -/
def givenAway : Assumptions := .ofDeal { office with exit := ⟨.ofScaled 5 27, .two⟩ }

theorem divides_by_zero_at_fifty_quanta :
    analyse givenAway .none = .error (.fault .divisionByZero) := by
  have hfault : (match analyse givenAway .none with
      | .ok _ => false
      | .error failure => decide (failure = .fault .divisionByZero)) = true := by
    decide +kernel
  generalize analyse givenAway .none = outcome at hfault ⊢
  cases outcome with
  | ok analysis => exact nomatch hfault
  | error failure => exact congrArg _ (of_decide_eq_true hfault)

end ProForma

end PropertyFinance
