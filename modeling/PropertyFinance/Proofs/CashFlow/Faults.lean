import PropertyFinance.Proofs.CashFlow.Bisection

/-! The one place where the solver faults. Every sum, product and quotient is checked, and the rates
are clamped, so the plain operations on them fit; only the step of Newton's method, taken off the rate
before it is clamped, can be as large as any decimal. -/

namespace PropertyFinance.Yield
open Decimal
set_option autoImplicit false

variable {flows : List Decimal} {tolerance rate : Decimal} {left done : Nat} {f : Fault}

/-- So many steps of Newton's method lead from one rate to another. -/
inductive Visits (flows : List Decimal) (tolerance : Decimal) : Decimal → Nat → Decimal → Prop
  | refl (rate : Decimal) : Visits flows tolerance rate 0 rate
  | cons {rate step next last : Decimal} {n : Nat}
      (hstep : newtonStep flows tolerance rate = some step) (hnext : rate.sub step = .ok next)
      (hrest : Visits flows tolerance (next.clamp floorRate ceilingRate) n last) :
      Visits flows tolerance rate (n + 1) last

/-- The step that is due at a rate cannot be taken off it. -/
def Overshoots (flows : List Decimal) (tolerance rate : Decimal) : Prop :=
  ∃ step, newtonStep flows tolerance rate = some step ∧ ¬ Fits (rate.value - step.value) 0

/-- A step too large for a clamped rate is next to the largest decimal. -/
theorem Overshoots.step_ge (h : Overshoots flows tolerance rate) (hlow : -99 / 100 ≤ rate.value)
    (hhigh : rate.value ≤ 100) :
    ∃ step, newtonStep flows tolerance rate = some step ∧ (capacity : ℚ) - 101 ≤ |step.value| := by
  obtain ⟨step, hstep, hfits⟩ := h
  refine ⟨step, hstep, ?_⟩
  rw [Fits, pow_zero, mul_one, Rat.not_lt] at hfits
  have hrate : |rate.value| ≤ 100 := abs_le.mpr ⟨by linarith, hhigh⟩
  have htri := abs_sub rate.value step.value
  linarith

/-- Newton's method faults just when it comes to a rate at which it overshoots. -/
theorem newton_faults_iff (hlow : -99 / 100 ≤ rate.value) (hhigh : rate.value ≤ 100) :
    newton flows tolerance left done rate = .error f ↔
      f = .subtractionOverflow ∧
        ∃ n < left, ∃ last, Visits flows tolerance rate n last ∧
          Overshoots flows tolerance last := by
  induction left generalizing done rate with
  | zero =>
    constructor
    · intro h
      exact nomatch h
    · rintro ⟨-, n, hn, -⟩
      exact absurd hn (Nat.not_lt_zero n)
  | succ left ih =>
    have hends (hnone : newtonStep flows tolerance rate = none) :
        ¬ ∃ n < left + 1, ∃ last, Visits flows tolerance rate n last ∧
          Overshoots flows tolerance last := by
      rintro ⟨n, -, last, hvisits, step, hstep, -⟩
      cases hvisits with
      | refl => exact nomatch hnone.symm.trans hstep
      | cons hfirst => exact nomatch hnone.symm.trans hfirst
    rcases newton_succ flows tolerance left done hlow hhigh with
      ⟨hnone, -, hnewton⟩ | ⟨hnone, hnewton⟩ | ⟨step, hstep, hnewton⟩
    · rw [hnewton]
      exact ⟨fun h => (nomatch h), fun h => absurd h.2 (hends hnone)⟩
    · rw [hnewton]
      exact ⟨fun h => (nomatch h), fun h => absurd h.2 (hends hnone)⟩
    · rw [hnewton]
      cases hsub : rate.sub step with
      | error g =>
        rw [error_bind]
        obtain ⟨rfl, hfits⟩ := sub_eq_error_iff.mp hsub
        constructor
        · intro h
          cases h
          exact ⟨rfl, 0, Nat.succ_pos left, rate, .refl rate, step, hstep, hfits⟩
        · rintro ⟨rfl, -⟩
          rfl
      | ok next =>
        rw [ok_bind, ih (clamp_ge next) (clamp_le next)]
        refine and_congr_right fun _ => ?_
        constructor
        · rintro ⟨n, hn, last, hvisits, hover⟩
          exact ⟨n + 1, Nat.succ_lt_succ hn, last, .cons hstep hsub hvisits, hover⟩
        · rintro ⟨n, hn, last, hvisits, hover⟩
          cases hvisits with
          | refl =>
            obtain ⟨step', hstep', hfits⟩ := hover
            cases hstep.symm.trans hstep'
            exact nomatch hsub.symm.trans (sub_eq_error_iff.mpr ⟨rfl, hfits⟩)
          | cons hfirst hnext hrest =>
            cases hstep.symm.trans hfirst
            cases hsub.symm.trans hnext
            exact ⟨_, Nat.lt_of_succ_lt_succ hn, last, hrest, hover⟩

theorem bisect_isOk (flows : List Decimal) (tolerance : Decimal) :
    ∃ found, bisect flows tolerance = .ok found := by
  rcases bisect_ends flows tolerance with ⟨s, hs, -⟩ | ⟨hnone, -⟩
  · exact ⟨some s, hs⟩
  · exact ⟨none, hnone⟩

/-- The solver returns a value unless Newton's method, within its steps, comes to a rate at which the
step is too large to be taken off. Then it faults, whatever bisection would have found. -/
theorem solve_faults_iff (flows : List Decimal) (options : YieldOptions) (f : Fault) :
    solve flows options = .error f ↔
      f = .subtractionOverflow ∧ changesSign flows = true ∧
        ∃ n < options.maxIterations.toNat, ∃ rate,
          Visits flows options.tolerance (options.guess.clamp floorRate ceilingRate) n rate ∧
            Overshoots flows options.tolerance rate := by
  unfold solve
  split
  case isFalse hsign =>
    constructor
    · intro h
      exact nomatch h
    · rintro ⟨-, hsign', -⟩
      exact absurd hsign' hsign
  case isTrue hsign =>
    dsimp only
    have hnewton : newton flows options.tolerance options.maxIterations.toNat 0
        (options.guess.clamp floorRate ceilingRate) = .error f ↔ _ :=
      newton_faults_iff (clamp_ge options.guess) (clamp_le options.guess)
    rw [and_iff_right hsign, ← hnewton]
    cases hdescent : newton flows options.tolerance options.maxIterations.toNat 0
        (options.guess.clamp floorRate ceilingRate) with
    | error g => rw [error_bind, Except.error.injEq, Except.error.injEq]
    | ok descent =>
      constructor
      · intro h
        rw [ok_bind] at h
        cases descent with
        | root rate iterations => exact nomatch h
        | stalled rate iterations =>
          obtain ⟨found, hfound⟩ := bisect_isOk flows options.tolerance
          dsimp only at h
          rw [hfound, ok_bind] at h
          cases found with
          | none => exact nomatch h
          | some s => exact nomatch h
      · intro h
        exact nomatch h

/-- A present value next to the largest decimal, on a slope of -1, gives such a step. -/
theorem solve_faults_next_to_capacity :
    ¬ ∃ found, solve [.ofScaled (capacity - 1) 0, .ofScaled (-4) 0, .ofScaled 8 0]
      ⟨.one, 100, .ofScaled 1 4⟩ = .ok found := by
  rintro ⟨found, hfound⟩
  have hfault : solve [.ofScaled (capacity - 1) 0, .ofScaled (-4) 0, .ofScaled 8 0]
      ⟨.one, 100, .ofScaled 1 4⟩ = .error .subtractionOverflow := by
    decide +kernel
  exact nomatch hfault.symm.trans hfound

end PropertyFinance.Yield
