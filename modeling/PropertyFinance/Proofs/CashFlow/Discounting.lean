import PropertyFinance.CashFlow.PresentValue
import PropertyFinance.Proofs.CashFlow.Completeness

/-! When the present value faults. The discount factor grows in a checked product, so that one beyond
the capacity is a rejection, but each flow is divided by it in a plain quotient. Above -50% the factor
never vanishes; at or below, it is zero from period 94 on. -/

namespace PropertyFinance
open Decimal Yield
set_option autoImplicit false

variable {growth rate flow factor next total sofar : Decimal} {flows before rest : List Decimal}
  {f : Fault} {t : Nat}

/-- The divisor of a period's flow, unless it has grown beyond the capacity. -/
def discountFactor (growth : Decimal) : Nat → Option Decimal
  | 0 => some .one
  | t + 1 => do (← discountFactor growth t).mul? growth

def addTerm (total flow factor : Decimal) : Arith Decimal := do total.add (← flow.div factor)

/-- How a flow's term can fail: the divisor has vanished, the quotient is too large, or the total. -/
inductive TermFaults (total flow factor : Decimal) : Fault → Prop
  | divisor (hzero : factor.value = 0) : TermFaults total flow factor .divisionByZero
  | quotient (hne : factor.value ≠ 0) (hlarge : ¬ Fits (flow.value / factor.value) 0) :
      TermFaults total flow factor .divisionOverflow
  | sum (hne : factor.value ≠ 0) (hfits : Fits (flow.value / factor.value) 0)
      (hlarge : ¬ Fits (total.value + nearest (flow.value / factor.value)) 0) :
      TermFaults total flow factor .additionOverflow

theorem addTerm_eq_error_iff : addTerm total flow factor = .error f ↔ TermFaults total flow factor f := by
  unfold addTerm
  cases hdiv : flow.div factor with
  | error g =>
    rw [error_bind]
    constructor
    · intro h
      cases h
      rcases div_eq_error_iff.mp hdiv with ⟨rfl, hzero⟩ | ⟨rfl, hne, hlarge⟩
      · exact .divisor hzero
      · exact .quotient hne hlarge
    · intro h
      cases h with
      | divisor hzero =>
        rw [← hdiv]
        exact div_eq_error_iff.mpr (Or.inl ⟨rfl, hzero⟩)
      | quotient hne hlarge =>
        rw [← hdiv]
        exact div_eq_error_iff.mpr (Or.inr ⟨rfl, hne, hlarge⟩)
      | sum hne hfits =>
        obtain ⟨q, hq⟩ := div_isOk hne hfits
        exact nomatch hdiv.symm.trans hq
  | ok q =>
    obtain ⟨hne, hvalue⟩ := value_div hdiv
    have hfits : Fits (flow.value / factor.value) 0 := fits_of_value_eq hvalue
    rw [ok_bind, add_eq_error_iff, hvalue]
    constructor
    · rintro ⟨rfl, hlarge⟩
      exact .sum hne hfits hlarge
    · intro h
      cases h with
      | divisor hzero => exact absurd hzero hne
      | quotient _ hlarge => exact absurd hfits hlarge
      | sum _ _ hlarge => exact ⟨rfl, hlarge⟩

/-- One period: the factor in hand is that of the period before. -/
theorem addDiscounted_cons (h : discountFactor growth (t - 1) = some factor) :
    addDiscounted growth (flow :: rest) t factor total =
      match discountFactor growth t with
      | none => reject (.divisionByZero ("NPV discount factor overflow at period " ++ toString t))
      | some next => (do addDiscounted growth rest (t + 1) next (← addTerm total flow next)) := by
  have hterm (next : Decimal) :
      ((do
        let total ← total.add (← flow.div next)
        addDiscounted growth rest (t + 1) next total) : Outcome Decimal) =
      (do addDiscounted growth rest (t + 1) next (← addTerm total flow next)) := by
    unfold addTerm
    cases flow.div next with
    | error g => rfl
    | ok q => rfl
  cases t with
  | zero =>
    cases h
    exact hterm .one
  | succ t =>
    have hnext : discountFactor growth (t + 1) = factor.mul? growth := by
      rw [discountFactor, ← Nat.add_sub_cancel (n := t) (m := 1), h]
      rfl
    rw [hnext, addDiscounted, if_neg (Nat.succ_ne_zero t)]
    cases factor.mul? growth with
    | none => rfl
    | some next => exact hterm next

theorem exists_split_cons {α : Type} {first : α} {rest : List α} {P : List α → α → Prop} :
    (∃ before x after, first :: rest = before ++ x :: after ∧ P before x) ↔
      P [] first ∨ ∃ before x after, rest = before ++ x :: after ∧ P (first :: before) x := by
  constructor
  · rintro ⟨before, x, after, hsplit, h⟩
    cases before with
    | nil =>
      cases hsplit
      exact Or.inl h
    | cons head before =>
      cases hsplit
      exact Or.inr ⟨before, x, after, rfl, h⟩
  · rintro (h | ⟨before, x, after, rfl, h⟩)
    · exact ⟨[], first, rest, rfl, h⟩
    · exact ⟨first :: before, x, after, rfl, h⟩

/-- A fault is that of one flow's term, on top of what the flows before it amount to. -/
theorem addDiscounted_faults_iff (h : discountFactor growth (t - 1) = some factor) :
    addDiscounted growth flows t factor total = .error (.fault f) ↔
      ∃ before flow after, flows = before ++ flow :: after ∧
        ∃ sofar next, addDiscounted growth before t factor total = .ok sofar ∧
          discountFactor growth (t + before.length) = some next ∧ TermFaults sofar flow next f := by
  -- over the flows; either the first term faults or, from its total on, a term of the rest
  induction flows generalizing t factor total with
  | nil =>
    constructor
    · intro hf
      exact nomatch hf
    · rintro ⟨before, flow, after, hsplit, -⟩
      cases before <;> exact nomatch hsplit
  | cons flow rest ih =>
    rw [exists_split_cons]
    simp only [addDiscounted_cons h, List.length_cons, ← add_assoc, add_right_comm t _ 1]
    cases hnext : discountFactor growth t with
    | none =>
      constructor
      · intro hf
        exact nomatch hf
      · rintro (⟨sofar, next, -, hfactor, -⟩ | ⟨before, x, after, -, sofar, next, hsofar, -⟩)
        · exact nomatch hfactor
        · exact nomatch hsofar
    | some next =>
      dsimp only
      cases hterm : addTerm total flow next with
      | error g =>
        constructor
        · intro hf
          cases hf
          exact Or.inl ⟨total, next, rfl, rfl, addTerm_eq_error_iff.mp hterm⟩
        · rintro (⟨sofar, next', hsofar, hfactor, hfaults⟩ | ⟨before, x, after, -, sofar, next', hsofar, -⟩)
          · cases hsofar
            cases hfactor
            cases hterm.symm.trans (addTerm_eq_error_iff.mpr hfaults)
            rfl
          · exact nomatch hsofar
      | ok sum =>
        refine (ih (t := t + 1) hnext).trans ⟨Or.inr, ?_⟩
        rintro (⟨sofar, next', hsofar, hfactor, hfaults⟩ | hlater)
        · cases hsofar
          cases hfactor
          exact nomatch hterm.symm.trans (addTerm_eq_error_iff.mpr hfaults)
        · exact hlater

section Factor

theorem discountFactor_succ (h : discountFactor growth (t + 1) = some next) :
    ∃ factor, discountFactor growth t = some factor ∧
      next.value = nearest (factor.value * growth.value) := by
  obtain ⟨factor, hfactor, hnext⟩ := Option.bind_eq_some_iff.mp h
  exact ⟨factor, hfactor, value_mul? hnext⟩

theorem one_le_discountFactor (hgrowth : 1 ≤ growth.value)
    (h : discountFactor growth t = some factor) : 1 ≤ factor.value := by
  induction t generalizing factor with
  | zero =>
    cases h
    exact value_one.ge
  | succ t ih =>
    obtain ⟨before, hbefore, hvalue⟩ := discountFactor_succ h
    rw [hvalue, ← value_one]
    apply value_le_nearest
    rw [value_one]
    exact one_le_mul_of_one_le_of_one_le (ih hbefore) hgrowth

/-- More than half of a quantum is rounded to a quantum again. -/
theorem quantum_le_discountFactor (hgrowth : 1 / 2 < growth.value)
    (h : discountFactor growth t = some factor) : quantum ≤ factor.value := by
  induction t generalizing factor with
  | zero =>
    cases h
    rw [value_one, quantum_eq]
    norm_num
  | succ t ih =>
    obtain ⟨before, hbefore, hvalue⟩ := discountFactor_succ h
    have hpos := quantum_pos
    have hgrid : OnGrid quantum := ⟨1, by norm_num⟩
    rw [hvalue]
    apply hgrid.le_nearest
    · rw [quantum_eq]
      norm_num
    · calc quantum - quantum / 2 = quantum * (1 / 2) := by ring
        _ < quantum * growth.value := mul_lt_mul_of_pos_left hgrowth hpos
        _ ≤ before.value * growth.value := mul_le_mul_of_nonneg_right (ih hbefore) (by linarith)

/-- Growth below one keeps every factor, and a smaller growth gives the smaller ones. -/
theorem discountFactor_le {g k : Decimal} (hgrowth : 0 ≤ g.value) (hle : g.value ≤ k.value)
    (hone : k.value ≤ 1) (t : Nat) :
    ∃ a b, discountFactor g t = some a ∧ discountFactor k t = some b ∧
      0 ≤ a.value ∧ a.value ≤ b.value ∧ b.value ≤ 1 := by
  induction t with
  | zero =>
    refine ⟨.one, .one, rfl, rfl, ?_⟩
    rw [value_one]
    norm_num
  | succ t ih =>
    obtain ⟨a, b, ha, hb, ha₀, hab, hb₁⟩ := ih
    obtain ⟨a', ha', hvalue, -⟩ := mul?_unit_isSome a hgrowth (hle.trans hone) (by
      rw [abs_of_nonneg ha₀]
      linarith)
    obtain ⟨b', hb', hvalue', hle'⟩ := mul?_unit_isSome b (hgrowth.trans hle) hone (by
      rw [abs_of_nonneg (ha₀.trans hab)]
      linarith)
    have hproduct : a.value * g.value ≤ b.value * k.value :=
      mul_le_mul hab hle hgrowth (ha₀.trans hab)
    have ha'₀ : 0 ≤ a'.value := hvalue ▸ nearest_nonneg (mul_nonneg ha₀ hgrowth)
    have hab' : a'.value ≤ b'.value := by
      rw [hvalue, hvalue']
      exact nearest_mono hproduct
    rw [abs_of_nonneg (ha'₀.trans hab'), abs_of_nonneg (ha₀.trans hab)] at hle'
    refine ⟨a', b', ?_, ?_, ha'₀, hab', hle'.trans hb₁⟩
    · rw [discountFactor, ha]
      exact ha'
    · rw [discountFactor, hb]
      exact hb'

theorem discountFactor_half : (discountFactor (.ofScaled 5 1) 94).any isZero = true := by
  decide +kernel

/-- A rate of -50% or less discounts by zero from period 94 on. -/
theorem discountFactor_vanishes {g : Decimal} (hgrowth : 0 ≤ g.value) (hhalf : g.value ≤ 1 / 2) :
    ∃ factor, discountFactor g 94 = some factor ∧ factor.value = 0 := by
  have hvalue : (ofScaled 5 1).value = 1 / 2 := by
    rw [value_ofScaled (by decide) (by decide)]
    norm_num
  obtain ⟨a, b, ha, hb, ha₀, hab, -⟩ := discountFactor_le (k := .ofScaled 5 1) hgrowth
    (hvalue ▸ hhalf) (by rw [hvalue]; norm_num) 94
  have hzero := discountFactor_half
  rw [hb] at hzero
  exact ⟨a, ha, le_antisymm (hab.trans (isZero_iff.mp hzero).le) ha₀⟩

end Factor

section Runs

/-- A flow that meets a vanished divisor makes the sum fault, unless it faults before. -/
theorem addDiscounted_faults_of_vanished (hsome : ∀ k, ∃ d, discountFactor growth k = some d)
    {k : Nat} (hk : k < flows.length) (hfactor : discountFactor growth (t - 1) = some factor)
    (hnext : discountFactor growth (t + k) = some next) (hzero : next.value = 0) :
    ∃ f, addDiscounted growth flows t factor total = .error (.fault f) := by
  induction flows generalizing t factor total k with
  | nil => exact absurd hk (Nat.not_lt_zero k)
  | cons flow rest ih =>
    obtain ⟨d, hd⟩ := hsome t
    rw [addDiscounted_cons hfactor, hd]
    dsimp only
    cases hterm : addTerm total flow d with
    | error f => exact ⟨f, rfl⟩
    | ok sum =>
      obtain ⟨q, hq, -⟩ := bind_eq_ok.mp hterm
      cases k with
      | zero =>
        cases hd.symm.trans hnext
        exact absurd hzero (value_div hq).1
      | succ k =>
        refine ih (t := t + 1) (k := k) (Nat.lt_of_succ_lt_succ hk) hd ?_
        rwa [Nat.add_right_comm]

theorem addDiscounted_spared (hgrowth : 1 ≤ growth.value) (hroom : Room total flows)
    (h : discountFactor growth (t - 1) = some factor) :
    addDiscounted growth flows t factor total ≠ .error (.fault f) := by
  -- a factor of at least one enlarges no flow, so that the room for the flows is kept
  induction flows generalizing t factor total with
  | nil => exact nofun
  | cons flow rest ih =>
    rw [addDiscounted_cons h]
    cases hnext : discountFactor growth t with
    | none => exact nofun
    | some next =>
      have hone : 1 ≤ next.value := one_le_discountFactor hgrowth hnext
      have hle : |flow.value / next.value| ≤ |flow.value| := by
        rw [abs_div, abs_of_pos (show 0 < next.value by linarith)]
        exact div_le_self (abs_nonneg _) hone
      have hsum := hroom.sum_le
      obtain ⟨q, hq⟩ := div_isOk (a := flow) (b := next) (by linarith)
        (fits_of_abs_le (by linarith [abs_nonneg total.value]))
      have hqle : |q.value| ≤ |flow.value| := by
        rw [(value_div hq).2, abs_nearest, ← value_abs flow]
        exact nearest_le_value (by rwa [value_abs])
      obtain ⟨sum, hadd, hrest⟩ := hroom.add?_isSome (le_refl _) hqle
      have hterm : addTerm total flow next = .ok sum :=
        bind_eq_ok.mpr ⟨q, hq, orFault_eq_ok.mpr hadd⟩
      dsimp only
      rw [hterm]
      exact ih (t := t + 1) hrest hnext

end Runs

theorem presentValue_of_gt (h : -1 < rate.value) : presentValue rate flows =
    (do addDiscounted (← Decimal.one.add rate) flows 0 .one .zero : Outcome Decimal) := by
  unfold presentValue
  rw [if_neg]
  rw [le_iff_value_le, value_negate, value_one]
  exact Rat.not_le.mpr h

theorem lt_of_presentValue_fault (h : presentValue rate flows = .error (.fault f)) :
    -1 < rate.value := by
  unfold presentValue at h
  split at h
  case isTrue => exact nomatch h
  case isFalse hle =>
    rw [le_iff_value_le, value_negate, value_one] at hle
    exact Rat.not_le.mp hle

/-- The growth does not fit, or the term of some flow, on top of the present value of those before. -/
def FaultSource (rate : Decimal) (flows : List Decimal) (f : Fault) : Prop :=
  -1 < rate.value ∧
    ((f = .additionOverflow ∧ ¬ Fits (1 + rate.value) 0) ∨
      ∃ growth, Decimal.one.add rate = .ok growth ∧
        ∃ before flow after, flows = before ++ flow :: after ∧
          ∃ sofar factor, presentValue rate before = .ok sofar ∧
            discountFactor growth before.length = some factor ∧ TermFaults sofar flow factor f)

theorem presentValue_fault_iff :
    presentValue rate flows = .error (.fault f) ↔ FaultSource rate flows f := by
  rw [FaultSource, ← and_iff_right_of_imp lt_of_presentValue_fault]
  refine and_congr_right fun hrate => ?_
  simp only [presentValue_of_gt hrate]
  cases hgrowth : Decimal.one.add rate with
  | error g =>
    obtain ⟨rfl, hlarge⟩ := add_eq_error_iff.mp hgrowth
    rw [value_one] at hlarge
    constructor
    · intro h
      cases h
      exact Or.inl ⟨rfl, hlarge⟩
    · rintro (⟨rfl, -⟩ | ⟨growth, hok, -⟩)
      · rfl
      · exact nomatch hok
  | ok growth =>
    refine (addDiscounted_faults_iff (t := 0) rfl).trans ?_
    simp only [zero_add]
    constructor
    · intro h
      exact Or.inr ⟨growth, rfl, h⟩
    · rintro (⟨-, hlarge⟩ | ⟨growth', hok, h⟩)
      · rw [← value_one] at hlarge
        exact absurd (fits_of_value_eq (value_add hgrowth)) hlarge
      · cases hok
        exact h

theorem growth_value (hrate : rate.value ≤ 10 ^ 28) (hlow : -1 < rate.value) :
    ∃ growth, Decimal.one.add rate = .ok growth ∧ growth.value = nearest (1 + rate.value) := by
  obtain ⟨growth, hgrowth⟩ : ∃ growth, Decimal.one.add rate = .ok growth := by
    apply add_isOk
    rw [Fits, value_one, abs_of_pos (by linarith)]
    norm_num [capacity] at hrate ⊢
    linarith
  exact ⟨growth, hgrowth, value_one ▸ value_add hgrowth⟩

theorem presentValue_divisor_ne_zero (h : -1 / 2 < rate.value) :
    presentValue rate flows ≠ .error (.fault .divisionByZero) := by
  intro hfault
  obtain ⟨-, ⟨hf, -⟩ | ⟨growth, hgrowth, before, flow, after, -, sofar, factor, -, hfactor, hterm⟩⟩ :=
    presentValue_fault_iff.mp hfault
  · exact nomatch hf
  · have hhalf : 1 / 2 < growth.value := by
      rw [value_add hgrowth, value_one]
      by_cases hsmall : rate.value < 0
      · rw [(growth_grid rate).nearest_eq (abs_lt.mpr ⟨by linarith, by linarith⟩)]
        linarith
      -- a large growth may be rounded, but not below one
      · refine lt_of_lt_of_le (by norm_num : (1 / 2 : ℚ) < Decimal.one.value) (value_le_nearest ?_)
        rw [value_one]
        linarith
    have hpos := quantum_le_discountFactor hhalf hfactor
    cases hterm with
    | divisor hzero => linarith [quantum_pos]

theorem presentValue_long_faults (hlow : -1 < rate.value) (hhigh : rate.value ≤ -1 / 2)
    (hlong : 95 ≤ flows.length) : ∃ f, presentValue rate flows = .error (.fault f) := by
  obtain ⟨growth, hgrowth, hvalue⟩ := growth_value (by linarith) hlow
  rw [(growth_grid rate).nearest_eq (abs_lt.mpr ⟨by linarith, by linarith⟩)] at hvalue
  obtain ⟨factor, hfactor, hzero⟩ := discountFactor_vanishes (g := growth) (by linarith)
    (by linarith)
  rw [presentValue_of_gt hlow, hgrowth]
  refine addDiscounted_faults_of_vanished (t := 0) (k := 94) ?_ (by omega) rfl
    hfactor hzero
  intro k
  obtain ⟨a, -, ha, -⟩ := discountFactor_le (g := growth) (k := growth) (by linarith)
    le_rfl (by linarith) k
  exact ⟨a, ha⟩

theorem presentValue_ample (hlow : 0 ≤ rate.value) (hhigh : rate.value ≤ 10 ^ 28)
    (hlen : flows.length < 2 ^ 32) (hsize : magnitude flows ≤ 10 ^ 27) :
    presentValue rate flows ≠ .error (.fault f) := by
  obtain ⟨growth, hgrowth, hvalue⟩ := growth_value hhigh (by linarith)
  have hone : 1 ≤ growth.value := by
    rw [hvalue, ← value_one]
    apply value_le_nearest
    linarith [value_one]
  rw [presentValue_of_gt (by linarith), hgrowth]
  exact addDiscounted_spared hone (room_start hlen hsize) rfl

/-- When the present value faults: exactly, and by the sizes of the rate and the flows. -/
structure FaultsOn (rate : Decimal) (flows : List Decimal) : Prop where
  fault_iff : ∀ f, presentValue rate flows = .error (.fault f) ↔ FaultSource rate flows f
  /-- Above -50% no divisor vanishes, however long the series. -/
  divisor_ne_zero : -1 / 2 < rate.value →
    presentValue rate flows ≠ .error (.fault .divisionByZero)
  /-- Down from -50% no series of 95 flows has a present value or a rejection. -/
  long_faults : -1 < rate.value → rate.value ≤ -1 / 2 → 95 ≤ flows.length →
    ∃ f, presentValue rate flows = .error (.fault f)
  /-- No rate from zero up faults on flows that are not too many or too large. -/
  ample : 0 ≤ rate.value → rate.value ≤ 10 ^ 28 → flows.length < 2 ^ 32 →
    magnitude flows ≤ 10 ^ 27 → ∀ f, presentValue rate flows ≠ .error (.fault f)

/-- The present value is total but for the overflows of plain operations; which of them can happen
depends on the rate, on the number of flows and on their sizes. -/
theorem presentValue_faults (rate : Decimal) (flows : List Decimal) : FaultsOn rate flows where
  fault_iff _ := presentValue_fault_iff
  divisor_ne_zero := presentValue_divisor_ne_zero
  long_faults := presentValue_long_faults
  ample hlow hhigh hlen hsize _ := presentValue_ample hlow hhigh hlen hsize

/-- The bound on the length is sharp: 94 flows at -50% have a present value. -/
example : presentValue (.ofScaled (-5) 1) (List.replicate 94 .zero) = .ok .zero := by
  decide +kernel

/-- Just above -100% the divisor vanishes in the third year already. -/
theorem presentValue_faults_third_year :
    -1 < (ofScaled (-999999999999) 12).value ∧
      ¬ ((∃ v, presentValue (.ofScaled (-999999999999) 12)
          [.ofScaled (-1000) 0, .ofScaled 300 0, .ofScaled 400 0, .ofScaled 500 0] = .ok v) ∨
        ∃ cause, presentValue (.ofScaled (-999999999999) 12)
          [.ofScaled (-1000) 0, .ofScaled 300 0, .ofScaled 400 0, .ofScaled 500 0]
            = .error (.rejected cause)) := by
  have hfault : presentValue (.ofScaled (-999999999999) 12)
      [.ofScaled (-1000) 0, .ofScaled 300 0, .ofScaled 400 0, .ofScaled 500 0]
        = .error (.fault .divisionByZero) := by
    decide +kernel
  constructor
  · rw [value_ofScaled (by decide) (by decide)]
    norm_num
  · rintro (⟨v, hv⟩ | ⟨cause, hcause⟩)
    · exact nomatch hfault.symm.trans hv
    · exact nomatch hfault.symm.trans hcause

end PropertyFinance
