import PropertyFinance.Proofs.Decimal.ExactSum
import PropertyFinance.Proofs.Decimal.Outcomes
import PropertyFinance.Proofs.Stress.WeightedSum
import PropertyFinance.Stress

/-! A weighted return is an expectation: between the least and the greatest return and independent of the
order of the scenarios, but for the rounding. It is missing only where every scenario lacks it, and fails
to exist only next to the capacity of a decimal. -/

namespace PropertyFinance.Stress
open Decimal
set_option autoImplicit false

inductive ReturnMetric
  | leveredIrr
  | equityMultiple

def ReturnMetric.ofEntry : ReturnMetric → ScenarioEntry → Option Decimal
  | .leveredIrr => ScenarioEntry.leveredIrr
  | .equityMultiple => ScenarioEntry.equityMultiple

def ReturnMetric.ofWeighted : ReturnMetric → WeightedMetrics → Option Decimal
  | .leveredIrr => WeightedMetrics.leveredIrr
  | .equityMultiple => WeightedMetrics.equityMultiple

section Expected
variable {value : ScenarioEntry → Option Decimal} {entries : List ScenarioEntry} {low high : ℚ}

/-- A value that is missing counts as nothing. -/
def amount (x : Option Decimal) : ℚ := x.elim 0 Decimal.value

@[simp] theorem amount_none : amount none = 0 := rfl

@[simp] theorem amount_some (x : Decimal) : amount (some x) = x.value := rfl

def probability (entry : ScenarioEntry) : ℚ := entry.probabilityPct.value / 100

def totalProbability (entries : List ScenarioEntry) : ℚ := (entries.map probability).sum

def expected (value : ScenarioEntry → Option Decimal) (entries : List ScenarioEntry) : ℚ :=
  (entries.map fun entry => probability entry * amount (value entry)).sum

theorem totalProbability_cons (entry : ScenarioEntry) (entries : List ScenarioEntry) :
    totalProbability (entry :: entries) = probability entry + totalProbability entries :=
  List.sum_cons

theorem expected_cons (entry : ScenarioEntry) (entries : List ScenarioEntry) :
    expected value (entry :: entries)
      = probability entry * amount (value entry) + expected value entries :=
  List.sum_cons

theorem expected_perm {entries' : List ScenarioEntry} (h : entries.Perm entries') :
    expected value entries = expected value entries' := (h.map _).sum_eq

theorem totalProbability_eq (entries : List ScenarioEntry) :
    totalProbability entries = exactSum (entries.map ScenarioEntry.probabilityPct) / 100 := by
  induction entries with
  | nil => simp [totalProbability, exactSum]
  | cons entry rest ih =>
    rw [totalProbability_cons, ih, List.map_cons, exactSum_cons, probability, add_div]

theorem totalProbability_nonneg (hprob : ∀ e ∈ entries, 0 ≤ probability e) :
    0 ≤ totalProbability entries := by
  apply List.sum_nonneg
  simpa [List.forall_mem_map] using hprob

/-- The exact expectation is between the least and the greatest value. -/
theorem expected_mem (hprob : ∀ e ∈ entries, 0 ≤ probability e)
    (hvalues : ∀ e ∈ entries, low ≤ amount (value e) ∧ amount (value e) ≤ high) :
    low * totalProbability entries ≤ expected value entries ∧
      expected value entries ≤ high * totalProbability entries := by
  induction entries with
  | nil => simp [totalProbability, expected]
  | cons entry rest ih =>
    obtain ⟨hp, hprob⟩ := List.forall_mem_cons.mp hprob
    obtain ⟨⟨hlow, hhigh⟩, hvalues⟩ := List.forall_mem_cons.mp hvalues
    obtain ⟨ihlow, ihhigh⟩ := ih hprob hvalues
    have hlow' := mul_le_mul_of_nonneg_left hlow hp
    have hhigh' := mul_le_mul_of_nonneg_left hhigh hp
    rw [totalProbability_cons, expected_cons]
    constructor <;> linarith

end Expected

section Weighing
variable {value : ScenarioEntry → Option Decimal} {entry : ScenarioEntry}
  {rest : List ScenarioEntry} {total : Option Decimal} {q : Option Decimal → Prop}

/-- What one entry does to the sum. -/
theorem gives_weigh_cons
    (hnone : value entry = none → Gives (weigh value rest total) q)
    (hsome : ∀ v share next : Decimal, value entry = some v →
      share.value = nearest (nearest (probability entry) * v.value) →
      next.value = nearest (amount total + share.value) →
      Gives (weigh value rest (some next)) q) :
    Gives (weigh value (entry :: rest) total) q := by
  rw [weigh]
  cases hvalue : value entry with
  | none => exact hnone hvalue
  | some v =>
    apply (gives_div entry.probabilityPct (b := .hundred) (by norm_num [value_hundred])).bind
    intro rate hrate
    rw [value_hundred] at hrate
    apply (gives_mul rate v).bind
    intro share hshare
    rw [hrate] at hshare
    cases total with
    | none =>
      apply hsome v share share hvalue hshare
      rw [amount_none, zero_add, nearest_value]
    | some t =>
      apply (gives_add t share).bind
      intro next hnext
      exact hsome v share next hvalue hshare hnext

theorem gives_weigh_none_iff (value : ScenarioEntry → Option Decimal) (entries : List ScenarioEntry)
    (total : Option Decimal) :
    Gives (weigh value entries total) fun out =>
      out = none ↔ total = none ∧ ∀ e ∈ entries, value e = none := by
  induction entries generalizing total with
  | nil => exact gives_pure (by simp)
  | cons entry rest ih =>
    apply gives_weigh_cons
    · intro hvalue
      apply (ih total).mono
      intro out hout
      rw [hout, List.forall_mem_cons, and_iff_right hvalue]
    · intro v share next hvalue _ _
      apply (ih (some next)).mono
      intro out hout
      rw [hout, List.forall_mem_cons, hvalue]
      simp

end Weighing

section Runs
variable {value : ScenarioEntry → Option Decimal} {entries : List ScenarioEntry}
  {total : Option Decimal} {M W x : ℚ} {k : Nat}

/-- The metric of each entry that has one is at most `M` in size. -/
def Bounded (value : ScenarioEntry → Option Decimal) (entries : List ScenarioEntry) (M : ℚ) : Prop :=
  ∀ e ∈ entries, ∀ v, value e = some v → |v.value| ≤ M

theorem onGrid_amount (total : Option Decimal) : OnGrid (amount total) := by
  cases total with
  | none => exact ⟨0, by simp⟩
  | some t => exact onGrid_value t

theorem nearest_amount (total : Option Decimal) : nearest (amount total) = amount total := by
  cases total with
  | none => exact nearest_zero
  | some t => exact nearest_value t

theorem near_start (M : ℚ) : Near M 0 0 (amount none) 0 := by
  refine ⟨le_refl _, ?_, ?_⟩ <;> simp

theorem gives_near_weigh (hprob : ∀ e ∈ entries, 0 ≤ probability e) (hM : 0 ≤ M)
    (hvalues : Bounded value entries M) (hroom : W + totalProbability entries ≤ 1)
    (hnear : Near M W k (amount total) x) :
    Gives (weigh value entries total) fun out =>
      Near M (W + totalProbability entries) (k + entries.length) (amount out)
        (x + expected value entries) := by
  induction entries generalizing total W x k with
  | nil =>
    apply gives_pure
    simpa [totalProbability, expected] using hnear
  | cons entry rest ih =>
    obtain ⟨hp, hprob⟩ := List.forall_mem_cons.mp hprob
    obtain ⟨hvalue, hvalues⟩ := List.forall_mem_cons.mp hvalues
    rw [totalProbability_cons, ← add_assoc] at hroom
    have hsum : W + probability entry ≤ 1 := by linarith [totalProbability_nonneg hprob]
    rw [totalProbability_cons, expected_cons, ← add_assoc, ← add_assoc, List.length_cons,
      add_comm rest.length, ← add_assoc]
    apply gives_weigh_cons
    · intro hnone
      rw [hnone, amount_none, mul_zero, add_zero]
      exact ih hprob hvalues hroom (hnear.skip hM hp hsum)
    · intro v share next hv hshare hnext
      apply ih hprob hvalues hroom
      rw [hv, amount_some, amount_some, hnext]
      exact hnear.add (onGrid_amount _) (nearest_amount _) hp hsum (hvalue v hv) hshare

theorem share_isOk {entry : ScenarioEntry} {v : Decimal} (hp : 0 ≤ probability entry)
    (hp₁ : probability entry ≤ 1) :
    ∃ rate share, percentToRate entry.probabilityPct = .ok rate ∧ rate.mul v = .ok share ∧
      share.value = nearest (nearest (probability entry) * v.value) := by
  obtain ⟨rate, hrate⟩ := percentToRate_isOk entry.probabilityPct
  have hvalue := value_percentToRate hrate
  rw [← probability] at hvalue
  have hrate₀ : 0 ≤ rate.value := hvalue ▸ nearest_nonneg hp
  have hrate₁ : rate.value ≤ 1 := hvalue ▸ nearest_le_one hp₁
  have hfits : Fits (rate.value * v.value) 0 := by
    apply Fits.of_abs_le (fits_of_value_eq (nearest_value v).symm)
    rw [abs_mul, abs_of_nonneg hrate₀]
    exact mul_le_of_le_one_left (abs_nonneg _) hrate₁
  obtain ⟨share, hshare⟩ := mul_isOk hfits
  exact ⟨rate, share, hrate, hshare, by rw [value_mul hshare, hvalue]⟩

/-- The sum has a result while the values leave room for the error. -/
theorem weigh_isOk (hprob : ∀ e ∈ entries, 0 ≤ probability e) (hM : 0 ≤ M)
    (hvalues : Bounded value entries M) (hroom : W + totalProbability entries ≤ 1)
    (hnear : Near M W k (amount total) x)
    (hfits : M + (k + entries.length) / 10 ^ 27 * (1 + M) ≤ capacity - 1) :
    ∃ out, weigh value entries total = .ok out := by
  induction entries generalizing total W x k with
  | nil => exact ⟨total, rfl⟩
  | cons entry rest ih =>
    obtain ⟨hp, hprob⟩ := List.forall_mem_cons.mp hprob
    obtain ⟨hvalue, hvalues⟩ := List.forall_mem_cons.mp hvalues
    have hrest := totalProbability_nonneg hprob
    have hlater : (0 : ℚ) ≤ rest.length / 10 ^ 27 * (1 + M) :=
      mul_nonneg (div_nonneg (Nat.cast_nonneg _) (by norm_num)) (by linarith)
    rw [totalProbability_cons, ← add_assoc] at hroom
    have hfits' : M + ((k + 1 : ℕ) + rest.length) / 10 ^ 27 * (1 + M) ≤ capacity - 1 := by
      rw [List.length_cons] at hfits
      push_cast at hfits ⊢
      linarith
    rw [weigh]
    cases hv : value entry with
    | none => exact ih hprob hvalues hroom (hnear.skip hM hp (by linarith)) hfits'
    | some v =>
      obtain ⟨rate, share, hrate, hmul, hshare⟩ := share_isOk (v := v) hp
        (by linarith [hnear.weight_nonneg])
      have hsum := hnear.abs_sum_le hp (by linarith) (hvalue v hv) hshare
      have hadd := hnear.add (onGrid_amount _) (nearest_amount _) hp (by linarith) (hvalue v hv) hshare
      dsimp only
      rw [hrate, ok_bind, hmul, ok_bind]
      cases total with
      | none =>
        rw [amount_none, zero_add, nearest_value] at hadd
        exact ih hprob hvalues hroom hadd hfits'
      | some t =>
        obtain ⟨next, hnext⟩ : ∃ next, t.add share = .ok next := by
          apply add_isOk
          rw [Fits, pow_zero, mul_one]
          rw [amount_some] at hsum
          push_cast at hfits'
          linarith
        dsimp only
        rw [hnext, ok_bind]
        rw [amount_some, ← value_add hnext] at hadd
        exact ih hprob hvalues hroom hadd hfits'

end Runs

section Sums
variable {xs : List Decimal} {t : Decimal}

theorem gives_sumFrom (xs : List Decimal) (t : Decimal) :
    Gives (xs.foldlM add t) fun _ => True := by
  induction xs generalizing t with
  | nil => exact gives_pure trivial
  | cons x xs ih =>
    rw [List.foldlM_cons]
    exact (gives_add t x).bind fun next _ => ih next

/-- A rounded sum exceeds the exact one by ten times what is added at most. -/
theorem sumFrom_isOk (ht : 0 ≤ t.value) (hnonneg : ∀ x ∈ xs, 0 ≤ x.value)
    (h : t.value + 11 * exactSum xs ≤ 10 ^ 28) : ∃ c, xs.foldlM add t = .ok c := by
  induction xs generalizing t with
  | nil => exact ⟨t, rfl⟩
  | cons x xs ih =>
    obtain ⟨hx, hnonneg⟩ := List.forall_mem_cons.mp hnonneg
    have hrest : 0 ≤ exactSum xs := List.sum_nonneg (by simpa [List.forall_mem_map] using hnonneg)
    rw [exactSum_cons] at h
    obtain ⟨next, hnext⟩ := add_isOk (a := t) (b := x) (fits_of_nonneg (by linarith) (by linarith))
    have hvalue := value_add hnext
    have hround := (abs_le.mp (abs_nearest_add_sub_le_mul t x)).2
    rw [abs_of_nonneg hx] at hround
    rw [List.foldlM_cons, hnext]
    exact ih (hvalue ▸ nearest_nonneg (by linarith)) hnonneg (by linarith)

end Sums

section Metrics
variable {entries : List ScenarioEntry} {w : WeightedMetrics} {low high M : ℚ}

theorem weigh_of_weightedMetrics (h : weightedMetrics entries = .ok w) (metric : ReturnMetric) :
    weigh metric.ofEntry entries none = .ok (metric.ofWeighted w) := by
  obtain ⟨irr, hirr, h⟩ := bind_eq_ok.mp h
  obtain ⟨multiple, hmultiple, h⟩ := bind_eq_ok.mp h
  obtain ⟨sum, -, h⟩ := bind_eq_ok.mp h
  cases pure_eq_ok.mp h
  cases metric with
  | leveredIrr => exact hirr
  | equityMultiple => exact hmultiple

theorem gives_weightedMetrics_none_iff (entries : List ScenarioEntry) :
    Gives (weightedMetrics entries) fun w => ∀ metric : ReturnMetric,
      metric.ofWeighted w = none ↔ ∀ e ∈ entries, metric.ofEntry e = none := by
  unfold weightedMetrics
  apply (gives_weigh_none_iff ScenarioEntry.leveredIrr entries none).bind
  intro irr hirr
  apply (gives_weigh_none_iff ScenarioEntry.equityMultiple entries none).bind
  intro multiple hmultiple
  apply (gives_sumFrom _ .zero).bind
  intro sum _
  apply gives_pure
  intro metric
  cases metric with
  | leveredIrr => exact hirr.trans (and_iff_right rfl)
  | equityMultiple => exact hmultiple.trans (and_iff_right rfl)

theorem totalProbability_eq_one
    (hsum : exactSum (entries.map ScenarioEntry.probabilityPct) = 100) :
    totalProbability entries = 1 := by
  rw [totalProbability_eq, hsum]
  norm_num

theorem weightedMetrics_isOk (hprob : ∀ e ∈ entries, 0 ≤ e.probabilityPct.value)
    (hsum : exactSum (entries.map ScenarioEntry.probabilityPct) = 100)
    (hM : 0 ≤ M) (hvalues : ∀ metric : ReturnMetric, Bounded metric.ofEntry entries M)
    (hfits : M + entries.length / 10 ^ 27 * (1 + M) ≤ capacity - 1) :
    ∃ w, weightedMetrics entries = .ok w := by
  have hprob' : ∀ e ∈ entries, 0 ≤ probability e :=
    fun e he => div_nonneg (hprob e he) (by norm_num)
  have hone := totalProbability_eq_one hsum
  have hweigh (metric : ReturnMetric) : ∃ out, weigh metric.ofEntry entries none = .ok out := by
    apply weigh_isOk hprob' hM (hvalues metric) (by rw [hone, zero_add]) (near_start M)
    rwa [Nat.cast_zero, zero_add]
  obtain ⟨irr, hirr⟩ : ∃ out, weigh ScenarioEntry.leveredIrr entries none = .ok out :=
    hweigh .leveredIrr
  obtain ⟨multiple, hmultiple⟩ : ∃ out, weigh ScenarioEntry.equityMultiple entries none = .ok out :=
    hweigh .equityMultiple
  obtain ⟨sum, hsum'⟩ : ∃ c, Decimal.sum (entries.map ScenarioEntry.probabilityPct) = .ok c := by
    apply sumFrom_isOk value_zero.ge (by simpa [List.forall_mem_map] using hprob)
    rw [hsum, value_zero]
    norm_num
  refine ⟨⟨irr, multiple, sum⟩, ?_⟩
  rw [weightedMetrics, hirr, ok_bind, hmultiple, ok_bind, hsum', ok_bind]
  rfl

/-- Every entry has a value, from `low` to `high` and at most `M` in size. -/
def Within (value : ScenarioEntry → Option Decimal) (entries : List ScenarioEntry)
    (low high M : ℚ) : Prop :=
  ∀ e ∈ entries, ∃ v, value e = some v ∧ low ≤ v.value ∧ v.value ≤ high ∧ |v.value| ≤ M

theorem Within.bounded {value : ScenarioEntry → Option Decimal}
    (h : Within value entries low high M) : Bounded value entries M := by
  intro e he v hv
  obtain ⟨v', hv', -, -, hle⟩ := h e he
  cases hv.symm.trans hv'
  exact hle

theorem Within.expected_mem {value : ScenarioEntry → Option Decimal}
    (h : Within value entries low high M) (hprob : ∀ e ∈ entries, 0 ≤ e.probabilityPct.value)
    (hsum : exactSum (entries.map ScenarioEntry.probabilityPct) = 100) :
    low ≤ expected value entries ∧ expected value entries ≤ high := by
  have hvalues : ∀ e ∈ entries, low ≤ amount (value e) ∧ amount (value e) ≤ high := by
    intro e he
    obtain ⟨v, hv, hlow, hhigh, -⟩ := h e he
    rw [hv]
    exact ⟨hlow, hhigh⟩
  have hmem := Stress.expected_mem (fun e he => div_nonneg (hprob e he) (by norm_num)) hvalues
  rwa [totalProbability_eq_one hsum, mul_one, mul_one] at hmem

theorem weighted_near (hprob : ∀ e ∈ entries, 0 ≤ e.probabilityPct.value)
    (hsum : exactSum (entries.map ScenarioEntry.probabilityPct) = 100) {metric : ReturnMetric}
    (hvalues : Within metric.ofEntry entries low high M) (h : weightedMetrics entries = .ok w) :
    ∃ x, metric.ofWeighted w = some x ∧
      |x.value - expected metric.ofEntry entries| ≤ entries.length / 10 ^ 27 * (1 + M) := by
  have hone := totalProbability_eq_one hsum
  have hne : entries ≠ [] := by
    rintro rfl
    simp [exactSum] at hsum
  obtain ⟨e, he⟩ := List.exists_mem_of_ne_nil entries hne
  obtain ⟨v, hv, -, -, hM⟩ := hvalues e he
  have hM₀ := (abs_nonneg _).trans hM
  have hnear := gives_near_weigh (fun e he => div_nonneg (hprob e he) (by norm_num)) hM₀
    hvalues.bounded (by rw [hone, zero_add]) (near_start M)
  rw [weigh_of_weightedMetrics h metric, hone, zero_add, zero_add, zero_add] at hnear
  have hnone := gives_weigh_none_iff metric.ofEntry entries none
  rw [weigh_of_weightedMetrics h metric] at hnone
  cases hx : metric.ofWeighted w with
  | none =>
    have := (hnone.mp hx).2 e he
    cases hv.symm.trans this
  | some x =>
    rw [hx] at hnear
    exact ⟨x, rfl, hnear.abs_sub_le hM₀ le_rfl⟩

/-- A weighted metric is missing exactly if every entry lacks it, unless a product or a sum is beyond the
capacity. Where the probabilities come to one hundred, that is ruled out if there is room for ten quanta
an entry, relative to one and the size of the values, above that size. But for so much, a metric that no
entry lacks is between its least and its greatest value, and the order of the entries does not matter. -/
theorem weighted_metrics_are_expectations
    (hprob : ∀ e ∈ entries, 0 ≤ e.probabilityPct.value) :
    (Gives (weightedMetrics entries) fun w => ∀ metric : ReturnMetric,
      metric.ofWeighted w = none ↔ ∀ e ∈ entries, metric.ofEntry e = none) ∧
    (∀ M, exactSum (entries.map ScenarioEntry.probabilityPct) = 100 → 0 ≤ M →
      (∀ metric : ReturnMetric, Bounded metric.ofEntry entries M) →
      M + entries.length / 10 ^ 27 * (1 + M) ≤ capacity - 1 →
      ∃ w, weightedMetrics entries = .ok w) ∧
    ∀ (metric : ReturnMetric) (w : WeightedMetrics) (low high M : ℚ),
      weightedMetrics entries = .ok w →
      exactSum (entries.map ScenarioEntry.probabilityPct) = 100 →
      Within metric.ofEntry entries low high M →
      ∃ x, metric.ofWeighted w = some x ∧
        low - entries.length / 10 ^ 27 * (1 + M) ≤ x.value ∧
        x.value ≤ high + entries.length / 10 ^ 27 * (1 + M) ∧
        ∀ entries' w', entries.Perm entries' → weightedMetrics entries' = .ok w' →
          ∃ x', metric.ofWeighted w' = some x' ∧
            |x'.value - x.value| ≤ 2 * (entries.length / 10 ^ 27 * (1 + M)) := by
  refine ⟨gives_weightedMetrics_none_iff entries, fun _ => weightedMetrics_isOk hprob, ?_⟩
  intro metric w low high M hw hsum hvalues
  obtain ⟨x, hx, hnear⟩ := weighted_near hprob hsum hvalues hw
  obtain ⟨hlow, hhigh⟩ := hvalues.expected_mem hprob hsum
  have habs := abs_le.mp hnear
  refine ⟨x, hx, by linarith, by linarith, ?_⟩
  intro entries' w' hperm hw'
  have hprob' : ∀ e ∈ entries', 0 ≤ e.probabilityPct.value :=
    fun e he => hprob e (hperm.mem_iff.mpr he)
  have hsum' : exactSum (entries'.map ScenarioEntry.probabilityPct) = 100 := by
    rw [← exactSum_perm (hperm.map _), hsum]
  obtain ⟨x', hx', hnear'⟩ :=
    weighted_near hprob' hsum' (fun e he => hvalues e (hperm.mem_iff.mpr he)) hw'
  rw [← expected_perm hperm, ← hperm.length_eq] at hnear'
  refine ⟨x', hx', ?_⟩
  have htri := abs_sub_le x'.value (expected metric.ofEntry entries) x.value
  rw [abs_sub_comm (expected metric.ofEntry entries) x.value] at htri
  linarith

def threeScenarios : List ScenarioEntry :=
  [⟨"base", "Base Case", .ofScaled 60 0, some (.ofScaled 11 2), none⟩,
    ⟨"downside", "Downside", .ofScaled 25 0, some (.ofScaled (-3) 2), none⟩,
    ⟨"upside", "Upside", .ofScaled 15 0, some (.ofScaled 19 2), none⟩]

/-- Forwards and backwards. -/
theorem weighted_metrics_are_expectations_three_scenarios :
    ∃ w w' x x', weightedMetrics threeScenarios = .ok w ∧
      weightedMetrics threeScenarios.reverse = .ok w' ∧
      w.equityMultiple = none ∧ w.leveredIrr = some x ∧ w'.leveredIrr = some x' ∧
      -3 / 100 - 3 / 10 ^ 27 * (1 + 19 / 100) ≤ x.value ∧
      x.value ≤ 19 / 100 + 3 / 10 ^ 27 * (1 + 19 / 100) ∧
      |x'.value - x.value| ≤ 2 * (3 / 10 ^ 27 * (1 + 19 / 100)) := by
  have hvalue {n : ℤ} {s : Nat} (hn : n.natAbs < 100) (hs : s ≤ 2) :
      (Decimal.ofScaled n s).value = n / 10 ^ s :=
    value_ofScaled (by unfold capacity; omega) (by unfold maxScale; omega)
  have hprob : ∀ e ∈ threeScenarios, 0 ≤ e.probabilityPct.value := by
    intro e he
    simp only [threeScenarios, List.mem_cons, List.not_mem_nil, or_false] at he
    rcases he with rfl | rfl | rfl <;> dsimp only <;> rw [hvalue (by decide) (by decide)] <;> norm_num
  have hsum : exactSum (threeScenarios.map ScenarioEntry.probabilityPct) = 100 := by
    simp only [threeScenarios, exactSum, List.map_cons, List.map_nil, List.sum_cons, List.sum_nil]
    rw [hvalue (by decide) (by decide), hvalue (by decide) (by decide),
      hvalue (by decide) (by decide)]
    norm_num
  have hvalues : Within ReturnMetric.leveredIrr.ofEntry threeScenarios (-3 / 100) (19 / 100)
      (19 / 100) := by
    intro e he
    simp only [threeScenarios, List.mem_cons, List.not_mem_nil, or_false] at he
    rcases he with rfl | rfl | rfl <;> refine ⟨_, rfl, ?_⟩ <;>
      rw [hvalue (by decide) (by decide)] <;> norm_num [abs_of_neg]
  have hmultiple : ∀ e ∈ threeScenarios, e.equityMultiple = none := by decide
  have hbounded (metric : ReturnMetric) : Bounded metric.ofEntry threeScenarios (19 / 100) := by
    cases metric with
    | leveredIrr => exact hvalues.bounded
    | equityMultiple =>
      intro e he v hv
      cases (hmultiple e he).symm.trans hv
  obtain ⟨hnone, hok, hnear⟩ := weighted_metrics_are_expectations hprob
  obtain ⟨w, hw⟩ := hok _ hsum (by norm_num) hbounded (by norm_num [threeScenarios, capacity])
  obtain ⟨w', hw'⟩ := exists_of_isOk (x := weightedMetrics threeScenarios.reverse) (by decide +kernel)
  obtain ⟨x, hx, hlow, hhigh, hperm⟩ := hnear .leveredIrr w _ _ _ hw hsum hvalues
  obtain ⟨x', hx', hle⟩ := hperm _ w' (List.reverse_perm _).symm hw'
  rw [hw] at hnone
  exact ⟨w, w', x, x', hw, hw', (hnone .equityMultiple).mpr hmultiple, hx, hx', hlow, hhigh, hle⟩

/-- The same return in both scenarios, the greatest number there is. -/
def extremeScenarios : List ScenarioEntry :=
  [⟨"a", "A", .ofScaled 50 0, some (.ofScaled (capacity - 1) 0), none⟩,
    ⟨"b", "B", .ofScaled 50 0, some (.ofScaled (capacity - 1) 0), none⟩]

/-- The expectation is a decimal, but half of it is rounded up, and twice that is beyond the capacity. -/
theorem weighted_metrics_overflow_at_capacity :
    exactSum (extremeScenarios.map ScenarioEntry.probabilityPct) = 100 ∧
    expected ScenarioEntry.leveredIrr extremeScenarios = (Decimal.ofScaled (capacity - 1) 0).value ∧
    weightedMetrics extremeScenarios = .error .additionOverflow := by
  have hprob : (Decimal.ofScaled 50 0).value = 50 := by
    rw [value_ofScaled (by decide) (by decide)]
    norm_num
  refine ⟨?_, ?_, by decide +kernel⟩
  · simp only [extremeScenarios, exactSum, List.map_cons, List.map_nil, List.sum_cons, List.sum_nil]
    rw [hprob]
    norm_num
  · simp only [extremeScenarios, expected, probability, amount_some, List.map_cons, List.map_nil,
      List.sum_cons, List.sum_nil]
    rw [hprob]
    ring

end Metrics

end PropertyFinance.Stress
