import PropertyFinance.Proofs.Decimal.Places
import PropertyFinance.Proofs.Decimal.Writing
import PropertyFinance.Proofs.Decimal.Zeros

/-! Amounts that add up without rounding. Such a sum is written with the places of its finest part, as far
as the total leaves room for them; so the order of the parts shows in the writing of a zero at most. The
zero has a minus sign only if one of the parts is such a zero. -/

namespace PropertyFinance.Decimal
set_option autoImplicit false

variable {x acc c d : Decimal} {xs ys : List Decimal}

/-- Not negative and a multiple of `10 ^ -10`. -/
structure IsAmount (x : Decimal) : Prop where
  nonneg : 0 ≤ x.value
  hasPlaces : HasPlaces 10 x.value

theorem isAmount_of_scale_le (hnonneg : 0 ≤ x.value) (hscale : x.scale ≤ 10) : IsAmount x :=
  ⟨hnonneg, HasPlaces.mono ⟨x.signed, value_mul_pow x⟩ hscale⟩

def exactSum (xs : List Decimal) : ℚ := (xs.map value).sum

/-- The most places of the parts that are not zero. -/
def finest (xs : List Decimal) : Nat := ((xs.filter fun x => !x.isZero).map scale).foldr max 0

theorem exactSum_cons (x : Decimal) (xs : List Decimal) : exactSum (x :: xs) = x.value + exactSum xs :=
  List.sum_cons

theorem exactSum_append (xs ys : List Decimal) : exactSum (xs ++ ys) = exactSum xs + exactSum ys := by
  rw [exactSum, List.map_append, List.sum_append, exactSum, exactSum]

theorem exactSum_perm (h : xs.Perm ys) : exactSum xs = exactSum ys := (h.map value).sum_eq

theorem exactSum_amount (h : ∀ x ∈ xs, IsAmount x) : 0 ≤ exactSum xs ∧ HasPlaces 10 (exactSum xs) := by
  induction xs with
  | nil => exact ⟨le_refl _, hasPlaces_zero _⟩
  | cons x xs ih =>
    obtain ⟨hx, hxs⟩ := List.forall_mem_cons.mp h
    obtain ⟨hnonneg, hplaces⟩ := ih hxs
    rw [exactSum_cons]
    exact ⟨add_nonneg hx.nonneg hnonneg, hx.hasPlaces.add hplaces⟩

theorem finest_cons (x : Decimal) (xs : List Decimal) :
    finest (x :: xs) = if x.isZero then finest xs else max x.scale (finest xs) := by
  unfold finest
  cases h : x.isZero <;> simp [h]

theorem finest_perm (h : xs.Perm ys) : finest xs = finest ys :=
  ((h.filter _).map scale).foldr_eq 0

/-- Amounts that come to nothing are zeros. -/
theorem finest_eq_zero (h : ∀ x ∈ xs, IsAmount x) (hsum : exactSum xs = 0) : finest xs = 0 := by
  induction xs with
  | nil => rfl
  | cons x xs ih =>
    obtain ⟨hx, hxs⟩ := List.forall_mem_cons.mp h
    rw [exactSum_cons] at hsum
    have hnonneg := (exactSum_amount hxs).1
    have hzero : x.isZero = true := isZero_iff.mpr (by linarith [hx.nonneg])
    rw [finest_cons, if_pos hzero]
    exact ih hxs (by linarith [hx.nonneg])

theorem scale_le_places (x : Decimal) : x.scale ≤ places x.value := by
  apply le_places _ x.scale_le
  have hm : (x.mantissa : ℚ) + 1 ≤ capacity := by exact_mod_cast x.mantissa_lt
  rw [Fits, abs_value, div_mul_cancel₀ _ (by positivity)]
  linarith

/-- What the parts add up to, and how it is written. -/
structure IsTotal (xs : List Decimal) (c : Decimal) : Prop where
  value_eq : c.value = exactSum xs
  scale_eq : c.isZero = false → c.scale = min (finest xs) (places c.value)
  unsigned : (∀ x ∈ xs, x.negative = false) → c.negative = false

theorem isTotal_nil : IsTotal [] zero := ⟨value_zero, nofun, fun _ => rfl⟩

theorem IsTotal.perm (h : IsTotal xs c) (hperm : xs.Perm ys) : IsTotal ys c where
  value_eq := h.value_eq.trans (exactSum_perm hperm)
  scale_eq hc := (h.scale_eq hc).trans (by rw [finest_perm hperm])
  unsigned hxs := h.unsigned fun x hx => hxs x (hperm.subset hx)

theorem IsTotal.unsigned_of_pos (h : IsTotal xs c) (hpos : 0 < exactSum xs) : c.negative = false := by
  rw [← h.value_eq] at hpos
  rw [Bool.eq_false_iff]
  intro hnegative
  exact absurd (value_nonpos_of_negative hnegative) (not_le.mpr hpos)

/-- Two totals of the same parts are the same decimal, unless they are zeros. -/
theorem IsTotal.interchangeable (hxs : ∀ x ∈ xs, IsAmount x) (hc : IsTotal xs c) (hd : IsTotal xs d) :
    Interchangeable c d := by
  have hvalue : c.value = d.value := hc.value_eq.trans hd.value_eq.symm
  cases hzero : c.isZero with
  | true => exact Or.inr ⟨hzero, isZero_iff.mpr (hvalue ▸ isZero_iff.mp hzero)⟩
  | false =>
    have hzero' : d.isZero = false := isZero_eq_false_iff.mpr (hvalue ▸ isZero_eq_false_iff.mp hzero)
    have hne : exactSum xs ≠ 0 := hc.value_eq ▸ isZero_eq_false_iff.mp hzero
    have hpos : 0 < exactSum xs := lt_of_le_of_ne (exactSum_amount hxs).1 hne.symm
    refine Or.inl (eq_of_value_eq hvalue ?_ ?_)
    · rw [hc.scale_eq hzero, hd.scale_eq hzero', hvalue]
    · rw [hc.unsigned_of_pos hpos, hd.unsigned_of_pos hpos]

/-- Amounts that come to more than nothing, or of which none is a negative zero; their total is none. -/
def Unsigned (xs : List Decimal) : Prop := 0 < exactSum xs ∨ ∀ x ∈ xs, x.negative = false

theorem IsTotal.twin (hxs : ∀ x ∈ xs, IsAmount x) (hsigns : Unsigned xs) (hc : IsTotal xs c)
    (hd : IsTotal xs d) : Twin c d := by
  refine ⟨hc.interchangeable hxs hd, ?_⟩
  rcases hsigns with hpos | hxs
  · rw [hc.unsigned_of_pos hpos, hd.unsigned_of_pos hpos]
  · rw [hc.unsigned hxs, hd.unsigned hxs]

/-- One more part. -/
theorem IsTotal.add (h : IsTotal xs acc) (hxs : ∀ x ∈ xs, IsAmount x) (hx : IsAmount x)
    (hsize : exactSum (x :: xs) < 10 ^ 18) : ∃ c, acc.add x = .ok c ∧ IsTotal (x :: xs) c := by
  obtain ⟨hnonneg, hplaces⟩ := exactSum_amount hxs
  rw [← h.value_eq] at hnonneg hplaces
  have hsum : exactSum (x :: xs) = acc.value + x.value := by rw [exactSum_cons, h.value_eq, add_comm]
  have hle : |acc.value + x.value| ≤ 10 ^ 18 := by
    rw [abs_of_nonneg (add_nonneg hnonneg hx.nonneg), ← hsum]
    exact hsize.le
  have hexact : nearest (acc.value + x.value) = acc.value + x.value :=
    (hplaces.add hx.hasPlaces).nearest_eq hle (by norm_num)
  obtain ⟨c, hc⟩ := add_isOk (fits_of_abs_le (hle.trans (by norm_num)))
  have hvalue : c.value = acc.value + x.value := by rw [value_add hc, hexact]
  have hadd := orFault_eq_ok.mp hc
  by_cases hacc : acc.isZero = true
  · -- what has been added so far was nothing but zeros
    obtain rfl : x = c := by
      rw [add?, if_pos hacc] at hadd
      exact Option.some.inj hadd
    refine ⟨x, hc, hvalue.trans hsum.symm, fun hx => ?_, fun hunsigned => hunsigned x List.mem_cons_self⟩
    have hnone := finest_eq_zero hxs (h.value_eq.symm.trans (isZero_iff.mp hacc))
    rw [finest_cons, hx, if_neg Bool.false_ne_true, hnone, Nat.max_zero, min_eq_left (scale_le_places x)]
  rw [Bool.not_eq_true] at hacc
  by_cases hzero : x.isZero = true
  · obtain rfl : acc = c := by
      rw [add?, hacc, if_neg Bool.false_ne_true, if_pos hzero] at hadd
      exact Option.some.inj hadd
    refine ⟨acc, hc, hvalue.trans hsum.symm, fun hne => ?_, fun hunsigned =>
      h.unsigned fun y hy => hunsigned y (List.mem_cons_of_mem x hy)⟩
    rw [finest_cons, if_pos hzero]
    exact h.scale_eq hne
  rw [Bool.not_eq_true] at hzero
  refine ⟨c, hc, hvalue.trans hsum.symm, fun _ => ?_, fun _ => ?_⟩
  · have hroom : places (acc.value + x.value) ≤ places acc.value := by
      apply places_anti
      rw [abs_of_nonneg hnonneg, abs_of_nonneg (add_nonneg hnonneg hx.nonneg)]
      exact le_add_of_nonneg_right hx.nonneg
    rw [scale_add? hacc hzero hadd, h.scale_eq hacc, finest_cons, hzero, if_neg Bool.false_ne_true, hvalue]
    omega
  · rw [negative_add? hacc hzero hadd, decide_eq_false_iff_not, Rat.not_lt]
    exact add_nonneg hnonneg hx.nonneg

theorem foldlM_add_total (h : IsTotal ys acc) (hxs : ∀ x ∈ xs ++ ys, IsAmount x)
    (hsize : exactSum (xs ++ ys) < 10 ^ 18) :
    ∃ c, xs.foldlM Decimal.add acc = .ok c ∧ IsTotal (xs ++ ys) c := by
  induction xs generalizing acc ys with
  | nil => exact ⟨acc, rfl, h⟩
  | cons x xs ih =>
    have hperm : (xs ++ x :: ys).Perm (x :: xs ++ ys) := List.perm_middle
    have hall : ∀ y ∈ xs ++ x :: ys, IsAmount y := fun y hy => hxs y (hperm.subset hy)
    have htail : ∀ y ∈ x :: ys, IsAmount y := fun y hy => hall y (List.mem_append_right xs hy)
    have hmore := (exactSum_amount fun y hy => hall y (List.mem_append_left _ hy)).1
    rw [← exactSum_perm hperm] at hsize
    obtain ⟨hx, hys⟩ := List.forall_mem_cons.mp htail
    obtain ⟨next, hnext, htotal⟩ := h.add hys hx (by
      rw [exactSum_append] at hsize
      linarith)
    obtain ⟨c, hc, hall⟩ := ih htotal hall hsize
    refine ⟨c, ?_, hall.perm hperm⟩
    rw [List.foldlM_cons, hnext, ok_bind, hc]

theorem sum_total (hxs : ∀ x ∈ xs, IsAmount x) (hsize : exactSum xs < 10 ^ 18) :
    ∃ c, sum xs = .ok c ∧ IsTotal xs c := by
  rw [← List.append_nil xs] at hxs hsize
  obtain ⟨c, hc, htotal⟩ := foldlM_add_total isTotal_nil hxs hsize
  rw [List.append_nil] at htotal
  exact ⟨c, hc, htotal⟩

end PropertyFinance.Decimal
