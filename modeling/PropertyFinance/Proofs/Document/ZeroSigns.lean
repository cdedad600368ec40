import PropertyFinance.Document.Inputs
import PropertyFinance.Proofs.Decimal.Writing
import PropertyFinance.Proofs.Document.DecimalText

/-! A zero is read without a sign, unless it is all that is left of a number with places beyond the last one.
Such a zero has every place there is, so that an amount of few places has no sign of its own. -/

namespace PropertyFinance
set_option autoImplicit false

namespace Decimal
variable {a b c : Decimal} {cs : List Char} {negative : Bool} {m s e : Nat}

theorem plain_ofParts (h : ofParts? negative m s = some c) (hm : negative = true → m ≠ 0) : c.plain = c := by
  unfold ofParts? at h
  split at h
  case isFalse => cases h
  case isTrue =>
    obtain rfl := Option.some.inj h
    rw [plain_eq_self_iff]
    rintro ⟨hnegative, hzero⟩
    exact hm hnegative (beq_iff_eq.mp hzero)

theorem mantissa_ne_zero (ha : a.plain = a) (hnegative : a.negative = true) : a.mantissa ≠ 0 := by
  intro hzero
  exact plain_eq_self_iff.mp ha ⟨hnegative, beq_iff_eq.mpr hzero⟩

theorem plain_readPlain (h : readPlain cs = some c) : c.plain = c := by
  obtain ⟨⟨m, s⟩, -, h⟩ := Option.bind_eq_some_iff.mp h
  apply plain_ofParts h
  intro hnegative
  exact bne_iff_ne.mp (Bool.and_eq_true_iff.mp hnegative).2

/-- A product with a number from one up does not vanish. -/
theorem plain_mul? (hb : 1 ≤ b.value) (h : a.mul? b = some c) : c.plain = c := by
  by_cases hzero : a.isZero = true
  · rw [mul?, hzero, Bool.true_or, if_pos rfl] at h
    obtain rfl := Option.some.inj h
    rfl
  · have hne : a.value ≠ 0 := isZero_eq_false_iff.mp (Bool.eq_false_iff.mpr hzero)
    apply plain_of_isZero_eq_false
    rw [isZero_eq_false_iff, value_mul? h]
    rcases lt_or_gt_of_ne hne with hneg | hpos
    · have hle : a.value * b.value ≤ a.value := by linarith [mul_le_mul_of_nonpos_left hb hneg.le]
      exact ((nearest_le_value hle).trans_lt hneg).ne
    · have hle : a.value ≤ a.value * b.value := by linarith [mul_le_mul_of_nonneg_left hb hpos.le]
      exact (hpos.trans_le (value_le_nearest hle)).ne'

theorem one_le_tenTo (h : ofParts? false (tenTo e) 0 = some b) : 1 ≤ b.value := by
  obtain ⟨hvalue, -, -⟩ := value_ofParts h
  rw [hvalue, cast_tenTo]
  simpa using one_le_pow₀ (by norm_num : (1 : ℚ) ≤ 10)

theorem plain_raise (h : a.raise e = some c) : c.plain = c := by
  unfold raise at h
  split at h
  case isTrue =>
    obtain ⟨b, hb, h⟩ := Option.bind_eq_some_iff.mp h
    exact plain_mul? (one_le_tenTo hb) h
  case isFalse =>
    obtain ⟨b, hb, h⟩ := Option.bind_eq_some_iff.mp h
    obtain ⟨big, hbig, h⟩ := Option.bind_eq_some_iff.mp h
    split at h
    case isTrue => exact Option.some.inj h ▸ plain_mul? (one_le_tenTo hb) hbig
    case isFalse =>
      obtain ⟨b, hb, h⟩ := Option.bind_eq_some_iff.mp h
      exact plain_mul? (one_le_tenTo hb) h

theorem strip_ne_zero (hm : m ≠ 0) (s : Nat) : (strip m s).1 ≠ 0 := by
  induction s generalizing m with
  | zero => exact hm
  | succ s ih =>
    rw [strip]
    split
    case isTrue hdigit => exact ih (by omega)
    case isFalse => exact hm

theorem plain_normalize (ha : a.plain = a) : a.normalize.plain = a.normalize := by
  unfold normalize
  split
  case isTrue => rfl
  case isFalse hzero =>
    cases hparts : ofParts? a.negative (strip a.mantissa a.scale).1 (strip a.mantissa a.scale).2 with
    | none => simpa [hparts] using ha
    | some c =>
      have hplain := plain_ofParts hparts fun _ => strip_ne_zero (fun hm => hzero (beq_iff_eq.mpr hm)) _
      simpa [hparts] using hplain

theorem plain_scaleUp (ha : a.plain = a) (h : a.scaleUp e = some c) : c.plain = c := by
  unfold scaleUp at h
  split at h
  case isTrue => exact plain_ofParts h (mantissa_ne_zero ha)
  case isFalse =>
    split at h
    case isTrue => cases h
    case isFalse =>
      obtain ⟨raised, hraised, rfl⟩ := Option.map_eq_some_iff.mp h
      exact plain_normalize (plain_raise hraised)

theorem plain_scaleDown (ha : a.plain = a) (h : a.scaleDown e = some c) :
    c.plain = c ∨ c.scale = maxScale := by
  unfold scaleDown at h
  split at h
  case isTrue => cases h
  case isFalse =>
    split at h
    case isTrue => exact Or.inl (plain_ofParts h (mantissa_ne_zero ha))
    case isFalse => exact Or.inr (written_ofParts h).2

theorem plain_readScientific (h : readScientific cs = some c) : c.plain = c ∨ c.scale = maxScale := by
  unfold readScientific at h
  dsimp only at h
  split at h
  case h_1 => cases h
  case h_2 =>
    obtain ⟨base, hbase, h⟩ := Option.bind_eq_some_iff.mp h
    have hplain := plain_readPlain hbase
    split at h
    case h_1 =>
      obtain ⟨e, -, h⟩ := Option.bind_eq_some_iff.mp h
      exact plain_scaleDown hplain h
    case h_2 =>
      obtain ⟨e, -, h⟩ := Option.bind_eq_some_iff.mp h
      exact Or.inl (plain_scaleUp hplain h)

theorem plain_ofJson? {json : Json} (h : ofJson? json = some c) : c.plain = c ∨ c.scale = maxScale := by
  cases json with
  | text s =>
    rcases Option.or_eq_some_iff.mp h with h | ⟨-, h⟩
    · exact Or.inl (plain_readPlain h)
    · exact plain_readScientific h
  | number n =>
    cases n with
    | integer n =>
      left
      apply plain_ofParts h
      intro hnegative
      have := of_decide_eq_true hnegative
      omega
    | real x => exact Or.inl (plain_readPlain h)
  | null | bool b | array items | object entries | unreadable => cases h

end Decimal

/-- An amount of a document is no negative zero if it has ten places at most. -/
theorem CapitalSource.unsigned_of_ofJson? {json : Json} {source : CapitalSource}
    (h : CapitalSource.ofJson? json = some source) (hnonneg : 0 ≤ source.amount.value)
    (hscale : source.amount.scale ≤ 10) : source.amount.negative = false := by
  obtain ⟨fields, -, h⟩ := Option.bind_eq_some_iff.mp h
  obtain ⟨kind, -, h⟩ := Option.bind_eq_some_iff.mp h
  obtain ⟨amount, hamount, h⟩ := Option.bind_eq_some_iff.mp h
  obtain ⟨label, -, h⟩ := Option.bind_eq_some_iff.mp h
  obtain rfl := Option.some.inj h
  unfold Fields.required at hamount
  split at hamount
  case h_2 => cases hamount
  case h_1 =>
    rcases Decimal.plain_ofJson? hamount with hplain | hlast
    · rw [Bool.eq_false_iff]
      intro hnegative
      have hzero : amount.value = 0 := le_antisymm (Decimal.value_nonpos_of_negative hnegative) hnonneg
      exact Decimal.plain_eq_self_iff.mp hplain ⟨hnegative, Decimal.isZero_iff.mpr hzero⟩
    · exact absurd (hlast ▸ hscale) (by decide)

end PropertyFinance
