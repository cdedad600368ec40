import PropertyFinance.Document.Scalars

/-! A decimal that is written and read again is the same number with the same places. Only the sign of
a zero is lost. -/

namespace PropertyFinance
set_option autoImplicit false

namespace Digits

theorem isDigit_toChar (d : Nat) : (toChar d).isDigit = true := by
  have h : d % 10 < 10 := Nat.mod_lt _ (by decide)
  unfold toChar
  generalize d % 10 = k at h
  match k, h with
  | 0, _ | 1, _ | 2, _ | 3, _ | 4, _ | 5, _ | 6, _ | 7, _ | 8, _ | 9, _ => rfl

theorem isDigit_of_mem_ofNat {n : Nat} {c : Char} (h : c ∈ ofNat n) : c.isDigit = true := by
  fun_induction ofNat n with
  | case1 n hn =>
    rw [List.mem_singleton.mp h]
    exact isDigit_toChar n
  | case2 n hn ih =>
    rcases List.mem_append.mp h with hmem | hmem
    · exact ih hmem
    · rw [List.mem_singleton.mp hmem]
      exact isDigit_toChar n

theorem isDigit_of_mem_lastOf {count n : Nat} {c : Char} (h : c ∈ lastOf count n) :
    c.isDigit = true := by
  induction count generalizing n with
  | zero => exact absurd h List.not_mem_nil
  | succ count ih =>
    rcases List.mem_append.mp h with hmem | hmem
    · exact ih hmem
    · rw [List.mem_singleton.mp hmem]
      exact isDigit_toChar n

theorem exists_ofNat_eq_cons (n : Nat) : ∃ c cs, ofNat n = c :: cs ∧ c.isDigit = true := by
  have hne : ofNat n ≠ [] := by
    rw [ofNat]
    split
    · exact List.cons_ne_nil _ _
    · exact List.append_ne_nil_of_right_ne_nil _ (List.cons_ne_nil _ _)
  obtain ⟨c, cs, hcs⟩ := List.exists_cons_of_ne_nil hne
  exact ⟨c, cs, hcs, isDigit_of_mem_ofNat (hcs ▸ List.mem_cons_self)⟩

/-- A number with further digits behind it. -/
def extend (n : Nat) (cs : List Char) : Nat := cs.foldl (fun n c => 10 * n + valueOf c) n

theorem le_extend (n : Nat) (cs : List Char) : n ≤ extend n cs := by
  induction cs generalizing n with
  | nil => exact Nat.le_refl n
  | cons c cs ih => exact Nat.le_trans (by omega) (ih (10 * n + valueOf c))

theorem extend_toNat (cs ds : List Char) : extend (toNat cs) ds = toNat (cs ++ ds) :=
  List.foldl_append.symm

end Digits

namespace Decimal
open Digits

section Reading
variable {c : Char} {ds rest : List Char} {seen : Bool} {m s : Nat}

theorem ne_of_isDigit (hc : c.isDigit = true) {d : Char} (hd : d.isDigit = false) : c ≠ d := by
  rintro rfl
  exact absurd (hc.symm.trans hd) (by decide)

theorem readWhole_digit (hc : c.isDigit = true) (hfit : 10 * m + valueOf c < capacity) :
    readWhole (c :: rest) seen m = readWhole rest true (10 * m + valueOf c) := by
  rw [readWhole, if_neg (ne_of_isDigit hc rfl), if_neg (ne_of_isDigit hc rfl)]
  simp only [digit?, hc, if_true, if_pos hfit]

theorem readWhole_digits (hds : ∀ c ∈ ds, c.isDigit = true) (hfit : extend m ds < capacity) :
    readWhole (ds ++ rest) true m = readWhole rest true (extend m ds) := by
  induction ds generalizing m with
  | nil => rfl
  | cons c ds ih =>
    have hstep : 10 * m + valueOf c < capacity := Nat.lt_of_le_of_lt (le_extend _ ds) hfit
    rw [List.cons_append, readWhole_digit (hds c List.mem_cons_self) hstep]
    exact ih (fun d hd => hds d (List.mem_cons_of_mem c hd)) hfit

theorem readWhole_ofNat (hfit : m < capacity) :
    readWhole (Digits.ofNat m ++ rest) false 0 = readWhole rest true m := by
  obtain ⟨c, cs, hcs, -⟩ := exists_ofNat_eq_cons m
  have hdigits : ∀ d ∈ c :: cs, d.isDigit = true := fun d hd => isDigit_of_mem_ofNat (hcs ▸ hd)
  have hvalue : extend (10 * 0 + valueOf c) cs = m := by
    have : toNat (c :: cs) = m := hcs ▸ toNat_ofNat m
    exact this
  have hstep : 10 * 0 + valueOf c < capacity := Nat.lt_of_le_of_lt (le_extend _ cs) (hvalue.symm ▸ hfit)
  rw [hcs, List.cons_append, readWhole_digit (hdigits c List.mem_cons_self) hstep,
    readWhole_digits (fun d hd => hdigits d (List.mem_cons_of_mem c hd)) (hvalue.symm ▸ hfit), hvalue]

theorem readPlaces_digits (hds : ∀ c ∈ ds, c.isDigit = true) (hfit : extend m ds < capacity)
    (hplaces : s + ds.length ≤ maxScale) :
    readPlaces ds true false m s = some (extend m ds, s + ds.length) := by
  induction ds generalizing m s with
  | nil => rfl
  | cons c ds ih =>
    have hc := hds c List.mem_cons_self
    have hstep : 10 * m + valueOf c < capacity := Nat.lt_of_le_of_lt (le_extend _ ds) hfit
    have hlength : s + (c :: ds).length = s + 1 + ds.length := by simp [Nat.add_comm, Nat.add_left_comm]
    rw [hlength] at hplaces ⊢
    have hroom : s < maxScale := by omega
    rw [readPlaces, if_neg (ne_of_isDigit hc rfl)]
    simp only [digit?, hc, if_true, hroom, true_or, hstep, and_self]
    exact ih (fun d hd => hds d (List.mem_cons_of_mem c hd)) hfit hplaces

theorem readWhole_plainDigits (hm : m < capacity) (hs : s ≤ maxScale) :
    readWhole (plainDigits m s) false 0 = some (m, s) := by
  cases s with
  | zero =>
    have h : readWhole (Digits.ofNat m ++ []) false 0 = some (m, 0) := readWhole_ofNat hm
    rwa [List.append_nil] at h
  | succ s =>
    have hwhole : m / tenTo (s + 1) < capacity := Nat.lt_of_le_of_lt (Nat.div_le_self _ _) hm
    have hvalue : extend (m / tenTo (s + 1)) (lastOf (s + 1) m) = m := by
      rw [← toNat_ofNat (m / tenTo (s + 1)), extend_toNat, toNat_append, toNat_ofNat, toNat_lastOf,
        lastOf_length]
      exact Nat.div_add_mod' m _
    have hplaces := readPlaces_digits (s := 0) (fun c hc => isDigit_of_mem_lastOf hc)
      (hvalue.symm ▸ hm) (by simpa using hs)
    rw [hvalue, lastOf_length, Nat.zero_add] at hplaces
    rw [plainDigits, readWhole_ofNat hwhole, readWhole, if_pos rfl, hplaces]

theorem exists_plainDigits_eq_cons (m s : Nat) :
    ∃ c cs, plainDigits m s = c :: cs ∧ c.isDigit = true := by
  cases s with
  | zero =>
    exact exists_ofNat_eq_cons m
  | succ s =>
    obtain ⟨c, cs, h, hc⟩ := exists_ofNat_eq_cons (m / tenTo (s + 1))
    exact ⟨c, cs ++ '.' :: lastOf (s + 1) m, by rw [plainDigits, h]; rfl, hc⟩

theorem splitSign_digit (hc : c.isDigit = true) : splitSign (c :: rest) = (false, c :: rest) := by
  have hminus : c ≠ '-' := ne_of_isDigit hc rfl
  have hplus : c ≠ '+' := ne_of_isDigit hc rfl
  unfold splitSign
  split
  · exact absurd (List.cons.inj ‹_›).1 hminus
  · exact absurd (List.cons.inj ‹_›).1 hplus
  · rfl

end Reading

theorem splitSign_toChars (a : Decimal) :
    splitSign a.toChars = (a.negative, plainDigits a.mantissa a.scale) := by
  unfold toChars
  cases a.negative with
  | true => rfl
  | false =>
    obtain ⟨c, cs, h, hc⟩ := exists_plainDigits_eq_cons a.mantissa a.scale
    rw [h]
    exact splitSign_digit hc

/-- Without the sign of a zero. -/
def plain (a : Decimal) : Decimal := { a with negative := a.negative && a.mantissa != 0 }

@[simp] theorem plain_mantissa (a : Decimal) : a.plain.mantissa = a.mantissa := rfl
@[simp] theorem plain_scale (a : Decimal) : a.plain.scale = a.scale := rfl

theorem plain_eq_self_iff {a : Decimal} :
    a.plain = a ↔ ¬ (a.negative = true ∧ a.isZero = true) := by
  obtain ⟨negative, mantissa, scale, hm, hs⟩ := a
  simp only [plain, isZero, Decimal.mk.injEq, and_true, beq_iff_eq]
  cases negative <;> simp

theorem plain_of_isZero_eq_false {a : Decimal} (h : a.isZero = false) : a.plain = a := by
  rw [plain_eq_self_iff, h]
  exact fun hzero => Bool.false_ne_true hzero.2

theorem readPlain_toChars (a : Decimal) : readPlain a.toChars = some a.plain := by
  have hscale : a.scale % (maxScale + 1) = a.scale := Nat.mod_eq_of_lt (Nat.lt_succ_of_le a.scale_le)
  unfold readPlain
  rw [splitSign_toChars]
  simp only [readWhole_plainDigits a.mantissa_lt a.scale_le, Option.bind_eq_bind, Option.bind_some,
    hscale, ofParts?]
  rw [dif_pos ⟨a.mantissa_lt, a.scale_le⟩]
  rfl

theorem ofText?_toText (a : Decimal) : ofText? a.toText = some a.plain := by
  rw [ofText?, toText, String.toList_ofList, ofChars?, readPlain_toChars]
  rfl

end Decimal

end PropertyFinance
