import Mathlib.Tactic
import Mathlib.Data.Rat.Floor
import PropertyFinance.Decimal.Rounding

/-! Rounding a rational number to a whole one, a half going to the even neighbour. It is monotone
and odd, moves its argument by at most a half, and is what `roundHalfEven` does to a quotient. -/

namespace PropertyFinance
set_option autoImplicit false

def halfEven (x : ℚ) : ℤ :=
  if Int.fract x < 1 / 2 ∨ (Int.fract x = 1 / 2 ∧ ⌊x⌋ % 2 = 0) then ⌊x⌋ else ⌊x⌋ + 1

variable {x y : ℚ} {n : ℤ}

theorem halfEven_cases (x : ℚ) :
    (halfEven x = ⌊x⌋ ∧ x ≤ ⌊x⌋ + 1 / 2) ∨ (halfEven x = ⌊x⌋ + 1 ∧ (⌊x⌋ : ℚ) + 1 / 2 ≤ x) := by
  have hx := Int.floor_add_fract x
  unfold halfEven
  split_ifs with h
  · refine Or.inl ⟨rfl, ?_⟩
    rcases h with h | h <;> linarith
  · rw [not_or, not_lt] at h
    exact Or.inr ⟨rfl, by linarith [h.1]⟩

theorem abs_halfEven_sub_le (x : ℚ) : |(halfEven x : ℚ) - x| ≤ 1 / 2 := by
  have h₁ := Int.floor_le x
  have h₂ := Int.lt_floor_add_one x
  rw [abs_le]
  rcases halfEven_cases x with ⟨h, hx⟩ | ⟨h, hx⟩ <;> rw [h] <;> push_cast <;>
    constructor <;> linarith

@[simp] theorem halfEven_intCast (n : ℤ) : halfEven n = n := by
  simp [halfEven]

@[simp] theorem halfEven_zero : halfEven 0 = 0 := by
  exact_mod_cast halfEven_intCast 0

theorem halfEven_eq_of_abs_lt (h : |x - n| < 1 / 2) : halfEven x = n := by
  have hx := abs_le.mp (abs_halfEven_sub_le x)
  have hn := abs_lt.mp h
  have h₁ : (halfEven x : ℚ) < n + 1 := by linarith
  have h₂ : (n : ℚ) < halfEven x + 1 := by linarith
  have h₁' : halfEven x < n + 1 := by exact_mod_cast h₁
  have h₂' : n < halfEven x + 1 := by exact_mod_cast h₂
  omega

/-- Also a tie goes to an even number. -/
theorem halfEven_eq_of_even (hn : n % 2 = 0) (h : |x - n| ≤ 1 / 2) : halfEven x = n := by
  rcases lt_or_eq_of_le h with h | h
  · exact halfEven_eq_of_abs_lt h
  rcases eq_or_eq_neg_of_abs_eq h with hx | hx
  · have hf : ⌊x⌋ = n := by
      rw [Int.floor_eq_iff]
      constructor <;> linarith
    have hr : Int.fract x = 1 / 2 := by rw [← Int.self_sub_floor, hf]; linarith
    simp [halfEven, hf, hr, hn]
  · have hf : ⌊x⌋ = n - 1 := by
      rw [Int.floor_eq_iff]
      push_cast
      constructor <;> linarith
    have hr : Int.fract x = 1 / 2 := by rw [← Int.self_sub_floor, hf]; push_cast; linarith
    have hodd : ¬ (n - 1) % 2 = 0 := by omega
    simp [halfEven, hf, hr, hodd]

theorem halfEven_mono : Monotone halfEven := by
  intro x y hxy
  have hle : ⌊x⌋ ≤ ⌊y⌋ := Int.floor_mono hxy
  rcases lt_or_eq_of_le hle with hlt | heq
  · rcases halfEven_cases x with ⟨hx, -⟩ | ⟨hx, -⟩ <;>
      rcases halfEven_cases y with ⟨hy, -⟩ | ⟨hy, -⟩ <;> omega
  · have hfract : Int.fract x ≤ Int.fract y := by
      rw [← Int.self_sub_floor, ← Int.self_sub_floor, heq]
      linarith
    unfold halfEven
    rw [heq]
    split_ifs with hx hy hy
    · exact le_refl _
    · omega
    · exfalso
      apply hx
      rcases hy with hy | ⟨hy, heven⟩
      · exact Or.inl (lt_of_le_of_lt hfract hy)
      · rcases lt_or_eq_of_le (hy ▸ hfract) with h | h
        · exact Or.inl h
        · exact Or.inr ⟨h, heven⟩
    · exact le_refl _

theorem halfEven_nonneg (h : 0 ≤ x) : 0 ≤ halfEven x := by
  simpa using halfEven_mono h

theorem halfEven_neg (x : ℚ) : halfEven (-x) = -halfEven x := by
  by_cases hx : Int.fract x = 0
  · have hint : x = (⌊x⌋ : ℚ) := by rw [← Int.self_sub_floor] at hx; linarith
    rw [hint, ← Int.cast_neg, halfEven_intCast, halfEven_intCast]
  have hfract := Int.fract_neg hx
  have hfloor : ⌊-x⌋ = -⌊x⌋ - 1 := by
    have hpos := (Int.fract_nonneg x).lt_of_ne' hx
    rw [Int.floor_eq_iff]
    have h := Int.floor_add_fract x
    have h' := Int.fract_lt_one x
    push_cast
    constructor <;> linarith
  unfold halfEven
  rw [hfract, hfloor]
  split_ifs with h₁ h₂ h₂
  · rcases h₁ with h₁ | ⟨h₁, he₁⟩ <;> rcases h₂ with h₂ | ⟨h₂, he₂⟩
    · linarith
    · linarith
    · linarith
    · omega
  · omega
  · omega
  · rw [not_or, not_and, not_lt] at h₁ h₂
    have hhalf : Int.fract x = 1 / 2 := by linarith [h₁.1, h₂.1]
    have ho₁ := h₁.2 (by linarith)
    have ho₂ := h₂.2 hhalf
    omega

theorem halfEven_lt_iff_of_even (hn : n % 2 = 0) : halfEven x < n ↔ x < n - 1 / 2 := by
  constructor
  · intro h
    by_contra hx
    rw [not_lt] at hx
    have hle : n ≤ halfEven x := by
      have heven : halfEven ((n : ℚ) - 1 / 2) = n := by
        apply halfEven_eq_of_even hn
        rw [sub_sub_cancel_left, abs_neg, abs_of_pos (by norm_num)]
      rw [← heven]
      exact halfEven_mono hx
    omega
  · intro h
    have hx := (abs_le.mp (abs_halfEven_sub_le x)).2
    have : (halfEven x : ℚ) < n := by linarith
    exact_mod_cast this

theorem roundHalfEven_eq (n : Nat) {d : Nat} (hd : 0 < d) :
    (roundHalfEven n d : ℤ) = halfEven (n / d) := by
  have hd' : (0 : ℚ) < d := by exact_mod_cast hd
  have hsplit : (n : ℚ) = d * (n / d : Nat) + (n % d : Nat) := by
    exact_mod_cast (Nat.div_add_mod n d).symm
  have hfloor : ⌊(n / d : ℚ)⌋ = ((n / d : Nat) : ℤ) := by
    rw [Rat.floor_natCast_div_natCast, Int.natCast_div]
  have hfract : Int.fract (n / d : ℚ) = ((n % d : Nat) : ℚ) / d := by
    rw [← Int.self_sub_floor, hfloor, Int.cast_natCast, eq_div_iff hd'.ne', sub_mul,
      div_mul_cancel₀ _ hd'.ne']
    linarith
  have hlt : Int.fract (n / d : ℚ) < 1 / 2 ↔ 2 * (n % d) < d := by
    rw [hfract, div_lt_iff₀ hd', ← Nat.cast_lt (α := ℚ), Nat.cast_mul, Nat.cast_ofNat]
    constructor <;> intro h <;> linarith
  have heq : Int.fract (n / d : ℚ) = 1 / 2 ↔ 2 * (n % d) = d := by
    rw [hfract, div_eq_iff hd'.ne', ← Nat.cast_inj (R := ℚ), Nat.cast_mul, Nat.cast_ofNat]
    constructor <;> intro h <;> linarith
  simp only [roundHalfEven, halfEven, hlt, heq, hfloor]
  split_ifs <;> omega

end PropertyFinance
