import PropertyFinance.Decimal.Basic

/-! Rounding an exact result into a decimal. `fit` drops the fewest digits that make the mantissa
fit and rounds once, a half going to the even neighbour. -/

namespace PropertyFinance
set_option autoImplicit false

/-- The whole number nearest to `n / d`, the even one of two. -/
def roundHalfEven (n d : Nat) : Nat :=
  if d < 2 * (n % d) ∨ (2 * (n % d) = d ∧ (n / d) % 2 = 1) then n / d + 1 else n / d

/-- `n / 10 ^ k` rounded by its first dropped digit, a half going up. -/
def roundHalfUp (n : Nat) : Nat → Nat
  | 0 => n
  | k + 1 => if 5 ≤ n / tenTo k % 10 then n / tenTo (k + 1) + 1 else n / tenTo (k + 1)

/-- The first `k` from a given one on, among so many, for which `m / 10 ^ k` is below the
capacity. -/
def leastDrop (m : Nat) : Nat → Nat → Option Nat
  | _, 0 => none
  | k, n + 1 => if m < capacity * tenTo k then some k else leastDrop m (k + 1) n

namespace Decimal

/-- The decimal for `m / 10 ^ s`, or nothing if its whole part is too large. A carry that makes
one digit too many costs one more place. -/
def fit (negative : Bool) (m s : Nat) : Option Decimal := do
  let k ← leastDrop m (s - maxScale) (s + 1 - (s - maxScale))
  let q := roundHalfEven m (tenTo k)
  if q = capacity then
    if s = k then none
    else ofParts? negative (roundHalfEven capacity 10) (s - k - 1)
  else ofParts? negative q (s - k)

end Decimal

theorem leastDrop_le {m k n r : Nat} (h : leastDrop m k n = some r) :
    k ≤ r ∧ r < k + n ∧ m < capacity * tenTo r := by
  induction n generalizing k with
  | zero => simp [leastDrop] at h
  | succ n ih =>
    unfold leastDrop at h
    split at h
    · obtain rfl := Option.some.inj h
      exact ⟨Nat.le_refl _, by omega, by assumption⟩
    · obtain ⟨h₁, h₂, h₃⟩ := ih h
      exact ⟨by omega, by omega, h₃⟩

end PropertyFinance
