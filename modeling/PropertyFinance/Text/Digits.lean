import PropertyFinance.Powers

/-! Decimal digits of a natural number, and the number that a row of digits stands for. -/

namespace PropertyFinance.Digits
set_option autoImplicit false

def toChar (d : Nat) : Char := Char.ofNat (48 + d % 10)

def valueOf (c : Char) : Nat := c.toNat - 48

/-- The digits without leading zeros; zero has one digit. -/
def ofNat (n : Nat) : List Char :=
  if n < 10 then [toChar n] else ofNat (n / 10) ++ [toChar n]
termination_by n
decreasing_by omega

/-- The last `count` digits, with zeros in front where there are fewer. -/
def lastOf : Nat → Nat → List Char
  | 0, _ => []
  | count + 1, n => lastOf count (n / 10) ++ [toChar n]

def toNat (cs : List Char) : Nat := cs.foldl (fun n c => 10 * n + valueOf c) 0

@[simp] theorem valueOf_toChar (d : Nat) : valueOf (toChar d) = d % 10 := by
  have h : d % 10 < 10 := Nat.mod_lt _ (by decide)
  unfold valueOf toChar
  generalize d % 10 = k at h
  match k, h with
  | 0, _ | 1, _ | 2, _ | 3, _ | 4, _ | 5, _ | 6, _ | 7, _ | 8, _ | 9, _ => rfl

@[simp] theorem lastOf_length (count n : Nat) : (lastOf count n).length = count := by
  induction count generalizing n with
  | zero => rfl
  | succ count ih => simp [lastOf, ih]

theorem toNat_append (cs ds : List Char) :
    toNat (cs ++ ds) = toNat cs * tenTo ds.length + toNat ds := by
  have step (ds : List Char) (n : Nat) :
      ds.foldl (fun n c => 10 * n + valueOf c) n = n * tenTo ds.length + toNat ds := by
    induction ds generalizing n with
    | nil => simp [toNat]
    | cons c ds ih =>
      simp only [toNat, List.foldl_cons, List.length_cons]
      rw [ih, ih (10 * 0 + valueOf c), tenTo_succ, Nat.mul_comm (tenTo ds.length) 10,
        Nat.add_mul, Nat.add_mul, ← Nat.mul_assoc, Nat.mul_comm n 10]
      omega
  simp only [toNat, List.foldl_append]
  exact step ds _

theorem toNat_ofNat (n : Nat) : toNat (ofNat n) = n := by
  fun_induction ofNat n with
  | case1 n h => simp [toNat, Nat.mod_eq_of_lt h]
  | case2 n h ih =>
    rw [toNat_append, ih]
    simp [toNat]
    omega

theorem toNat_lastOf (count n : Nat) : toNat (lastOf count n) = n % tenTo count := by
  induction count generalizing n with
  | zero => simp [lastOf, toNat, Nat.mod_one]
  | succ count ih =>
    have split : n % tenTo (count + 1) = n % 10 + 10 * (n / 10 % tenTo count) := by
      rw [tenTo_succ, Nat.mul_comm, Nat.mod_mul]
    rw [lastOf, toNat_append, ih, split]
    simp [toNat]
    omega

end PropertyFinance.Digits
