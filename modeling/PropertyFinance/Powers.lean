/-! Powers of the two bases in which numbers are held. -/

namespace PropertyFinance
set_option autoImplicit false

def tenTo (n : Nat) : Nat := Nat.pow 10 n
def twoTo (n : Nat) : Nat := Nat.pow 2 n

@[simp] theorem tenTo_zero : tenTo 0 = 1 := rfl

@[simp] theorem tenTo_one : tenTo 1 = 10 := rfl

theorem tenTo_succ (n : Nat) : tenTo (n + 1) = tenTo n * 10 := rfl

theorem tenTo_pos (n : Nat) : 0 < tenTo n := by
  induction n with
  | zero => decide
  | succ n ih => rw [tenTo_succ]; omega

end PropertyFinance
