import PropertyFinance.Failure

/-! Two computations side by side. They agree if their results are related whenever both have one;
a failure of either is no disagreement. They match if, besides, they fail together, and for the same
cause. -/

namespace PropertyFinance
set_option autoImplicit false

variable {ε δ α β γ κ : Type} {r : α → β → Prop} {s : γ → κ → Prop}

def Agree (x : Except ε α) (y : Except δ β) (r : α → β → Prop) : Prop :=
  ∀ a b, x = .ok a → y = .ok b → r a b

theorem agree_self (x : Except ε α) : Agree x x Eq := by
  intro a b ha hb
  exact Except.ok.inj (ha.symm.trans hb)

theorem agree_any (x : Except ε α) (y : Except δ β) : Agree x y fun _ _ => True :=
  fun _ _ _ _ => trivial

theorem agree_pure {a : α} {b : β} (h : r a b) : Agree (pure a : Except ε α) (pure b : Except δ β) r := by
  intro a' b' ha hb
  cases ha
  cases hb
  exact h

/-- What the first steps gave may be traced back to them. -/
theorem agree_bind {x : Except ε α} {y : Except δ β} {f : α → Except ε γ} {g : β → Except δ κ}
    (hfg : ∀ a b, x = .ok a → y = .ok b → Agree (f a) (g b) s) : Agree (x >>= f) (y >>= g) s := by
  intro c d hc hd
  cases x with
  | error e => exact nomatch hc
  | ok a =>
    cases y with
    | error e => exact nomatch hd
    | ok b => exact hfg a b rfl rfl c d hc hd

theorem Agree.bind {x : Except ε α} {y : Except δ β} {f : α → Except ε γ} {g : β → Except δ κ}
    (h : Agree x y r) (hfg : ∀ a b, r a b → Agree (f a) (g b) s) : Agree (x >>= f) (y >>= g) s := by
  apply agree_bind
  intro a b ha hb
  exact hfg a b (h a b ha hb)

/-- A step that both computations make on the same data. -/
theorem agree_bind_self {x : Except ε α} {f : α → Except ε γ} {g : α → Except ε κ}
    (h : ∀ a, Agree (f a) (g a) s) : Agree (x >>= f) (x >>= g) s := by
  refine (agree_self x).bind ?_
  rintro a _ rfl
  exact h a

/-- Steps whose results do not matter for the relation. -/
theorem agree_bind_any {x : Except ε α} {y : Except δ β} {f : α → Except ε γ} {g : β → Except δ κ}
    (h : ∀ a b, Agree (f a) (g b) s) : Agree (x >>= f) (y >>= g) s :=
  (agree_any x y).bind fun a b _ => h a b

theorem Agree.lift {x : Arith α} {y : Arith β} (h : Agree x y r) :
    Agree (liftM x : Outcome α) (liftM y : Outcome β) r := by
  intro a b ha hb
  cases x with
  | error f => exact nomatch ha
  | ok a' =>
    cases y with
    | error f => exact nomatch hb
    | ok b' =>
      cases ha
      cases hb
      exact h a b rfl rfl

/-- The same failure, or results that are related. -/
inductive Matches (r : α → β → Prop) : Except ε α → Except ε β → Prop
  | error (e : ε) : Matches r (.error e) (.error e)
  | ok {a : α} {b : β} (h : r a b) : Matches r (.ok a) (.ok b)

theorem matches_self {r : α → α → Prop} (hr : ∀ a, r a a) (x : Except ε α) : Matches r x x := by
  cases x with
  | error e => exact .error e
  | ok a => exact .ok (hr a)

theorem Matches.bind {x : Except ε α} {y : Except ε β} {f : α → Except ε γ} {g : β → Except ε κ}
    (h : Matches r x y) (hfg : ∀ a b, r a b → Matches s (f a) (g b)) : Matches s (x >>= f) (y >>= g) := by
  cases h with
  | error e => exact .error e
  | ok h => exact hfg _ _ h

/-- A step that both computations make on the same data. -/
theorem matches_bind_self {x : Except ε α} {f : α → Except ε γ} {g : α → Except ε κ}
    (h : ∀ a, x = .ok a → Matches s (f a) (g a)) : Matches s (x >>= f) (x >>= g) := by
  cases x with
  | error e => exact .error e
  | ok a => exact h a rfl

theorem Matches.lift {x : Arith α} {y : Arith β} (h : Matches r x y) :
    Matches r (liftM x : Outcome α) (liftM y : Outcome β) := by
  cases h with
  | error f => exact .error (Failure.fault f)
  | ok h => exact .ok h

theorem rel_self {r : α → α → Prop} (hr : ∀ a, r a a) (x : Option α) : Option.Rel r x x := by
  cases x with
  | none => exact .none
  | some a => exact .some (hr a)

theorem matches_orFault {f : Fault} {x : Option α} {y : Option β} (h : Option.Rel r x y) :
    Matches r (orFault f x) (orFault f y) := by
  cases h with
  | none => exact .error f
  | some h => exact .ok h

end PropertyFinance
