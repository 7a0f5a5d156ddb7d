import Mathlib.Logic.Basic
import Mathlib.Tactic.SplitIfs

/-!
# How a computation may end

`Ends allowed Q x`: `x` returns a value with `Q`, or raises an error that is allowed. The rules are equivalences, so
that from the end of a program back to its start they compute exactly when it ends so: its weakest precondition.
`UpTo` is that of a loop over indices that stops early.
-/

namespace Lager.Lib

variable {ε α β : Type}

def Ends (allowed : ε → Prop) (Q : α → Prop) : Except ε α → Prop
  | .ok a => Q a
  | .error e => allowed e

variable {allowed : ε → Prop} {Q Q' : α → Prop}

theorem ends_ok (a : α) : Ends allowed Q (.ok a) ↔ Q a := Iff.rfl

theorem ends_error (e : ε) : Ends allowed Q (.error e) ↔ allowed e := Iff.rfl

theorem ends_bind (x : Except ε α) (f : α → Except ε β) {R : β → Prop} :
    Ends allowed R (x >>= f) ↔ Ends allowed (fun a => Ends allowed R (f a)) x := by
  cases x <;> exact Iff.rfl

theorem ends_congr (x : Except ε α) (h : ∀ a, Q a ↔ Q' a) : Ends allowed Q x ↔ Ends allowed Q' x := by
  cases x with
  | ok a => exact h a
  | error e => exact Iff.rfl

/-- A check that raises an allowed error guards what comes after it. -/
theorem ends_guard {p : Prop} [Decidable p] {e : ε} (he : allowed e) (x : Except ε α) :
    Ends allowed Q (if p then .error e else x) ↔ (¬p → Ends allowed Q x) := by
  split_ifs with h
  · exact ⟨fun _ hp => absurd h hp, fun _ => he⟩
  · exact ⟨fun hx _ => hx, fun hx => hx h⟩

/-- A check that raises an error that is not allowed must pass. -/
theorem ends_require {p : Prop} [Decidable p] {e : ε} (he : ¬allowed e) (x : Except ε α) :
    Ends allowed Q (if p then x else .error e) ↔ p ∧ Ends allowed Q x := by
  split_ifs with h
  · exact ⟨fun hx => ⟨h, hx⟩, And.right⟩
  · exact ⟨fun hx => absurd hx he, fun hx => absurd hx.1 h⟩

/-! ### A loop over indices that stops -/

section UpTo

variable {stop P : Nat → Prop}

/-- `P` holds at each of the `n` indices from `i` on, up to the first one to stop at. -/
def UpTo (stop P : Nat → Prop) (i n : Nat) : Prop :=
  ∀ k, i ≤ k → k < i + n → (∀ j, i ≤ j → j < k → ¬stop j) → P k

theorem upTo_none (i : Nat) : UpTo stop P i 0 := fun k hi hk => absurd hk (by omega)

theorem upTo_succ (i n : Nat) : UpTo stop P i (n + 1) ↔ P i ∧ (¬stop i → UpTo stop P (i + 1) n) := by
  constructor
  · intro h
    refine ⟨h i (by omega) (by omega) fun j hi hj => absurd hj (by omega), fun hi k hk hlt hbefore => ?_⟩
    apply h k (by omega) (by omega)
    intro j hj hlt'
    rcases Nat.eq_or_lt_of_le hj with rfl | hlater
    · exact hi
    · exact hbefore j hlater hlt'
  · rintro ⟨hi, hrest⟩ k hk hlt hbefore
    rcases Nat.eq_or_lt_of_le hk with rfl | hlater
    · exact hi
    · exact hrest (hbefore i (Nat.le_refl i) hlater) k hlater (by omega) fun j hj hlt' => hbefore j (by omega) hlt'

theorem upTo_from_zero (n : Nat) : UpTo stop P 0 n ↔ ∀ k < n, (∀ j < k, ¬stop j) → P k := by
  simp only [UpTo, Nat.zero_le, Nat.zero_add, true_imp_iff]

end UpTo

end Lager.Lib
