import Mathlib.Logic.Basic

/-!
# What a fallible program leaves alone

A program over a state may raise, and the state it has reached by then stays. `Keeps f` says of a program that the part
`f` of the state is the same after it, whether it has raised or not: a program made of steps that keep a part keeps it.
-/

namespace Lager.Lib

variable {σ ε α β γ : Type}

abbrev Prog (σ ε α : Type) := ExceptT ε (StateM σ) α

/-- What the program returns or raises, and the state it leaves. -/
def exec (x : Prog σ ε α) (s : σ) : Except ε α × σ := StateT.run (ExceptT.run x) s

/-- A `finally` that has something to do only where the body has raised. -/
def onError (x : Prog σ ε α) (cleanup : Prog σ ε Unit) : Prog σ ε α := fun s =>
  match exec x s with
  | (.ok a, s') => (.ok a, s')
  | (.error e, s') => exec (cleanup >>= fun _ => throw e) s'

theorem exec_pure (a : α) (s : σ) : exec (pure a : Prog σ ε α) s = (.ok a, s) := rfl

theorem exec_throw (e : ε) (s : σ) : exec (throw e : Prog σ ε α) s = (.error e, s) := rfl

theorem exec_bind_ok {x : Prog σ ε α} {s s' : σ} {a : α} (h : exec x s = (.ok a, s')) (f : α → Prog σ ε β) :
    exec (x >>= f) s = exec (f a) s' := by
  unfold exec at h ⊢
  simp only [ExceptT.run_bind, StateT.run_bind, h]
  rfl

theorem exec_bind_error {x : Prog σ ε α} {s s' : σ} {e : ε} (h : exec x s = (.error e, s')) (f : α → Prog σ ε β) :
    exec (x >>= f) s = (.error e, s') := by
  unfold exec at h ⊢
  simp only [ExceptT.run_bind, StateT.run_bind, h]
  rfl

theorem exec_onError_ok {x : Prog σ ε α} {s s' : σ} {a : α} (h : exec x s = (.ok a, s')) (cleanup : Prog σ ε Unit) :
    exec (onError x cleanup) s = (.ok a, s') := by
  change StateT.run (ExceptT.run (onError x cleanup)) s = _
  unfold onError
  simp only [ExceptT.run, StateT.run, h]

theorem exec_onError_error {x : Prog σ ε α} {s s' : σ} {e : ε} (h : exec x s = (.error e, s'))
    (cleanup : Prog σ ε Unit) : exec (onError x cleanup) s = exec (cleanup >>= fun _ => throw e) s' := by
  change StateT.run (ExceptT.run (onError x cleanup)) s = _
  unfold onError
  simp only [ExceptT.run, StateT.run, h]

/-! ### Keeping a part of the state -/

def Keeps (f : σ → γ) (x : Prog σ ε α) : Prop := ∀ s, f (exec x s).2 = f s

variable {f : σ → γ}

theorem keeps_pure (a : α) : Keeps f (pure a : Prog σ ε α) := fun _ => rfl

theorem keeps_throw (e : ε) : Keeps f (throw e : Prog σ ε α) := fun _ => rfl

theorem keeps_get : Keeps f (get : Prog σ ε σ) := fun _ => rfl

theorem Keeps.bind {x : Prog σ ε α} {g : α → Prog σ ε β} (hx : Keeps f x) (hg : ∀ a, Keeps f (g a)) :
    Keeps f (x >>= g) := by
  intro s
  have hs := hx s
  cases hrun : exec x s with
  | mk r s' =>
    rw [hrun] at hs
    cases r with
    | ok a =>
      rw [exec_bind_ok hrun, hg a s']
      exact hs
    | error e =>
      rw [exec_bind_error hrun]
      exact hs

theorem Keeps.onError {x : Prog σ ε α} {cleanup : Prog σ ε Unit} (hx : Keeps f x) (hc : Keeps f cleanup) :
    Keeps f (onError x cleanup) := by
  intro s
  have hs := hx s
  cases hrun : exec x s with
  | mk r s' =>
    rw [hrun] at hs
    cases r with
    | ok a =>
      rw [exec_onError_ok hrun]
      exact hs
    | error e =>
      rw [exec_onError_error hrun, (hc.bind fun _ => keeps_throw e) s']
      exact hs

theorem keeps_forM {l : List α} {g : α → Prog σ ε Unit} (hg : ∀ a ∈ l, Keeps f (g a)) : Keeps f (l.forM g) := by
  induction l with
  | nil => exact keeps_pure ()
  | cons a l ih =>
    rw [List.forM_eq_forM, List.forM_cons]
    exact (hg a List.mem_cons_self).bind fun _ => ih fun b hb => hg b (List.mem_cons_of_mem _ hb)

end Lager.Lib
