import Lager.Lib.Frame

/-!
# Triples of fallible programs

`Triple P x Q E`: from a state in which `P` holds, `x` returns in one in which `Q` holds of what it returns, or raises
in one in which `E` holds. The rules follow how a program is put together; `triple_attempt` is that of a program whose
error is looked at and not passed on.
-/

namespace Lager.Lib

variable {σ ε α β : Type}

/-- The result as a value: the error is not passed on. -/
def attempt (x : Prog σ ε α) : Prog σ ε (Except ε α) := fun s => (.ok (exec x s).1, (exec x s).2)

/-- `if c { x }`. -/
def when (c : Prop) [Decidable c] (x : Prog σ ε Unit) : Prog σ ε Unit := if c then x else pure ()

theorem exec_attempt (x : Prog σ ε α) (s : σ) : exec (attempt x) s = (.ok (exec x s).1, (exec x s).2) := rfl

theorem exec_modify (f : σ → σ) (s : σ) : exec (modify f : Prog σ ε Unit) s = (.ok (), f s) := rfl

theorem exec_get (s : σ) : exec (get : Prog σ ε σ) s = (.ok s, s) := rfl

theorem exec_lift (r : Except ε α) (s : σ) : exec (liftM r : Prog σ ε α) s = (r, s) := by
  cases r with
  | ok a => rfl
  | error e => rfl

def Outcome (Q : α → σ → Prop) (E : σ → Prop) : Except ε α × σ → Prop
  | (.ok a, s) => Q a s
  | (.error _, s) => E s

def Triple (P : σ → Prop) (x : Prog σ ε α) (Q : α → σ → Prop) (E : σ → Prop) : Prop :=
  ∀ s, P s → Outcome Q E (exec x s)

variable {P P' : σ → Prop} {Q Q' : α → σ → Prop} {R : β → σ → Prop} {E E' : σ → Prop} {x : Prog σ ε α}

theorem Outcome.imp {r : Except ε α × σ} (h : Outcome Q E r) (hq : ∀ a s, Q a s → Q' a s) (he : ∀ s, E s → E' s) :
    Outcome Q' E' r := by
  obtain ⟨r, s⟩ := r
  cases r with
  | ok a => exact hq a s h
  | error e => exact he s h

theorem Triple.imp (h : Triple P x Q E) (hp : ∀ s, P' s → P s) (hq : ∀ a s, Q a s → Q' a s) (he : ∀ s, E s → E' s) :
    Triple P' x Q' E' := fun s hs => (h s (hp s hs)).imp hq he

theorem triple_true : Triple P x (fun _ _ => True) (fun _ => True) := by
  intro s _
  cases exec x s with
  | mk r t =>
    cases r with
    | ok a => exact trivial
    | error e => exact trivial

/-- The start state by name. -/
theorem triple_start (h : ∀ s, P s → Triple (· = s) x Q E) : Triple P x Q E := fun s hs => h s hs s rfl

theorem triple_pure {a : α} (h : ∀ s, P s → Q a s) : Triple P (pure a : Prog σ ε α) Q E := h

theorem triple_throw {e : ε} (h : ∀ s, P s → E s) : Triple P (throw e : Prog σ ε α) Q E := h


theorem triple_modify {f : σ → σ} {Q : Unit → σ → Prop} (h : ∀ s, P s → Q () (f s)) :
    Triple P (modify f : Prog σ ε Unit) Q E := h

theorem triple_bind {f : α → Prog σ ε β} (hx : Triple P x Q E) (hf : ∀ a, Triple (Q a) (f a) R E) :
    Triple P (x >>= f) R E := by
  intro s hs
  have hfirst := hx s hs
  cases hrun : exec x s with
  | mk r s' =>
    rw [hrun] at hfirst
    cases r with
    | ok a =>
      rw [exec_bind_ok hrun]
      exact hf a s' hfirst
    | error e =>
      rw [exec_bind_error hrun]
      exact hfirst

/-- What a program reads of the state first. -/
theorem triple_get_bind {f : σ → Prog σ ε β} (h : ∀ s, P s → Triple (· = s) (f s) R E) :
    Triple P (get >>= f) R E := by
  intro s hs
  rw [exec_bind_ok (exec_get s)]
  exact h s hs s rfl

theorem triple_attempt (h : Triple P x Q E) :
    Triple P (attempt x) (fun r s => Outcome Q E (r, s)) E' := by
  intro s hs
  rw [exec_attempt]
  exact h s hs

theorem triple_lift {r : Except ε α} (hok : ∀ a, r = .ok a → ∀ s, P s → Q a s)
    (herr : ∀ e, r = .error e → ∀ s, P s → E s) : Triple P (liftM r : Prog σ ε α) Q E := by
  intro s hs
  rw [exec_lift]
  cases r with
  | ok a => exact hok a rfl s hs
  | error e => exact herr e rfl s hs

theorem triple_ite {c : Prop} [Decidable c] {y : Prog σ ε α} (ht : c → Triple P x Q E) (hf : ¬c → Triple P y Q E) :
    Triple P (if c then x else y) Q E := by
  by_cases hc : c
  · rw [if_pos hc]
    exact ht hc
  · rw [if_neg hc]
    exact hf hc

theorem triple_when {c : Prop} [Decidable c] {x : Prog σ ε Unit} {Q : Unit → σ → Prop} (ht : c → Triple P x Q E)
    (hf : ¬c → ∀ s, P s → Q () s) : Triple P (when c x) Q E :=
  triple_ite ht fun hc => triple_pure (hf hc)

/-- A loop, by an invariant. -/
theorem triple_forM {l : List α} {g : α → Prog σ ε Unit} (hg : ∀ a ∈ l, Triple P (g a) (fun _ => P) E) :
    Triple P (l.forM g) (fun _ => P) E := by
  induction l with
  | nil => exact triple_pure fun _ hs => hs
  | cons a l ih =>
    rw [List.forM_eq_forM, List.forM_cons]
    exact triple_bind (hg a List.mem_cons_self) fun _ => ih fun b hb => hg b (List.mem_cons_of_mem a hb)

/-- A loop, by what holds of the part that is done. -/
theorem triple_forM_done {l : List α} {g : α → Prog σ ε Unit} {I : List α → σ → Prop}
    (hg : ∀ done a rest, l = done ++ a :: rest → Triple (I done) (g a) (fun _ => I (done ++ [a])) E) :
    Triple (I []) (l.forM g) (fun _ => I l) E := by
  suffices h : ∀ rest done, l = done ++ rest → Triple (I done) (rest.forM g) (fun _ => I l) E from h l [] rfl
  intro rest
  induction rest with
  | nil =>
    intro done hl
    rw [hl, List.append_nil]
    exact triple_pure fun _ hs => hs
  | cons a rest ih =>
    intro done hl
    rw [List.forM_eq_forM, List.forM_cons]
    refine triple_bind (hg done a rest hl) fun _ => ih (done ++ [a]) ?_
    rw [hl, List.append_assoc]
    rfl

/-! ### What a program keeps, as triples -/

theorem Keeps.triple {γ : Type} {f : σ → γ} (h : Keeps f x) (P : γ → Prop) :
    Triple (fun s => P (f s)) x (fun _ s => P (f s)) (fun s => P (f s)) := by
  intro s hs
  have hkept := h s
  cases hrun : exec x s with
  | mk r t =>
    rw [hrun] at hkept
    have ht : P (f t) := hkept ▸ hs
    cases r with
    | ok a => exact ht
    | error e => exact ht

theorem Keeps.attempt {γ : Type} {f : σ → γ} (h : Keeps f x) : Keeps f (attempt x) := h

theorem Keeps.when {γ : Type} {f : σ → γ} {c : Prop} [Decidable c] {x : Prog σ ε Unit} (h : Keeps f x) :
    Keeps f (when c x) := by
  by_cases hc : c
  · rw [Lib.when, if_pos hc]
    exact h
  · rw [Lib.when, if_neg hc]
    exact keeps_pure ()

theorem keeps_lift {γ : Type} {f : σ → γ} (r : Except ε α) : Keeps f (liftM r : Prog σ ε α) := by
  intro s
  rw [exec_lift]

theorem keeps_modify {γ : Type} {f : σ → γ} {g : σ → σ} (h : ∀ s, f (g s) = f s) :
    Keeps f (modify g : Prog σ ε Unit) := h

end Lager.Lib
