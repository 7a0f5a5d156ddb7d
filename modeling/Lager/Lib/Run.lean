import Mathlib.Data.List.Basic
import Mathlib.Logic.Basic

/-!
# Runs of a partial step function

A system is a step function `step : σ → ε → Option σ`: the event names what happens (who moves, which
outcome the outside world chose), and `none` means that the event is not possible in that state. A run is a
list of events. `Along step ok s es` says that every step of the run meets `ok` in the state it is taken in,
and the two invariant rules below are how everything about whole runs is proved: `run_invariant` for facts
of the state alone, `run_history` for facts that relate the state to the events so far. `run_gather` is the
second for a history that the steps write.
-/

namespace Lager.Lib

variable {σ ε : Type*} {step : σ → ε → Option σ} {ok : σ → ε → Prop}

/-- The state after the events, or `none` if one of them is not possible where it stands. -/
def run (step : σ → ε → Option σ) : σ → List ε → Option σ
  | s, [] => some s
  | s, e :: es => (step s e).bind fun t => run step t es

@[simp] theorem run_nil (s : σ) : run step s [] = some s := rfl

theorem run_cons (s : σ) (e : ε) (es : List ε) :
    run step s (e :: es) = (step s e).bind fun t => run step t es := rfl

theorem run_append (s : σ) (es fs : List ε) :
    run step s (es ++ fs) = (run step s es).bind fun t => run step t fs := by
  induction es generalizing s with
  | nil => rfl
  | cons e es ih =>
    rw [List.cons_append, run_cons, run_cons]
    cases step s e with
    | none => rfl
    | some t => exact ih t

theorem run_append_some {s u : σ} {es fs : List ε} (h : run step s (es ++ fs) = some u) :
    ∃ t, run step s es = some t ∧ run step t fs = some u := by
  rw [run_append] at h
  exact Option.bind_eq_some_iff.mp h

/-- Every step of the run from `s` meets `ok` in the state it is taken in. -/
def Along (step : σ → ε → Option σ) (ok : σ → ε → Prop) : σ → List ε → Prop
  | _, [] => True
  | s, e :: es => ok s e ∧ ∀ t, step s e = some t → Along step ok t es

instance decidableAlong [∀ s e, Decidable (ok s e)] : ∀ (s : σ) (es : List ε), Decidable (Along step ok s es)
  | _, [] => isTrue trivial
  | s, e :: es =>
    match h : step s e with
    | none => decidable_of_iff (ok s e) ⟨fun hok => ⟨hok, by simp [h]⟩, fun hal => hal.1⟩
    | some t =>
      have := decidableAlong t es
      decidable_of_iff (ok s e ∧ Along step ok t es) (by simp [Along, h])

theorem Along.append {s t : σ} {es fs : List ε} (h : Along step ok s (es ++ fs))
    (hrun : run step s es = some t) : Along step ok s es ∧ Along step ok t fs := by
  induction es generalizing s with
  | nil =>
    cases hrun
    exact ⟨trivial, h⟩
  | cons e es ih =>
    obtain ⟨u, hstep, hrest⟩ := Option.bind_eq_some_iff.mp (run_cons s e es ▸ hrun)
    obtain ⟨hok, hnext⟩ := h
    obtain ⟨hes, hfs⟩ := ih (hnext u hstep) hrest
    refine ⟨⟨hok, fun v hv => ?_⟩, hfs⟩
    rw [hstep] at hv
    cases hv
    exact hes

theorem Along.imp {ok' : σ → ε → Prop} (himp : ∀ s e, ok s e → ok' s e) {s : σ} {es : List ε}
    (h : Along step ok s es) : Along step ok' s es := by
  induction es generalizing s with
  | nil => exact trivial
  | cons e es ih => exact ⟨himp s e h.1, fun t ht => ih (h.2 t ht)⟩

/-- What holds of every event of a list may be added to what every step meets. -/
theorem Along.and_mem {q : ε → Prop} {s : σ} {es : List ε} (h : Along step ok s es) (hq : ∀ e ∈ es, q e) :
    Along step (fun s e => ok s e ∧ q e) s es := by
  induction es generalizing s with
  | nil => exact trivial
  | cons e es ih =>
    obtain ⟨hok, hnext⟩ := h
    refine ⟨⟨hok, hq e List.mem_cons_self⟩, fun t ht => ?_⟩
    exact ih (hnext t ht) fun e' he' => hq e' (List.mem_cons_of_mem e he')

/-- **Invariant rule.** What holds at the start and is kept by every step that meets `ok` holds in the last
state of every run whose steps meet `ok`. -/
theorem run_invariant (I : σ → Prop) (hstep : ∀ s e t, ok s e → I s → step s e = some t → I t)
    {s t : σ} {es : List ε} (hal : Along step ok s es) (h0 : I s) (hrun : run step s es = some t) : I t := by
  induction es generalizing s with
  | nil => cases hrun; exact h0
  | cons e es ih =>
    obtain ⟨u, hu, hrest⟩ := Option.bind_eq_some_iff.mp (run_cons s e es ▸ hrun)
    exact ih (hal.2 u hu) (hstep s e u hal.1 h0 hu) hrest

/-- The invariant rule for a fact that every step keeps. -/
theorem run_preserves (I : σ → Prop) (hstep : ∀ s e t, I s → step s e = some t → I t) {s t : σ}
    {es : List ε} (h0 : I s) (hrun : run step s es = some t) : I t := by
  induction es generalizing s with
  | nil => cases hrun; exact h0
  | cons e es ih =>
    obtain ⟨u, hu, hrest⟩ := Option.bind_eq_some_iff.mp (run_cons s e es ▸ hrun)
    exact ih (hstep s e u h0 hu) hrest

theorem Along.trivial (s : σ) (es : List ε) : Along step (fun _ _ => True) s es := by
  induction es generalizing s with
  | nil => exact True.intro
  | cons e es ih => exact ⟨True.intro, fun t _ => ih t⟩

/-- **History rule.** The same with the events so far: `I es t` relates the state to the run that led to it. -/
theorem run_history_along (I : List ε → σ → Prop)
    (hstep : ∀ es s e t, ok s e → I es s → step s e = some t → I (es ++ [e]) t) {s t : σ} {es : List ε}
    (hal : Along step ok s es) (h0 : I [] s) (hrun : run step s es = some t) : I es t := by
  -- generalized over the events that led to `s`
  suffices h : ∀ (es pre : List ε) (s : σ), Along step ok s es → I pre s → run step s es = some t → I (pre ++ es) t from
    h es [] s hal h0 hrun
  intro es
  induction es with
  | nil =>
    intro pre s _ hI hr
    cases hr
    rwa [List.append_nil]
  | cons e es ih =>
    intro pre s hok hI hr
    obtain ⟨u, hu, hrest⟩ := Option.bind_eq_some_iff.mp (run_cons s e es ▸ hr)
    rw [List.append_cons]
    exact ih (pre ++ [e]) u (hok.2 u hu) (hstep pre s e u hok.1 hI hu) hrest

/-- The history rule for a relation that every step keeps. -/
theorem run_history (I : List ε → σ → Prop) (hstep : ∀ es s e t, I es s → step s e = some t → I (es ++ [e]) t)
    {s t : σ} {es : List ε} (h0 : I [] s) (hrun : run step s es = some t) : I es t :=
  run_history_along I (fun es s e t _ hI hs => hstep es s e t hI hs) (Along.trivial s es) h0 hrun

/-- The sum of `w` over the steps of the run from `s`. -/
def tally (step : σ → ε → Option σ) (w : σ → ε → Nat) : σ → List ε → Nat
  | _, [] => 0
  | s, e :: es => w s e + ((step s e).elim 0 fun t => tally step w t es)

theorem tally_eq_zero_iff {w : σ → ε → Nat} {s t : σ} {es : List ε} (hrun : run step s es = some t) :
    tally step w s es = 0 ↔ Along step (fun s e => w s e = 0) s es := by
  induction es generalizing s with
  | nil => exact ⟨fun _ => trivial, fun _ => rfl⟩
  | cons e es ih =>
    obtain ⟨u, hu, hrest⟩ := Option.bind_eq_some_iff.mp (run_cons s e es ▸ hrun)
    rw [tally, hu, Option.elim_some, Nat.add_eq_zero_iff, ih hrest, Along]
    refine and_congr_right fun _ => ⟨fun h v hv => ?_, fun h => h u hu⟩
    cases hu.symm.trans hv
    exact h

/-- **Accounting rule.** A measure that every step moves by `w`, as long as an invariant holds, has moved by
the tally of `w` at the end of the run. -/
theorem run_tally {w : σ → ε → Nat} (I : σ → Prop) (m : σ → Int)
    (hstep : ∀ s e t, I s → step s e = some t → I t ∧ m t = m s + w s e)
    {s t : σ} {es : List ε} (h0 : I s) (hrun : run step s es = some t) :
    m t = m s + tally step w s es := by
  induction es generalizing s with
  | nil =>
    cases hrun
    exact (Int.add_zero _).symm
  | cons e es ih =>
    obtain ⟨u, hu, hrest⟩ := Option.bind_eq_some_iff.mp (run_cons s e es ▸ hrun)
    obtain ⟨hI, hm⟩ := hstep s e u h0 hu
    rw [ih hI hrest, hm, tally, hu, Option.elim_some, Int.natCast_add, Int.add_assoc]

/-- What the steps of the run from `s` add to a history, in their order. -/
def gather {β : Type*} (step : σ → ε → Option σ) (adds : σ → ε → List β) : σ → List ε → List β
  | _, [] => []
  | s, e :: es => adds s e ++ ((step s e).elim [] fun t => gather step adds t es)

/-- **Gathering rule.** An invariant of the history and the state that every step keeps when it adds to the
history holds of what the run has gathered. -/
theorem run_gather {β : Type*} {adds : σ → ε → List β} (I : List β → σ → Prop)
    (hstep : ∀ acc s e t, I acc s → step s e = some t → I (acc ++ adds s e) t)
    {s t : σ} {es : List ε} (h0 : I [] s) (hrun : run step s es = some t) : I (gather step adds s es) t := by
  -- generalized over the history that led to `s`
  suffices h : ∀ (es : List ε) (acc : List β) (s : σ), I acc s → run step s es = some t →
      I (acc ++ gather step adds s es) t from h es [] s h0 hrun
  intro es
  induction es with
  | nil =>
    intro acc s hI hr
    cases hr
    rwa [gather, List.append_nil]
  | cons e es ih =>
    intro acc s hI hr
    obtain ⟨u, hu, hrest⟩ := Option.bind_eq_some_iff.mp (run_cons s e es ▸ hr)
    rw [gather, hu, Option.elim_some, ← List.append_assoc]
    exact ih (acc ++ adds s e) u (hstep acc s e u hI hu) hrest

end Lager.Lib
