import Mathlib.Data.List.Induction
import Mathlib.Order.Lattice

/-!
# Machines with an output

A step takes a state and an event to the next state and an output. `after` and `outputs` are the state and the
outputs of a whole run, oldest first.
-/

namespace Lager.Lib

variable {σ ε ω : Type*} (step : σ → ε → σ × ω)

/-- The state after the events. -/
def after : σ → List ε → σ
  | s, [] => s
  | s, e :: es => after (step s e).1 es

/-- The outputs of the events. -/
def outputs : σ → List ε → List ω
  | _, [] => []
  | s, e :: es => (step s e).2 :: outputs (step s e).1 es

variable {step}

theorem after_append (s : σ) (es fs : List ε) : after step s (es ++ fs) = after step (after step s es) fs := by
  induction es generalizing s with
  | nil => rfl
  | cons e es ih => exact ih _

theorem outputs_append (s : σ) (es fs : List ε) :
    outputs step s (es ++ fs) = outputs step s es ++ outputs step (after step s es) fs := by
  induction es generalizing s with
  | nil => rfl
  | cons e es ih =>
    show (step s e).2 :: _ = (step s e).2 :: _
    exact congrArg _ (ih _)

@[simp] theorem length_outputs (s : σ) (es : List ε) : (outputs step s es).length = es.length := by
  induction es generalizing s with
  | nil => rfl
  | cons e es ih => exact congrArg (· + 1) (ih _)

/-- Outputs in two parts come from events in two parts. -/
theorem outputs_eq_append {s : σ} {es : List ε} {xs ys : List ω} (h : outputs step s es = xs ++ ys) :
    ∃ fs gs, es = fs ++ gs ∧ outputs step s fs = xs ∧ outputs step (after step s fs) gs = ys := by
  induction xs generalizing s es with
  | nil => exact ⟨[], es, rfl, rfl, h⟩
  | cons x xs ih =>
    cases es with
    | nil => cases h
    | cons e es =>
      obtain ⟨hx, htail⟩ := List.cons.inj h
      obtain ⟨fs, gs, rfl, hfs, hgs⟩ := ih htail
      exact ⟨e :: fs, gs, rfl, by rw [← hx, ← hfs]; rfl, hgs⟩

/-- An output and the state that gave it. -/
theorem outputs_eq_cons {s : σ} {es : List ε} {x : ω} {xs : List ω} (h : outputs step s es = x :: xs) :
    ∃ e fs, es = e :: fs ∧ (step s e).2 = x ∧ outputs step (step s e).1 fs = xs := by
  cases es with
  | nil => cases h
  | cons e es =>
    obtain ⟨hx, hxs⟩ := List.cons.inj h
    exact ⟨e, es, rfl, hx, hxs⟩

/-- What holds of the outputs so far and the state holds after every run. -/
theorem outputs_history (I : List ω → σ → Prop)
    (hstep : ∀ done s e, I done s → I (done ++ [(step s e).2]) (step s e).1) {s : σ} (hinit : I [] s) (es : List ε) :
    I (outputs step s es) (after step s es) := by
  induction es using List.reverseRecOn with
  | nil => exact hinit
  | append_singleton es e ih =>
    rw [outputs_append, after_append]
    exact hstep _ _ _ ih

/-- A step that keeps an invariant gives outputs of the kind the invariant promises. -/
theorem outputs_forall (I : σ → Prop) {q : ε → Prop} {p : ω → Prop}
    (hstep : ∀ s e, I s → q e → I (step s e).1 ∧ p (step s e).2) {s : σ} (hinit : I s) {es : List ε}
    (hes : ∀ e ∈ es, q e) : ∀ o ∈ outputs step s es, p o := by
  induction es generalizing s with
  | nil => exact fun o ho => absurd ho List.not_mem_nil
  | cons e es ih =>
    obtain ⟨hnext, hout⟩ := hstep s e hinit (hes e List.mem_cons_self)
    intro o ho
    rcases List.mem_cons.mp ho with rfl | ho
    · exact hout
    · exact ih hnext (fun e he => hes e (List.mem_cons_of_mem _ he)) o ho

/-- A step that hands its event on in the output. -/
theorem map_outputs {f : ω → ε} (hf : ∀ s e, f (step s e).2 = e) (s : σ) (es : List ε) :
    (outputs step s es).map f = es := by
  induction es generalizing s with
  | nil => rfl
  | cons e es ih =>
    show f (step s e).2 :: _ = e :: es
    rw [hf, ih]

/-! ### Stretches of a list in order -/

section Order

variable {α τ : Type*} [LinearOrder τ]

theorem filter_append_filter_not {p : α → Bool} {l : List α} (h : l.Pairwise fun x y => p y = true → p x = true) :
    l.filter p ++ l.filter (fun x => !p x) = l := by
  induction l with
  | nil => rfl
  | cons x l ih =>
    obtain ⟨hx, hl⟩ := List.pairwise_cons.mp h
    cases hp : p x with
    | true =>
      rw [List.filter_cons_of_pos hp, List.filter_cons_of_neg (by simp [hp]), List.cons_append, ih hl]
    | false =>
      have hnone : ∀ y ∈ l, p y = false := by
        intro y hy
        by_contra hc
        rw [hx y hy (by simpa using hc)] at hp
        cases hp
      rw [List.filter_cons_of_neg (by simp [hp]), List.filter_cons_of_pos (by simp [hp]),
        List.filter_eq_nil_iff.mpr (by simpa using hnone), List.nil_append, List.filter_eq_self.mpr]
      intro y hy
      rw [hnone y hy]
      rfl

/-- What reaches into an interval is one stretch of a list in order. Each element takes from `f` to `g`. -/
theorem exists_stretch {f g : α → τ} {l : List α} (hf : l.Pairwise fun x y => f x ≤ f y)
    (hg : l.Pairwise fun x y => g x ≤ g y) (a b : τ) :
    ∃ pre post, l = pre ++ l.filter (fun x => decide (a ≤ g x) && decide (f x ≤ b)) ++ post := by
  have hbelow : l.filter (fun x => decide (g x < a)) ++ l.filter (fun x => !decide (g x < a)) = l := by
    refine filter_append_filter_not (hg.imp fun hxy hy => ?_)
    rw [decide_eq_true_eq] at hy ⊢
    exact lt_of_le_of_lt hxy hy
  have habove : (l.filter fun x => !decide (g x < a)).filter (fun x => decide (f x ≤ b)) ++
      (l.filter fun x => !decide (g x < a)).filter (fun x => !decide (f x ≤ b)) =
        l.filter fun x => !decide (g x < a) := by
    refine filter_append_filter_not ((hf.filter _).imp fun hxy hy => ?_)
    rw [decide_eq_true_eq] at hy ⊢
    exact le_trans hxy hy
  have hinside : (l.filter fun x => !decide (g x < a)).filter (fun x => decide (f x ≤ b)) =
      l.filter fun x => decide (a ≤ g x) && decide (f x ≤ b) := by
    rw [List.filter_filter]
    congr 1
    funext x
    have hnot : (!decide (g x < a)) = decide (a ≤ g x) := by
      rw [← decide_not]
      exact decide_eq_decide.mpr not_lt
    rw [Bool.and_comm, hnot]
  rw [hinside] at habove
  exact ⟨_, _, by rw [List.append_assoc, habove, hbelow]⟩

end Order

end Lager.Lib
