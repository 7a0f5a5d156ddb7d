import Mathlib.Data.List.Basic
import Mathlib.Data.List.Forall2

/-!
# Loops that may raise

A loop `for x in xs: s = f(s, x)` whose body may raise is `xs.foldlM f s` in `Except`. `foldlM_history` is
the invariant rule for it: the fact may speak of the items done so far.
-/

namespace Lager.Lib

variable {ε σ α : Type*} {f : σ → α → Except ε σ}

theorem foldlM_cons_ok {s t : σ} {x : α} {xs : List α} (h : (x :: xs).foldlM f s = .ok t) :
    ∃ u, f s x = .ok u ∧ xs.foldlM f u = .ok t := by
  rw [List.foldlM_cons] at h
  cases hx : f s x with
  | error e =>
    rw [hx] at h
    cases h
  | ok u =>
    rw [hx] at h
    exact ⟨u, rfl, h⟩

/-- **Loop rule.** What holds before the loop and is kept by each item holds after it. -/
theorem foldlM_history (I : List α → σ → Prop) (hstep : ∀ done s x t, I done s → f s x = .ok t → I (done ++ [x]) t)
    {s t : σ} {xs : List α} (h0 : I [] s) (hrun : xs.foldlM f s = .ok t) : I xs t := by
  suffices h : ∀ (xs done : List α) (s : σ), I done s → xs.foldlM f s = .ok t → I (done ++ xs) t from
    h xs [] s h0 hrun
  intro xs
  induction xs with
  | nil =>
    intro done s hI hr
    cases hr
    rwa [List.append_nil]
  | cons x xs ih =>
    intro done s hI hr
    obtain ⟨u, hu, hrest⟩ := foldlM_cons_ok hr
    rw [List.append_cons]
    exact ih (done ++ [x]) u (hstep done s x u hI hu) hrest

/-- A loop whose body returns on every item returns. -/
theorem foldlM_returns {s : σ} {xs : List α} (h : ∀ s, ∀ x ∈ xs, ∃ t, f s x = .ok t) :
    ∃ t, xs.foldlM f s = .ok t := by
  induction xs generalizing s with
  | nil => exact ⟨s, rfl⟩
  | cons x xs ih =>
    obtain ⟨u, hu⟩ := h s x List.mem_cons_self
    obtain ⟨t, ht⟩ := ih (s := u) fun s y hy => h s y (List.mem_cons_of_mem _ hy)
    refine ⟨t, ?_⟩
    rw [List.foldlM_cons, hu]
    exact ht

/-- Two loops whose bodies do the same on corresponding states and items. -/
theorem foldlM_simulates {τ β : Type*} {g : τ → β → Except ε τ} {st : σ → τ} {item : α → β}
    (h : ∀ s x, g (st s) (item x) = (f s x).map st) (s : σ) (xs : List α) :
    (xs.map item).foldlM g (st s) = (xs.foldlM f s).map st := by
  induction xs generalizing s with
  | nil => rfl
  | cons x xs ih =>
    rw [List.map_cons, List.foldlM_cons, List.foldlM_cons, h]
    cases f s x with
    | error e => rfl
    | ok u => exact ih u

/-! ### Statements that return a value -/

@[simp] theorem ok_bind {β γ : Type} (a : β) (g : β → Except ε γ) : (Except.ok a >>= g) = g a := rfl

theorem bind_eq_ok {β γ : Type} {x : Except ε β} {g : β → Except ε γ} {r : γ} (h : (x >>= g) = .ok r) :
    ∃ a, x = .ok a ∧ g a = .ok r := by
  cases x with
  | error e => cases h
  | ok a => exact ⟨a, rfl, h⟩

theorem bind_eq_error_iff {β γ : Type} {x : Except ε β} {g : β → Except ε γ} {e : ε} :
    (x >>= g) = .error e ↔ x = .error e ∨ ∃ a, x = .ok a ∧ g a = .error e := by
  cases x with
  | error e' =>
    constructor
    · exact fun h => Or.inl (congrArg Except.error (Except.error.inj h))
    · rintro (h | ⟨a, h, -⟩)
      · rw [h]
        rfl
      · cases h
  | ok a =>
    constructor
    · exact fun h => Or.inr ⟨a, rfl, h⟩
    · rintro (h | ⟨b, h, hg⟩)
      · cases h
      · rw [Except.ok.inj h]
        exact hg

/-- A statement in front that does not raise `e`, and a rest that does not. -/
theorem bind_ne_error {β γ : Type} {x : Except ε β} {g : β → Except ε γ} {e : ε} (hx : x ≠ .error e)
    (hg : ∀ a, x = .ok a → g a ≠ .error e) : (x >>= g) ≠ .error e := by
  cases x with
  | error e' => exact fun h => hx (congrArg Except.error (Except.error.inj h))
  | ok a => exact hg a rfl

theorem mapM_eq_ok {β : Type} {g : α → Except ε β} {v : α → β} {xs : List α} (h : ∀ x ∈ xs, g x = .ok (v x)) :
    xs.mapM g = .ok (xs.map v) := by
  induction xs with
  | nil => rfl
  | cons x xs ih =>
    rw [List.mapM_cons, h x List.mem_cons_self, ih fun y hy => h y (List.mem_cons_of_mem _ hy)]
    rfl

theorem mapM_ok_iff {β : Type} {g : α → Except ε β} {xs : List α} {ys : List β} :
    xs.mapM g = .ok ys ↔ List.Forall₂ (fun x y => g x = .ok y) xs ys := by
  induction xs generalizing ys with
  | nil =>
    constructor
    · intro h
      cases h
      exact .nil
    · intro h
      cases h
      rfl
  | cons x xs ih =>
    rw [List.mapM_cons]
    constructor
    · intro h
      obtain ⟨y, hy, h⟩ := bind_eq_ok h
      obtain ⟨zs, hzs, h⟩ := bind_eq_ok h
      cases h
      exact .cons hy (ih.mp hzs)
    · intro h
      cases h with
      | cons hy hzs => rw [hy, ok_bind, ih.mpr hzs, ok_bind]; rfl

/-- A map over what a map has made. -/
theorem mapM_map_eq_ok {β γ : Type} {g : β → Except ε γ} {f : α → β} {v : α → γ} {xs : List α}
    (h : ∀ x ∈ xs, g (f x) = .ok (v x)) : (xs.map f).mapM g = .ok (xs.map v) := by
  induction xs with
  | nil => rfl
  | cons x xs ih =>
    rw [List.map_cons, List.mapM_cons, h x List.mem_cons_self, ih fun y hy => h y (List.mem_cons_of_mem _ hy)]
    rfl

/-- A loop over `0..n` that collects its results. -/
theorem mapM_range_ok_iff {β : Type} {g : Nat → Except ε β} {n : Nat} {ys : List β} :
    (List.range n).mapM g = .ok ys ↔ ys.length = n ∧ ∀ i (h : i < ys.length), g i = .ok ys[i] := by
  rw [mapM_ok_iff, List.forall₂_iff_get]
  constructor
  · rintro ⟨hlen, hall⟩
    refine ⟨hlen.symm.trans List.length_range, fun i hi => ?_⟩
    have := hall i (hlen ▸ hi) hi
    rwa [List.get_eq_getElem, List.getElem_range] at this
  · rintro ⟨hlen, hall⟩
    refine ⟨List.length_range.trans hlen.symm, fun i _ hi => ?_⟩
    rw [List.get_eq_getElem, List.getElem_range]
    exact hall i hi

/-- The error of a loop is the error of one of its rounds. -/
theorem mapM_error {β : Type} {g : α → Except ε β} {xs : List α} {e : ε} (h : xs.mapM g = .error e) :
    ∃ x ∈ xs, g x = .error e := by
  induction xs with
  | nil => cases h
  | cons x xs ih =>
    rw [List.mapM_cons] at h
    cases hx : g x with
    | error e' =>
      rw [hx] at h
      cases h
      exact ⟨x, List.mem_cons_self, hx⟩
    | ok y =>
      rw [hx, ok_bind] at h
      cases hxs : xs.mapM g with
      | error e' =>
        rw [hxs] at h
        cases h
        obtain ⟨z, hz, hg⟩ := ih hxs
        exact ⟨z, List.mem_cons_of_mem _ hz, hg⟩
      | ok ys =>
        rw [hxs] at h
        cases h

end Lager.Lib
