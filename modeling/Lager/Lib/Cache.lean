import Mathlib.Data.List.Induction

/-!
# The history of a cached value

A cache of one value is invalidated, gets a value stored, and serves it. `held` is what it holds after a history of
such events, and a history is `Sound` when each value it served was held at that time. What a sound history serves
was stored before, with nothing but servings in between (`Sound.stored_before`).
-/

namespace Lager.Lib

inductive CacheEvent (α : Type*) where
  | invalidated
  | stored (a : α)
  | served (a : α)

namespace CacheEvent

variable {α : Type*}

/-- The value held after one more event. -/
def next (current : Option α) : CacheEvent α → Option α
  | invalidated => none
  | stored a => some a
  | served _ => current

def held (es : List (CacheEvent α)) : Option α := es.foldl next none

@[simp] theorem held_nil : held ([] : List (CacheEvent α)) = none := rfl

@[simp] theorem held_concat (es : List (CacheEvent α)) (e : CacheEvent α) : held (es ++ [e]) = next (held es) e := by
  simp [held]

/-- What is held was stored, and only served since. -/
theorem held_eq_some {es : List (CacheEvent α)} {a : α} (h : held es = some a) :
    ∃ before since, es = before ++ stored a :: since ∧ ∀ e ∈ since, ∃ b, e = served b := by
  induction es using List.reverseRecOn with
  | nil => simp at h
  | append_singleton es e ih =>
    rw [held_concat] at h
    cases e with
    | invalidated => simp [next] at h
    | stored b =>
      obtain rfl : b = a := by simpa [next] using h
      exact ⟨es, [], rfl, by simp⟩
    | served b =>
      obtain ⟨before, since, rfl, hsince⟩ := ih h
      refine ⟨before, since ++ [served b], by simp, ?_⟩
      intro e he
      rcases List.mem_append.mp he with he | he
      · exact hsince e he
      · exact ⟨b, List.mem_singleton.mp he⟩

/-- Each value was held when it was served. -/
def Sound (es : List (CacheEvent α)) : Prop := ∀ pre a post, es = pre ++ served a :: post → held pre = some a

namespace Sound

theorem nil : Sound ([] : List (CacheEvent α)) := by
  intro pre a post h
  simp at h

theorem concat {es : List (CacheEvent α)} {e : CacheEvent α} (h : Sound es)
    (he : ∀ a, e = served a → held es = some a) : Sound (es ++ [e]) := by
  intro pre a post heq
  rcases List.append_eq_append_iff.mp heq with ⟨rest, hpre, hrest⟩ | ⟨rest, hes, hrest⟩
  · -- the serving is the last event
    cases rest with
    | nil =>
      rw [hpre, List.append_nil]
      simp only [List.nil_append, List.cons.injEq] at hrest
      exact he a hrest.1
    | cons x rest => simp at hrest
  · cases rest with
    | nil =>
      rw [List.append_nil] at hes
      simp only [List.nil_append, List.cons.injEq] at hrest
      rw [← hes]
      exact he a hrest.1.symm
    | cons x rest =>
      simp only [List.cons_append, List.cons.injEq] at hrest
      obtain ⟨rfl, -⟩ := hrest
      exact h pre a rest hes

/-- **What is served is current**: it was stored, and since then nothing was stored or invalidated. -/
theorem stored_before {es pre post : List (CacheEvent α)} {a : α} (h : Sound es) (heq : es = pre ++ served a :: post) :
    ∃ before since, pre = before ++ stored a :: since ∧ invalidated ∉ since := by
  obtain ⟨before, since, hpre, hsince⟩ := held_eq_some (h pre a post heq)
  refine ⟨before, since, hpre, fun hmem => ?_⟩
  obtain ⟨b, hb⟩ := hsince invalidated hmem
  cases hb

end Sound

end CacheEvent

end Lager.Lib
