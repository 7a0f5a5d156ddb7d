import Mathlib.Algebra.Order.Field.Basic
import Mathlib.Tactic.Linarith

/-!
# The nearest value within reach

`nearest r x` is `x` where it is at most `r` away from zero, and the end on its side where it is further away.
`settle` takes a value through one reach after another: what is left is the nearest value within the least of them
(`settle_cases`).
-/

namespace Lager.Lib

variable {K : Type} [Field K] [LinearOrder K]

def nearest (r x : K) : K := if r < |x| then (if x < 0 then -r else r) else x

def settle (rs : List K) (x : K) : K := rs.foldl (fun y r => nearest r y) x

theorem nearest_of_le {r x : K} (h : |x| ≤ r) : nearest r x = x := if_neg (not_lt.mpr h)

theorem settle_append (rs : List K) (r x : K) : settle (rs ++ [r]) x = nearest r (settle rs x) := by
  unfold settle
  rw [List.foldl_append]
  rfl

variable [IsStrictOrderedRing K]

theorem abs_nearest_le {r : K} (hr : 0 ≤ r) (x : K) : |nearest r x| ≤ r := by
  unfold nearest
  split_ifs with h hneg
  · rw [abs_neg, abs_of_nonneg hr]
  · rw [abs_of_nonneg hr]
  · exact not_lt.mp h

theorem abs_nearest_of_lt {r x : K} (hr : 0 ≤ r) (h : r < |x|) : |nearest r x| = r := by
  unfold nearest
  rw [if_pos h]
  split_ifs
  · rw [abs_neg, abs_of_nonneg hr]
  · rw [abs_of_nonneg hr]

/-- A smaller reach after a larger one is as good as alone. -/
theorem nearest_nearest {r r' x : K} (hr : 0 < r) (hle : r ≤ r') : nearest r (nearest r' x) = nearest r x := by
  by_cases h : r' < |x|
  · have hfar : r < |x| := lt_of_le_of_lt hle h
    by_cases hneg : x < 0
    · have hinner : nearest r' x = -r' := by rw [nearest, if_pos h, if_pos hneg]
      rw [hinner]
      have hneg' : -r' < 0 := by linarith
      unfold nearest
      rw [abs_neg, abs_of_pos (lt_of_lt_of_le hr hle), if_pos hneg', if_pos hfar, if_pos hneg]
      split_ifs with heq
      · rfl
      · rw [le_antisymm hle (not_lt.mp heq)]
    · have hinner : nearest r' x = r' := by rw [nearest, if_pos h, if_neg hneg]
      rw [hinner]
      have hpos : ¬r' < 0 := by linarith
      unfold nearest
      rw [abs_of_pos (lt_of_lt_of_le hr hle), if_neg hpos, if_pos hfar, if_neg hneg]
      split_ifs with heq
      · rfl
      · rw [le_antisymm hle (not_lt.mp heq)]
  · rw [nearest_of_le (not_lt.mp h)]

theorem nearest_mul {a : K} (ha : 0 < a) (r x : K) : nearest (r * a) (x * a) = nearest r x * a := by
  unfold nearest
  have habs : r * a < |x * a| ↔ r < |x| := by rw [abs_mul, abs_of_pos ha, mul_lt_mul_iff_left₀ ha]
  have hneg : x * a < 0 ↔ x < 0 := by
    rw [← zero_mul a, mul_lt_mul_iff_left₀ ha, zero_mul]
  simp only [habs, hneg]
  split_ifs
  · rw [neg_mul]
  · rfl
  · rfl

/-- What is left is the value itself, or the end of the least reach where that is nearer. -/
theorem settle_cases {rs : List K} (hpos : ∀ r ∈ rs, 0 < r) (x : K) :
    ((∀ r ∈ rs, |x| ≤ r) ∧ settle rs x = x) ∨
      ∃ r ∈ rs, (∀ r' ∈ rs, r ≤ r') ∧ r < |x| ∧ settle rs x = nearest r x := by
  induction rs generalizing x with
  | nil => exact Or.inl ⟨nofun, rfl⟩
  | cons r rs ih =>
    have hr : 0 < r := hpos r List.mem_cons_self
    have hcons : settle (r :: rs) x = settle rs (nearest r x) := rfl
    rw [hcons]
    have hrest := ih (fun r' h => hpos r' (List.mem_cons_of_mem r h)) (nearest r x)
    by_cases hfar : r < |x|
    · -- the rest of the reaches meet the end of this one
      rw [abs_nearest_of_lt hr.le hfar] at hrest
      refine Or.inr ?_
      rcases hrest with ⟨hall, heq⟩ | ⟨r₀, hmem, hleast, hlt, heq⟩
      · exact ⟨r, List.mem_cons_self, fun r' hr' => (List.mem_cons.mp hr').elim (fun h => h.ge) (hall r'), hfar, heq⟩
      · have hr₀ : 0 < r₀ := hpos r₀ (List.mem_cons_of_mem r hmem)
        refine ⟨r₀, List.mem_cons_of_mem r hmem, fun r' hr' => ?_, hlt.trans hfar, ?_⟩
        · exact (List.mem_cons.mp hr').elim (fun h => h ▸ hlt.le) (hleast r')
        · rw [heq, nearest_nearest hr₀ hlt.le]
    · rw [nearest_of_le (not_lt.mp hfar)] at hrest ⊢
      rcases hrest with ⟨hall, heq⟩ | ⟨r₀, hmem, hleast, hlt, heq⟩
      · refine Or.inl ⟨fun r' hr' => ?_, heq⟩
        exact (List.mem_cons.mp hr').elim (fun h => h ▸ not_lt.mp hfar) (hall r')
      · refine Or.inr ⟨r₀, List.mem_cons_of_mem r hmem, fun r' hr' => ?_, hlt, heq⟩
        exact (List.mem_cons.mp hr').elim (fun h => h ▸ (hlt.le.trans (not_lt.mp hfar))) (hleast r')

end Lager.Lib
