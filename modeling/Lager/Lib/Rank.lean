import Mathlib.Data.List.Sort
import Mathlib.Tactic.ByContra

/-!
# Ranks

The place of an element in the sorted list is the number of the elements below it. Ranks grow with the elements, and
an element that stands in the list several times pushes those above it up as often.
-/

namespace Lager.Lib

variable {α : Type*} [LinearOrder α] {a b : α} {l : List α}

/-- The number of the elements below. -/
def rank (l : List α) (a : α) : Nat := l.countP (· < a)

/-- Induction over the sorted list: what stands before the element is below it, and the rest is not. -/
theorem idxOf_eq_rank [BEq α] [LawfulBEq α] (h : l.Pairwise (· ≤ ·)) (ha : a ∈ l) : l.idxOf a = rank l a := by
  unfold rank
  induction l with
  | nil => cases ha
  | cons b l ih =>
    obtain ⟨hb, hl⟩ := List.pairwise_cons.mp h
    by_cases heq : b = a
    · subst heq
      have hnone : (b :: l).countP (· < b) = 0 := by
        rw [List.countP_eq_zero]
        intro c hc
        rcases List.mem_cons.mp hc with rfl | hc
        · simp
        · simpa using hb c hc
      rw [List.idxOf_cons_self, hnone]
    · have hmem : a ∈ l := (List.mem_cons.mp ha).resolve_left fun h => heq h.symm
      have hlt : b < a := lt_of_le_of_ne (hb a hmem) heq
      rw [List.idxOf_cons_ne l heq, ih hl hmem, List.countP_cons_of_pos (by simpa using hlt)]

theorem idxOf_insertionSort [BEq α] [LawfulBEq α] (ha : a ∈ l) : (l.insertionSort (· ≤ ·)).idxOf a = rank l a := by
  rw [idxOf_eq_rank (List.pairwise_insertionSort _ l) ((List.mem_insertionSort _).mpr ha)]
  exact (List.perm_insertionSort _ l).countP_eq _

theorem rank_le (h : a ≤ b) : rank l a ≤ rank l b :=
  List.countP_mono_left fun c _ hc => by simpa using lt_of_lt_of_le (by simpa using hc) h

/-- An element of the list is below those that are greater. -/
theorem rank_lt (ha : a ∈ l) (h : a < b) : rank l a < rank l b := by
  unfold rank
  induction l with
  | nil => cases ha
  | cons c l ih =>
    by_cases hc : c = a
    · subst hc
      rw [List.countP_cons_of_neg (by simp), List.countP_cons_of_pos (by simpa using h)]
      exact Nat.lt_succ_of_le (rank_le (le_of_lt h))
    · have hlater := ih ((List.mem_cons.mp ha).resolve_left fun h => hc h.symm)
      by_cases hbelow : c < a
      · rw [List.countP_cons_of_pos (by simpa using hbelow),
          List.countP_cons_of_pos (by simpa using lt_trans hbelow h)]
        omega
      · rw [List.countP_cons_of_neg (by simpa using hbelow)]
        exact Nat.lt_of_lt_of_le hlater (List.Sublist.countP_le (List.sublist_cons_self c l))

/-- Elements of the list with one rank are one. -/
theorem rank_inj (ha : a ∈ l) (hb : b ∈ l) (h : rank l a = rank l b) : a = b := by
  by_contra hne
  rcases lt_or_gt_of_ne hne with hlt | hlt
  · exact absurd h (rank_lt ha hlt).ne
  · exact absurd h (rank_lt hb hlt).ne'

end Lager.Lib
