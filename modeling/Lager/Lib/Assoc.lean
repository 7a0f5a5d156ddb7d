import Mathlib.Data.List.Basic

/-!
# Association lists

`List.lookup` in a list whose keys differ, and in one from which keys have been taken out; putting in a key.
-/

namespace Lager.Lib

variable {α β : Type} [BEq α] [LawfulBEq α]

theorem mem_of_lookup {l : List (α × β)} {k : α} {b : β} (h : l.lookup k = some b) : (k, b) ∈ l := by
  obtain ⟨l₁, l₂, rfl, -⟩ := List.lookup_eq_some_iff.mp h
  simp

theorem lookup_of_mem {l : List (α × β)} (h : (l.map Prod.fst).Nodup) {k : α} {b : β} (hmem : (k, b) ∈ l) :
    l.lookup k = some b := by
  induction l with
  | nil => cases hmem
  | cons entry l ih =>
    obtain ⟨key, value⟩ := entry
    rw [List.map_cons, List.nodup_cons] at h
    rcases List.mem_cons.mp hmem with heq | hrest
    · obtain ⟨rfl, rfl⟩ := Prod.mk.inj heq
      exact List.lookup_cons_self
    · have hne : k ≠ key := by
        rintro rfl
        exact h.1 (List.mem_map.mpr ⟨_, hrest, rfl⟩)
      rw [List.lookup_cons, beq_false_of_ne hne]
      exact ih h.2 hrest

theorem lookup_eq_none_iff_fst {l : List (α × β)} {k : α} : l.lookup k = none ↔ k ∉ l.map Prod.fst := by
  rw [List.lookup_eq_none_iff, List.mem_map]
  simp only [bne_iff_ne, not_exists, not_and]
  exact forall₂_congr fun _ _ => ne_comm

/-- Keys that are kept are looked up as before, and the others are not found. -/
theorem lookup_filter_key (keep : α → Bool) (l : List (α × β)) (k : α) :
    (l.filter fun entry => keep entry.1).lookup k = if keep k then l.lookup k else none := by
  induction l with
  | nil => cases keep k <;> rfl
  | cons entry l ih =>
    obtain ⟨key, value⟩ := entry
    by_cases hk : k = key
    · subst hk
      rw [List.lookup_cons_self]
      cases hkeep : keep k with
      | true => rw [List.filter_cons_of_pos (by simp [hkeep]), List.lookup_cons_self, if_pos rfl]
      | false =>
        rw [List.filter_cons_of_neg (by simp [hkeep]), ih, hkeep]
        rfl
    · rw [List.lookup_cons, beq_eq_false_iff_ne.mpr hk]
      cases hkeep : keep key with
      | true =>
        rw [List.filter_cons_of_pos (by simp [hkeep]), List.lookup_cons, beq_eq_false_iff_ne.mpr hk]
        exact ih
      | false =>
        rw [List.filter_cons_of_neg (by simp [hkeep])]
        exact ih

theorem lookup_of_filter_key (keep : α → Bool) {l : List (α × β)} {k : α} {b : β}
    (h : (l.filter fun entry => keep entry.1).lookup k = some b) : l.lookup k = some b := by
  rw [lookup_filter_key] at h
  split_ifs at h
  exact h

/-- `k` gets the value; a key that is there keeps its place. -/
def assign (k : α) (b : β) : List (α × β) → List (α × β)
  | [] => [(k, b)]
  | entry :: l => if entry.1 == k then (k, b) :: l else entry :: assign k b l

omit [LawfulBEq α] in
theorem mem_assign {k : α} {b : β} {l : List (α × β)} {entry : α × β} (h : entry ∈ assign k b l) :
    entry = (k, b) ∨ entry ∈ l := by
  induction l with
  | nil => exact Or.inl (List.mem_singleton.mp h)
  | cons other l ih =>
    rw [assign] at h
    split_ifs at h
    · exact (List.mem_cons.mp h).imp_right (List.mem_cons_of_mem other)
    · rcases List.mem_cons.mp h with rfl | h
      · exact Or.inr List.mem_cons_self
      · exact (ih h).imp_right (List.mem_cons_of_mem other)

/-- A new key comes last. -/
theorem assign_of_not_mem {k : α} (b : β) {l : List (α × β)} (h : k ∉ l.map Prod.fst) :
    assign k b l = l ++ [(k, b)] := by
  induction l with
  | nil => rfl
  | cons entry l ih =>
    rw [List.map_cons, List.mem_cons, not_or] at h
    rw [assign, if_neg (by simpa using Ne.symm h.1), ih h.2, List.cons_append]

end Lager.Lib
