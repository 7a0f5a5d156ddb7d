import Mathlib.Tactic.SplitIfs
import Mathlib.Data.List.Basic

/-!
# Splitting at a separator

`List.splitOn` and what joins its parts again. A part holds no separator; parts that hold none come back from the join.
-/

namespace Lager.Lib

variable {α : Type} [DecidableEq α] {a : α}

/-- Induction over the list: a part grows by elements that are not the separator. -/
theorem not_mem_of_mem_splitOn {text part : List α} (h : part ∈ text.splitOn a) : a ∉ part := by
  induction text generalizing part with
  | nil =>
    rw [List.splitOn_nil, List.mem_singleton] at h
    rw [h]
    exact List.not_mem_nil
  | cons x text ih =>
    rw [List.splitOn_cons_eq_if_modifyHead] at h
    split_ifs at h with hx
    · rcases List.mem_cons.mp h with rfl | h
      · exact List.not_mem_nil
      · exact ih h
    · obtain ⟨first, parts, hparts⟩ := List.exists_cons_of_ne_nil (List.splitOn_ne_nil a text)
      rw [hparts] at h ih
      rcases List.mem_cons.mp h with rfl | h
      · intro hmem
        rcases List.mem_cons.mp hmem with rfl | hmem
        · exact hx (by simp)
        · exact ih List.mem_cons_self hmem
      · exact ih (List.mem_cons_of_mem first h)

/-- The parts that a test keeps, joined, are all that is split again. -/
theorem forall_mem_splitOn_filter {p : List α → Bool} {text : List α} (hnil : p [] = true) {part : List α}
    (h : part ∈ ([a].intercalate ((text.splitOn a).filter p)).splitOn a) : p part = true := by
  by_cases hkept : (text.splitOn a).filter p = []
  · rw [hkept, List.intercalate_nil, List.splitOn_nil, List.mem_singleton] at h
    rw [h, hnil]
  · have hfree : ∀ l ∈ (text.splitOn a).filter p, a ∉ l := fun l hl =>
      not_mem_of_mem_splitOn (List.mem_filter.mp hl).1
    rw [List.splitOn_intercalate a hfree hkept] at h
    exact (List.mem_filter.mp h).2

/-! ### Complete parts and what comes after them -/

/-- The parts that a separator ends. -/
def complete (a : α) (text : List α) : List (List α) := (text.splitOn a).dropLast

/-- What comes after the last separator. -/
def rest (a : α) (text : List α) : List α := (text.splitOn a).getLastD []

theorem splitOn_eq (a : α) (text : List α) : text.splitOn a = complete a text ++ [rest a text] := by
  have hne := List.splitOn_ne_nil a text
  rw [complete, rest, List.getLastD_eq_getLast?, List.getLast?_eq_some_getLast hne, Option.getD_some,
    List.dropLast_concat_getLast hne]

theorem not_mem_rest (a : α) (text : List α) : a ∉ rest a text := by
  have hmem : rest a text ∈ text.splitOn a := by
    rw [splitOn_eq]
    simp
  exact not_mem_of_mem_splitOn hmem

theorem complete_eq {text : List α} {parts : List (List α)} {last : List α} (h : text.splitOn a = parts ++ [last]) :
    complete a text = parts := by
  rw [complete, h, List.dropLast_concat]

theorem rest_eq {text : List α} {parts : List (List α)} {last : List α} (h : text.splitOn a = parts ++ [last]) :
    rest a text = last := by
  rw [rest, h, List.getLastD_concat]

theorem splitOn_of_not_mem {text : List α} (h : a ∉ text) : complete a text = [] ∧ rest a text = text :=
  have hsplit : text.splitOn a = [] ++ [text] := List.splitOn_eq_singleton h
  ⟨complete_eq hsplit, rest_eq hsplit⟩

/-- Induction over the first text: what comes after its last separator goes on in the second. -/
theorem splitOn_append (l m : List α) : (l ++ m).splitOn a = complete a l ++ (rest a l ++ m).splitOn a := by
  induction l with
  | nil => rfl
  | cons x l ih =>
    have hsplit := splitOn_eq a l
    rw [List.cons_append, List.splitOn_cons_eq_if_modifyHead, ih]
    by_cases hx : (x == a) = true
    · have hcons : (x :: l).splitOn a = ([] :: complete a l) ++ [rest a l] := by
        rw [List.splitOn_cons_eq_if_modifyHead, if_pos hx, hsplit, List.cons_append]
      rw [if_pos hx, complete_eq hcons, rest_eq hcons, List.cons_append]
    · cases hparts : complete a l with
      | nil =>
        have hcons : (x :: l).splitOn a = [] ++ [x :: rest a l] := by
          rw [List.splitOn_cons_eq_if_modifyHead, if_neg hx, hsplit, hparts]
          rfl
        rw [if_neg hx, complete_eq hcons, rest_eq hcons, List.nil_append, List.nil_append, List.cons_append,
          List.splitOn_cons_eq_if_modifyHead, if_neg hx]
      | cons part parts =>
        have hcons : (x :: l).splitOn a = ((x :: part) :: parts) ++ [rest a l] := by
          rw [List.splitOn_cons_eq_if_modifyHead, if_neg hx, hsplit, hparts]
          rfl
        rw [if_neg hx, complete_eq hcons, rest_eq hcons]
        rfl

theorem complete_append (l m : List α) : complete a (l ++ m) = complete a l ++ complete a (rest a l ++ m) := by
  apply @complete_eq _ _ _ _ _ (rest a (rest a l ++ m))
  rw [splitOn_append, splitOn_eq a (rest a l ++ m), List.append_assoc]

theorem rest_append (l m : List α) : rest a (l ++ m) = rest a (rest a l ++ m) := by
  apply @rest_eq _ _ _ _ (complete a l ++ complete a (rest a l ++ m))
  rw [splitOn_append, splitOn_eq a (rest a l ++ m), List.append_assoc]

/-- Nothing comes after a separator at the end. -/
theorem rest_concat (l : List α) : rest a (l ++ [a]) = [] := by
  have hsplit : (rest a l ++ [a]).splitOn a = [rest a l] ++ [[]] := by
    rw [List.splitOn_append_cons_self_of_not_mem (not_mem_rest a l)]
    rfl
  rw [rest_append, rest_eq hsplit]

theorem rest_eq_nil_iff {text : List α} : rest a text = [] ↔ text = [] ∨ text.getLast? = some a := by
  constructor
  · intro h
    rcases List.eq_nil_or_concat' text with rfl | ⟨l, x, rfl⟩
    · exact Or.inl rfl
    · by_cases hx : x = a
      · exact Or.inr (by rw [List.getLast?_concat, hx])
      have hfree : a ∉ rest a l ++ [x] := by
        rw [List.mem_append, List.mem_singleton, not_or]
        exact ⟨not_mem_rest a l, fun heq => hx heq.symm⟩
      rw [rest_append, (splitOn_of_not_mem hfree).2] at h
      exact absurd h (by simp)
  · rintro (rfl | h)
    · rfl
    · obtain ⟨l, rfl⟩ := List.getLast?_eq_some_iff.mp h
      exact rest_concat l

end Lager.Lib
