import Mathlib.Data.List.Perm.Basic
import Mathlib.Data.List.Nodup
import Mathlib.Data.List.Induction
import Mathlib.Logic.Function.Basic

/-!
# Grouping a list by a key, and joining one by a key

`grouped key xs` is a dict from keys to lists filled by `setdefault(key(x), []).append(x)`: the groups stand in
the order of their first elements. `byKey key xs` is the dict comprehension that indexes a list: of several
elements with one key it keeps the last.
-/

namespace Lager.Lib

variable {α κ : Type*} [DecidableEq κ] (key : α → κ)

/-! ### Grouping -/

/-- `groups.setdefault(key(x), []).append(x)`. -/
def addToGroup (x : α) : List (κ × List α) → List (κ × List α)
  | [] => [(key x, [x])]
  | (k, xs) :: rest => if k = key x then (k, xs ++ [x]) :: rest else (k, xs) :: addToGroup x rest

def grouped (xs : List α) : List (κ × List α) := xs.foldl (fun groups x => addToGroup key x groups) []

variable {key}

/-- Every element of a group has its key. -/
def Keyed (key : α → κ) (groups : List (κ × List α)) : Prop :=
  ∀ group ∈ groups, ∀ x ∈ group.2, key x = group.1

theorem addToGroup_perm (x : α) (groups : List (κ × List α)) :
    ((addToGroup key x groups).flatMap (·.2)).Perm (groups.flatMap (·.2) ++ [x]) := by
  induction groups with
  | nil => simp [addToGroup]
  | cons group rest ih =>
    obtain ⟨k, xs⟩ := group
    rw [addToGroup]
    split_ifs with hk
    · simp only [List.flatMap_cons, List.append_assoc]
      exact List.perm_append_comm.append_left xs
    · simp only [List.flatMap_cons, List.append_assoc]
      exact ih.append_left xs

variable (key) in
theorem keys_addToGroup (x : α) (groups : List (κ × List α)) :
    (addToGroup key x groups).map (·.1) = groups.map (·.1) ∨
      key x ∉ groups.map (·.1) ∧ (addToGroup key x groups).map (·.1) = groups.map (·.1) ++ [key x] := by
  induction groups with
  | nil => exact .inr ⟨by simp, by simp [addToGroup]⟩
  | cons group rest ih =>
    obtain ⟨k, xs⟩ := group
    rw [addToGroup]
    split_ifs with hk
    · exact .inl (by simp)
    · obtain hsame | ⟨hnew, hadd⟩ := ih
      · exact .inl (by simp [hsame])
      · refine .inr ⟨?_, by simp [hadd]⟩
        rw [List.map_cons, List.mem_cons, not_or]
        exact ⟨fun h => hk h.symm, hnew⟩

theorem keyed_addToGroup {groups : List (κ × List α)} (h : Keyed key groups) (x : α) :
    Keyed key (addToGroup key x groups) := by
  induction groups with
  | nil =>
    intro group hmem y hy
    rw [addToGroup, List.mem_singleton] at hmem
    subst hmem
    rw [List.mem_singleton.mp hy]
  | cons group rest ih =>
    obtain ⟨k, xs⟩ := group
    have hhead := h (k, xs) List.mem_cons_self
    have hrest : Keyed key rest := fun group hmem => h group (List.mem_cons_of_mem _ hmem)
    intro group hmem y hy
    rw [addToGroup] at hmem
    split_ifs at hmem with hk
    · obtain rfl | hmem := List.mem_cons.mp hmem
      · obtain hy | hy := List.mem_append.mp hy
        · exact hhead y hy
        · rw [List.mem_singleton.mp hy, hk]
      · exact hrest group hmem y hy
    · obtain rfl | hmem := List.mem_cons.mp hmem
      · exact hhead y hy
      · exact ih hrest group hmem y hy

/-- What holds of no groups and is kept by adding an element holds of a grouped list. -/
theorem grouped_induction (P : List α → List (κ × List α) → Prop) (h0 : P [] [])
    (hadd : ∀ xs x groups, P xs groups → P (xs ++ [x]) (addToGroup key x groups)) (xs : List α) :
    P xs (grouped key xs) := by
  induction xs using List.reverseRecOn with
  | nil => exact h0
  | append_singleton xs x ih =>
    rw [grouped, List.foldl_append]
    exact hadd xs x _ ih

variable (key) in
/-- The groups hold the elements of the list. -/
theorem grouped_perm (xs : List α) : ((grouped key xs).flatMap (·.2)).Perm xs := by
  apply grouped_induction (P := fun xs groups => (groups.flatMap (·.2)).Perm xs)
  · exact .nil
  · intro xs x groups ih
    exact (addToGroup_perm x groups).trans (ih.append_right [x])

variable (key) in
theorem keyed_grouped (xs : List α) : Keyed key (grouped key xs) := by
  apply grouped_induction (P := fun _ groups => Keyed key groups)
  · intro group hmem
    cases hmem
  · intro _ x groups ih
    exact keyed_addToGroup ih x

variable (key) in
theorem nodup_keys_grouped (xs : List α) : ((grouped key xs).map (·.1)).Nodup := by
  apply grouped_induction (P := fun _ groups => (groups.map (·.1)).Nodup)
  · exact List.nodup_nil
  · intro _ x groups ih
    obtain hsame | ⟨hnew, hadd⟩ := keys_addToGroup key x groups
    · rw [hsame]
      exact ih
    · rw [hadd]
      refine List.nodup_append.mpr ⟨ih, List.nodup_singleton _, ?_⟩
      rintro a ha b hb rfl
      exact hnew (List.mem_singleton.mp hb ▸ ha)

/-! ### Joining -/

variable (key) in
/-- The dict with `key(x)` for every `x`; a later element replaces an earlier one. -/
def byKey (xs : List α) : κ → Option α :=
  xs.foldl (fun d x => Function.update d (key x) (some x)) fun _ => none

theorem byKey_append (xs : List α) (x : α) :
    byKey key (xs ++ [x]) = Function.update (byKey key xs) (key x) (some x) := by
  rw [byKey, List.foldl_append]
  rfl

/-- What the dict holds under a key is an element of the list with that key. -/
theorem byKey_some {xs : List α} {k : κ} {x : α} (h : byKey key xs k = some x) : x ∈ xs ∧ key x = k := by
  induction xs using List.reverseRecOn with
  | nil => cases h
  | append_singleton xs y ih =>
    rw [byKey_append] at h
    by_cases hk : k = key y
    · subst hk
      rw [Function.update_self, Option.some.injEq] at h
      subst h
      exact ⟨by simp, rfl⟩
    · rw [Function.update_of_ne hk] at h
      obtain ⟨hmem, hkey⟩ := ih h
      exact ⟨List.mem_append_left _ hmem, hkey⟩

theorem byKey_eq_none_iff {xs : List α} {k : κ} : byKey key xs k = none ↔ ∀ x ∈ xs, key x ≠ k := by
  induction xs using List.reverseRecOn with
  | nil => simp [byKey]
  | append_singleton xs y ih =>
    rw [byKey_append]
    by_cases hk : k = key y
    · subst hk
      simp
    · rw [Function.update_of_ne hk, ih]
      constructor
      · intro h x hx
        obtain hx | hx := List.mem_append.mp hx
        · exact h x hx
        · rw [List.mem_singleton.mp hx]
          exact Ne.symm hk
      · exact fun h x hx => h x (List.mem_append_left _ hx)

/-- The only element with its key is found under it. -/
theorem byKey_of_unique {xs : List α} {x : α} (hx : x ∈ xs) (h : ∀ y ∈ xs, key y = key x → y = x) :
    byKey key xs (key x) = some x := by
  cases hget : byKey key xs (key x) with
  | none => exact absurd rfl (byKey_eq_none_iff.mp hget x hx)
  | some y =>
    obtain ⟨hmem, hkey⟩ := byKey_some hget
    rw [h y hmem hkey]

end Lager.Lib
