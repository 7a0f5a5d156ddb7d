import Mathlib.Data.List.Basic

/-!
# Objects that are shared

A heap is the list of all objects made so far, and a reference is a position in it. Objects are added at the end, and
one that is changed in place is changed for everyone who holds a reference to it. `readAll` is what a list of
references stands for.
-/

namespace Lager.Lib.Heap

variable {α : Type*}

/-- The references of objects that are added to the heap. -/
def fresh (heap : List α) (objects : List α) : List Nat := List.range' heap.length objects.length

/-- The references are to objects of the heap. -/
def Valid (heap : List α) (refs : List Nat) : Prop := ∀ ref ∈ refs, ref < heap.length

theorem Valid.append {heap : List α} {refs : List Nat} (h : Valid heap refs) (more : List α) :
    Valid (heap ++ more) refs := by
  intro ref href
  have hlt := h ref href
  rw [List.length_append]
  omega

theorem valid_fresh (heap objects : List α) : Valid (heap ++ objects) (fresh heap objects) := by
  intro ref href
  have hrange := List.mem_range'_1.mp href
  rw [List.length_append]
  exact hrange.2

variable [Inhabited α]

def read (heap : List α) (ref : Nat) : α := heap.getD ref default

def readAll (heap : List α) (refs : List Nat) : List α := refs.map (read heap)

theorem read_append {heap : List α} {ref : Nat} (h : ref < heap.length) (more : List α) :
    read (heap ++ more) ref = read heap ref := by
  rw [read, read, List.getD_eq_getElem?_getD, List.getD_eq_getElem?_getD, List.getElem?_append_left h]

theorem readAll_append {heap : List α} {refs : List Nat} (h : Valid heap refs) (more : List α) :
    readAll (heap ++ more) refs = readAll heap refs :=
  List.map_congr_left fun ref href => read_append (h ref href) more

theorem readAll_fresh (heap objects : List α) : readAll (heap ++ objects) (fresh heap objects) = objects := by
  apply List.ext_getElem
  · simp [readAll, fresh]
  · intro i h h'
    simp [readAll, fresh, read, h']

/-- A change in place; a reference to nothing reads as the default. -/
theorem read_set (heap : List α) (ref ref' : Nat) (a : α) :
    read (heap.set ref a) ref' = if ref = ref' ∧ ref < heap.length then a else read heap ref' := by
  rw [read, read, List.getD_eq_getElem?_getD, List.getD_eq_getElem?_getD, List.getElem?_set]
  by_cases heq : ref = ref'
  · subst heq
    by_cases hlt : ref < heap.length
    · simp [hlt]
    · simp [hlt]
  · simp [heq]

theorem read_of_length_le {heap : List α} {ref : Nat} (h : heap.length ≤ ref) : read heap ref = default := by
  rw [read, List.getD_eq_getElem?_getD, List.getElem?_eq_none h]
  rfl

end Lager.Lib.Heap
