import Lager.Lib.Assoc
import Lager.Py.Json
import Mathlib.Data.List.Sort
import Mathlib.Data.String.Basic

/-!
# JSON values up to the order of keys

A decoded value has every key of a dict once (`WellFormed`). `same` compares two values as JSON values: dicts by
what stands under their keys, everything else exactly (unlike Python's `==`, which takes `1`, `1.0` and `True` for
equal). `sorted` is the value with the keys of every dict in order, as `sort_keys=True` writes it. For well formed
values the two agree: `same_iff`.
-/

namespace Lager.Py

namespace Json

mutual

/-- The value with the keys of every dict in order. -/
def sorted : Json → Json
  | .null => .null
  | .bool b => .bool b
  | .int n => .int n
  | .float x => .float x
  | .str s => .str s
  | .arr xs => .arr (sortedList xs)
  | .obj kvs => .obj (sortedDict kvs)

def sortedList : List Json → List Json
  | [] => []
  | x :: xs => sorted x :: sortedList xs

def sortedDict : List (String × Json) → List (String × Json)
  | [] => []
  | (k, v) :: kvs => insertItem (k, sorted v) (sortedDict kvs)

end

mutual

/-- The same JSON value. -/
def same : Json → Json → Bool
  | .arr xs, b => match b with
    | .arr ys => sameList xs ys
    | _ => false
  | .obj kvs, b => match b with
    | .obj lws => kvs.length == lws.length && sameItems kvs lws
    | _ => false
  | .null, b => decide (b = .null)
  | .bool x, b => decide (b = .bool x)
  | .int n, b => decide (b = .int n)
  | .float x, b => decide (b = .float x)
  | .str s, b => decide (b = .str s)

def sameList : List Json → List Json → Bool
  | [], ys => ys.isEmpty
  | x :: xs, ys => match ys with
    | [] => false
    | y :: ys => same x y && sameList xs ys

/-- Every item has its like in the other dict. -/
def sameItems : List (String × Json) → List (String × Json) → Bool
  | [], _ => true
  | (k, v) :: kvs, lws => ((lws.lookup k).any fun w => same v w) && sameItems kvs lws

end

mutual

/-- Every dict in the value has each key once. -/
def WellFormed : Json → Prop
  | .arr xs => WellFormedList xs
  | .obj kvs => (kvs.map Prod.fst).Nodup ∧ WellFormedItems kvs
  | _ => True

def WellFormedList : List Json → Prop
  | [] => True
  | x :: xs => WellFormed x ∧ WellFormedList xs

def WellFormedItems : List (String × Json) → Prop
  | [] => True
  | (_, v) :: kvs => WellFormed v ∧ WellFormedItems kvs

end

theorem wellFormedItems_iff {kvs : List (String × Json)} : WellFormedItems kvs ↔ ∀ kv ∈ kvs, kv.2.WellFormed := by
  induction kvs with
  | nil => simp [WellFormedItems]
  | cons kv kvs ih => simp [WellFormedItems, ih]

theorem WellFormed.get {d : Dict} (h : (Json.obj d).WellFormed) (k : String) : (Dict.get d k).WellFormed := by
  simp only [WellFormed, wellFormedItems_iff] at h
  rw [Dict.get]
  cases hk : Dict.get? d k with
  | none => simp [WellFormed]
  | some v =>
    obtain ⟨l₁, l₂, rfl, -⟩ := List.lookup_eq_some_iff.mp hk
    exact h.2 (k, v) (by simp)

/-! ### Sorted items -/

/-- Smaller key. -/
def KeyLt (p q : String × Json) : Prop := p.1 < q.1

instance : Std.Irrefl KeyLt := ⟨fun _ => lt_irrefl _⟩

instance : Std.Antisymm KeyLt := ⟨fun _ _ h h' => absurd h (lt_asymm h')⟩

theorem mem_insertItem {item p : String × Json} {items : List (String × Json)} :
    p ∈ insertItem item items ↔ p = item ∨ p ∈ items := by
  induction items with
  | nil => simp [insertItem]
  | cons other items ih =>
    rw [insertItem]
    split_ifs
    · rw [List.mem_cons]
    · rw [List.mem_cons, ih, List.mem_cons]
      tauto

theorem pairwise_insertItem {item : String × Json} {items : List (String × Json)} (h : items.Pairwise KeyLt)
    (hnew : ∀ p ∈ items, p.1 ≠ item.1) : (insertItem item items).Pairwise KeyLt := by
  induction items with
  | nil => simp [insertItem]
  | cons other items ih =>
    obtain ⟨hother, hrest⟩ := List.pairwise_cons.mp h
    rw [insertItem]
    split_ifs with hlt
    · refine List.pairwise_cons.mpr ⟨fun p hp => ?_, h⟩
      rcases List.mem_cons.mp hp with rfl | hp
      · exact hlt
      · exact lt_trans hlt (hother p hp)
    · have hgt : KeyLt other item :=
        lt_of_le_of_ne (not_lt.mp hlt) (hnew other List.mem_cons_self)
      refine List.pairwise_cons.mpr ⟨fun p hp => ?_, ih hrest fun p hp => hnew p (List.mem_cons_of_mem _ hp)⟩
      rcases mem_insertItem.mp hp with rfl | hp
      · exact hgt
      · exact hother p hp

theorem mem_sortedDict {p : String × Json} {kvs : List (String × Json)} :
    p ∈ sortedDict kvs ↔ ∃ v, (p.1, v) ∈ kvs ∧ v.sorted = p.2 := by
  induction kvs with
  | nil => simp [sortedDict]
  | cons kv kvs ih =>
    obtain ⟨k, v⟩ := kv
    rw [sortedDict, mem_insertItem, ih]
    constructor
    · rintro (rfl | ⟨w, hw, hsorted⟩)
      · exact ⟨v, List.mem_cons_self, rfl⟩
      · exact ⟨w, List.mem_cons_of_mem _ hw, hsorted⟩
    · rintro ⟨w, hw, hsorted⟩
      rcases List.mem_cons.mp hw with heq | hw
      · obtain ⟨hk, rfl⟩ := Prod.mk.inj heq
        exact .inl (Prod.ext hk hsorted.symm)
      · exact .inr ⟨w, hw, hsorted⟩

theorem pairwise_sortedDict {kvs : List (String × Json)} (h : (kvs.map Prod.fst).Nodup) :
    (sortedDict kvs).Pairwise KeyLt := by
  induction kvs with
  | nil => simp [sortedDict]
  | cons kv kvs ih =>
    obtain ⟨k, v⟩ := kv
    rw [List.map_cons, List.nodup_cons] at h
    rw [sortedDict]
    refine pairwise_insertItem (ih h.2) fun p hp hk => h.1 ?_
    obtain ⟨w, hw, -⟩ := mem_sortedDict.mp hp
    exact List.mem_map.mpr ⟨_, hw, hk⟩

/-! ### The two comparisons agree -/

theorem length_insertItem (item : String × Json) (items : List (String × Json)) :
    (insertItem item items).length = items.length + 1 := by
  induction items with
  | nil => rfl
  | cons other items ih =>
    rw [insertItem]
    split_ifs
    · rfl
    · rw [List.length_cons, ih, List.length_cons]

theorem length_sortedDict (kvs : List (String × Json)) : (sortedDict kvs).length = kvs.length := by
  induction kvs with
  | nil => rfl
  | cons kv kvs ih => rw [sortedDict, length_insertItem, ih, List.length_cons]

/-- If every item of one dict has its like in the other and they have as many keys, their items are the same. -/
theorem sortedDict_eq_of_subset {xs ys : List (String × Json)} (hx : (xs.map Prod.fst).Nodup)
    (hy : (ys.map Prod.fst).Nodup) (hlen : xs.length = ys.length)
    (h : ∀ p ∈ sortedDict xs, p ∈ sortedDict ys) : sortedDict xs = sortedDict ys := by
  have hsub : (sortedDict xs).Subperm (sortedDict ys) := List.subperm_of_subset (pairwise_sortedDict hx).nodup h
  have hperm := hsub.perm_of_length_le (by rw [length_sortedDict, length_sortedDict, hlen])
  exact hperm.eq_of_pairwise' (pairwise_sortedDict hx) (pairwise_sortedDict hy)

mutual

/-- **Sorting keys.** Two well formed values are the same exactly when they are equal once sorted. -/
theorem same_iff : (a b : Json) → a.WellFormed → b.WellFormed → (same a b = true ↔ a.sorted = b.sorted)
  | .arr xs, b, hx, hb => by
    match b with
    | .arr ys =>
      simp only [same, sorted, Json.arr.injEq]
      exact sameList_iff xs ys hx hb
    | .null | .bool _ | .int _ | .float _ | .str _ | .obj _ => simp [same, sorted]
  | .obj kvs, b, hx, hb => by
    match b with
    | .obj lws =>
      simp only [WellFormed] at hx hb
      simp only [same, sorted, Json.obj.injEq, Bool.and_eq_true, beq_iff_eq,
        sameItems_iff kvs lws hx.2 hb.1 hb.2]
      constructor
      · rintro ⟨hlen, hsub⟩
        exact sortedDict_eq_of_subset hx.1 hb.1 hlen hsub
      · intro heq
        refine ⟨?_, fun p hp => heq ▸ hp⟩
        rw [← length_sortedDict, heq, length_sortedDict]
    | .null | .bool _ | .int _ | .float _ | .str _ | .arr _ => simp [same, sorted]
  | .null, b, _, _ => by cases b <;> simp [same, sorted]
  | .bool x, b, _, _ => by cases b <;> simp [same, sorted, eq_comm]
  | .int n, b, _, _ => by cases b <;> simp [same, sorted, eq_comm]
  | .float x, b, _, _ => by cases b <;> simp [same, sorted, eq_comm]
  | .str s, b, _, _ => by cases b <;> simp [same, sorted, eq_comm]

theorem sameList_iff : (xs ys : List Json) → WellFormedList xs → WellFormedList ys →
    (sameList xs ys = true ↔ sortedList xs = sortedList ys)
  | [], ys, _, _ => by cases ys <;> simp [sameList, sortedList]
  | x :: xs, [], _, _ => by simp [sameList, sortedList]
  | x :: xs, y :: ys, hx, hy => by
    simp only [WellFormedList] at hx hy
    simp only [sameList, sortedList, Bool.and_eq_true, List.cons.injEq, same_iff x y hx.1 hy.1,
      sameList_iff xs ys hx.2 hy.2]

theorem sameItems_iff : (kvs lws : List (String × Json)) → WellFormedItems kvs → (lws.map Prod.fst).Nodup →
    WellFormedItems lws → (sameItems kvs lws = true ↔ ∀ p ∈ sortedDict kvs, p ∈ sortedDict lws)
  | [], lws, _, _, _ => by simp [sameItems, sortedDict]
  | (k, v) :: kvs, lws, hkvs, hnodup, hlws => by
    simp only [WellFormedItems] at hkvs
    have hvalues := wellFormedItems_iff.mp hlws
    have hfirst : (lws.lookup k).any (fun w => same v w) = true ↔ (k, v.sorted) ∈ sortedDict lws := by
      rw [Option.any_eq_true, mem_sortedDict]
      constructor
      · rintro ⟨w, hw, hsame⟩
        have hmem := Lib.mem_of_lookup hw
        exact ⟨w, hmem, ((same_iff v w hkvs.1 (hvalues _ hmem)).mp hsame).symm⟩
      · rintro ⟨w, hmem, hsorted⟩
        exact ⟨w, Lib.lookup_of_mem hnodup hmem, (same_iff v w hkvs.1 (hvalues _ hmem)).mpr hsorted.symm⟩
    simp only [sameItems, sortedDict, Bool.and_eq_true, hfirst, sameItems_iff kvs lws hkvs.2 hnodup hlws,
      mem_insertItem, forall_eq_or_imp]

end

end Json

end Lager.Py
