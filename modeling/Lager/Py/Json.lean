import Mathlib.Data.Rat.Defs
import Mathlib.Data.List.Basic

/-!
# Decoded JSON values, as Python holds them

`Json` is what `json.loads` returns: Python's `None`, `bool`, `int`, `float`, `str`, `list` and `dict`. The
operations are Python's on those values: truth (`if not x`), equality (`==`, which identifies `True`, `1` and
`1.0` and ignores the order of a dict), `dict.get` and item assignment. A finite float is the rational it
stands for; `json` also produces the two infinities and NaN.
-/

namespace Lager.Py

/-- The exceptions the modelled code can let through. -/
inductive PyErr where
  | keyError (key : String)
  | typeError
  | valueError
  | attributeError
  | overflowError
  | unicodeDecodeError
  | osError
  | badZipFile
  deriving DecidableEq

inductive PyFloat where
  | fin (q : ℚ)
  | posInf
  | negInf
  | nan
  deriving DecidableEq

inductive Json where
  | null
  | bool (b : Bool)
  | int (n : Int)
  | float (x : PyFloat)
  | str (s : String)
  | arr (xs : List Json)
  | obj (kvs : List (String × Json))

/-- A Python dict with string keys, in insertion order. -/
abbrev Dict := List (String × Json)

namespace Json

/-! ### Decidable equality -/

mutual

def decEq : (a b : Json) → Decidable (a = b)
  | .null, b => match b with
    | .null => isTrue rfl
    | .bool _ | .int _ | .float _ | .str _ | .arr _ | .obj _ => isFalse (by simp)
  | .bool x, b => match b with
    | .bool y => decidable_of_iff (x = y) (by simp)
    | .null | .int _ | .float _ | .str _ | .arr _ | .obj _ => isFalse (by simp)
  | .int x, b => match b with
    | .int y => decidable_of_iff (x = y) (by simp)
    | .null | .bool _ | .float _ | .str _ | .arr _ | .obj _ => isFalse (by simp)
  | .float x, b => match b with
    | .float y => decidable_of_iff (x = y) (by simp)
    | .null | .bool _ | .int _ | .str _ | .arr _ | .obj _ => isFalse (by simp)
  | .str x, b => match b with
    | .str y => decidable_of_iff (x = y) (by simp)
    | .null | .bool _ | .int _ | .float _ | .arr _ | .obj _ => isFalse (by simp)
  | .arr xs, b => match b with
    | .arr ys => match decEqList xs ys with
      | isTrue h => isTrue (by rw [h])
      | isFalse h => isFalse (by simpa using h)
    | .null | .bool _ | .int _ | .float _ | .str _ | .obj _ => isFalse (by simp)
  | .obj xs, b => match b with
    | .obj ys => match decEqDict xs ys with
      | isTrue h => isTrue (by rw [h])
      | isFalse h => isFalse (by simpa using h)
    | .null | .bool _ | .int _ | .float _ | .str _ | .arr _ => isFalse (by simp)

def decEqList : (xs ys : List Json) → Decidable (xs = ys)
  | [], [] => isTrue rfl
  | [], _ :: _ => isFalse (by simp)
  | _ :: _, [] => isFalse (by simp)
  | x :: xs, y :: ys => match decEq x y, decEqList xs ys with
    | isTrue h, isTrue h' => isTrue (by rw [h, h'])
    | isFalse h, _ => isFalse (by simp [h])
    | _, isFalse h' => isFalse (by simp [h'])

def decEqDict : (xs ys : List (String × Json)) → Decidable (xs = ys)
  | [], [] => isTrue rfl
  | [], _ :: _ => isFalse (by simp)
  | _ :: _, [] => isFalse (by simp)
  | (k, x) :: xs, (l, y) :: ys =>
    match (inferInstance : Decidable (k = l)), decEq x y, decEqDict xs ys with
    | isTrue h, isTrue h', isTrue h'' => isTrue (by rw [h, h', h''])
    | isFalse h, _, _ => isFalse (by simp [h])
    | _, isFalse h', _ => isFalse (by simp [h'])
    | _, _, isFalse h'' => isFalse (by simp [h''])

end

instance : DecidableEq Json := decEq

/-! ### Truth and equality -/

/-- Python's truth value: `None`, `False`, zero and the empty containers are false (NaN is true). -/
def truthy : Json → Bool
  | .null => false
  | .bool b => b
  | .int n => n != 0
  | .float (.fin q) => q != 0
  | .float _ => true
  | .str s => s != ""
  | .arr xs => !xs.isEmpty
  | .obj kvs => !kvs.isEmpty

/-- Insert an item into a list sorted by key. -/
def insertItem (item : String × Json) : List (String × Json) → List (String × Json)
  | [] => [item]
  | other :: items => if item.1 < other.1 then item :: other :: items else other :: insertItem item items

mutual

/-- The normal form Python's `==` compares: numbers by value, dicts by their items whatever the order. -/
def canon : Json → Json
  | .null => .null
  | .bool b => .float (.fin (if b then 1 else 0))
  | .int n => .float (.fin n)
  | .float x => .float x
  | .str s => .str s
  | .arr xs => .arr (canonList xs)
  | .obj kvs => .obj (canonDict kvs)

def canonList : List Json → List Json
  | [] => []
  | x :: xs => canon x :: canonList xs

def canonDict : List (String × Json) → List (String × Json)
  | [] => []
  | (k, v) :: kvs => insertItem (k, canon v) (canonDict kvs)

end

-- the equations of the normal form, for all the lemmas below
section
attribute [local simp] canon
end

/-- Python's `==`. NaN differs from itself; inside a container it does not, because Python compares items by
identity first and `json` decodes every NaN to the same object. -/
def pyEq (a b : Json) : Bool := decide (a ≠ .float .nan ∧ a.canon = b.canon)

theorem pyEq_iff {a b : Json} : a.pyEq b = true ↔ a ≠ .float .nan ∧ a.canon = b.canon := by
  simp [pyEq]

theorem canon_eq_nan {a : Json} (h : a.canon = .float .nan) : a = .float .nan := by
  cases a <;> simp_all [canon]

theorem canon_eq_str {a : Json} {s : String} (h : a.canon = .str s) : a = .str s := by
  cases a <;> simp_all [canon]

/-- Only a text is equal to a text. -/
theorem pyEq_str {a : Json} {s : String} : a.pyEq (.str s) = true ↔ a = .str s := by
  rw [pyEq_iff]
  refine ⟨fun h => canon_eq_str (h.2.trans (by rw [canon])), fun h => ?_⟩
  subst h
  exact ⟨by simp, rfl⟩

/-- A value equal to one of two equal values is equal to the other. -/
theorem pyEq_trans {a b c : Json} (hab : a.canon = b.canon) (h : b.pyEq c = true) : a.pyEq c = true := by
  rw [pyEq_iff] at h ⊢
  refine ⟨fun ha => h.1 (canon_eq_nan ?_), hab.trans h.2⟩
  rw [← hab, ha, canon]

theorem pyEq_symm {a b : Json} (h : a.pyEq b = true) : b.pyEq a = true := by
  rw [pyEq_iff] at h ⊢
  refine ⟨fun hb => h.1 (canon_eq_nan ?_), h.2.symm⟩
  rw [h.2, hb, canon]

theorem pyEq_congr {a b : Json} (h : a.canon = b.canon) (c : Json) : a.pyEq c = b.pyEq c := by
  rw [Bool.eq_iff_iff]
  exact ⟨pyEq_trans h.symm, pyEq_trans h⟩

end Json

/-! ### Dicts -/

namespace Dict

/-- `d[k]` when the key is there. -/
def get? (d : Dict) (k : String) : Option Json := d.lookup k

/-- `d.get(k)`: the value, or `None` when the key is absent. -/
def get (d : Dict) (k : String) : Json := (get? d k).getD .null

/-- `d.get(k, default)`. -/
def getD (d : Dict) (k : String) (default : Json) : Json := (get? d k).getD default

/-- `k in d`. -/
def has (d : Dict) (k : String) : Bool := (get? d k).isSome

/-- `d[k] = v`: an existing key keeps its place. -/
def set (d : Dict) (k : String) (v : Json) : Dict :=
  match d with
  | [] => [(k, v)]
  | (l, w) :: rest => if l = k then (k, v) :: rest else (l, w) :: set rest k v

/-- `d.update(items)`. -/
def update (d : Dict) (items : Dict) : Dict := items.foldl (fun d kv => set d kv.1 kv.2) d

theorem get?_of_get {d : Dict} {k : String} {v : Json} (h : get d k = v) (hv : v ≠ .null) : get? d k = some v := by
  rw [get] at h
  cases hk : get? d k with
  | none => exact absurd (h.symm.trans (by rw [hk, Option.getD_none])) hv
  | some w =>
    rw [hk, Option.getD_some] at h
    rw [h]

theorem getD_of_get? {d : Dict} {k : String} {v : Json} (h : get? d k = some v) (default : Json) :
    getD d k default = v := by
  rw [getD, h, Option.getD_some]

@[simp] theorem get?_set_self (d : Dict) (k : String) (v : Json) : get? (set d k v) k = some v := by
  induction d with
  | nil => simp [set, get?]
  | cons kv rest ih =>
    obtain ⟨l, w⟩ := kv
    rw [set]
    split_ifs with h
    · simp [get?]
    · rw [get?, List.lookup_cons, beq_false_of_ne (Ne.symm h)]
      exact ih

theorem get?_set_ne (d : Dict) {k k' : String} (v : Json) (h : k' ≠ k) :
    get? (set d k v) k' = get? d k' := by
  induction d with
  | nil => simp [set, get?, List.lookup_cons, beq_false_of_ne h]
  | cons kv rest ih =>
    obtain ⟨l, w⟩ := kv
    rw [set]
    split_ifs with hl
    · subst hl
      simp [get?, List.lookup_cons, beq_false_of_ne h]
    · simp only [get?, List.lookup_cons] at ih ⊢
      rw [ih]

@[simp] theorem get_set_self (d : Dict) (k : String) (v : Json) : get (set d k v) k = v := by
  simp [get]

theorem get_set_ne (d : Dict) {k k' : String} (v : Json) (h : k' ≠ k) : get (set d k v) k' = get d k' := by
  rw [get, get?_set_ne d v h, get]

/-- `d.pop(k, None)`, for what stays in the dict. -/
def pop (d : Dict) (k : String) : Dict := d.filter fun kv => kv.1 != k

theorem get?_pop_ne (d : Dict) {k k' : String} (h : k' ≠ k) : get? (pop d k) k' = get? d k' := by
  induction d with
  | nil => rfl
  | cons kv rest ih =>
    obtain ⟨l, w⟩ := kv
    rw [pop, List.filter_cons]
    split_ifs with hl
    · simp only [get?, List.lookup_cons] at ih ⊢
      rw [← ih]
      rfl
    · have hlk : l = k := by simpa using hl
      subst hlk
      simp only [get?, List.lookup_cons, beq_false_of_ne h] at ih ⊢
      exact ih

theorem get_pop_ne (d : Dict) {k k' : String} (h : k' ≠ k) : get (pop d k) k' = get d k' := by
  rw [get, get?_pop_ne d h, get]

/-! ### The order of items -/

theorem set_new {d : Dict} {k : String} {v : Json} (h : k ∉ d.map Prod.fst) : set d k v = d ++ [(k, v)] := by
  induction d with
  | nil => rfl
  | cons kv d ih =>
    obtain ⟨l, w⟩ := kv
    rw [List.map_cons, List.mem_cons, not_or] at h
    rw [set, if_neg (Ne.symm h.1), ih h.2]
    rfl

theorem update_new {d items : Dict} (hnodup : (items.map Prod.fst).Nodup)
    (h : ∀ kv ∈ items, kv.1 ∉ d.map Prod.fst) : update d items = d ++ items := by
  induction items generalizing d with
  | nil => exact (List.append_nil d).symm
  | cons kv items ih =>
    rw [List.map_cons, List.nodup_cons] at hnodup
    have hset := set_new (v := kv.2) (h kv List.mem_cons_self)
    have hrest : ∀ kv' ∈ items, kv'.1 ∉ (d ++ [kv]).map Prod.fst := by
      intro kv' hkv' hmem
      rw [List.map_append, List.mem_append] at hmem
      rcases hmem with hmem | hmem
      · exact h kv' (List.mem_cons_of_mem _ hkv') hmem
      · rw [List.map_singleton, List.mem_singleton] at hmem
        exact hnodup.1 (List.mem_map.mpr ⟨kv', hkv', hmem⟩)
    show update (set d kv.1 kv.2) items = d ++ kv :: items
    rw [hset, ih hnodup.2 hrest, List.append_assoc]
    rfl

theorem set_append {d rest : Dict} {k : String} {v : Json} (h : k ∉ d.map Prod.fst) :
    set (d ++ rest) k v = d ++ set rest k v := by
  induction d with
  | nil => rfl
  | cons kv d ih =>
    obtain ⟨l, w⟩ := kv
    rw [List.map_cons, List.mem_cons, not_or] at h
    rw [List.cons_append, set, if_neg (Ne.symm h.1), ih h.2]
    rfl

/-- New keys come after the old ones, whatever is repeated among them. -/
theorem update_append {d rest items : Dict} (h : ∀ kv ∈ items, kv.1 ∉ d.map Prod.fst) :
    update (d ++ rest) items = d ++ update rest items := by
  induction items generalizing rest with
  | nil => rfl
  | cons kv items ih =>
    show update (set (d ++ rest) kv.1 kv.2) items = d ++ update (set rest kv.1 kv.2) items
    rw [set_append (h kv List.mem_cons_self), ih fun kv' hkv' => h kv' (List.mem_cons_of_mem kv hkv')]

theorem keys_set (d : Dict) (k : String) (v : Json) :
    (set d k v).map Prod.fst = if k ∈ d.map Prod.fst then d.map Prod.fst else d.map Prod.fst ++ [k] := by
  induction d with
  | nil => rfl
  | cons kv d ih =>
    obtain ⟨l, w⟩ := kv
    by_cases hl : l = k
    · rw [set, if_pos hl, if_pos (by rw [List.map_cons, hl]; exact List.mem_cons_self), List.map_cons,
        List.map_cons, hl]
    · have hmem : k ∈ ((l, w) :: d).map Prod.fst ↔ k ∈ d.map Prod.fst := by
        rw [List.map_cons, List.mem_cons]
        exact or_iff_right (Ne.symm hl)
      rw [set, if_neg hl, List.map_cons, ih]
      by_cases hk : k ∈ d.map Prod.fst
      · rw [if_pos hk, if_pos (hmem.mpr hk), List.map_cons]
      · rw [if_neg hk, if_neg fun hk' => hk (hmem.mp hk'), List.map_cons, List.cons_append]

/-- Keys are not repeated, and come from the two dicts. -/
theorem keys_update (d items : Dict) (h : (d.map Prod.fst).Nodup) :
    ((update d items).map Prod.fst).Nodup ∧
      ∀ k ∈ (update d items).map Prod.fst, k ∈ d.map Prod.fst ∨ k ∈ items.map Prod.fst := by
  induction items generalizing d with
  | nil => exact ⟨h, fun k hk => Or.inl hk⟩
  | cons kv items ih =>
    have hset : ((set d kv.1 kv.2).map Prod.fst).Nodup := by
      rw [keys_set]
      split_ifs with hk
      · exact h
      · refine List.nodup_append.mpr ⟨h, List.pairwise_singleton _ _, ?_⟩
        rintro k hmem _ hlast rfl
        exact hk (List.mem_singleton.mp hlast ▸ hmem)
    obtain ⟨hnodup, hmem⟩ := ih (set d kv.1 kv.2) hset
    refine ⟨hnodup, fun k hk => ?_⟩
    rcases hmem k hk with hk | hk
    · rw [keys_set] at hk
      split_ifs at hk
      · exact Or.inl hk
      · rcases List.mem_append.mp hk with hk | hk
        · exact Or.inl hk
        · exact Or.inr (List.mem_singleton.mp hk ▸ List.mem_cons_self)
    · exact Or.inr (List.mem_cons_of_mem _ hk)

end Dict

end Lager.Py
