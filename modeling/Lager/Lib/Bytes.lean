import Mathlib.Data.List.Basic
import Mathlib.Algebra.Group.Nat.Defs

/-!
# Byte strings

Numbers as little-endian bytes, the part `sub l a n` of a string that starts at an offset and has a length, and
strings that are made of records of one length.
-/

namespace Lager.Lib

/-! ### Little-endian numbers -/

/-- The number that little-endian bytes stand for. -/
def leNat : List UInt8 → Nat
  | [] => 0
  | b :: bs => b.toNat + 256 * leNat bs

/-- The lowest `n` bytes of a number, the least significant first. -/
def leBytes : Nat → Nat → List UInt8
  | 0, _ => []
  | n + 1, x => UInt8.ofNat x :: leBytes n (x / 256)

@[simp] theorem length_leBytes (n x : Nat) : (leBytes n x).length = n := by
  induction n generalizing x with
  | zero => rfl
  | succ n ih => rw [leBytes, List.length_cons, ih]

theorem leNat_lt (bs : List UInt8) : leNat bs < 256 ^ bs.length := by
  induction bs with
  | nil => exact Nat.one_pos
  | cons b bs ih =>
    have hb := b.toNat_lt
    rw [leNat, List.length_cons, Nat.pow_succ]
    omega

theorem leNat_leBytes {n x : Nat} (h : x < 256 ^ n) : leNat (leBytes n x) = x := by
  induction n generalizing x with
  | zero =>
    rw [Nat.pow_zero] at h
    rw [leBytes, leNat]
    omega
  | succ n ih =>
    have hdiv : x / 256 < 256 ^ n := Nat.div_lt_of_lt_mul (by rwa [Nat.pow_succ, Nat.mul_comm] at h)
    rw [leBytes, leNat, ih hdiv, UInt8.toNat_ofNat']
    omega

theorem leBytes_leNat (bs : List UInt8) : leBytes bs.length (leNat bs) = bs := by
  induction bs with
  | nil => rfl
  | cons b bs ih =>
    have hb := b.toNat_lt
    have hdiv : (b.toNat + 256 * leNat bs) / 256 = leNat bs := by omega
    have hlow : UInt8.ofNat (b.toNat + 256 * leNat bs) = b := by
      apply UInt8.toNat_inj.mp
      rw [UInt8.toNat_ofNat']
      omega
    rw [List.length_cons, leNat, leBytes, hdiv, hlow, ih]

/-- A word of `n` bytes. -/
def ofLe (n : Nat) (bs : List UInt8) : BitVec (8 * n) := BitVec.ofNat (8 * n) (leNat bs)

def toLe (n : Nat) (x : BitVec (8 * n)) : List UInt8 := leBytes n x.toNat

@[simp] theorem length_toLe (n : Nat) (x : BitVec (8 * n)) : (toLe n x).length = n := length_leBytes n x.toNat

@[simp] theorem ofLe_toLe (n : Nat) (x : BitVec (8 * n)) : ofLe n (toLe n x) = x := by
  have hx : x.toNat < 256 ^ n := by
    have := x.isLt
    rwa [Nat.pow_mul] at this
  rw [ofLe, toLe, leNat_leBytes hx, BitVec.ofNat_toNat, BitVec.setWidth_eq]

theorem toLe_ofLe {n : Nat} {bs : List UInt8} (h : bs.length = n) : toLe n (ofLe n bs) = bs := by
  have hlt : leNat bs < 2 ^ (8 * n) := by
    rw [Nat.pow_mul, ← h]
    exact leNat_lt bs
  rw [ofLe, toLe, BitVec.toNat_ofNat, Nat.mod_eq_of_lt hlt, ← h]
  exact leBytes_leNat bs

/-! ### Parts of a string -/

variable {α β : Type*}

/-- The `n` items from position `a` on. -/
def sub (l : List α) (a n : Nat) : List α := (l.drop a).take n

theorem length_sub {l : List α} {a n : Nat} (h : a + n ≤ l.length) : (sub l a n).length = n := by
  rw [sub, List.length_take, List.length_drop]
  omega

theorem sub_append_sub (l : List α) {a n c : Nat} (hc : c = a + n) (m : Nat) :
    sub l a n ++ sub l c m = sub l a (n + m) := by
  rw [sub, sub, sub, hc, ← List.drop_drop, ← List.take_add]

theorem sub_drop (l : List α) (c a n : Nat) : sub (l.drop c) a n = sub l (c + a) n := by
  rw [sub, sub, List.drop_drop]

theorem sub_sub (l : List α) (a : Nat) {n b m : Nat} (h : b + m ≤ n) : sub (sub l a n) b m = sub l (a + b) m := by
  rw [sub, sub, sub, List.drop_take, List.drop_drop, List.take_take, Nat.min_eq_left (by omega)]

theorem sub_append_left {l r : List α} {n : Nat} (h : l.length = n) : sub (l ++ r) 0 n = l := by
  rw [sub, List.drop_zero, ← h, List.take_left]

theorem sub_append_right {l r : List α} {a n : Nat} (h : l.length ≤ a) :
    sub (l ++ r) a n = sub r (a - l.length) n := by
  rw [sub, sub, List.drop_append, List.drop_of_length_le h, List.nil_append]

theorem sub_cons_succ (x : α) (l : List α) (a n : Nat) : sub (x :: l) (a + 1) n = sub l a n := rfl

theorem getElem?_sub {l : List α} {a n i : Nat} (h : i < n) : (sub l a n)[i]? = l[a + i]? := by
  rw [sub, List.getElem?_take_of_lt h, List.getElem?_drop]

/-! ### Records of one length -/

theorem length_flatMap_of_length {g : α → List β} {k : Nat} (hg : ∀ x, (g x).length = k) (l : List α) :
    (l.flatMap g).length = k * l.length := by
  induction l with
  | nil => rfl
  | cons x l ih =>
    rw [List.flatMap_cons, List.length_append, hg, ih, List.length_cons, Nat.mul_succ]
    omega

theorem drop_flatMap_of_length {g : α → List β} {k : Nat} (hg : ∀ x, (g x).length = k) (l : List α) (i : Nat) :
    (l.flatMap g).drop (k * i) = (l.drop i).flatMap g := by
  induction i generalizing l with
  | zero => rfl
  | succ i ih =>
    cases l with
    | nil => simp
    | cons x l =>
      rw [List.flatMap_cons, Nat.mul_succ, Nat.add_comm, ← List.drop_drop, ← hg x, List.drop_left, hg x, ih,
        List.drop_succ_cons]

/-- The string from its `i`-th record on begins with that record. -/
theorem drop_flatMap_getElem {g : α → List β} {k : Nat} (hg : ∀ x, (g x).length = k) {l : List α} {i : Nat}
    (h : i < l.length) : ∃ rest, (l.flatMap g).drop (k * i) = g l[i] ++ rest := by
  rw [drop_flatMap_of_length hg, List.drop_eq_getElem_cons h, List.flatMap_cons]
  exact ⟨_, rfl⟩

/-- In rows of `w` records of `k`, the record `x` of row `y`. -/
theorem sub_flatMap_flatMap {g : Nat → Nat → List β} {k w rows x y : Nat} (hg : ∀ y x, (g y x).length = k)
    (hx : x < w) (hy : y < rows) :
    sub ((List.range rows).flatMap fun y => (List.range w).flatMap (g y)) (k * (y * w + x)) k = g y x := by
  have hrow : ∀ y, ((List.range w).flatMap (g y)).length = k * w := fun y => by
    rw [length_flatMap_of_length (hg y), List.length_range]
  obtain ⟨later, hlater⟩ := drop_flatMap_getElem hrow (l := List.range rows) (i := y) (by simpa using hy)
  obtain ⟨rest, hrest⟩ := drop_flatMap_getElem (hg y) (l := List.range w) (i := x) (by simpa using hx)
  rw [List.getElem_range] at hlater hrest
  have hposition : k * (y * w + x) = k * w * y + k * x := by
    rw [Nat.mul_add, Nat.mul_comm y w, Nat.mul_assoc]
  have hle : k * x ≤ ((List.range w).flatMap (g y)).length := by
    rw [hrow]
    exact Nat.mul_le_mul_left k (Nat.le_of_lt hx)
  rw [sub, hposition, ← List.drop_drop, hlater, List.drop_append_of_le_length hle, hrest, List.append_assoc,
    ← hg y x, List.take_left]

end Lager.Lib
