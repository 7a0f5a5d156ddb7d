import Lager.Util.JcsNumber
import Lager.Py.Sorted
import Mathlib.Data.List.Lex
import Mathlib.Data.List.Sort

/-!
# Canonical JSON

`canonicalize` writes a value with the keys of every object in the order of their UTF-16 code units, strings with as few
escapes as possible and numbers as ECMAScript writes them. `canonical v` is the value it writes: every number is the
double it stands for, every object is sorted. `write_eq` says that the text is that of `canonical v`, and
`canonical_eq_iff` that two values have one canonical form exactly when they are equal.
-/

namespace Lager.Util.Jcs

open Lager.Py Lager.Lib Lager.Lib.Decimal

/-! ### Keys -/

/-- The UTF-16 code units of a character. -/
def unitsOf (c : Char) : List Nat :=
  if c.toNat < 0x10000 then [c.toNat]
  else [0xd800 + (c.toNat - 0x10000) / 0x400, 0xdc00 + (c.toNat - 0x10000) % 0x400]

def codeUnits (key : String) : List Nat := key.toList.flatMap unitsOf

def bigEndian (u : Nat) : List Nat := [u / 256, u % 256]

/-- `_utf16_units`, the bytes of `key.encode('utf-16-be')`. -/
def utf16Units (key : String) : List Nat := (codeUnits key).flatMap bigEndian

/-- The order of `sorted(value, key=_utf16_units)`. -/
def KeyLe {α : Type} (p q : String × α) : Prop := utf16Units p.1 ≤ utf16Units q.1

instance {α : Type} : DecidableRel (@KeyLe α) :=
  fun p q => inferInstanceAs (Decidable (utf16Units p.1 ≤ utf16Units q.1))

def sortKeys {α : Type} (items : List (String × α)) : List (String × α) := items.insertionSort KeyLe

/-! ### The text -/

/-- What `json.dumps` with `ensure_ascii=False` writes for a character. -/
def escape (c : Char) : List Char :=
  if c = '"' then ['\\', '"']
  else if c = '\\' then ['\\', '\\']
  else if c = '\n' then ['\\', 'n']
  else if c = '\r' then ['\\', 'r']
  else if c = '\t' then ['\\', 't']
  else if c = '\x08' then ['\\', 'b']
  else if c = '\x0c' then ['\\', 'f']
  else if c.toNat < 0x20 then unicodeEscape c.toNat
  else [c]

/-- `_string` -/
def string (s : String) : List Char := '"' :: (s.toList.flatMap escape ++ ['"'])

variable (F : FloatSyntax)

def bracketed (opening closing : Char) (texts : List (List Char)) : List Char :=
  opening :: ([','].intercalate texts ++ [closing])

def memberText (m : String × List Char) : List Char := string m.1 ++ ':' :: m.2

mutual

/-- `_write` -/
def write : Json → Except PyErr (List Char)
  | .null => .ok "null".toList
  | .bool true => .ok "true".toList
  | .bool false => .ok "false".toList
  | .int n => .ok (textOfInt n)
  | .float x => number F x
  | .str s => .ok (string s)
  | .arr xs => (writeList xs).map (bracketed '[' ']')
  | .obj kvs => (writeMembers kvs).map fun members => bracketed '{' '}' ((sortKeys members).map memberText)

def writeList : List Json → Except PyErr (List (List Char))
  | [] => .ok []
  | x :: xs => do
    let text ← write x
    let texts ← writeList xs
    return text :: texts

/-- The keys with the texts of their values. -/
def writeMembers : Dict → Except PyErr (List (String × List Char))
  | [] => .ok []
  | (k, v) :: kvs => do
    let text ← write v
    let members ← writeMembers kvs
    return (k, text) :: members

end

def canonicalize (value : Json) : Except PyErr Bytes := (write F value).map encode

/-! ### What is written -/

mutual

/-- Every number as the real number it is. -/
def numeric : Json → Json
  | .int n => .float (.fin n)
  | .arr xs => .arr (numericList xs)
  | .obj kvs => .obj (numericItems kvs)
  | .null => .null
  | .bool b => .bool b
  | .float x => .float x
  | .str s => .str s

def numericList : List Json → List Json
  | [] => []
  | x :: xs => numeric x :: numericList xs

def numericItems : Dict → Dict
  | [] => []
  | (k, v) :: kvs => (k, numeric v) :: numericItems kvs

end

/-- Equal as JSON values: members in any order, numbers by what they are worth. -/
def equal (v w : Json) : Bool := (numeric v).same (numeric w)

mutual

/-- The value with the members of every object in the order of their keys. -/
def arranged : Json → Json
  | .arr xs => .arr (arrangedList xs)
  | .obj kvs => .obj (sortKeys (arrangedItems kvs))
  | .null => .null
  | .bool b => .bool b
  | .int n => .int n
  | .float x => .float x
  | .str s => .str s

def arrangedList : List Json → List Json
  | [] => []
  | x :: xs => arranged x :: arrangedList xs

def arrangedItems : Dict → Dict
  | [] => []
  | (k, v) :: kvs => (k, arranged v) :: arrangedItems kvs

end

def canonical (v : Json) : Json := arranged (numeric v)

mutual

/-- Integers up to `2 ^ 53`, doubles that are finite. -/
def InRange : Json → Prop
  | .int n => n.natAbs ≤ 2 ^ 53
  | .float x => ∃ q, x = .fin q ∧ IsDouble q
  | .arr xs => InRangeList xs
  | .obj kvs => InRangeItems kvs
  | .null | .bool _ | .str _ => True

def InRangeList : List Json → Prop
  | [] => True
  | x :: xs => InRange x ∧ InRangeList xs

def InRangeItems : Dict → Prop
  | [] => True
  | (_, v) :: kvs => InRange v ∧ InRangeItems kvs

end

mutual

/-- In every object the keys are strictly ascending in the order of their code units. -/
def KeysAscend : Json → Prop
  | .arr xs => KeysAscendList xs
  | .obj kvs => kvs.Pairwise (fun p q => codeUnits p.1 < codeUnits q.1) ∧ KeysAscendItems kvs
  | .null | .bool _ | .int _ | .float _ | .str _ => True

def KeysAscendList : List Json → Prop
  | [] => True
  | x :: xs => KeysAscend x ∧ KeysAscendList xs

def KeysAscendItems : Dict → Prop
  | [] => True
  | (_, v) :: kvs => KeysAscend v ∧ KeysAscendItems kvs

end

/-! ### The order of keys -/

theorem unitsOf_lt (c : Char) : ∀ u ∈ unitsOf c, u < 0x10000 := by
  have hc := toNat_lt c
  rw [unitsOf]
  split_ifs with h
  · simpa using h
  · simp only [List.forall_mem_cons, List.not_mem_nil, false_implies, implies_true, and_true]
    omega

theorem codeUnits_lt (key : String) : ∀ u ∈ codeUnits key, u < 0x10000 := by
  intro u hu
  obtain ⟨c, -, hc⟩ := List.mem_flatMap.mp hu
  exact unitsOf_lt c u hc

/-- Big-endian bytes are ordered as the units are. -/
theorem bigEndian_lt {us vs : List Nat} (hus : ∀ u ∈ us, u < 0x10000) (hvs : ∀ v ∈ vs, v < 0x10000) :
    us.flatMap bigEndian < vs.flatMap bigEndian ↔ us < vs := by
  induction us generalizing vs with
  | nil =>
    cases vs with
    | nil => exact Iff.rfl
    | cons v vs => exact iff_of_true (List.nil_lt_cons _ _) (List.nil_lt_cons _ _)
  | cons u us ih =>
    cases vs with
    | nil => exact iff_of_false (List.not_lt_nil _) (List.not_lt_nil _)
    | cons v vs =>
      have hu := hus u List.mem_cons_self
      have hv := hvs v List.mem_cons_self
      have hrest := @ih vs (fun x hx => hus x (List.mem_cons_of_mem _ hx))
        fun x hx => hvs x (List.mem_cons_of_mem _ hx)
      simp only [List.flatMap_cons, bigEndian, List.cons_append, List.nil_append, List.cons_lt_cons_iff] at hrest ⊢
      rw [hrest]
      by_cases hlt : us < vs
      · simp only [hlt, and_true]
        omega
      · simp only [hlt, and_false, or_false]
        omega

theorem utf16Units_lt {k l : String} : utf16Units k < utf16Units l ↔ codeUnits k < codeUnits l :=
  bigEndian_lt (codeUnits_lt k) (codeUnits_lt l)

/-- A code unit that is not a surrogate is a character of its own. -/
theorem unitsOf_append_inj {c d : Char} {us vs : List Nat} (h : unitsOf c ++ us = unitsOf d ++ vs) :
    c = d ∧ us = vs := by
  have hc := toNat_not_surrogate c
  have hd := toNat_not_surrogate d
  have hcmax := toNat_lt c
  have hdmax := toNat_lt d
  have hsame : ∀ h : c.toNat = d.toNat, c = d := fun h => Char.toNat_inj.mp h
  rw [unitsOf, unitsOf] at h
  split_ifs at h with h1 h2 h2
  · rw [List.singleton_append, List.singleton_append, List.cons.injEq] at h
    exact ⟨hsame h.1, h.2⟩
  · simp only [List.cons_append, List.nil_append, List.cons.injEq] at h
    omega
  · simp only [List.cons_append, List.nil_append, List.cons.injEq] at h
    omega
  · simp only [List.cons_append, List.nil_append, List.cons.injEq] at h
    exact ⟨hsame (by omega), h.2.2⟩

theorem unitsOf_ne_nil (c : Char) : unitsOf c ≠ [] := by
  rw [unitsOf]
  split_ifs <;> simp

theorem codeUnits_inj {k l : String} (h : codeUnits k = codeUnits l) : k = l := by
  have hlist : ∀ s t : List Char, s.flatMap unitsOf = t.flatMap unitsOf → s = t := by
    intro s
    induction s with
    | nil =>
      rintro (_ | ⟨d, t⟩) h
      · rfl
      · rw [List.flatMap_nil, List.flatMap_cons] at h
        exact absurd h.symm (List.append_ne_nil_of_left_ne_nil (unitsOf_ne_nil d) _)
    | cons c s ih =>
      rintro (_ | ⟨d, t⟩) h
      · rw [List.flatMap_nil, List.flatMap_cons] at h
        exact absurd h (List.append_ne_nil_of_left_ne_nil (unitsOf_ne_nil c) _)
      · rw [List.flatMap_cons, List.flatMap_cons] at h
        obtain ⟨rfl, hrest⟩ := unitsOf_append_inj h
        rw [ih t hrest]
  exact String.toList_inj.mp (hlist _ _ h)

/-! ### Sorting members -/

section Sorting

variable {α β : Type}

/-- Smaller key. -/
def KeyLt (p q : String × α) : Prop := codeUnits p.1 < codeUnits q.1

instance : Std.Irrefl (@KeyLt α) := ⟨fun _ => lt_irrefl _⟩

instance : Std.Antisymm (@KeyLt α) := ⟨fun _ _ h h' => absurd h (lt_asymm h')⟩

instance : Std.Total (@KeyLe α) := ⟨fun p q => le_total (utf16Units p.1) (utf16Units q.1)⟩

instance : IsTrans (String × α) KeyLe := ⟨fun _ _ _ h h' => @le_trans (List Nat) _ _ _ _ h h'⟩

theorem perm_sortKeys (l : List (String × α)) : (sortKeys l).Perm l := List.perm_insertionSort KeyLe l

/-- With every key once, the keys ascend. -/
theorem pairwise_sortKeys {l : List (String × α)} (h : (l.map Prod.fst).Nodup) : (sortKeys l).Pairwise KeyLt := by
  have hle : (sortKeys l).Pairwise KeyLe := List.pairwise_insertionSort KeyLe l
  have hne : (sortKeys l).Pairwise fun p q => p.1 ≠ q.1 :=
    List.pairwise_map.mp (((perm_sortKeys l).map Prod.fst).nodup_iff.mpr h)
  refine (hle.and hne).imp fun {p q} hpq => utf16Units_lt.mp (lt_of_le_of_ne hpq.1 fun heq => hpq.2 ?_)
  have hunits : codeUnits p.1 = codeUnits q.1 := by
    by_contra hunits
    rcases lt_or_gt_of_ne hunits with hlt | hlt
    · exact absurd heq (ne_of_lt (utf16Units_lt.mpr hlt))
    · exact absurd heq (ne_of_gt (utf16Units_lt.mpr hlt))
  exact codeUnits_inj hunits

/-- Sorting forgets the order. -/
theorem sortKeys_eq_of_perm {l m : List (String × α)} (hperm : l.Perm m) (h : (l.map Prod.fst).Nodup) :
    sortKeys l = sortKeys m := by
  have hm : (m.map Prod.fst).Nodup := (hperm.map Prod.fst).nodup_iff.mp h
  have hsorted : (sortKeys l).Perm (sortKeys m) := (perm_sortKeys l).trans (hperm.trans (perm_sortKeys m).symm)
  exact hsorted.eq_of_pairwise' (pairwise_sortKeys h) (pairwise_sortKeys hm)

theorem map_sortKeys (f : α → β) (l : List (String × α)) :
    (sortKeys l).map (fun p => (p.1, f p.2)) = sortKeys (l.map fun p => (p.1, f p.2)) :=
  List.map_insertionSort KeyLe KeyLe _ l fun _ _ _ _ => Iff.rfl

end Sorting

/-! ### Canonical forms -/

theorem numericItems_eq (kvs : Dict) : numericItems kvs = kvs.map fun p => (p.1, numeric p.2) := by
  induction kvs with
  | nil => rfl
  | cons kv kvs ih => rw [numericItems, ih, List.map_cons]

theorem arrangedItems_eq (kvs : Dict) : arrangedItems kvs = kvs.map fun p => (p.1, arranged p.2) := by
  induction kvs with
  | nil => rfl
  | cons kv kvs ih => rw [arrangedItems, ih, List.map_cons]

theorem keys_numericItems (kvs : Dict) : (numericItems kvs).map Prod.fst = kvs.map Prod.fst := by
  rw [numericItems_eq, List.map_map]
  rfl

theorem keys_arrangedItems (kvs : Dict) : (arrangedItems kvs).map Prod.fst = kvs.map Prod.fst := by
  rw [arrangedItems_eq, List.map_map]
  rfl

mutual

theorem wellFormed_numeric : (v : Json) → v.WellFormed → (numeric v).WellFormed
  | .arr xs, h => by
    simp only [Json.WellFormed, numeric] at h ⊢
    exact wellFormed_numericList xs h
  | .obj kvs, h => by
    simp only [Json.WellFormed, numeric, keys_numericItems] at h ⊢
    exact ⟨h.1, wellFormed_numericItems kvs h.2⟩
  | .null, h | .bool _, h | .int _, h | .float _, h | .str _, h => by simp [numeric, Json.WellFormed]

theorem wellFormed_numericList : (xs : List Json) → Json.WellFormedList xs → Json.WellFormedList (numericList xs)
  | [], h => h
  | x :: xs, h => ⟨wellFormed_numeric x h.1, wellFormed_numericList xs h.2⟩

theorem wellFormed_numericItems : (kvs : Dict) → Json.WellFormedItems kvs → Json.WellFormedItems (numericItems kvs)
  | [], h => h
  | (_, v) :: kvs, h => ⟨wellFormed_numeric v h.1, wellFormed_numericItems kvs h.2⟩

end

theorem perm_sortedDict (kvs : Dict) : (Json.sortedDict kvs).Perm (kvs.map fun p => (p.1, p.2.sorted)) := by
  have hinsert : ∀ (item : String × Json) (items : Dict), (Json.insertItem item items).Perm (item :: items) := by
    intro item items
    induction items with
    | nil => exact List.Perm.refl _
    | cons other items ih =>
      rw [Json.insertItem]
      split_ifs
      · exact List.Perm.refl _
      · exact (ih.cons other).trans (List.Perm.swap item other items)
  induction kvs with
  | nil => exact List.Perm.refl _
  | cons kv kvs ih =>
    rw [Json.sortedDict]
    exact (hinsert _ _).trans (ih.cons _)

mutual

/-- The two orders of keys lead to the same arrangement. -/
theorem arranged_sorted : (v : Json) → v.WellFormed → arranged v.sorted = arranged v
  | .arr xs, h => by
    simp only [Json.sorted, arranged, arrangedList_sorted xs h]
  | .obj kvs, h => by
    simp only [Json.WellFormed] at h
    have hperm : (arrangedItems (Json.sortedDict kvs)).Perm (arrangedItems kvs) := by
      rw [arrangedItems_eq, arrangedItems_eq, ← arrangedItems_sorted kvs h.2]
      exact (perm_sortedDict kvs).map _
    have hkeys : ((arrangedItems (Json.sortedDict kvs)).map Prod.fst).Nodup := by
      rw [(hperm.map Prod.fst).nodup_iff, keys_arrangedItems]
      exact h.1
    simp only [Json.sorted, arranged, sortKeys_eq_of_perm hperm hkeys]
  | .null, _ | .bool _, _ | .int _, _ | .float _, _ | .str _, _ => rfl

theorem arrangedList_sorted : (xs : List Json) → Json.WellFormedList xs →
    arrangedList (Json.sortedList xs) = arrangedList xs
  | [], _ => rfl
  | x :: xs, h => by
    simp only [Json.sortedList, arrangedList, arranged_sorted x h.1, arrangedList_sorted xs h.2]

theorem arrangedItems_sorted : (kvs : Dict) → Json.WellFormedItems kvs →
    (kvs.map fun p => (p.1, p.2.sorted)).map (fun p => (p.1, arranged p.2)) = kvs.map fun p => (p.1, arranged p.2)
  | [], _ => rfl
  | (k, v) :: kvs, h => by
    have hrest := arrangedItems_sorted kvs h.2
    rw [List.map_cons, List.map_cons, List.map_cons, hrest, arranged_sorted v h.1]

end

theorem sortedDict_eq_of_perm {xs ys : Dict} (hperm : xs.Perm ys) (h : (xs.map Prod.fst).Nodup) :
    Json.sortedDict xs = Json.sortedDict ys := by
  have hys : (ys.map Prod.fst).Nodup := (hperm.map Prod.fst).nodup_iff.mp h
  have hsorted : (Json.sortedDict xs).Perm (Json.sortedDict ys) :=
    (perm_sortedDict xs).trans ((hperm.map _).trans (perm_sortedDict ys).symm)
  exact hsorted.eq_of_pairwise' (Json.pairwise_sortedDict h) (Json.pairwise_sortedDict hys)

mutual

theorem sorted_arranged : (v : Json) → v.WellFormed → (arranged v).sorted = v.sorted
  | .arr xs, h => by
    simp only [Json.sorted, arranged, sortedList_arranged xs h]
  | .obj kvs, h => by
    simp only [Json.WellFormed] at h
    have hkeys : ((arrangedItems kvs).map Prod.fst).Nodup := by
      rw [keys_arrangedItems]
      exact h.1
    have hsort := sortedDict_eq_of_perm (perm_sortKeys (arrangedItems kvs)).symm hkeys
    simp only [Json.sorted, arranged, ← hsort, sortedDict_arranged kvs h.2]
  | .null, _ | .bool _, _ | .int _, _ | .float _, _ | .str _, _ => rfl

theorem sortedList_arranged : (xs : List Json) → Json.WellFormedList xs →
    Json.sortedList (arrangedList xs) = Json.sortedList xs
  | [], _ => rfl
  | x :: xs, h => by
    simp only [Json.sortedList, arrangedList, sorted_arranged x h.1, sortedList_arranged xs h.2]

theorem sortedDict_arranged : (kvs : Dict) → Json.WellFormedItems kvs →
    Json.sortedDict (arrangedItems kvs) = Json.sortedDict kvs
  | [], _ => rfl
  | (k, v) :: kvs, h => by
    simp only [Json.sortedDict, arrangedItems, sorted_arranged v h.1, sortedDict_arranged kvs h.2]

end

/-- **One form for equal values.** -/
theorem canonical_eq_iff {v w : Json} (hv : v.WellFormed) (hw : w.WellFormed) :
    canonical v = canonical w ↔ equal v w = true := by
  have hv' := wellFormed_numeric v hv
  have hw' := wellFormed_numeric w hw
  rw [equal, Json.same_iff _ _ hv' hw', canonical, canonical]
  constructor
  · intro h
    rw [← sorted_arranged _ hv', h, sorted_arranged _ hw']
  · intro h
    rw [← arranged_sorted _ hv', h, arranged_sorted _ hw']

/-! ### The text of a canonical form -/

/-- The text of a number that has one. -/
def numberText (x : PyFloat) : List Char :=
  match number F x with
  | .ok text => text
  | .error _ => []

mutual

/-- The text of a value as it stands. -/
def textOf : Json → List Char
  | .null => "null".toList
  | .bool true => "true".toList
  | .bool false => "false".toList
  | .int n => textOfInt n
  | .float x => numberText F x
  | .str s => string s
  | .arr xs => bracketed '[' ']' (textsOf xs)
  | .obj kvs => bracketed '{' '}' (memberTexts kvs)

def textsOf : List Json → List (List Char)
  | [] => []
  | x :: xs => textOf x :: textsOf xs

def memberTexts : Dict → List (List Char)
  | [] => []
  | (k, v) :: kvs => memberText (k, textOf v) :: memberTexts kvs

end

theorem memberTexts_eq (kvs : Dict) : memberTexts F kvs = kvs.map fun p => memberText (p.1, textOf F p.2) := by
  induction kvs with
  | nil => rfl
  | cons kv kvs ih => rw [memberTexts, ih, List.map_cons]

variable {F}

theorem number_eq_numberText {q : ℚ} (hq : IsDouble q) : number F (.fin q) = .ok (numberText F (.fin q)) := by
  obtain ⟨m, -, -, htext, -⟩ := number_spec (F := F) hq
  rw [numberText, htext]

mutual

/-- **Writing.** What is written of a value is the text of its canonical form. -/
theorem write_eq : (v : Json) → InRange v → write F v = .ok (textOf F (canonical v))
  | .null, _ => rfl
  | .bool true, _ => rfl
  | .bool false, _ => rfl
  | .int n, h => by
    have hint := number_eq_numberText (F := F) (isDouble_int h)
    rw [number_int h] at hint
    rw [write, hint]
    rfl
  | .float x, h => by
    obtain ⟨q, rfl, hq⟩ := h
    exact number_eq_numberText hq
  | .str s, _ => rfl
  | .arr xs, h => by
    rw [write, writeList_eq xs h]
    rfl
  | .obj kvs, h => by
    have hmap := map_sortKeys (textOf F) (arrangedItems (numericItems kvs))
    rw [write, writeMembers_eq kvs h, Except.map, ← hmap, List.map_map, canonical, numeric, arranged, textOf,
      memberTexts_eq]
    rfl

theorem writeList_eq : (xs : List Json) → InRangeList xs →
    writeList F xs = .ok (textsOf F (arrangedList (numericList xs)))
  | [], _ => rfl
  | x :: xs, h => by
    rw [writeList, write_eq x h.1, writeList_eq xs h.2]
    rfl

theorem writeMembers_eq : (kvs : Dict) → InRangeItems kvs →
    writeMembers F kvs = .ok ((arrangedItems (numericItems kvs)).map fun p => (p.1, textOf F p.2))
  | [], _ => rfl
  | (k, v) :: kvs, h => by
    rw [writeMembers, write_eq v h.1, writeMembers_eq kvs h.2]
    rfl

end

end Lager.Util.Jcs
