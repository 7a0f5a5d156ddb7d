import Lager.Util.Jcs
import Mathlib.Data.Nat.Prime.Basic
import Mathlib.Algebra.Order.Field.Power
import Mathlib.Data.Rat.Lemmas
import Mathlib.Tactic.IntervalCases
import Mathlib.Tactic.Positivity

/-!
# Canonical JSON identifies the value

The text of a canonical form is read back as that form by `json.loads` with numbers read as doubles. So the bytes
determine the value up to what `equal` forgets, and `write_eq` and `canonical_eq_iff` say that equal values have the
same bytes. `json.loads` as Python has it reads a number without a point as an `int`, and the digits of a large double
are not the integer it is: `digits_are_not_the_double`.
-/

namespace Lager.Util.Jcs

open Lager.Py Lager.Lib Lager.Lib.Decimal

variable {F : FloatSyntax}

/-! ### Readers of numbers -/

/-- Every number is a double. -/
def asDouble (F : FloatSyntax) (m : Numeral) : Json := .float (F.float m.value)

/-- `parse_int` and `parse_float` of `json.loads`. -/
def asPython (F : FloatSyntax) (m : Numeral) : Json :=
  if m.frac = [] ∧ m.exp = none then .int (if m.neg then -(value m.int : Int) else value m.int)
  else .float (F.float m.value)

mutual

/-- Values that are read back as they are written. -/
def Readable : Json → Prop
  | .int _ => False
  | .float x => ∃ q, x = .fin q ∧ IsDouble q
  | .arr xs => ReadableList xs
  | .obj kvs => (kvs.map Prod.fst).Nodup ∧ ReadableItems kvs
  | .null | .bool _ | .str _ => True

def ReadableList : List Json → Prop
  | [] => True
  | x :: xs => Readable x ∧ ReadableList xs

def ReadableItems : Dict → Prop
  | [] => True
  | (_, v) :: kvs => Readable v ∧ ReadableItems kvs

end

/-! ### Strings -/

theorem hexDigit?_digitChar : ∀ d < 16, hexDigit? (Nat.digitChar d) = some d := by decide

theorem hex4_unicode {n : Nat} (hn : n < 0x10000) (s : List Char) :
    hex4 (Nat.digitChar (n / 4096 % 16) :: Nat.digitChar (n / 256 % 16) :: Nat.digitChar (n / 16 % 16) ::
      Nat.digitChar (n % 16) :: s) = some (n, s) := by
  simp only [hex4, hexDigit?_digitChar _ (Nat.mod_lt _ (by decide : 0 < 16)), Option.bind_eq_bind, Option.bind_some,
    Option.some.injEq, Prod.mk.injEq, and_true]
  omega

theorem scanChar_unicode {c : Char} (hc : c.toNat < 0x20) (s : List Char) :
    scanChar (unicodeEscape c.toNat ++ s) = some (c, s) := by
  simp only [unicodeEscape, List.cons_append, List.nil_append, scanChar, scanUnicode,
    hex4_unicode (by omega : c.toNat < 0x10000), Option.bind_eq_bind, Option.bind_some]
  rw [if_neg (by omega), if_neg (by omega), Char.ofNat_toNat]

/-- Every character is read back alone, and none is written with a bare quote in front. -/
theorem scanChar_escape (c : Char) (s : List Char) :
    scanChar (escape c ++ s) = some (c, s) ∧ ∀ t, escape c ++ s ≠ '"' :: t := by
  unfold escape
  split_ifs with h1 h2 h3 h4 h5 h6 h7 h8
  · subst h1
    exact ⟨rfl, by simp⟩
  · subst h2
    exact ⟨rfl, by simp⟩
  · subst h3
    exact ⟨rfl, by simp⟩
  · subst h4
    exact ⟨rfl, by simp⟩
  · subst h5
    exact ⟨rfl, by simp⟩
  · subst h6
    exact ⟨rfl, by simp⟩
  · subst h7
    exact ⟨rfl, by simp⟩
  · exact ⟨scanChar_unicode h8 s, by simp [unicodeEscape]⟩
  · refine ⟨?_, by simp [h1]⟩
    rw [List.singleton_append, scanChar, if_neg (by simp [h1, h2, h8])]
    · exact fun _ he => absurd he h2
    · exact fun _ _ he => absurd he h2

theorem length_le_flatMap_escape (s : List Char) : s.length ≤ (s.flatMap escape).length := by
  induction s with
  | nil => exact Nat.le_refl _
  | cons c s ih =>
    have hpos : 0 < (escape c).length := by
      unfold escape
      split_ifs <;> simp [unicodeEscape]
    rw [List.flatMap_cons, List.length_append, List.length_cons]
    omega

theorem length_string (s : String) : s.toList.length + 2 ≤ (string s).length := by
  have hle := length_le_flatMap_escape s.toList
  rw [string, List.length_cons, List.length_append, List.length_singleton]
  omega

/-- A string is read back behind its opening quote. -/
theorem scanString_string (s : String) {fuel : Nat} (hfuel : s.toList.length < fuel) (rest : List Char) :
    ∃ body, string s ++ rest = '"' :: body ∧ scanString fuel body = some (s.toList, rest) := by
  refine ⟨s.toList.flatMap escape ++ '"' :: rest, ?_, scanString_append scanChar_escape s.toList rest hfuel⟩
  rw [string, List.cons_append, List.append_assoc, List.singleton_append]

/-! ### Sequences -/

/-- The texts after the first, with their commas, and the closing bracket. -/
def closing (c : Char) : List (List Char) → List Char
  | [] => [c]
  | t :: texts => ',' :: (t ++ closing c texts)

theorem intercalate_append (c : Char) (t : List Char) (texts : List (List Char)) :
    [','].intercalate (t :: texts) ++ [c] = t ++ closing c texts := by
  induction texts generalizing t with
  | nil => simp [List.intercalate, closing]
  | cons u texts ih =>
    have hcons : [','].intercalate (t :: u :: texts) = t ++ ',' :: [','].intercalate (u :: texts) := by
      simp [List.intercalate]
    rw [hcons, List.append_assoc, List.cons_append, ih, closing]

/-! ### Numbers and literals -/

theorem stops_of_ends {s : List Char} (h : Ends s) : Stops s := by
  have hmarks : ∀ c ∈ [',', ']', '}'], c.isDigit = false ∧ c ≠ '.' ∧ c ≠ 'e' ∧ c ≠ 'E' := forall_char_mem (by decide)
  rcases h with rfl | ⟨c, rest, rfl, hc⟩
  · rintro c ⟨⟩
  · rintro d ⟨⟩
    exact hmarks c hc

/-- A numeral starts with its sign or a digit. -/
theorem head_numeral {m : Numeral} (hm : m.Spelled) : ∃ c s, m.text = c :: s ∧ (c = '-' ∨ c.isDigit = true) := by
  obtain ⟨c, t, hint⟩ := List.exists_cons_of_ne_nil hm.int_ne_nil
  rw [Numeral.text]
  cases m.neg with
  | true => exact ⟨'-', _, rfl, .inl rfl⟩
  | false =>
    rw [hint]
    exact ⟨c, _, rfl, .inr (hm.int c (hint ▸ List.mem_cons_self))⟩

/-- What a number starts with is no mark and no blank. -/
theorem not_mark_of_numeral {c : Char} (h : c = '-' ∨ c.isDigit = true) : c ∉ marks ∧ isWs c = false := by
  have hothers : ∀ d ∈ marks ++ [' ', '\t', '\n', '\r'], d ≠ '-' ∧ d.isDigit = false := forall_char_mem (by decide)
  have hc : c ∉ marks ++ [' ', '\t', '\n', '\r'] := by
    intro hmem
    obtain ⟨hminus, hdigit⟩ := hothers c hmem
    rcases h with h | h
    · exact hminus h
    · rw [h] at hdigit
      cases hdigit
  rw [List.mem_append, not_or] at hc
  exact ⟨hc.1, by simpa [isWs] using hc.2⟩

theorem scanValue_number {q : ℚ} (hq : IsDouble q) {fuel : Nat} {rest : List Char} (hrest : Ends rest) :
    scanValue (asDouble F) (fuel + 1) (numberText F (.fin q) ++ rest) = some (.float (.fin q), rest) := by
  obtain ⟨m, hm, hplain, htext, hread⟩ := number_spec (F := F) hq
  obtain ⟨c, s, hhead, hc⟩ := head_numeral hm
  have hnumber : numberText F (.fin q) = m.text := by
    rw [numberText, htext]
  have hscan := scan_text hm hplain (stops_of_ends hrest)
  rw [hnumber, scanValue_scalar, scanScalar, hscan]
  · exact congrArg (fun x => some (Json.float x, rest)) hread
  · rw [hhead]
    rintro d ⟨⟩
    exact (not_mark_of_numeral hc).1

theorem ends_closing {c : Char} (hc : c ∈ [']', '}']) (texts : List (List Char)) (rest : List Char) :
    Ends (closing c texts ++ rest) := by
  have hmarks : ∀ c ∈ [']', '}'], c ∈ [',', ']', '}'] := forall_char_mem (by decide)
  cases texts with
  | nil => exact .inr ⟨c, rest, rfl, hmarks c hc⟩
  | cons t texts => exact .inr ⟨',', _, rfl, by decide⟩

/-! ### Reading back -/

theorem scanScalar_null (num : Numeral → Json) (rest : List Char) :
    scanScalar num ("null".toList ++ rest) = some (.null, rest) := rfl

theorem scanScalar_true (num : Numeral → Json) (rest : List Char) :
    scanScalar num ("true".toList ++ rest) = some (.bool true, rest) := rfl

theorem scanScalar_false (num : Numeral → Json) (rest : List Char) :
    scanScalar num ("false".toList ++ rest) = some (.bool false, rest) := rfl

/-- A value starts with no blank, and not with the end of an array. -/
theorem head_textOf {u : Json} (hu : Readable u) : ∃ c s, textOf F u = c :: s ∧ isWs c = false ∧ c ≠ ']' := by
  match u, hu with
  | .null, _ => exact ⟨'n', _, rfl, by decide, by decide⟩
  | .bool true, _ => exact ⟨'t', _, rfl, by decide, by decide⟩
  | .bool false, _ => exact ⟨'f', _, rfl, by decide, by decide⟩
  | .float _, ⟨q, rfl, hq⟩ =>
    obtain ⟨m, hm, -, htext, -⟩ := number_spec (F := F) hq
    obtain ⟨c, s, hhead, hc⟩ := head_numeral hm
    obtain ⟨hmark, hws⟩ := not_mark_of_numeral hc
    refine ⟨c, s, ?_, hws, ?_⟩
    · rw [textOf, numberText, htext]
      exact hhead
    · rintro rfl
      exact hmark (by decide)
  | .str s, _ => exact ⟨'"', _, rfl, by decide, by decide⟩
  | .arr xs, _ => exact ⟨'[', _, rfl, by decide, by decide⟩
  | .obj kvs, _ => exact ⟨'{', _, rfl, by decide, by decide⟩

theorem noWs_textOf {u : Json} (hu : Readable u) (s : List Char) : NoWs (textOf F u ++ s) := by
  obtain ⟨c, t, hhead, hws, -⟩ := head_textOf (F := F) hu
  rw [hhead]
  rintro d ⟨⟩
  exact hws

theorem textsOf_eq_nil {xs : List Json} (h : textsOf F xs = []) : xs = [] := by
  cases xs with
  | nil => rfl
  | cons x xs => cases h

theorem memberTexts_eq_nil {kvs : Dict} (h : memberTexts F kvs = []) : kvs = [] := by
  cases kvs with
  | nil => rfl
  | cons kv kvs => cases h

mutual

/-- **Reading back.** The text of a readable value is read as that value, up to where it ends. -/
theorem scan_textOf : (u : Json) → Readable u → {fuel : Nat} → {rest : List Char} → 2 * (textOf F u).length ≤ fuel →
    Ends rest → scanValue (asDouble F) fuel (textOf F u ++ rest) = some (u, rest)
  | .null, _, fuel, rest, hfuel, _ => by
    obtain ⟨fuel, rfl⟩ := Nat.exists_eq_succ_of_ne_zero (by simp [textOf] at hfuel; omega : fuel ≠ 0)
    rw [textOf, scanValue_scalar fuel (by rintro c ⟨⟩; decide), scanScalar_null]
  | .bool true, _, fuel, rest, hfuel, _ => by
    obtain ⟨fuel, rfl⟩ := Nat.exists_eq_succ_of_ne_zero (by simp [textOf] at hfuel; omega : fuel ≠ 0)
    rw [textOf, scanValue_scalar fuel (by rintro c ⟨⟩; decide), scanScalar_true]
  | .bool false, _, fuel, rest, hfuel, _ => by
    obtain ⟨fuel, rfl⟩ := Nat.exists_eq_succ_of_ne_zero (by simp [textOf] at hfuel; omega : fuel ≠ 0)
    rw [textOf, scanValue_scalar fuel (by rintro c ⟨⟩; decide), scanScalar_false]
  | .float x, hu, fuel, rest, hfuel, hrest => by
    obtain ⟨c, s, hhead, -⟩ := head_textOf (F := F) hu
    rw [hhead, List.length_cons] at hfuel
    obtain ⟨fuel, rfl⟩ := Nat.exists_eq_succ_of_ne_zero (by omega : fuel ≠ 0)
    obtain ⟨q, rfl, hq⟩ := hu
    exact scanValue_number hq hrest
  | .str s, _, fuel, rest, hfuel, _ => by
    have hlength := length_string s
    rw [textOf] at hfuel ⊢
    obtain ⟨fuel, rfl⟩ := Nat.exists_eq_succ_of_ne_zero (by omega : fuel ≠ 0)
    obtain ⟨body, hbody, hscan⟩ := scanString_string s (by omega : s.toList.length < fuel) rest
    rw [hbody, scanValue_string, hscan, Option.map_some, String.ofList_toList]
  | .arr xs, hu, fuel, rest, hfuel, _ => by
    rw [textOf, bracketed] at hfuel ⊢
    rw [List.length_cons] at hfuel
    obtain ⟨fuel, rfl⟩ := Nat.exists_eq_succ_of_ne_zero (by omega : fuel ≠ 0)
    cases htexts : textsOf F xs with
    | nil =>
      rw [textsOf_eq_nil htexts]
      exact scanValue_arr_nil fuel rest
    | cons t texts =>
      rw [htexts, intercalate_append] at hfuel
      rw [intercalate_append, List.cons_append, List.append_assoc]
      have hitems := scan_items xs hu htexts (by omega : 2 * (t ++ closing ']' texts).length + 1 ≤ fuel) rest
      match xs, hu, htexts with
      | x :: xs, hu, htexts =>
        obtain ⟨rfl, -⟩ := List.cons.inj htexts
        refine scanValue_arr (noWs_textOf hu.1 _) (fun v hv => ?_) hitems
        obtain ⟨c, s, hhead, -, hc⟩ := head_textOf (F := F) hu.1
        rw [hhead] at hv
        exact hc (List.cons.inj hv).1
  | .obj kvs, hu, fuel, rest, hfuel, _ => by
    rw [textOf, bracketed] at hfuel ⊢
    rw [List.length_cons] at hfuel
    obtain ⟨fuel, rfl⟩ := Nat.exists_eq_succ_of_ne_zero (by omega : fuel ≠ 0)
    cases htexts : memberTexts F kvs with
    | nil =>
      rw [memberTexts_eq_nil htexts]
      exact scanValue_obj_nil fuel rest
    | cons t texts =>
      rw [htexts, intercalate_append] at hfuel
      rw [intercalate_append, List.cons_append, List.append_assoc]
      have hmembers := scan_members kvs hu.2 htexts (by omega : 2 * (t ++ closing '}' texts).length + 1 ≤ fuel) rest
      have hupdate : Dict.update [] kvs = kvs := Dict.update_new hu.1 (by simp)
      rw [← hupdate]
      match kvs, htexts with
      | (k, v) :: kvs, htexts =>
        obtain ⟨rfl, -⟩ := List.cons.inj htexts
        exact scanValue_obj (by rintro c ⟨⟩; decide) (fun v hv => absurd (List.cons.inj hv).1 (by decide)) hmembers

theorem scan_items : (xs : List Json) → ReadableList xs → {t : List Char} → {texts : List (List Char)} →
    textsOf F xs = t :: texts → {fuel : Nat} → 2 * (t ++ closing ']' texts).length + 1 ≤ fuel → (rest : List Char) →
    scanItems (asDouble F) fuel (t ++ (closing ']' texts ++ rest)) = some (xs, rest)
  | x :: xs, hu, t, texts, htexts, fuel, hfuel, rest => by
    obtain ⟨fuel, rfl⟩ := Nat.exists_eq_succ_of_ne_zero (by omega : fuel ≠ 0)
    obtain ⟨rfl, rfl⟩ := List.cons.inj htexts
    rw [List.length_append] at hfuel
    have hvalue := scan_textOf x hu.1 (by omega : 2 * (textOf F x).length ≤ fuel)
      (ends_closing (by decide : ']' ∈ [']', '}']) (textsOf F xs) rest)
    cases hrest : textsOf F xs with
    | nil =>
      rw [hrest] at hvalue
      rw [textsOf_eq_nil hrest]
      exact scanItems_last hvalue
    | cons u texts =>
      rw [hrest] at hvalue hfuel
      rw [closing, List.length_cons] at hfuel
      have hitems := scan_items xs hu.2 hrest (by omega : 2 * (u ++ closing ']' texts).length + 1 ≤ fuel) rest
      rw [closing, List.cons_append, List.append_assoc] at hvalue ⊢
      refine scanItems_cons hvalue ?_ hitems
      match xs, hu, hrest with
      | y :: ys, hu, hrest =>
        obtain ⟨rfl, -⟩ := List.cons.inj hrest
        exact noWs_textOf hu.2.1 _

theorem scan_members : (kvs : Dict) → ReadableItems kvs → {t : List Char} → {texts : List (List Char)} →
    memberTexts F kvs = t :: texts → {fuel : Nat} → 2 * (t ++ closing '}' texts).length + 1 ≤ fuel →
    (rest : List Char) → scanMembers (asDouble F) fuel (t ++ (closing '}' texts ++ rest)) = some (kvs, rest)
  | (k, v) :: kvs, hu, t, texts, htexts, fuel, hfuel, rest => by
    obtain ⟨fuel, rfl⟩ := Nat.exists_eq_succ_of_ne_zero (by omega : fuel ≠ 0)
    obtain ⟨rfl, rfl⟩ := List.cons.inj htexts
    have hlength := length_string k
    simp only [memberText, List.length_append, List.length_cons] at hfuel
    have hvalue := scan_textOf v hu.1 (by omega : 2 * (textOf F v).length ≤ fuel)
      (ends_closing (by decide : '}' ∈ [']', '}']) (memberTexts F kvs) rest)
    obtain ⟨body, hbody, hkey⟩ := scanString_string k (by omega : k.toList.length < fuel)
      (':' :: (textOf F v ++ (closing '}' (memberTexts F kvs) ++ rest)))
    have htext : memberText (k, textOf F v) ++ (closing '}' (memberTexts F kvs) ++ rest) = '"' :: body := by
      rw [← hbody, memberText, List.append_assoc, List.cons_append]
    rw [htext]
    cases hrest : memberTexts F kvs with
    | nil =>
      rw [hrest] at hvalue hkey
      rw [memberTexts_eq_nil hrest]
      have hlast := scanMembers_last hkey (noWs_textOf hu.1 _) hvalue
      rwa [String.ofList_toList] at hlast
    | cons u texts =>
      rw [hrest] at hvalue hkey hfuel
      rw [closing, List.length_cons] at hfuel
      have hmembers := scan_members kvs hu.2 hrest (by omega : 2 * (u ++ closing '}' texts).length + 1 ≤ fuel) rest
      rw [closing, List.cons_append, List.append_assoc] at hvalue hkey
      have hcons := scanMembers_cons hkey (noWs_textOf hu.1 _) hvalue ?_ hmembers
      · rwa [String.ofList_toList] at hcons
      match kvs, hrest with
      | (l, w) :: kvs, hrest =>
        obtain ⟨rfl, -⟩ := List.cons.inj hrest
        rintro c ⟨⟩
        decide

end

theorem loads_textOf {u : Json} (hu : Readable u) : loads (asDouble F) (textOf F u) = some u := by
  have hws := skipWs_eq (noWs_textOf (F := F) hu [])
  have hscan : scanValue (asDouble F) (2 * (textOf F u).length + 1) (textOf F u ++ []) = some (u, []) :=
    scan_textOf u hu (by omega) (.inl rfl)
  rw [List.append_nil] at hws hscan
  rw [loads, hws, hscan]
  rfl

/-! ### Canonical forms are readable -/

theorem readableItems_iff {kvs : Dict} : ReadableItems kvs ↔ ∀ p ∈ kvs, Readable p.2 := by
  induction kvs with
  | nil => simp [ReadableItems]
  | cons kv kvs ih => simp [ReadableItems, ih]

theorem keysAscendItems_iff {kvs : Dict} : KeysAscendItems kvs ↔ ∀ p ∈ kvs, KeysAscend p.2 := by
  induction kvs with
  | nil => simp [KeysAscendItems]
  | cons kv kvs ih => simp [KeysAscendItems, ih]

mutual

theorem readable_canonical : (v : Json) → v.WellFormed → InRange v → Readable (canonical v)
  | .null, _, _ | .bool _, _, _ | .str _, _, _ => trivial
  | .int n, _, h => ⟨n, rfl, isDouble_int h⟩
  | .float x, _, h => h
  | .arr xs, hwf, h => readable_canonicalList xs hwf h
  | .obj kvs, hwf, h => by
    simp only [Json.WellFormed] at hwf
    have hperm := perm_sortKeys (arrangedItems (numericItems kvs))
    refine ⟨?_, readableItems_iff.mpr fun p hp => ?_⟩
    · rw [(hperm.map Prod.fst).nodup_iff, keys_arrangedItems, keys_numericItems]
      exact hwf.1
    · exact readableItems_iff.mp (readable_canonicalItems kvs hwf.2 h) p (hperm.mem_iff.mp hp)

theorem readable_canonicalList : (xs : List Json) → Json.WellFormedList xs → InRangeList xs →
    ReadableList (arrangedList (numericList xs))
  | [], _, _ => trivial
  | x :: xs, hwf, h => ⟨readable_canonical x hwf.1 h.1, readable_canonicalList xs hwf.2 h.2⟩

theorem readable_canonicalItems : (kvs : Dict) → Json.WellFormedItems kvs → InRangeItems kvs →
    ReadableItems (arrangedItems (numericItems kvs))
  | [], _, _ => trivial
  | (_, v) :: kvs, hwf, h => ⟨readable_canonical v hwf.1 h.1, readable_canonicalItems kvs hwf.2 h.2⟩

end

mutual

/-- **The order of keys.** -/
theorem keysAscend_arranged : (v : Json) → v.WellFormed → KeysAscend (arranged v)
  | .null, _ | .bool _, _ | .int _, _ | .float _, _ | .str _, _ => trivial
  | .arr xs, hwf => keysAscend_arrangedList xs hwf
  | .obj kvs, hwf => by
    simp only [Json.WellFormed] at hwf
    have hkeys : ((arrangedItems kvs).map Prod.fst).Nodup := by
      rw [keys_arrangedItems]
      exact hwf.1
    refine ⟨pairwise_sortKeys hkeys, keysAscendItems_iff.mpr fun p hp => ?_⟩
    exact keysAscendItems_iff.mp (keysAscend_arrangedItems kvs hwf.2) p ((perm_sortKeys _).mem_iff.mp hp)

theorem keysAscend_arrangedList : (xs : List Json) → Json.WellFormedList xs → KeysAscendList (arrangedList xs)
  | [], _ => trivial
  | x :: xs, hwf => ⟨keysAscend_arranged x hwf.1, keysAscend_arrangedList xs hwf.2⟩

theorem keysAscend_arrangedItems : (kvs : Dict) → Json.WellFormedItems kvs → KeysAscendItems (arrangedItems kvs)
  | [], _ => trivial
  | (_, v) :: kvs, hwf => ⟨keysAscend_arranged v hwf.1, keysAscend_arrangedItems kvs hwf.2⟩

end

mutual

theorem numeric_readable : (u : Json) → Readable u → numeric u = u ∧ u.WellFormed
  | .null, _ | .bool _, _ | .str _, _ | .float _, _ => by simp [numeric, Json.WellFormed]
  | .arr xs, hu => by
    obtain ⟨hsame, hwf⟩ := numeric_readableList xs hu
    exact ⟨by rw [numeric, hsame], hwf⟩
  | .obj kvs, hu => by
    obtain ⟨hsame, hwf⟩ := numeric_readableItems kvs hu.2
    refine ⟨by rw [numeric, hsame], ?_⟩
    simp only [Json.WellFormed]
    exact ⟨hu.1, hwf⟩

theorem numeric_readableList : (xs : List Json) → ReadableList xs → numericList xs = xs ∧ Json.WellFormedList xs
  | [], _ => ⟨rfl, trivial⟩
  | x :: xs, hu => by
    obtain ⟨hx, hwf⟩ := numeric_readable x hu.1
    obtain ⟨hxs, hwfs⟩ := numeric_readableList xs hu.2
    exact ⟨by rw [numericList, hx, hxs], hwf, hwfs⟩

theorem numeric_readableItems : (kvs : Dict) → ReadableItems kvs → numericItems kvs = kvs ∧ Json.WellFormedItems kvs
  | [], _ => ⟨rfl, trivial⟩
  | (k, v) :: kvs, hu => by
    obtain ⟨hv, hwf⟩ := numeric_readable v hu.1
    obtain ⟨hkvs, hwfs⟩ := numeric_readableItems kvs hu.2
    exact ⟨by rw [numericItems, hv, hkvs], hwf, hwfs⟩

end

/-- A value is equal to its canonical form. -/
theorem equal_canonical {v : Json} (hwf : v.WellFormed) (hrange : InRange v) : equal (canonical v) v = true := by
  obtain ⟨hsame, hform⟩ := numeric_readable _ (readable_canonical v hwf hrange)
  have hv := wellFormed_numeric v hwf
  rw [equal, hsame, Json.same_iff _ _ hform hv]
  exact sorted_arranged _ hv

/-! ### Equality -/

theorem numericItems_insertItem (item : String × Json) (items : Dict) :
    numericItems (Json.insertItem item items) = Json.insertItem (item.1, numeric item.2) (numericItems items) := by
  induction items with
  | nil => rfl
  | cons other items ih =>
    rw [Json.insertItem, numericItems, Json.insertItem]
    split_ifs
    · rfl
    · rw [numericItems, ih]

mutual

theorem numeric_sorted : (v : Json) → numeric v.sorted = (numeric v).sorted
  | .null | .bool _ | .int _ | .float _ | .str _ => rfl
  | .arr xs => by
    simp only [Json.sorted, numeric, numericList_sorted xs]
  | .obj kvs => by
    simp only [Json.sorted, numeric, numericItems_sorted kvs]

theorem numericList_sorted : (xs : List Json) → numericList (Json.sortedList xs) = Json.sortedList (numericList xs)
  | [] => rfl
  | x :: xs => by
    simp only [Json.sortedList, numericList, numeric_sorted x, numericList_sorted xs]

theorem numericItems_sorted : (kvs : Dict) → numericItems (Json.sortedDict kvs) = Json.sortedDict (numericItems kvs)
  | [] => rfl
  | (k, v) :: kvs => by
    simp only [Json.sortedDict, numericItems, numericItems_insertItem, numeric_sorted v, numericItems_sorted kvs]

end

/-- What differs in the order of members only is equal. -/
theorem equal_of_same {v w : Json} (hv : v.WellFormed) (hw : w.WellFormed) (h : v.same w = true) :
    equal v w = true := by
  rw [equal, Json.same_iff _ _ (wellFormed_numeric v hv) (wellFormed_numeric w hw), ← numeric_sorted,
    (Json.same_iff v w hv hw).mp h, numeric_sorted]

/-! ### The results -/

/-- A decoded value with numbers that every language reads alike. -/
structure Value where
  json : Json
  wellFormed : json.WellFormed
  inRange : InRange json

theorem canonicalize_eq (F : FloatSyntax) (v : Value) :
    canonicalize F v.json = .ok (encode (textOf F (canonical v.json))) := by
  rw [canonicalize, write_eq v.json v.inRange]
  rfl

/-- **Canonical JSON identifies the value.** The bytes do not depend on the order of members, the keys of every object
ascend in them, a reader that takes numbers for doubles reads an equal value from them, and two values have the same
bytes exactly when they are equal. -/
theorem canonical_identifies (F : FloatSyntax) (v w : Value) :
    (v.json.same w.json = true → canonicalize F v.json = canonicalize F w.json) ∧
      (∃ text parsed, canonicalize F v.json = .ok (encode text) ∧ loads (asDouble F) text = some parsed ∧
        KeysAscend parsed ∧ equal parsed v.json = true) ∧
      (canonicalize F v.json = canonicalize F w.json ↔ equal v.json w.json = true) := by
  have hreadable := fun u : Value => readable_canonical u.json u.wellFormed u.inRange
  have hsame : equal v.json w.json = true → canonicalize F v.json = canonicalize F w.json := by
    intro h
    rw [canonicalize_eq, canonicalize_eq, (canonical_eq_iff v.wellFormed w.wellFormed).mpr h]
  refine ⟨fun h => hsame (equal_of_same v.wellFormed w.wellFormed h), ?_, fun h => ?_, hsame⟩
  · exact ⟨_, _, canonicalize_eq F v, loads_textOf (hreadable v),
      keysAscend_arranged _ (wellFormed_numeric _ v.wellFormed), equal_canonical v.wellFormed v.inRange⟩
  · rw [canonicalize_eq, canonicalize_eq] at h
    have htext := congrArg (loads (asDouble F)) (encode_inj (Except.ok.inj h))
    rw [loads_textOf (hreadable v), loads_textOf (hreadable w)] at htext
    exact (canonical_eq_iff v.wellFormed w.wellFormed).mp (Option.some.inj htext)

/-! ### A printer -/

/-- The last `k` digits of a number. -/
def padded : Nat → Nat → List Char
  | 0, _ => []
  | k + 1, n => padded k (n / 10) ++ [Nat.digitChar (n % 10)]

theorem isDigit_digitChar : ∀ d < 10, (Nat.digitChar d).isDigit = true := by decide

theorem padded_spec (k n : Nat) : IsDigits (padded k n) ∧ (padded k n).length = k ∧ value (padded k n) = n % 10 ^ k := by
  induction k generalizing n with
  | zero => exact ⟨by simp [padded, IsDigits], rfl, by simp [padded, Nat.mod_one]⟩
  | succ k ih =>
    obtain ⟨hdigits, hlength, hvalue⟩ := ih (n / 10)
    have hlt : n % 10 < 10 := Nat.mod_lt _ (by decide)
    refine ⟨isDigits_append.mpr ⟨hdigits, ?_⟩, ?_, ?_⟩
    · intro c hc
      rw [List.mem_singleton.mp hc]
      exact isDigit_digitChar _ hlt
    · rw [padded, List.length_append, hlength, List.length_singleton]
    · rw [padded, value_append, hvalue, value_singleton, Nat.toNat_digitChar_sub_48_of_lt_ten hlt,
        List.length_singleton, Nat.pow_one, Nat.pow_succ', Nat.mod_mul]
      omega

/-- All decimals of a positive number whose denominator is a power of two. -/
def decimals (q : ℚ) : Numeral :=
  let k := max 1 q.den.log2
  let n := q.num.natAbs * (10 ^ k / q.den)
  ⟨false, textOfNat (n / 10 ^ k), padded k n, none⟩

theorem decimals_spelled (q : ℚ) : (decimals q).Spelled :=
  ⟨isDigits_textOfNat _, textOfNat_ne_nil _, (padded_spec _ _).1, by simp [decimals]⟩

theorem den_of_isDouble {q : ℚ} (hq : IsDouble q) : ∃ j, q.den = 2 ^ j := by
  obtain ⟨m, e, -, -, -, rfl⟩ := hq
  obtain ⟨n, hn⟩ : ∃ n, ((m : ℚ) * (2 : ℚ) ^ e).den ∣ 2 ^ n := by
    obtain ⟨n, rfl | rfl⟩ := e.eq_nat_or_neg
    · have hint : (m : ℚ) * (2 : ℚ) ^ (n : Int) = ((m * 2 ^ n : Int) : ℚ) := by
        rw [zpow_natCast]
        push_cast
        rfl
      rw [hint, Rat.den_intCast]
      exact ⟨0, one_dvd _⟩
    · have hdiv : (m : ℚ) * (2 : ℚ) ^ (-(n : Int)) = (m : ℚ) / ((2 ^ n : Int) : ℚ) := by
        rw [zpow_neg, zpow_natCast, div_eq_mul_inv]
        push_cast
        rfl
      rw [hdiv]
      exact ⟨n, by exact_mod_cast Rat.den_dvd m (2 ^ n)⟩
  obtain ⟨j, -, hj⟩ := (Nat.dvd_prime_pow Nat.prime_two).mp hn
  exact ⟨j, hj⟩

theorem decimals_value {q : ℚ} (hq : IsDouble q) (hpos : 0 < q) : (decimals q).value = q := by
  obtain ⟨j, hj⟩ := den_of_isDouble hq
  obtain ⟨k, hk⟩ : ∃ k, max 1 q.den.log2 = k := ⟨_, rfl⟩
  have hle : j ≤ k := by
    rw [← hk, hj, Nat.log2_two_pow]
    exact le_max_right 1 j
  obtain ⟨r, hr⟩ : q.den ∣ 10 ^ k := by
    rw [hj]
    exact (Nat.pow_dvd_pow 2 hle).trans (pow_dvd_pow_of_dvd (by decide : 2 ∣ 10) k)
  have hdiv : 10 ^ k / q.den = r := by
    rw [hr, Nat.mul_div_cancel_left _ q.den_pos]
  obtain ⟨-, hlength, hvalue⟩ := padded_spec k (q.num.natAbs * r)
  have hnum : ((q.num.natAbs : Nat) : ℚ) = q.num := by
    have hnonneg : 0 ≤ q.num := (Rat.num_pos.mpr hpos).le
    rw [← Int.cast_natCast, Int.natAbs_of_nonneg hnonneg]
  have hten : (10 : ℚ) ^ k = q.den * r := by exact_mod_cast hr
  have hdigits : value (textOfNat (q.num.natAbs * r / 10 ^ k) ++ padded k (q.num.natAbs * r)) = q.num.natAbs * r := by
    rw [value_append, value_textOfNat, hvalue, hlength, Nat.div_add_mod']
  have hden : (q.den : ℚ) ≠ 0 := by exact_mod_cast q.den_ne_zero
  have hr0 : (r : ℚ) ≠ 0 := by
    intro h0
    rw [h0, mul_zero] at hten
    exact absurd hten (by positivity)
  show (if false then _ else Numeral.magnitude _) = q
  simp only [decimals, hk, hdiv, Bool.false_eq_true, if_false, Numeral.magnitude, hdigits, hlength, Numeral.exponent,
    zero_sub, zpow_neg, zpow_natCast, Nat.cast_mul, hnum, hten]
  calc (q.num : ℚ) * r * ((q.den : ℚ) * r)⁻¹ = q.num / q.den := by field_simp
    _ = q := Rat.num_div_den q

/-- A double with more digits than its shortest text has. -/
def largeDouble : ℚ := 123456789012345683968

/-- The number that its text spells. -/
def largeText : Numeral := ⟨false, ['1'], "2345678901234568".toList, some (false, "20".toList)⟩

theorem largeText_value : largeText.value = 123456789012345680000 := by
  have hdigits : value (largeText.int ++ largeText.frac) = 12345678901234568 := by decide +kernel
  have hexponent : largeText.exponent - largeText.frac.length = ((4 : Nat) : Int) := by decide +kernel
  rw [Numeral.value, Numeral.magnitude, hdigits, hexponent, zpow_natCast]
  norm_num [largeText]

theorem isDouble_large : IsDouble largeDouble :=
  ⟨7535204407491802, 14, by decide, by decide, by decide, by norm_num [largeDouble]⟩

theorem not_isDouble_largeText : ¬IsDouble 123456789012345680000 := by
  rintro ⟨m, e, hm, -, -, h⟩
  obtain ⟨n, rfl | rfl⟩ := e.eq_nat_or_neg
  · rw [zpow_natCast] at h
    have hint : (123456789012345680000 : Int) = m * 2 ^ n := by exact_mod_cast h
    by_cases hn : n < 8
    · interval_cases n <;> omega
    · -- it is no multiple of 256
      obtain ⟨k, rfl⟩ := Nat.exists_eq_add_of_le (not_lt.mp hn)
      rw [pow_add] at hint
      have hmul : (123456789012345680000 : Int) = 256 * (m * 2 ^ k) := by
        rw [hint]
        ring
      omega
  · have hmul : (123456789012345680000 : ℚ) * 2 ^ n = m := by
      rw [h, zpow_neg, zpow_natCast]
      field_simp
    have hint : (123456789012345680000 : Int) * 2 ^ n = m := by exact_mod_cast hmul
    have hone : (1 : Int) ≤ 2 ^ n := one_le_pow₀ (by decide)
    omega

theorem largeSyntax_neg (q : ℚ) :
    (if -q = 123456789012345680000 then PyFloat.fin largeDouble
      else if - -q = 123456789012345680000 then .fin (-largeDouble) else .fin (-q)) =
    negate (if q = 123456789012345680000 then .fin largeDouble
      else if -q = 123456789012345680000 then .fin (-largeDouble) else .fin q) := by
  by_cases hpos : q = 123456789012345680000
  · subst hpos
    norm_num [negate]
  · by_cases hneg : -q = 123456789012345680000
    · rw [if_pos hneg, if_neg hpos, if_pos hneg, negate, neg_neg]
    · rw [if_neg hneg, if_neg (by rwa [neg_neg]), if_neg hpos, if_neg hneg]
      rfl

theorem largeSyntax_double (q : ℚ) (hq : IsDouble q) :
    (if q = 123456789012345680000 then PyFloat.fin largeDouble
      else if -q = 123456789012345680000 then .fin (-largeDouble) else .fin q) = .fin q := by
  have hpos : ¬q = 123456789012345680000 := fun h => not_isDouble_largeText (h ▸ hq)
  have hneg : ¬-q = 123456789012345680000 := fun h => not_isDouble_largeText (h ▸ isDouble_neg hq)
  rw [if_neg hpos, if_neg hneg]

theorem largeSyntax_repr (q : ℚ) (hq : IsDouble q) (hpos : 0 < q) :
    ∃ m : Numeral, m.Spelled ∧ m.neg = false ∧
      (if q = largeDouble then largeText.text else (decimals q).text) = m.text ∧
      (if m.value = 123456789012345680000 then PyFloat.fin largeDouble
        else if -m.value = 123456789012345680000 then .fin (-largeDouble) else .fin m.value) = .fin q ∧
      ∀ n : Nat, n ≤ 2 ^ 53 → q = n → m.value = n := by
  by_cases hlarge : q = largeDouble
  · refine ⟨largeText, ⟨?_, by simp [largeText], ?_, ?_⟩, rfl, if_pos hlarge, ?_, ?_⟩
    · exact forall_char_mem (by decide)
    · exact forall_char_mem (by decide)
    · rintro neg digits ⟨⟩
      exact ⟨forall_char_mem (by decide), by decide⟩
    · rw [largeText_value, if_pos rfl, hlarge]
    · intro n hn hq'
      have hcast : (n : ℚ) = largeDouble := hq'.symm.trans hlarge
      rw [largeDouble] at hcast
      have hnat : n = 123456789012345683968 := by exact_mod_cast hcast
      omega
  · have hvalue := decimals_value hq hpos
    refine ⟨decimals q, decimals_spelled q, rfl, if_neg hlarge, ?_, fun n _ hn => hvalue.trans hn⟩
    rw [hvalue]
    exact largeSyntax_double q hq

/-- The one double is printed and read as Python does, every other one is spelled out. -/
def largeSyntax : FloatSyntax where
  repr q := if q = largeDouble then largeText.text else (decimals q).text
  float v :=
    if v = 123456789012345680000 then .fin largeDouble
    else if -v = 123456789012345680000 then .fin (-largeDouble)
    else .fin v
  float_double := largeSyntax_double
  float_neg := largeSyntax_neg
  repr_spec := largeSyntax_repr

/-- One object in two spellings. -/
def settings : Value where
  json := .obj [("volts", .float (.fin 2)), ("amps", .int 1)]
  wellFormed := by simp [Json.WellFormed, Json.WellFormedItems]
  inRange := ⟨⟨2, rfl, isDouble_int (n := 2) (by decide)⟩, (by decide : Int.natAbs 1 ≤ 2 ^ 53), trivial⟩

def settingsAgain : Value where
  json := .obj [("amps", .float (.fin 1)), ("volts", .int 2)]
  wellFormed := by simp [Json.WellFormed, Json.WellFormedItems]
  inRange := ⟨⟨1, rfl, isDouble_int (n := 1) (by decide)⟩, (by decide : Int.natAbs 2 ≤ 2 ^ 53), trivial⟩

theorem canonical_identifies_settings :
    canonicalize largeSyntax settings.json = canonicalize largeSyntax settingsAgain.json :=
  (canonical_identifies largeSyntax settings settingsAgain).2.2.mpr (by decide +kernel)

/-- **The digits are not the double.** `json.loads` reads the bytes of a large double as an integer that differs from
it. -/
theorem digits_are_not_the_double :
    InRange (.float (.fin largeDouble)) ∧
      canonicalize largeSyntax (.float (.fin largeDouble)) = .ok (encode "123456789012345680000".toList) ∧
      loads (asPython largeSyntax) "123456789012345680000".toList = some (.int 123456789012345680000) ∧
      equal (.int 123456789012345680000) (.float (.fin largeDouble)) = false := by
  refine ⟨⟨largeDouble, rfl, isDouble_large⟩, ?_, by decide +kernel, by decide +kernel⟩
  have htext : (write largeSyntax (.float (.fin largeDouble))).toOption = some "123456789012345680000".toList := by
    decide +kernel
  rw [canonicalize]
  cases hwrite : write largeSyntax (.float (.fin largeDouble)) with
  | ok text =>
    rw [hwrite] at htext
    rw [Option.some.inj htext]
    rfl
  | error e =>
    rw [hwrite] at htext
    cases htext

end Lager.Util.Jcs
