import Lager.Py.Dumps
import Lager.Lib.Decimal

/-!
# `json.loads`

The decoder of `json`, over the characters of a text. How a number becomes a value is a parameter: Python reads one
without a fraction and an exponent as an `int` and any other as a `float`, other languages read every number as a
double. A string with half a surrogate pair in it is not a text here, so it is refused.

The recursion is on fuel, two units for each character. The lemmas after the definitions say what is read where, one
for each way a value can go on.
-/

namespace Lager.Py

open Lager.Lib

/-! ### Strings -/

def hexDigit? (c : Char) : Option Nat :=
  let n := c.toNat
  if 48 ≤ n ∧ n < 58 then some (n - 48)
  else if 97 ≤ n ∧ n < 103 then some (n - 87)
  else if 65 ≤ n ∧ n < 71 then some (n - 55)
  else none

/-- `_decode_uXXXX` -/
def hex4 : List Char → Option (Nat × List Char)
  | a :: b :: c :: d :: s => do
    let a ← hexDigit? a
    let b ← hexDigit? b
    let c ← hexDigit? c
    let d ← hexDigit? d
    some (((a * 16 + b) * 16 + c) * 16 + d, s)
  | _ => none

/-- `BACKSLASH` -/
def backslash : List (Char × Char) :=
  [('"', '"'), ('\\', '\\'), ('/', '/'), ('b', '\x08'), ('f', '\x0c'), ('n', '\n'), ('r', '\r'), ('t', '\t')]

/-- The character that an escape behind `\u` stands for. -/
def scanUnicode (s : List Char) : Option (Char × List Char) := do
  let (n, s) ← hex4 s
  if 0xd800 ≤ n ∧ n < 0xdc00 then
    match s with
    | '\\' :: 'u' :: s => do
      let (n', s) ← hex4 s
      if 0xdc00 ≤ n' ∧ n' < 0xe000 then some (Char.ofNat (0x10000 + (n - 0xd800) * 0x400 + (n' - 0xdc00)), s)
      else none
    | _ => none
  else if 0xdc00 ≤ n ∧ n < 0xe000 then none
  else some (Char.ofNat n, s)

/-- One character of a string; control characters must be escaped. -/
def scanChar : List Char → Option (Char × List Char)
  | '\\' :: 'u' :: s => scanUnicode s
  | '\\' :: c :: s => (backslash.lookup c).map fun c => (c, s)
  | c :: s => if c = '"' ∨ c = '\\' ∨ c.toNat < 0x20 then none else some (c, s)
  | [] => none

/-- `scanstring`, behind the opening quote. -/
def scanString : Nat → List Char → Option (List Char × List Char)
  | 0, _ => none
  | _ + 1, '"' :: s => some ([], s)
  | fuel + 1, s => do
    let (c, s) ← scanChar s
    let (cs, s) ← scanString fuel s
    some (c :: cs, s)

/-! ### Values -/

/-- `WHITESPACE` -/
def isWs (c : Char) : Bool := c ∈ [' ', '\t', '\n', '\r']

def skipWs (s : List Char) : List Char := s.dropWhile isWs

def literalTexts : List (List Char × Json) :=
  [("null".toList, .null), ("true".toList, .bool true), ("false".toList, .bool false),
    ("NaN".toList, .float .nan), ("Infinity".toList, .float .posInf), ("-Infinity".toList, .float .negInf)]

def scanLiteral (s : List Char) : Option (Json × List Char) :=
  literalTexts.findSome? fun entry =>
    if entry.1.isPrefixOf s then some (entry.2, s.drop entry.1.length) else none

variable (num : Decimal.Numeral → Json)

def scanScalar (s : List Char) : Option (Json × List Char) :=
  match Decimal.scan s with
  | some (m, s) => some (num m, s)
  | none => scanLiteral s

mutual

/-- `scan_once` -/
def scanValue : Nat → List Char → Option (Json × List Char)
  | 0, _ => none
  | fuel + 1, '"' :: s => (scanString fuel s).map fun r => (.str (String.ofList r.1), r.2)
  | fuel + 1, '[' :: s =>
    match skipWs s with
    | ']' :: s => some (.arr [], s)
    | s => (scanItems fuel s).map fun r => (.arr r.1, r.2)
  | fuel + 1, '{' :: s =>
    match skipWs s with
    | '}' :: s => some (.obj [], s)
    | s => (scanMembers fuel s).map fun r => (.obj (Dict.update [] r.1), r.2)
  | _ + 1, s => scanScalar num s

/-- The items of an array up to its closing bracket. -/
def scanItems : Nat → List Char → Option (List Json × List Char)
  | 0, _ => none
  | fuel + 1, s =>
    (scanValue fuel s).bind fun r =>
      match skipWs r.2 with
      | ',' :: s => (scanItems fuel (skipWs s)).map fun t => (r.1 :: t.1, t.2)
      | ']' :: s => some ([r.1], s)
      | _ => none

/-- The members of an object up to its closing brace. -/
def scanMembers : Nat → List Char → Option (Dict × List Char)
  | 0, _ => none
  | fuel + 1, '"' :: s =>
    (scanString fuel s).bind fun k =>
      match skipWs k.2 with
      | ':' :: s =>
        (scanValue fuel (skipWs s)).bind fun r =>
          match skipWs r.2 with
          | ',' :: s => (scanMembers fuel (skipWs s)).map fun t => ((String.ofList k.1, r.1) :: t.1, t.2)
          | '}' :: s => some ([(String.ofList k.1, r.1)], s)
          | _ => none
      | _ => none
  | _ + 1, _ => none

end

-- the equations of the reader, for all the lemmas below
section
attribute [local simp] scanValue scanItems scanMembers
end

/-- `json.loads` -/
def loads (text : List Char) : Option Json :=
  (scanValue num (2 * text.length + 1) (skipWs text)).bind fun r => if skipWs r.2 = [] then some r.1 else none

/-! ### What is read -/

variable {num}

/-- A text that does not start with a blank. -/
def NoWs (s : List Char) : Prop := ∀ c ∈ s.head?, isWs c = false

theorem skipWs_eq {s : List Char} (h : NoWs s) : skipWs s = s := by
  cases s with
  | nil => rfl
  | cons c s => exact List.dropWhile_cons_of_neg (by simp [h c rfl])

theorem scanValue_string (fuel : Nat) (s : List Char) : scanValue num (fuel + 1) ('"' :: s) =
    (scanString fuel s).map fun r => (.str (String.ofList r.1), r.2) := by
  rw [scanValue]

theorem scanValue_scalar (fuel : Nat) {s : List Char} (hs : ∀ c ∈ s.head?, c ∉ marks) :
    scanValue num (fuel + 1) s = scanScalar num s := by
  cases s with
  | nil => rw [scanValue] <;> simp
  | cons c s =>
    have hc := hs c rfl
    rw [scanValue]
    · exact fun _ he => hc ((List.cons.inj he).1 ▸ by decide)
    · exact fun _ he => hc ((List.cons.inj he).1 ▸ by decide)
    · exact fun _ he => hc ((List.cons.inj he).1 ▸ by decide)

theorem scanValue_arr_nil (fuel : Nat) (s : List Char) :
    scanValue num (fuel + 1) ('[' :: ']' :: s) = some (.arr [], s) := by
  rw [scanValue, skipWs_eq (by rintro c ⟨⟩; decide)]
  rfl

theorem scanValue_obj_nil (fuel : Nat) (s : List Char) :
    scanValue num (fuel + 1) ('{' :: '}' :: s) = some (.obj [], s) := by
  rw [scanValue, skipWs_eq (by rintro c ⟨⟩; decide)]
  rfl

theorem scanValue_arr {fuel : Nat} {s t : List Char} {xs : List Json} (hws : NoWs s) (hopen : ∀ u, s ≠ ']' :: u)
    (h : scanItems num fuel s = some (xs, t)) : scanValue num (fuel + 1) ('[' :: s) = some (.arr xs, t) := by
  rw [scanValue, skipWs_eq hws]
  split
  · exact absurd rfl (hopen _)
  · rw [h]
    rfl

theorem scanValue_obj {fuel : Nat} {s t : List Char} {kvs : Dict} (hws : NoWs s) (hopen : ∀ u, s ≠ '}' :: u)
    (h : scanMembers num fuel s = some (kvs, t)) :
    scanValue num (fuel + 1) ('{' :: s) = some (.obj (Dict.update [] kvs), t) := by
  rw [scanValue, skipWs_eq hws]
  split
  · exact absurd rfl (hopen _)
  · rw [h]
    rfl

theorem noWs_mark {c : Char} (hc : c ∈ marks) (s : List Char) : NoWs (c :: s) := by
  have hmarks : ∀ c ∈ marks, isWs c = false := forall_char_mem (by decide)
  rintro d ⟨⟩
  exact hmarks c hc

theorem scanItems_last {fuel : Nat} {s t : List Char} {x : Json} (h : scanValue num fuel s = some (x, ']' :: t)) :
    scanItems num (fuel + 1) s = some ([x], t) := by
  rw [scanItems, h, Option.bind_some, skipWs_eq (noWs_mark (by decide) t)]
  rfl

theorem scanItems_cons {fuel : Nat} {s t u : List Char} {x : Json} {xs : List Json}
    (h : scanValue num fuel s = some (x, ',' :: t)) (hws : NoWs t) (hrest : scanItems num fuel t = some (xs, u)) :
    scanItems num (fuel + 1) s = some (x :: xs, u) := by
  rw [scanItems, h, Option.bind_some, skipWs_eq (noWs_mark (by decide) t)]
  simp only
  rw [skipWs_eq hws, hrest]
  rfl

theorem scanMembers_last {fuel : Nat} {s t u k : List Char} {v : Json}
    (hkey : scanString fuel s = some (k, ':' :: t)) (hws : NoWs t)
    (h : scanValue num fuel t = some (v, '}' :: u)) :
    scanMembers num (fuel + 1) ('"' :: s) = some ([(String.ofList k, v)], u) := by
  rw [scanMembers, hkey, Option.bind_some, skipWs_eq (noWs_mark (by decide) t)]
  simp only
  rw [skipWs_eq hws, h, Option.bind_some, skipWs_eq (noWs_mark (by decide) u)]
  rfl

theorem scanMembers_cons {fuel : Nat} {s t u r k : List Char} {v : Json} {kvs : Dict}
    (hkey : scanString fuel s = some (k, ':' :: t)) (hws : NoWs t)
    (h : scanValue num fuel t = some (v, ',' :: u)) (hnext : NoWs u)
    (hrest : scanMembers num fuel u = some (kvs, r)) :
    scanMembers num (fuel + 1) ('"' :: s) = some ((String.ofList k, v) :: kvs, r) := by
  rw [scanMembers, hkey, Option.bind_some, skipWs_eq (noWs_mark (by decide) t)]
  simp only
  rw [skipWs_eq hws, h, Option.bind_some, skipWs_eq (noWs_mark (by decide) u)]
  simp only
  rw [skipWs_eq hnext, hrest]
  rfl

/-- A string is read up to its quote, if every character of it is spelled so that it is read alone. -/
theorem scanString_append {spell : Char → List Char}
    (hread : ∀ c s, scanChar (spell c ++ s) = some (c, s) ∧ ∀ t, spell c ++ s ≠ '"' :: t) (cs rest : List Char)
    {fuel : Nat} (hfuel : cs.length < fuel) :
    scanString fuel (cs.flatMap spell ++ '"' :: rest) = some (cs, rest) := by
  induction cs generalizing fuel with
  | nil =>
    obtain ⟨fuel, rfl⟩ := Nat.exists_eq_succ_of_ne_zero (by omega : fuel ≠ 0)
    rfl
  | cons c cs ih =>
    obtain ⟨fuel, rfl⟩ := Nat.exists_eq_succ_of_ne_zero (by omega : fuel ≠ 0)
    rw [List.length_cons] at hfuel
    rw [List.flatMap_cons, List.append_assoc]
    obtain ⟨hchar, hquote⟩ := hread c (cs.flatMap spell ++ '"' :: rest)
    rw [scanString, hchar]
    · simp only [Option.bind_eq_bind, Option.bind_some, ih (by omega : cs.length < fuel)]
    · exact fun t ht => hquote t ht

end Lager.Py
