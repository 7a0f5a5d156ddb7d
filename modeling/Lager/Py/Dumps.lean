import Lager.Py.Sorted
import Lager.Py.Text

/-!
# `json.dumps(value, sort_keys=True, separators=(",", ":"))`

The text that is hashed: every dict with its keys in order, no blanks, and everything outside printable ASCII
escaped. `repr` of a float is a parameter with what its documentation promises: different floats have different
texts, written with the characters of a number, and never the text of an integer.

`write_append_inj` says that the text can be read in one way only, so two values with the same text are the same value.
Inside strings this is read off a decoder of single escapes; between values it is the characters that can follow
one.
-/

namespace Lager.Py

/-- The characters of numbers. -/
def numberChars : List Char := ['0', '1', '2', '3', '4', '5', '6', '7', '8', '9', '-', '+', '.', 'e']

/-- `float.__repr__` of finite floats. -/
structure FloatText where
  text : ℚ → List Char
  injective : ∀ p q, text p = text q → p = q
  chars : ∀ q, ∀ c ∈ text q, c ∈ numberChars
  mark : ∀ q, ∃ c ∈ text q, c = '.' ∨ c = 'e'

/-! ### Strings -/

/-- `\uXXXX`. -/
def unicodeEscape (n : Nat) : List Char :=
  ['\\', 'u', Nat.digitChar (n / 4096 % 16), Nat.digitChar (n / 256 % 16), Nat.digitChar (n / 16 % 16),
    Nat.digitChar (n % 16)]

def escapeChar (c : Char) : List Char :=
  if c = '"' then ['\\', '"']
  else if c = '\\' then ['\\', '\\']
  else if c = '\n' then ['\\', 'n']
  else if c = '\r' then ['\\', 'r']
  else if c = '\t' then ['\\', 't']
  else if c = '\x08' then ['\\', 'b']
  else if c = '\x0c' then ['\\', 'f']
  else if 0x20 ≤ c.toNat ∧ c.toNat < 0x7f then [c]
  else if c.toNat < 0x10000 then unicodeEscape c.toNat
  -- a surrogate pair
  else unicodeEscape (0xd800 + (c.toNat - 0x10000) / 0x400) ++
    unicodeEscape (0xdc00 + (c.toNat - 0x10000) % 0x400)

def quote (s : String) : List Char := '"' :: s.toList.flatMap escapeChar ++ ['"']

/-! ### Values -/

/-- The literals and numbers, which end where a separator stands. -/
def token (F : FloatText) : Json → List Char
  | .null => "null".toList
  | .bool true => "true".toList
  | .bool false => "false".toList
  | .int n => textOfInt n
  | .float (.fin q) => F.text q
  | .float .posInf => "Infinity".toList
  | .float .negInf => "-Infinity".toList
  | .float .nan => "NaN".toList
  | .str _ | .arr _ | .obj _ => []

mutual

/-- The text of a value, dicts in the order they are in. -/
def write (F : FloatText) : Json → List Char
  | .str s => quote s
  | .arr [] => ['[', ']']
  | .arr (x :: xs) => '[' :: write F x ++ writeRest F xs
  | .obj [] => ['{', '}']
  | .obj ((k, v) :: kvs) => '{' :: quote k ++ ':' :: write F v ++ writeItems F kvs
  | value => token F value

/-- The items after the first, and the closing bracket. -/
def writeRest (F : FloatText) : List Json → List Char
  | [] => [']']
  | x :: xs => ',' :: write F x ++ writeRest F xs

def writeItems (F : FloatText) : List (String × Json) → List Char
  | [] => ['}']
  | (k, v) :: kvs => ',' :: quote k ++ ':' :: write F v ++ writeItems F kvs

end

def dumps (F : FloatText) (value : Json) : List Char := write F value.sorted

/-! ### Reading one character of a string back -/

def hexValue (c : Char) : Nat := if c.toNat < 58 then c.toNat - 48 else c.toNat - 87

def hexNumber (a b c d : Char) : Nat := ((hexValue a * 16 + hexValue b) * 16 + hexValue c) * 16 + hexValue d

def shortEscape : Char → Char
  | 'n' => '\n'
  | 'r' => '\r'
  | 't' => '\t'
  | 'b' => '\x08'
  | 'f' => '\x0c'
  | c => c

/-- The first character of an escaped text, and the rest; `none` at a closing quote. -/
def unescape : List Char → Option (Char × List Char)
  | '\\' :: 'u' :: a :: b :: c :: d :: rest =>
    if 0xd800 ≤ hexNumber a b c d ∧ hexNumber a b c d < 0xdc00 then
      match rest with
      | _ :: _ :: a' :: b' :: c' :: d' :: rest =>
        some (Char.ofNat (0x10000 + (hexNumber a b c d - 0xd800) * 0x400 + (hexNumber a' b' c' d' - 0xdc00)), rest)
      | _ => none
    else some (Char.ofNat (hexNumber a b c d), rest)
  | '\\' :: c :: rest => some (shortEscape c, rest)
  | '"' :: _ => none
  | c :: rest => some (c, rest)
  | [] => none

theorem hexValue_digitChar : ∀ d < 16, hexValue (Nat.digitChar d) = d := by
  decide

theorem hexNumber_digits {n : Nat} (h : n < 0x10000) :
    hexNumber (Nat.digitChar (n / 4096 % 16)) (Nat.digitChar (n / 256 % 16)) (Nat.digitChar (n / 16 % 16))
      (Nat.digitChar (n % 16)) = n := by
  simp only [hexNumber, hexValue_digitChar _ (Nat.mod_lt _ (by decide : 0 < 16))]
  omega

/-- A scalar value is not a surrogate. -/
theorem toNat_not_surrogate (c : Char) : ¬(0xd800 ≤ c.toNat ∧ c.toNat < 0xe000) := by
  have hvalid := c.valid
  simp only [UInt32.isValidChar, Nat.isValidChar] at hvalid
  have hnat : c.toNat = c.val.toNat := rfl
  omega

theorem toNat_lt (c : Char) : c.toNat < 0x110000 := by
  have hvalid := c.valid
  simp only [UInt32.isValidChar, Nat.isValidChar] at hvalid
  have hnat : c.toNat = c.val.toNat := rfl
  omega

theorem unescape_plain {c : Char} (rest : List Char) (hquote : c ≠ '"') (hslash : c ≠ '\\') :
    unescape (c :: rest) = some (c, rest) := by
  unfold unescape
  split
  · simp_all
  · simp_all
  · simp_all
  · simp_all
  · simp_all

theorem unescape_unicode {c : Char} (rest : List Char) (h : c.toNat < 0x10000) :
    unescape (unicodeEscape c.toNat ++ rest) = some (c, rest) := by
  have hn := hexNumber_digits h
  have hs := toNat_not_surrogate c
  simp only [unicodeEscape, List.cons_append, List.nil_append, unescape, hn]
  rw [if_neg (by omega), Char.ofNat_toNat]

theorem unescape_pair {c : Char} (rest : List Char) (h : 0x10000 ≤ c.toNat) :
    unescape (unicodeEscape (0xd800 + (c.toNat - 0x10000) / 0x400) ++
      unicodeEscape (0xdc00 + (c.toNat - 0x10000) % 0x400) ++ rest) = some (c, rest) := by
  have hc := toNat_lt c
  have hhigh := hexNumber_digits (n := 0xd800 + (c.toNat - 0x10000) / 0x400) (by omega)
  have hlow := hexNumber_digits (n := 0xdc00 + (c.toNat - 0x10000) % 0x400) (by omega)
  have hsum : 0x10000 + (0xd800 + (c.toNat - 0x10000) / 0x400 - 0xd800) * 0x400 +
      (0xdc00 + (c.toNat - 0x10000) % 0x400 - 0xdc00) = c.toNat := by
    omega
  simp only [unicodeEscape, List.cons_append, List.nil_append, unescape, hhigh, hlow, hsum, Char.ofNat_toNat]
  rw [if_pos (by omega)]

theorem unescape_escapeChar (c : Char) (rest : List Char) : unescape (escapeChar c ++ rest) = some (c, rest) := by
  unfold escapeChar
  split_ifs with h1 h2 h3 h4 h5 h6 h7 h8 h9
  · subst h1
    rfl
  · subst h2
    rfl
  · subst h3
    rfl
  · subst h4
    rfl
  · subst h5
    rfl
  · subst h6
    rfl
  · subst h7
    rfl
  · exact unescape_plain rest h1 h2
  · exact unescape_unicode rest h9
  · exact unescape_pair rest (by omega)

/-- A string ends at its first quote that is not escaped. -/
theorem quoted_inj (s t : List Char) {x y : List Char}
    (h : s.flatMap escapeChar ++ '"' :: x = t.flatMap escapeChar ++ '"' :: y) : s = t ∧ x = y := by
  induction s generalizing t with
  | nil =>
    cases t with
    | nil => exact ⟨rfl, by simpa using h⟩
    | cons d t =>
      rw [List.flatMap_nil, List.nil_append, List.flatMap_cons, List.append_assoc] at h
      have hread := (congrArg unescape h).trans (unescape_escapeChar d _)
      cases hread
  | cons c s ih =>
    rw [List.flatMap_cons, List.append_assoc] at h
    have hread := (unescape_escapeChar c _).symm.trans (congrArg unescape h)
    cases t with
    | nil => cases hread
    | cons d t =>
      rw [List.flatMap_cons, List.append_assoc, unescape_escapeChar] at hread
      obtain ⟨rfl, hrest⟩ := Prod.mk.inj (Option.some.inj hread)
      obtain ⟨rfl, rfl⟩ := ih t hrest
      exact ⟨rfl, rfl⟩

theorem quote_append_inj {s t : String} {x y : List Char} (h : quote s ++ x = quote t ++ y) : s = t ∧ x = y := by
  simp only [quote, List.cons_append, List.append_assoc, List.nil_append] at h
  obtain ⟨hst, hxy⟩ := quoted_inj _ _ (List.cons.inj h).2
  exact ⟨String.toList_inj.mp hst, hxy⟩

/-! ### Literals and numbers -/

/-- The characters that are never part of a literal or number. -/
def marks : List Char := ['"', '[', '{', ',', ':', ']', '}']

/-- What can follow a value: nothing, a comma or a closing bracket. -/
def Ends (s : List Char) : Prop := s = [] ∨ ∃ c rest, s = c :: rest ∧ c ∈ [',', ']', '}']

/-- How a value starts, for those that are not a literal or number. -/
def opening : Json → Option Char
  | .str _ => some '"'
  | .arr _ => some '['
  | .obj _ => some '{'
  | _ => none

theorem mem_textOfInt_digits {n : Int} {c : Char} (h : c ∈ textOfInt n) : c ∈ numberChars.take 11 := by
  have hdigits : ∀ d < 10, Char.ofNat (48 + d) ∈ numberChars.take 11 := by decide
  have hdigit : ∀ k : Nat, c ∈ textOfNat k → c ∈ numberChars.take 11 := by
    intro k hk
    have hrange := mem_textOfNat hk
    have hc := hdigits (c.toNat - 48) (by omega)
    rwa [show 48 + (c.toNat - 48) = c.toNat by omega, Char.ofNat_toNat] at hc
  rw [textOfInt] at h
  split_ifs at h
  · rcases List.mem_cons.mp h with rfl | h
    · decide
    · exact hdigit _ h
  · exact hdigit _ h

theorem textOfInt_inj {m n : Int} (h : textOfInt m = textOfInt n) : m = n := by
  have hread := congrArg intOfText h
  rw [intOfText_textOfInt, intOfText_textOfInt] at hread
  exact Option.some.inj hread

variable {F : FloatText}

/-- Literals have other letters, floats a point or an exponent, integers neither. -/
def tokenTag (u : List Char) : Nat :=
  if u.all fun c => c ∈ numberChars then if u.any fun c => c = '.' ∨ c = 'e' then 1 else 2 else 0

def scalarTag : Json → Nat
  | .int _ => 2
  | .float (.fin _) => 1
  | _ => 0

theorem tokenTag_int (n : Int) : tokenTag (textOfInt n) = 2 := by
  have hall : ∀ c ∈ numberChars.take 11, c ∈ numberChars ∧ ¬(c = '.' ∨ c = 'e') := forall_char_mem (by decide)
  have hnumber : ((textOfInt n).all fun c => c ∈ numberChars) = true := by
    rw [List.all_eq_true]
    exact fun c hc => decide_eq_true (hall c (mem_textOfInt_digits hc)).1
  have hmark : ¬((textOfInt n).any fun c => c = '.' ∨ c = 'e') = true := by
    rw [List.any_eq_true]
    rintro ⟨c, hc, hmark⟩
    exact (hall c (mem_textOfInt_digits hc)).2 (of_decide_eq_true hmark)
  rw [tokenTag, if_pos hnumber, if_neg hmark]

theorem tokenTag_float (q : ℚ) : tokenTag (F.text q) = 1 := by
  have hnumber : ((F.text q).all fun c => c ∈ numberChars) = true := by
    rw [List.all_eq_true]
    exact fun c hc => decide_eq_true (F.chars q c hc)
  have hmark : ((F.text q).any fun c => c = '.' ∨ c = 'e') = true := by
    obtain ⟨c, hc, hmark⟩ := F.mark q
    rw [List.any_eq_true]
    exact ⟨c, hc, decide_eq_true hmark⟩
  rw [tokenTag, if_pos hnumber, if_pos hmark]

theorem tokenTag_token {a : Json} (ha : opening a = none) : tokenTag (token F a) = scalarTag a := by
  match a with
  | .null => exact (by decide : tokenTag "null".toList = 0)
  | .bool true => exact (by decide : tokenTag "true".toList = 0)
  | .bool false => exact (by decide : tokenTag "false".toList = 0)
  | .int n => exact tokenTag_int n
  | .float (.fin q) => exact tokenTag_float q
  | .float .posInf => exact (by decide : tokenTag "Infinity".toList = 0)
  | .float .negInf => exact (by decide : tokenTag "-Infinity".toList = 0)
  | .float .nan => exact (by decide : tokenTag "NaN".toList = 0)

/-- The literals. -/
def literals : List Json := [.null, .bool true, .bool false, .float .posInf, .float .negInf, .float .nan]

theorem literal_of_tag {a : Json} (ha : opening a = none) (h : scalarTag a = 0) : a ∈ literals := by
  match a with
  | .null => simp [literals]
  | .bool true => simp [literals]
  | .bool false => simp [literals]
  | .float .posInf => simp [literals]
  | .float .negInf => simp [literals]
  | .float .nan => simp [literals]

theorem token_literals {a b : Json} (ha : a ∈ literals) (hb : b ∈ literals) (h : token F a = token F b) : a = b := by
  have hnodup : (literals.map (token F)).Nodup :=
    (by decide : ["null".toList, "true".toList, "false".toList, "Infinity".toList, "-Infinity".toList,
      "NaN".toList].Nodup)
  exact List.inj_on_of_nodup_map hnodup ha hb h

theorem token_inj {a b : Json} (ha : opening a = none) (hb : opening b = none) (h : token F a = token F b) :
    a = b := by
  have htag : scalarTag a = scalarTag b := by
    rw [← tokenTag_token (F := F) ha, h, tokenTag_token hb]
  by_cases hzero : scalarTag a = 0
  · exact token_literals (literal_of_tag ha hzero) (literal_of_tag hb (htag ▸ hzero)) h
  · match a, b with
    | .int m, .int n => rw [textOfInt_inj h]
    | .float (.fin p), .float (.fin q) => rw [F.injective p q h]

/-- Outside strings a literal or number is cut off by a mark. -/
theorem token_marks {a : Json} (ha : opening a = none) : ∀ c ∈ token F a, c ∉ marks := by
  have hnumber : ∀ c ∈ numberChars, c ∉ marks := forall_char_mem (by decide)
  match a with
  | .null => exact (forall_char_mem (by decide) : ∀ c ∈ "null".toList, c ∉ marks)
  | .bool true => exact (forall_char_mem (by decide) : ∀ c ∈ "true".toList, c ∉ marks)
  | .bool false => exact (forall_char_mem (by decide) : ∀ c ∈ "false".toList, c ∉ marks)
  | .int n => exact fun c hc => hnumber c (List.mem_of_mem_take (mem_textOfInt_digits hc))
  | .float (.fin q) => exact fun c hc => hnumber c (F.chars q c hc)
  | .float .posInf => exact (forall_char_mem (by decide) : ∀ c ∈ "Infinity".toList, c ∉ marks)
  | .float .negInf => exact (forall_char_mem (by decide) : ∀ c ∈ "-Infinity".toList, c ∉ marks)
  | .float .nan => exact (forall_char_mem (by decide) : ∀ c ∈ "NaN".toList, c ∉ marks)

theorem textOfInt_ne_nil (n : Int) : textOfInt n ≠ [] := by
  rw [textOfInt]
  split_ifs
  · exact List.cons_ne_nil _ _
  · exact textOfNat_ne_nil _

theorem token_ne_nil {a : Json} (ha : opening a = none) : token F a ≠ [] := by
  intro hnil
  have htag : 2 = scalarTag a := by
    rw [← tokenTag_token (F := F) ha, hnil]
    decide
  match a with
  | .int n => exact textOfInt_ne_nil n hnil
  | .float (.fin q) => cases htag

theorem takeWhile_token {u s : List Char} (hu : ∀ c ∈ u, c ∉ marks) (hs : Ends s) :
    (u ++ s).takeWhile (fun c => c ∉ marks) = u := by
  rw [List.takeWhile_append_of_pos fun c hc => by simpa using hu c hc]
  rcases hs with rfl | ⟨c, rest, rfl, hc⟩
  · simp
  · have hmarks : ∀ c ∈ [',', ']', '}'], c ∈ marks := forall_char_mem (by decide)
    have hmark : c ∈ marks := hmarks c hc
    rw [List.takeWhile_cons_of_neg (by simpa using hmark), List.append_nil]

theorem token_append_inj {u v s t : List Char} (hu : ∀ c ∈ u, c ∉ marks) (hv : ∀ c ∈ v, c ∉ marks) (hs : Ends s)
    (ht : Ends t) (h : u ++ s = v ++ t) : u = v ∧ s = t := by
  have huv : u = v := by
    rw [← takeWhile_token hu hs, h, takeWhile_token hv ht]
  subst huv
  exact ⟨rfl, List.append_cancel_left h⟩

/-! ### Values -/

theorem write_token {a : Json} (ha : opening a = none) : write F a = token F a := by
  cases a <;> first | rfl | cases ha

/-- The first character tells the kind of a value. -/
theorem write_head (F : FloatText) (a : Json) :
    ∃ c rest, write F a = c :: rest ∧ (opening a = some c ∨ opening a = none ∧ c ∉ marks) := by
  cases ha : opening a with
  | none =>
    obtain ⟨c, rest, htoken⟩ := List.exists_cons_of_ne_nil (token_ne_nil (F := F) ha)
    refine ⟨c, rest, (write_token ha).trans htoken, .inr ⟨rfl, token_marks (F := F) ha c ?_⟩⟩
    rw [htoken]
    exact List.mem_cons_self
  | some c =>
    match a with
    | .str s => exact ⟨'"', _, rfl, .inl ha.symm⟩
    | .arr [] => exact ⟨'[', _, rfl, .inl ha.symm⟩
    | .arr (_ :: _) => exact ⟨'[', _, rfl, .inl ha.symm⟩
    | .obj [] => exact ⟨'{', _, rfl, .inl ha.symm⟩
    | .obj (_ :: _) => exact ⟨'{', _, rfl, .inl ha.symm⟩

theorem opening_mem_marks {a : Json} {c : Char} (h : opening a = some c) : c ∈ ['"', '[', '{'] := by
  cases a <;> cases h <;> decide

theorem opening_eq {a b : Json} {s t : List Char} (h : write F a ++ s = write F b ++ t) : opening a = opening b := by
  obtain ⟨c, u, hc, hkind⟩ := write_head F a
  obtain ⟨d, v, hd, hkind'⟩ := write_head F b
  have hcd : c = d := by
    rw [hc, hd] at h
    exact (List.cons.inj h).1
  subst hcd
  have hmarks : ∀ c ∈ ['"', '[', '{'], c ∈ marks := forall_char_mem (by decide)
  rcases hkind with ha | ⟨ha, hnot⟩ <;> rcases hkind' with hb | ⟨hb, hnot'⟩
  · rw [ha, hb]
  · exact absurd (hmarks c (opening_mem_marks ha)) hnot'
  · exact absurd (hmarks c (opening_mem_marks hb)) hnot
  · rw [ha, hb]

theorem scalar_append_inj {a b : Json} {s t : List Char} (ha : opening a = none) (hb : opening b = opening a)
    (hs : Ends s) (ht : Ends t) (h : write F a ++ s = write F b ++ t) : a = b ∧ s = t := by
  have hb' : opening b = none := hb.trans ha
  rw [write_token ha, write_token hb'] at h
  obtain ⟨htoken, hst⟩ := token_append_inj (token_marks ha) (token_marks hb') hs ht h
  exact ⟨token_inj ha hb' htoken, hst⟩

/-- No value starts with a closing bracket. -/
theorem write_ne_closing {a : Json} {s t : List Char} (h : write F a ++ s = ']' :: t) : False := by
  obtain ⟨c, u, hc, hkind⟩ := write_head F a
  rw [hc] at h
  obtain rfl : c = ']' := (List.cons.inj h).1
  rcases hkind with ha | ⟨-, hnot⟩
  · exact absurd (opening_mem_marks ha) (by decide)
  · exact hnot (by decide)

theorem ends_writeRest (xs : List Json) (s : List Char) : Ends (writeRest F xs ++ s) := by
  cases xs with
  | nil => exact .inr ⟨']', s, rfl, by decide⟩
  | cons x xs => exact .inr ⟨',', _, rfl, by decide⟩

theorem ends_writeItems (kvs : List (String × Json)) (s : List Char) : Ends (writeItems F kvs ++ s) := by
  cases kvs with
  | nil => exact .inr ⟨'}', s, rfl, by decide⟩
  | cons kv kvs => exact .inr ⟨',', _, rfl, by decide⟩

mutual

/-- **The text of a value can be read in one way only.** -/
theorem write_append_inj (F : FloatText) : (a b : Json) → {s t : List Char} → Ends s → Ends t →
    write F a ++ s = write F b ++ t → a = b ∧ s = t
  | .arr [], b, s, t, _, _, h => by
    match b, opening_eq h with
    | .arr [], _ => exact ⟨rfl, by simpa [write] using h⟩
    | .arr (y :: ys), _ =>
      simp only [write, List.cons_append, List.nil_append, List.append_assoc] at h
      exact (write_ne_closing (List.cons.inj h).2.symm).elim
  | .arr (x :: xs), b, s, t, _, _, h => by
    match b, opening_eq h with
    | .arr [], _ =>
      simp only [write, List.cons_append, List.nil_append, List.append_assoc] at h
      exact (write_ne_closing (List.cons.inj h).2).elim
    | .arr (y :: ys), _ =>
      simp only [write, List.cons_append, List.append_assoc] at h
      obtain ⟨hx, hrest⟩ := write_append_inj F x y (ends_writeRest xs s) (ends_writeRest ys t) (List.cons.inj h).2
      obtain ⟨hxs, hst⟩ := writeRest_append_inj F xs ys hrest
      exact ⟨by rw [hx, hxs], hst⟩
  | .obj [], b, s, t, _, _, h => by
    match b, opening_eq h with
    | .obj [], _ => exact ⟨rfl, by simpa [write] using h⟩
    | .obj ((k, v) :: kvs), _ =>
      simp only [write, quote, List.cons_append, List.nil_append, List.append_assoc, List.cons.injEq] at h
      exact absurd h.2.1 (by decide)
  | .obj ((k, v) :: kvs), b, s, t, _, _, h => by
    match b, opening_eq h with
    | .obj [], _ =>
      simp only [write, quote, List.cons_append, List.nil_append, List.append_assoc, List.cons.injEq] at h
      exact absurd h.2.1 (by decide)
    | .obj ((l, w) :: lws), _ =>
      simp only [write, List.cons_append, List.append_assoc] at h
      obtain ⟨rfl, hvalue⟩ := quote_append_inj (List.cons.inj h).2
      obtain ⟨hv, hrest⟩ := write_append_inj F v w (ends_writeItems kvs s) (ends_writeItems lws t)
        (List.cons.inj hvalue).2
      obtain ⟨hkvs, hst⟩ := writeItems_append_inj F kvs lws hrest
      exact ⟨by rw [hv, hkvs], hst⟩
  | .str s, b, _, _, _, _, h => by
    match b, opening_eq h with
    | .str t, _ =>
      simp only [write] at h
      obtain ⟨rfl, hst⟩ := quote_append_inj h
      exact ⟨rfl, hst⟩
  | .null, b, _, _, hs, ht, h => scalar_append_inj rfl (opening_eq h).symm hs ht h
  | .bool _, b, _, _, hs, ht, h => scalar_append_inj rfl (opening_eq h).symm hs ht h
  | .int _, b, _, _, hs, ht, h => scalar_append_inj rfl (opening_eq h).symm hs ht h
  | .float _, b, _, _, hs, ht, h => scalar_append_inj rfl (opening_eq h).symm hs ht h

theorem writeRest_append_inj (F : FloatText) : (xs ys : List Json) → {s t : List Char} →
    writeRest F xs ++ s = writeRest F ys ++ t → xs = ys ∧ s = t
  | [], [], _, _, h => ⟨rfl, by simpa [writeRest] using h⟩
  | [], y :: ys, _, _, h => by
    simp only [writeRest, List.cons_append, List.cons.injEq] at h
    exact absurd h.1 (by decide)
  | x :: xs, [], _, _, h => by
    simp only [writeRest, List.cons_append, List.cons.injEq] at h
    exact absurd h.1 (by decide)
  | x :: xs, y :: ys, s, t, h => by
    simp only [writeRest, List.cons_append, List.append_assoc] at h
    obtain ⟨hx, hrest⟩ := write_append_inj F x y (ends_writeRest xs s) (ends_writeRest ys t) (List.cons.inj h).2
    obtain ⟨hxs, hst⟩ := writeRest_append_inj F xs ys hrest
    exact ⟨by rw [hx, hxs], hst⟩

theorem writeItems_append_inj (F : FloatText) : (xs ys : List (String × Json)) → {s t : List Char} →
    writeItems F xs ++ s = writeItems F ys ++ t → xs = ys ∧ s = t
  | [], [], _, _, h => ⟨rfl, by simpa [writeItems] using h⟩
  | [], (l, w) :: lws, _, _, h => by
    simp only [writeItems, List.cons_append, List.cons.injEq] at h
    exact absurd h.1 (by decide)
  | (k, v) :: kvs, [], _, _, h => by
    simp only [writeItems, List.cons_append, List.cons.injEq] at h
    exact absurd h.1 (by decide)
  | (k, v) :: kvs, (l, w) :: lws, s, t, h => by
    simp only [writeItems, List.cons_append, List.append_assoc] at h
    obtain ⟨rfl, hvalue⟩ := quote_append_inj (List.cons.inj h).2
    obtain ⟨hv, hrest⟩ := write_append_inj F v w (ends_writeItems kvs s) (ends_writeItems lws t)
      (List.cons.inj hvalue).2
    obtain ⟨hkvs, hst⟩ := writeItems_append_inj F kvs lws hrest
    exact ⟨by rw [hv, hkvs], hst⟩

end

theorem takeWhile_point (n : Int) (rest : List Char) :
    (textOfInt n ++ '.' :: rest).takeWhile (· != '.') = textOfInt n := by
  have hdigits : ∀ c ∈ numberChars.take 11, (c != '.') = true := forall_char_mem (by decide)
  rw [List.takeWhile_append_of_pos fun c hc => hdigits c (mem_textOfInt_digits hc)]
  simp

/-- Numerator and denominator. -/
def fraction (q : ℚ) : List Char := textOfInt q.num ++ '.' :: textOfNat q.den

theorem fraction_inj (p q : ℚ) (h : fraction p = fraction q) : p = q := by
  rw [fraction, fraction] at h
  have hnum : textOfInt p.num = textOfInt q.num := by
    rw [← takeWhile_point p.num (textOfNat p.den), h, takeWhile_point]
  rw [hnum] at h
  have hden := congrArg intOfText (List.cons.inj (List.append_cancel_left h)).2
  rw [intOfText_textOfNat, intOfText_textOfNat] at hden
  exact Rat.ext (textOfInt_inj hnum) (Int.ofNat_inj.mp (Option.some.inj hden))

theorem fraction_chars (q : ℚ) : ∀ c ∈ fraction q, c ∈ numberChars := by
  have hden : textOfInt (q.den : Int) = textOfNat q.den := by
    rw [textOfInt, if_neg (by omega), Int.natAbs_natCast]
  intro c hc
  rcases List.mem_append.mp hc with hc | hc
  · exact List.mem_of_mem_take (mem_textOfInt_digits hc)
  · rcases List.mem_cons.mp hc with rfl | hc
    · decide
    · exact List.mem_of_mem_take (mem_textOfInt_digits (hden ▸ hc))

theorem fraction_mark (q : ℚ) : ∃ c ∈ fraction q, c = '.' ∨ c = 'e' :=
  ⟨'.', List.mem_append_right _ List.mem_cons_self, .inl rfl⟩

/-- A `FloatText` that spells out numerator and denominator. -/
def fractionText : FloatText := ⟨fraction, fraction_inj, fraction_chars, fraction_mark⟩

end Lager.Py
