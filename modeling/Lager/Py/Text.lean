import Mathlib.Data.List.Basic
import Mathlib.Data.List.DropRight
import Mathlib.Tactic.SplitIfs

/-!
# Python text: UTF-8, `int(text)` and `str(int)`

Byte strings are lists of bytes and texts are lists of characters. `decode` is `bytes.decode()` (strict
UTF-8, `none` is `UnicodeDecodeError`), `encode` is `str.encode()`, `intOfText` is `int(text)` in base 10
(`none` is `ValueError`) and `textOfInt` is `str(n)`. The results a reader of a framed stream needs are
`decode_encode` and `intOfText_textOfNat`: the decimal text of a number survives the trip through bytes.
-/

namespace Lager.Py

/-- The equality test of texts is lawful; the membership tests of definitions name this one proof of it. -/
theorem lawfulBEq_text : LawfulBEq (List Char) := inferInstance

abbrev Bytes := List UInt8

/-- Every character of a list has a property that can be checked for each. -/
theorem forall_char_mem {l : List Char} {p : Char → Prop} [DecidablePred p] (h : (l.all fun c => decide (p c)) = true) :
    ∀ c ∈ l, p c := by
  simpa using h

/-! ### UTF-8 -/

def encode (text : List Char) : Bytes := text.flatMap String.utf8EncodeChar

/-- A continuation byte's six bits. -/
def continuation (b : UInt8) : Option Nat :=
  if 0x80 ≤ b.toNat ∧ b.toNat < 0xC0 then some (b.toNat - 0x80) else none

/-- A scalar value of at least `low` (longer encodings of smaller values are refused). -/
def scalar (low n : Nat) : Option Char :=
  if low ≤ n ∧ n < 0x110000 ∧ ¬(0xD800 ≤ n ∧ n < 0xE000) then some (Char.ofNat n) else none

def decode : Bytes → Option (List Char)
  | [] => some []
  | b :: rest =>
    if b.toNat < 0x80 then (decode rest).map (Char.ofNat b.toNat :: ·)
    else match rest with
      | [] => none
      | b₁ :: rest₁ =>
        if 0xC0 ≤ b.toNat ∧ b.toNat < 0xE0 then do
          let x₁ ← continuation b₁
          let c ← scalar 0x80 ((b.toNat - 0xC0) * 64 + x₁)
          (decode rest₁).map (c :: ·)
        else match rest₁ with
          | [] => none
          | b₂ :: rest₂ =>
            if 0xE0 ≤ b.toNat ∧ b.toNat < 0xF0 then do
              let x₁ ← continuation b₁
              let x₂ ← continuation b₂
              let c ← scalar 0x800 (((b.toNat - 0xE0) * 64 + x₁) * 64 + x₂)
              (decode rest₂).map (c :: ·)
            else match rest₂ with
              | [] => none
              | b₃ :: rest₃ =>
                if 0xF0 ≤ b.toNat ∧ b.toNat < 0xF8 then do
                  let x₁ ← continuation b₁
                  let x₂ ← continuation b₂
                  let x₃ ← continuation b₃
                  let c ← scalar 0x10000 ((((b.toNat - 0xF0) * 64 + x₁) * 64 + x₂) * 64 + x₃)
                  (decode rest₃).map (c :: ·)
                else none

theorem encode_append (s t : List Char) : encode (s ++ t) = encode s ++ encode t := by
  simp [encode]

/-- Different texts have different bytes. -/
theorem encode_inj {s t : List Char} (h : encode s = encode t) : s = t := by
  have hbytes : s.utf8Encode = t.utf8Encode := congrArg List.toByteArray h
  have hread := congrArg ByteArray.utf8Decode? hbytes
  rw [List.utf8Decode?_utf8Encode, List.utf8Decode?_utf8Encode] at hread
  simpa using hread

/-- The byte of an ASCII character. -/
theorem encode_ascii {c : Char} (h : c.toNat < 128) : encode [c] = [c.toNat.toUInt8] := by
  have hsize : c.utf8Size = 1 := by
    rw [Char.utf8Size_eq_one_iff, UInt32.le_iff_toNat_le]
    exact Nat.le_of_lt_succ h
  simp only [encode, List.flatMap_cons, List.flatMap_nil, List.append_nil,
    String.utf8EncodeChar_eq_singleton hsize]
  rfl

theorem toNat_toUInt8 {n : Nat} (h : n < 256) : n.toUInt8.toNat = n := by
  simp only [Nat.toUInt8, UInt8.toNat_ofNat']
  omega

theorem decode_cons_ascii {b : UInt8} (rest : Bytes) (h : b.toNat < 128) :
    decode (b :: rest) = (decode rest).map (Char.ofNat b.toNat :: ·) := by
  rw [decode.eq_def]
  exact if_pos h

theorem continuation_eq {n : Nat} : continuation (UInt8.ofNat (n % 64 + 128)) = some (n % 64) := by
  have hbyte : (UInt8.ofNat (n % 64 + 128)).toNat = n % 64 + 128 := by
    rw [UInt8.toNat_ofNat']
    omega
  rw [continuation, hbyte, if_pos (by omega)]
  exact congrArg some (by omega)

theorem scalar_toNat {c : Char} {low : Nat} (h : low ≤ c.toNat) : scalar low c.toNat = some c := by
  have hvalid : c.toNat < 0xD800 ∨ (0xDFFF < c.toNat ∧ c.toNat < 0x110000) := c.valid
  rw [scalar, if_pos (by omega), Char.ofNat_toNat]

/-- A character in front is read back. -/
theorem decode_utf8EncodeChar (c : Char) (rest : Bytes) :
    decode (String.utf8EncodeChar c ++ rest) = (decode rest).map (c :: ·) := by
  have hvalid : c.toNat < 0xD800 ∨ (0xDFFF < c.toNat ∧ c.toNat < 0x110000) := c.valid
  have hbyte : ∀ n, n < 256 → (UInt8.ofNat n).toNat = n := fun n hn => by
    rw [UInt8.toNat_ofNat']
    omega
  show decode ((if c.toNat ≤ 0x7f then [UInt8.ofNat c.toNat] else _) ++ rest) = _
  by_cases h1 : c.toNat ≤ 0x7f
  · rw [if_pos h1, List.singleton_append, decode_cons_ascii _ (by rw [hbyte _ (by omega)]; omega), hbyte _ (by omega),
      Char.ofNat_toNat]
  · rw [if_neg h1]
    show decode ((if c.toNat ≤ 0x7ff then [UInt8.ofNat (c.toNat / 64 % 32 + 192), UInt8.ofNat (c.toNat % 64 + 128)] else _)
      ++ rest) = _
    by_cases h2 : c.toNat ≤ 0x7ff
    · have hfirst := hbyte (c.toNat / 64 % 32 + 192) (by omega)
      have hscalar : (c.toNat / 64 % 32 + 192 - 0xC0) * 64 + c.toNat % 64 = c.toNat := by omega
      rw [if_pos h2, List.cons_append, List.cons_append, List.nil_append, decode.eq_def]
      simp only [hfirst]
      rw [if_neg (by omega), if_pos (by omega), continuation_eq, Option.bind_eq_bind, Option.bind_some, hscalar,
        scalar_toNat (by omega)]
      rfl
    · rw [if_neg h2]
      show decode ((if c.toNat ≤ 0xffff then [UInt8.ofNat (c.toNat / 4096 % 16 + 224),
        UInt8.ofNat (c.toNat / 64 % 64 + 128), UInt8.ofNat (c.toNat % 64 + 128)] else
        [UInt8.ofNat (c.toNat / 262144 % 8 + 240), UInt8.ofNat (c.toNat / 4096 % 64 + 128),
          UInt8.ofNat (c.toNat / 64 % 64 + 128), UInt8.ofNat (c.toNat % 64 + 128)]) ++ rest) = _
      by_cases h3 : c.toNat ≤ 0xffff
      · have hfirst := hbyte (c.toNat / 4096 % 16 + 224) (by omega)
        have hscalar : ((c.toNat / 4096 % 16 + 224 - 0xE0) * 64 + c.toNat / 64 % 64) * 64 + c.toNat % 64 = c.toNat := by
          omega
        rw [if_pos h3, List.cons_append, List.cons_append, List.cons_append, List.nil_append, decode.eq_def]
        simp only [hfirst]
        rw [if_neg (by omega), if_neg (by omega), if_pos (by omega), continuation_eq, continuation_eq]
        simp only [Option.bind_eq_bind, Option.bind_some]
        rw [hscalar, scalar_toNat (by omega)]
        rfl
      · have hfirst := hbyte (c.toNat / 262144 % 8 + 240) (by omega)
        have hscalar : (((c.toNat / 262144 % 8 + 240 - 0xF0) * 64 + c.toNat / 4096 % 64) * 64 + c.toNat / 64 % 64) * 64 +
            c.toNat % 64 = c.toNat := by omega
        rw [if_neg h3, List.cons_append, List.cons_append, List.cons_append, List.cons_append, List.nil_append,
          decode.eq_def]
        simp only [hfirst]
        rw [if_neg (by omega), if_neg (by omega), if_neg (by omega), if_pos (by omega), continuation_eq,
          continuation_eq, continuation_eq]
        simp only [Option.bind_eq_bind, Option.bind_some]
        rw [hscalar, scalar_toNat (by omega)]
        rfl

theorem decode_encode (s : List Char) : decode (encode s) = some s := by
  induction s with
  | nil => rfl
  | cons c s ih =>
    show decode (String.utf8EncodeChar c ++ encode s) = _
    rw [decode_utf8EncodeChar, ih]
    rfl

/-! ### Numbers -/

/-- The zeros of the decimal digit blocks of Unicode 15; `int` reads the ten characters from each. -/
def decimalZeros : List Nat :=
  [0x30, 0x660, 0x6f0, 0x7c0, 0x966, 0x9e6, 0xa66, 0xae6, 0xb66, 0xbe6, 0xc66, 0xce6, 0xd66, 0xde6, 0xe50,
    0xed0, 0xf20, 0x1040, 0x1090, 0x17e0, 0x1810, 0x1946, 0x19d0, 0x1a80, 0x1a90, 0x1b50, 0x1bb0, 0x1c40,
    0x1c50, 0xa620, 0xa8d0, 0xa900, 0xa9d0, 0xa9f0, 0xaa50, 0xabf0, 0xff10, 0x104a0, 0x10d30, 0x11066,
    0x110f0, 0x11136, 0x111d0, 0x112f0, 0x11450, 0x114d0, 0x11650, 0x116c0, 0x11730, 0x118e0, 0x11950,
    0x11c50, 0x11d50, 0x11da0, 0x11f50, 0x16a60, 0x16ac0, 0x16b50, 0x1d7ce, 0x1d7d8, 0x1d7e2, 0x1d7ec,
    0x1d7f6, 0x1e140, 0x1e2f0, 0x1e4f0, 0x1e950, 0x1fbf0]

def digitOf (c : Char) : Option Nat :=
  (decimalZeros.find? fun z => decide (z ≤ c.toNat ∧ c.toNat < z + 10)).map (c.toNat - ·)

/-- `str.isspace`, what `int` strips from both ends. -/
def isSpace (c : Char) : Bool :=
  let n := c.toNat
  decide ((0x9 ≤ n ∧ n ≤ 0xd) ∨ (0x1c ≤ n ∧ n ≤ 0x20) ∨ n = 0x85 ∨ n = 0xa0 ∨ n = 0x1680 ∨
    (0x2000 ≤ n ∧ n ≤ 0x200a) ∨ n = 0x2028 ∨ n = 0x2029 ∨ n = 0x202f ∨ n = 0x205f ∨ n = 0x3000)

def strip (text : List Char) : List Char :=
  ((text.dropWhile isSpace).reverse.dropWhile isSpace).reverse

/-- Digits, with single underscores allowed between two of them: `wantDigit` when one must come next. -/
def digitsFrom (acc : Nat) (wantDigit : Bool) : List Char → Option Nat
  | [] => if wantDigit then none else some acc
  | c :: rest =>
    if c = '_' then if wantDigit then none else digitsFrom acc true rest
    else (digitOf c).bind fun d => digitsFrom (10 * acc + d) false rest

/-- `int(text)` in base 10. -/
def intOfText (text : List Char) : Option Int :=
  match strip text with
  | '-' :: digits => (digitsFrom 0 true digits).map fun n : Nat => -(n : Int)
  | '+' :: digits => (digitsFrom 0 true digits).map fun n : Nat => (n : Int)
  | digits => (digitsFrom 0 true digits).map fun n : Nat => (n : Int)

/-- `int(text)` under the default limit of 4300 digits (`sys.int_info.default_max_str_digits`). -/
def intOfTextLimited (text : List Char) : Option Int :=
  if 4300 < (text.filter fun c => (digitOf c).isSome).length then none else intOfText text

def textOfNat (n : Nat) : List Char := Nat.toDigits 10 n

/-- `str(n)`. -/
def textOfInt (n : Int) : List Char :=
  if n < 0 then '-' :: textOfNat n.natAbs else textOfNat n.natAbs

theorem mem_textOfNat {n : Nat} {c : Char} (h : c ∈ textOfNat n) : 48 ≤ c.toNat ∧ c.toNat ≤ 57 := by
  have hdigit := Nat.isDigit_of_mem_toDigits (by decide) (by decide) h
  simp only [Char.isDigit, Bool.and_eq_true, decide_eq_true_eq] at hdigit
  exact ⟨UInt32.le_iff_toNat_le.mp hdigit.1, UInt32.le_iff_toNat_le.mp hdigit.2⟩

theorem textOfNat_ne_nil (n : Nat) : textOfNat n ≠ [] := Nat.toDigits_ne_nil

theorem digitOf_digit {c : Char} (h : 48 ≤ c.toNat ∧ c.toNat ≤ 57) : digitOf c = some (c.toNat - 48) := by
  have hfind : decide (0x30 ≤ c.toNat ∧ c.toNat < 0x30 + 10) = true := by
    rw [decide_eq_true_eq]
    omega
  simp only [digitOf, decimalZeros, List.find?_cons, hfind, Option.map_some]

theorem isSpace_digit {c : Char} (h : 45 ≤ c.toNat ∧ c.toNat ≤ 57) : isSpace c = false := by
  simp only [isSpace, decide_eq_false_iff_not]
  omega

theorem dropWhile_isSpace {s : List Char} (h : ∀ c ∈ s, isSpace c = false) :
    s.dropWhile isSpace = s := by
  cases s with
  | nil => rfl
  | cons c s => rw [List.dropWhile_cons_of_neg (by simp [h c List.mem_cons_self])]

theorem strip_eq {s : List Char} (h : ∀ c ∈ s, isSpace c = false) : strip s = s := by
  rw [strip, dropWhile_isSpace h, dropWhile_isSpace (fun c hc => h c (List.mem_reverse.mp hc)),
    List.reverse_reverse]

/-- What is stripped has nothing left to strip. -/
theorem strip_strip (s : List Char) : strip (strip s) = strip s := by
  have hstrip (t : List Char) : strip t = (t.dropWhile isSpace).rdropWhile isSpace := rfl
  have hfront : (strip s).dropWhile isSpace = strip s := by
    cases hs : strip s with
    | nil => rfl
    | cons c rest =>
      have hprefix : strip s <+: s.dropWhile isSpace := List.rdropWhile_prefix isSpace _
      rw [hs] at hprefix
      obtain ⟨tail, htail⟩ := hprefix
      have hhead := List.head?_dropWhile_not isSpace s
      rw [← htail] at hhead
      exact List.dropWhile_cons_of_neg (Bool.eq_false_iff.mp hhead)
  rw [hstrip (strip s), hfront, hstrip s, List.rdropWhile_idempotent]

/-- A list of ASCII digits read as a number, on top of what was read before. -/
theorem digitsFrom_digits (s : List Char) (h : ∀ c ∈ s, 48 ≤ c.toNat ∧ c.toNat ≤ 57) (acc : Nat)
    (wantDigit : Bool) (hs : wantDigit = true → s ≠ []) :
    digitsFrom acc wantDigit s = some (Nat.ofDigitChars 10 s acc) := by
  induction s generalizing acc wantDigit with
  | nil =>
    have hwant : wantDigit = false := by
      by_contra hw
      exact hs (by simpa using hw) rfl
    rw [digitsFrom, hwant]
    rfl
  | cons c rest ih =>
    have hc := h c List.mem_cons_self
    have hne : c ≠ '_' := by
      rintro rfl
      exact absurd hc (by decide)
    rw [digitsFrom, if_neg hne, digitOf_digit hc, Option.bind_some,
      ih (fun d hd => h d (List.mem_cons_of_mem _ hd)) _ _ (by simp), Nat.ofDigitChars_cons]
    rfl

theorem digitsFrom_textOfNat (n : Nat) : digitsFrom 0 true (textOfNat n) = some n := by
  rw [digitsFrom_digits _ (fun c hc => mem_textOfNat hc) _ _ fun _ => textOfNat_ne_nil n]
  exact congrArg some Nat.ofDigitChars_ten_toDigits

/-- `int(str(n)) = n`. -/
theorem intOfText_textOfInt (n : Int) : intOfText (textOfInt n) = some n := by
  rw [textOfInt]
  split_ifs with hn
  · have hstrip : strip ('-' :: textOfNat n.natAbs) = '-' :: textOfNat n.natAbs := by
      refine strip_eq fun c hc => isSpace_digit ?_
      rcases List.mem_cons.mp hc with rfl | hc
      · decide
      · have := mem_textOfNat hc
        omega
    rw [intOfText, hstrip]
    simp only [digitsFrom_textOfNat, Option.map_some, Option.some.injEq]
    omega
  · have hstrip : strip (textOfNat n.natAbs) = textOfNat n.natAbs := by
      refine strip_eq fun c hc => isSpace_digit ?_
      have := mem_textOfNat hc
      omega
    rw [intOfText, hstrip]
    have hnat : ((n.natAbs : Nat) : Int) = n := by omega
    split
    · rename_i heq
      have := mem_textOfNat (n := n.natAbs) (c := '-') (by rw [heq]; simp)
      exact absurd this (by decide)
    · rename_i heq
      have := mem_textOfNat (n := n.natAbs) (c := '+') (by rw [heq]; simp)
      exact absurd this (by decide)
    · rw [digitsFrom_textOfNat, Option.map_some, hnat]

theorem intOfText_textOfNat (n : Nat) : intOfText (textOfNat n) = some (n : Int) := by
  have h := intOfText_textOfInt (n : Int)
  rwa [textOfInt, if_neg (by omega), Int.natAbs_natCast] at h

theorem mem_textOfInt {n : Int} {c : Char} (h : c ∈ textOfInt n) : 45 ≤ c.toNat ∧ c.toNat ≤ 57 := by
  rw [textOfInt] at h
  split_ifs at h
  · rcases List.mem_cons.mp h with rfl | h
    · decide
    · have := mem_textOfNat h
      omega
  · have := mem_textOfNat h
    omega

end Lager.Py
