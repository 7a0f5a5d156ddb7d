import Mathlib.Data.Rat.Defs
import Mathlib.Data.List.Basic
import Mathlib.Data.List.Induction
import Mathlib.Data.List.TakeWhile
import Mathlib.Algebra.Order.Field.Basic
import Mathlib.Algebra.Order.Ring.Rat
import Mathlib.Tactic.NormNum

/-!
# Decimal numerals

Lists of digits with the number they stand for, and numerals with a sign, a fraction and an exponent. A number has
one list of digits without a leading zero (`toDigits_value`), and a numeral is read back from the front of a text
(`scan_text`).
-/

namespace Lager.Lib.Decimal

/-! ### Digits -/

def IsDigits (s : List Char) : Prop := ∀ c ∈ s, c.isDigit = true

/-- The number that digits stand for. -/
def value (s : List Char) : Nat := Nat.ofDigitChars 10 s 0

def zeros (n : Nat) : List Char := List.replicate n '0'

@[simp] theorem value_nil : value [] = 0 := rfl

theorem value_singleton (c : Char) : value [c] = c.toNat - 48 := by
  rw [value, Nat.ofDigitChars_cons, Nat.ofDigitChars_nil, Nat.mul_zero, Nat.zero_add]
  rfl

theorem value_append (s t : List Char) : value (s ++ t) = value s * 10 ^ t.length + value t := by
  rw [value, Nat.ofDigitChars_append, Nat.ofDigitChars_eq_ofDigitChars_zero, Nat.mul_comm]
  rfl

@[simp] theorem value_zeros (n : Nat) : value (zeros n) = 0 := by
  rw [value, zeros, Nat.ofDigitChars_replicate_zero, Nat.mul_zero]

@[simp] theorem length_zeros (n : Nat) : (zeros n).length = n := List.length_replicate

theorem isDigits_append {s t : List Char} : IsDigits (s ++ t) ↔ IsDigits s ∧ IsDigits t := List.forall_mem_append

theorem isDigits_zeros (n : Nat) : IsDigits (zeros n) := by
  intro c hc
  rw [List.eq_of_mem_replicate hc]
  rfl

theorem toNat_of_isDigit {c : Char} (h : c.isDigit = true) : 48 ≤ c.toNat ∧ c.toNat ≤ 57 := by
  simp only [Char.isDigit, Bool.and_eq_true, decide_eq_true_eq] at h
  exact ⟨UInt32.le_iff_toNat_le.mp h.1, UInt32.le_iff_toNat_le.mp h.2⟩

/-- A digit other than zero counts. -/
theorem digit_pos {c : Char} (h : c.isDigit = true) (hzero : c ≠ '0') : 0 < c.toNat - 48 := by
  have hrange := toNat_of_isDigit h
  have hne : c.toNat ≠ 48 := fun he => hzero (Char.toNat_inj.mp he)
  omega

theorem digitChar_digit {c : Char} (h : c.isDigit = true) : Nat.digitChar (c.toNat - 48) = c := by
  have hdigits : ∀ d < 10, Nat.digitChar d = Char.ofNat (48 + d) := by decide
  have hrange := toNat_of_isDigit h
  rw [hdigits _ (by omega), show 48 + (c.toNat - 48) = c.toNat by omega, Char.ofNat_toNat]

theorem value_lt {s : List Char} (h : IsDigits s) : value s < 10 ^ s.length := by
  induction s with
  | nil => exact Nat.one_pos
  | cons c s ih =>
    have hrange := toNat_of_isDigit (h c List.mem_cons_self)
    have hs := ih fun d hd => h d (List.mem_cons_of_mem _ hd)
    have hmul : (c.toNat - 48) * 10 ^ s.length ≤ 9 * 10 ^ s.length := Nat.mul_le_mul_right _ (by omega)
    rw [← List.singleton_append, value_append, value_singleton, List.singleton_append, List.length_cons, Nat.pow_succ]
    omega

/-- Digits that start with another one than zero are large. -/
theorem le_value {c : Char} {s : List Char} (h : c.isDigit = true) (hzero : c ≠ '0') :
    10 ^ s.length ≤ value (c :: s) := by
  have hpos := digit_pos h hzero
  have hmul : 1 * 10 ^ s.length ≤ (c.toNat - 48) * 10 ^ s.length := Nat.mul_le_mul_right _ hpos
  rw [← List.singleton_append, value_append, value_singleton]
  omega

theorem value_pos {c : Char} {s : List Char} (h : c.isDigit = true) (hzero : c ≠ '0') : 0 < value (c :: s) :=
  Nat.lt_of_lt_of_le (Nat.pow_pos (by decide)) (le_value h hzero)

/-- **One spelling.** Digits without a leading zero are those that their number is written with. -/
theorem toDigits_value {c : Char} {s : List Char} (h : IsDigits (c :: s)) (hzero : c ≠ '0') :
    Nat.toDigits 10 (value (c :: s)) = c :: s := by
  induction s using List.reverseRecOn with
  | nil =>
    have hc := h c List.mem_cons_self
    have hrange := toNat_of_isDigit hc
    rw [value_singleton, Nat.toDigits_of_lt_base (by omega), digitChar_digit hc]
  | append_singleton s d ih =>
    rw [← List.cons_append] at h ⊢
    obtain ⟨hs, hd⟩ := isDigits_append.mp h
    have hdigit := hd d List.mem_cons_self
    have hrange := toNat_of_isDigit hdigit
    have hlast : Nat.toDigits 10 (d.toNat - 48) = [d] := by
      rw [Nat.toDigits_of_lt_base (by omega), digitChar_digit hdigit]
    rw [value_append, value_singleton, List.length_singleton, Nat.pow_one, Nat.mul_comm,
      ← Nat.toDigits_append_toDigits (by decide) (value_pos (hs c List.mem_cons_self) hzero) (by omega), ih hs, hlast]

/-- A number that ends in a digit other than zero is no multiple of ten. -/
theorem value_mod_ten {s : List Char} {d : Char} (h : d.isDigit = true) (hzero : d ≠ '0') :
    value (s ++ [d]) % 10 ≠ 0 := by
  have hpos := digit_pos h hzero
  have hrange := toNat_of_isDigit h
  rw [value_append, value_singleton, List.length_singleton, Nat.pow_one]
  omega

/-! ### Leading and trailing zeros -/

def lstrip (s : List Char) : List Char := s.dropWhile (· == '0')

def rstrip (s : List Char) : List Char := (s.reverse.dropWhile (· == '0')).reverse

theorem zeros_append_lstrip (s : List Char) : zeros (s.length - (lstrip s).length) ++ lstrip s = s := by
  have htake : s.takeWhile (· == '0') = zeros (s.takeWhile (· == '0')).length := by
    refine List.eq_replicate_iff.mpr ⟨rfl, fun c hc => ?_⟩
    simpa using List.mem_takeWhile_imp hc
  have hlength : s.length = (s.takeWhile (· == '0')).length + (lstrip s).length := by
    rw [← List.length_append, lstrip, List.takeWhile_append_dropWhile]
  rw [show s.length - (lstrip s).length = (s.takeWhile (· == '0')).length by omega, ← htake]
  exact List.takeWhile_append_dropWhile

theorem value_lstrip (s : List Char) : value (lstrip s) = value s := by
  conv_rhs => rw [← zeros_append_lstrip s]
  rw [value_append, value_zeros, Nat.zero_mul, Nat.zero_add]

theorem length_lstrip_le (s : List Char) : (lstrip s).length ≤ s.length := (List.dropWhile_sublist _).length_le

theorem rstrip_append_zeros (s : List Char) : rstrip s ++ zeros (s.length - (rstrip s).length) = s := by
  have h := congrArg List.reverse (zeros_append_lstrip s.reverse)
  rw [List.reverse_append, List.reverse_reverse, zeros, List.reverse_replicate, List.length_reverse] at h
  rw [rstrip, List.length_reverse]
  exact h

theorem isDigits_lstrip {s : List Char} (h : IsDigits s) : IsDigits (lstrip s) :=
  fun c hc => h c ((List.dropWhile_sublist _).subset hc)

theorem isDigits_rstrip {s : List Char} (h : IsDigits s) : IsDigits (rstrip s) := by
  intro c hc
  refine h c (List.mem_reverse.mp ((List.dropWhile_sublist _).subset (List.mem_reverse.mp hc)))

/-- What is left starts with another digit, or nothing is left. -/
theorem lstrip_cases (s : List Char) : lstrip s = [] ∨ ∃ c t, lstrip s = c :: t ∧ c ≠ '0' := by
  cases h : lstrip s with
  | nil => exact .inl rfl
  | cons c t =>
    refine .inr ⟨c, t, rfl, fun hzero => ?_⟩
    have hhead := List.head?_dropWhile_not (· == '0') s
    rw [show s.dropWhile (· == '0') = c :: t from h] at hhead
    simp [hzero] at hhead

theorem rstrip_cases (s : List Char) : rstrip s = [] ∨ ∃ t d, rstrip s = t ++ [d] ∧ d ≠ '0' := by
  rcases lstrip_cases s.reverse with h | ⟨d, t, h, hd⟩
  · exact .inl (congrArg List.reverse h)
  · refine .inr ⟨t.reverse, d, ?_, hd⟩
    rw [← List.reverse_cons, ← h]
    rfl

theorem lstrip_append {s : List Char} (t : List Char) (h : lstrip s ≠ []) : lstrip (s ++ t) = lstrip s ++ t := by
  rw [lstrip, List.dropWhile_append, if_neg (by simpa [lstrip] using h)]
  rfl

theorem lstrip_append_of_nil {s : List Char} (t : List Char) (h : lstrip s = []) : lstrip (s ++ t) = lstrip t := by
  rw [lstrip, List.dropWhile_append, if_pos (by simpa [lstrip] using h)]
  rfl

/-! ### Numerals -/

/-- A numeral: its sign, the digits before and after the point (no point without any after it) and the exponent with
its sign. -/
structure Numeral where
  neg : Bool
  int : List Char
  frac : List Char
  exp : Option (Bool × List Char)

namespace Numeral

def exponent (m : Numeral) : Int :=
  match m.exp with
  | none => 0
  | some (true, digits) => -(value digits : Int)
  | some (false, digits) => value digits

/-- The number without its sign. -/
def magnitude (m : Numeral) : ℚ := value (m.int ++ m.frac) * (10 : ℚ) ^ (m.exponent - m.frac.length)

def value (m : Numeral) : ℚ := if m.neg then -m.magnitude else m.magnitude

def fracText (frac : List Char) : List Char := if frac = [] then [] else '.' :: frac

def expText : Option (Bool × List Char) → List Char
  | none => []
  | some (true, digits) => 'e' :: '-' :: digits
  | some (false, digits) => 'e' :: '+' :: digits

/-- The numeral as a text: the exponent has a sign. -/
def text (m : Numeral) : List Char :=
  (if m.neg then ['-'] else []) ++ (m.int ++ (fracText m.frac ++ expText m.exp))

/-- All digits are digits, and there are some where some must be. -/
structure Spelled (m : Numeral) : Prop where
  int : IsDigits m.int
  int_ne_nil : m.int ≠ []
  frac : IsDigits m.frac
  exp : ∀ neg digits, m.exp = some (neg, digits) → IsDigits digits ∧ digits ≠ []

/-- No digit but a single zero before the point may be followed by others. -/
def Plain (m : Numeral) : Prop := m.int = ['0'] ∨ ∃ c t, m.int = c :: t ∧ c ≠ '0'

end Numeral

/-! ### Reading a numeral -/

/-- The digits at the front, and the rest. -/
def span (s : List Char) : List Char × List Char := (s.takeWhile Char.isDigit, s.dropWhile Char.isDigit)

def scanInt : List Char → Option (List Char × List Char)
  | '0' :: s => some (['0'], s)
  | s => if (span s).1 = [] then none else some (span s)

def scanFrac : List Char → List Char × List Char
  | '.' :: s => if (span s).1 = [] then ([], '.' :: s) else span s
  | s => ([], s)

/-- The sign of an exponent. -/
def scanSign : List Char → Bool × List Char
  | '+' :: s => (false, s)
  | '-' :: s => (true, s)
  | s => (false, s)

def scanExp : List Char → Option (Bool × List Char) × List Char
  | [] => (none, [])
  | c :: s =>
    if c = 'e' ∨ c = 'E' then
      if (span (scanSign s).2).1 = [] then (none, c :: s)
      else (some ((scanSign s).1, (span (scanSign s).2).1), (span (scanSign s).2).2)
    else (none, c :: s)

def scanMinus : List Char → Bool × List Char
  | '-' :: s => (true, s)
  | s => (false, s)

/-- The longest numeral at the front of a text, and the rest. -/
def scan (s : List Char) : Option (Numeral × List Char) :=
  let (neg, s) := scanMinus s
  (scanInt s).map fun (int, s) =>
    let (frac, s) := scanFrac s
    let (exp, s) := scanExp s
    (⟨neg, int, frac, exp⟩, s)

/-- The text does not start with what could go on with a numeral. -/
def Stops (s : List Char) : Prop := ∀ c ∈ s.head?, c.isDigit = false ∧ c ≠ '.' ∧ c ≠ 'e' ∧ c ≠ 'E'

theorem span_append {digits s : List Char} (h : IsDigits digits) (hs : ∀ c ∈ s.head?, c.isDigit = false) :
    span (digits ++ s) = (digits, s) := by
  have hstop : s.takeWhile Char.isDigit = [] ∧ s.dropWhile Char.isDigit = s := by
    cases s with
    | nil => exact ⟨rfl, rfl⟩
    | cons c s =>
      have hc : ¬c.isDigit = true := by simp [hs c rfl]
      exact ⟨List.takeWhile_cons_of_neg hc, List.dropWhile_cons_of_neg hc⟩
  rw [span, List.takeWhile_append_of_pos h, List.dropWhile_append_of_pos h, hstop.1, hstop.2, List.append_nil]

theorem scanInt_append {int s : List Char} (h : IsDigits int) (hplain : int = ['0'] ∨ ∃ c t, int = c :: t ∧ c ≠ '0')
    (hs : ∀ c ∈ s.head?, c.isDigit = false) : scanInt (int ++ s) = some (int, s) := by
  rcases hplain with rfl | ⟨c, t, rfl, hc⟩
  · rfl
  · have hspan := span_append h hs
    rw [List.cons_append] at hspan ⊢
    rw [scanInt, hspan]
    · rfl
    · exact fun _ he => hc (List.cons.inj he).1

theorem scanFrac_append {frac s : List Char} (h : IsDigits frac) (hs : ∀ c ∈ s.head?, c.isDigit = false ∧ c ≠ '.') :
    scanFrac (Numeral.fracText frac ++ s) = (frac, s) := by
  rw [Numeral.fracText]
  split_ifs with hnil
  · subst hnil
    cases s with
    | nil => rfl
    | cons c s =>
      rw [List.nil_append, scanFrac]
      exact fun _ he => (hs c rfl).2 (List.cons.inj he).1
  · rw [List.cons_append, scanFrac, span_append h fun c hc => (hs c hc).1]
    exact if_neg hnil

theorem scanExp_append {exp : Option (Bool × List Char)} {s : List Char}
    (h : ∀ neg digits, exp = some (neg, digits) → IsDigits digits ∧ digits ≠ []) (hs : Stops s) :
    scanExp (Numeral.expText exp ++ s) = (exp, s) := by
  have hrest : ∀ c ∈ s.head?, c.isDigit = false := fun c hc => (hs c hc).1
  match exp with
  | none =>
    cases s with
    | nil => rfl
    | cons c s =>
      obtain ⟨-, -, he, hE⟩ := hs c rfl
      rw [Numeral.expText, List.nil_append, scanExp, if_neg (not_or.mpr ⟨he, hE⟩)]
  | some (true, digits) =>
    obtain ⟨hdigits, hne⟩ := h true digits rfl
    simp only [Numeral.expText, List.cons_append, scanExp, true_or, if_true, scanSign, span_append hdigits hrest,
      if_neg hne]
  | some (false, digits) =>
    obtain ⟨hdigits, hne⟩ := h false digits rfl
    simp only [Numeral.expText, List.cons_append, scanExp, true_or, if_true, scanSign, span_append hdigits hrest,
      if_neg hne]

/-- What a fraction and an exponent start with is no digit. -/
theorem head_fracText {frac exp s : List Char} (hexp : ∀ c ∈ (exp ++ s).head?, c.isDigit = false) :
    ∀ c ∈ (Numeral.fracText frac ++ (exp ++ s)).head?, c.isDigit = false := by
  rw [Numeral.fracText]
  split_ifs
  · exact hexp
  · rintro c ⟨⟩
    rfl

theorem head_expText {exp : Option (Bool × List Char)} {s : List Char} (hs : Stops s) :
    ∀ c ∈ (Numeral.expText exp ++ s).head?, c.isDigit = false ∧ c ≠ '.' := by
  match exp with
  | none => exact fun c hc => ⟨(hs c hc).1, (hs c hc).2.1⟩
  | some (true, _) =>
    rintro c ⟨⟩
    decide
  | some (false, _) =>
    rintro c ⟨⟩
    decide

theorem scanMinus_text {m : Numeral} (hm : m.Spelled) (s : List Char) :
    scanMinus (m.text ++ s) = (m.neg, m.int ++ (Numeral.fracText m.frac ++ (Numeral.expText m.exp ++ s))) := by
  have htext : m.text ++ s = (if m.neg then ['-'] else []) ++
      (m.int ++ (Numeral.fracText m.frac ++ (Numeral.expText m.exp ++ s))) := by
    simp only [Numeral.text, List.append_assoc]
  rw [htext]
  cases m.neg with
  | true => rfl
  | false =>
    obtain ⟨c, t, hint⟩ := List.exists_cons_of_ne_nil hm.int_ne_nil
    have hc : c ≠ '-' := by
      rintro rfl
      exact absurd (hm.int '-' (hint ▸ List.mem_cons_self)) (by decide)
    rw [hint]
    exact scanMinus.eq_2 _ fun _ he => hc (List.cons.inj he).1

/-- **A numeral is read back.** -/
theorem scan_text {m : Numeral} (hm : m.Spelled) (hplain : m.Plain) {s : List Char} (hs : Stops s) :
    scan (m.text ++ s) = some (m, s) := by
  have hexp := @head_expText m.exp s hs
  have hint := scanInt_append hm.int hplain (@head_fracText m.frac _ _ fun c hc => (hexp c hc).1)
  have hfrac := scanFrac_append hm.frac hexp
  have hlast := scanExp_append hm.exp hs
  simp only [scan, scanMinus_text hm, hint, Option.map_some, hfrac, hlast]

end Lager.Lib.Decimal
