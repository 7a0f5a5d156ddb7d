import Lager.Py.Loads
import Mathlib.Algebra.Order.Group.Unbundled.Abs
import Mathlib.Tactic.FieldSimp
import Mathlib.Tactic.Ring

/-!
# Numbers in canonical JSON

`_number` takes the digits and the decimal exponent out of `repr` and writes them the way ECMAScript does. `repr` and
the reading of a decimal as a double are given with what Python documents of them; everything between the two texts
is the module's own. `number_spec` says that the text it writes is a number of JSON and is read as the same double, and
`number_int` that an integer is written as its decimal digits.
-/

namespace Lager.Util.Jcs

open Lager.Py Lager.Lib Lager.Lib.Decimal

/-! ### Doubles -/

/-- The finite values of a double. -/
def IsDouble (q : ℚ) : Prop :=
  ∃ m e : Int, m.natAbs < 2 ^ 53 ∧ -1074 ≤ e ∧ e ≤ 971 ∧ q = m * (2 : ℚ) ^ e

def negate : PyFloat → PyFloat
  | .fin q => .fin (-q)
  | .posInf => .negInf
  | .negInf => .posInf
  | .nan => .nan

/-- `repr` of positive doubles, and the double that a decimal is read as. The text of a double is read as that double,
and an integer up to `2 ^ 53` is spelled exactly. -/
structure FloatSyntax where
  repr : ℚ → List Char
  float : ℚ → PyFloat
  float_double : ∀ q, IsDouble q → float q = .fin q
  float_neg : ∀ q, float (-q) = negate (float q)
  repr_spec : ∀ q, IsDouble q → 0 < q → ∃ m : Numeral, m.Spelled ∧ m.neg = false ∧ repr q = m.text ∧
    float m.value = .fin q ∧ ∀ n : Nat, n ≤ 2 ^ 53 → q = n → m.value = n

theorem isDouble_zero : IsDouble 0 := ⟨0, 0, by decide, by decide, by decide, by simp⟩

theorem isDouble_int {n : Int} (h : n.natAbs ≤ 2 ^ 53) : IsDouble n := by
  by_cases hn : n.natAbs < 2 ^ 53
  · exact ⟨n, 0, hn, by decide, by decide, by simp⟩
  · -- the bound itself is even
    have hhalf : n = n / 2 * 2 := by omega
    refine ⟨n / 2, 1, by omega, by decide, by decide, ?_⟩
    rw [zpow_one]
    exact_mod_cast hhalf

theorem isDouble_neg {q : ℚ} (h : IsDouble q) : IsDouble (-q) := by
  obtain ⟨m, e, hm, hlow, hhigh, rfl⟩ := h
  exact ⟨-m, e, by rwa [Int.natAbs_neg], hlow, hhigh, by push_cast; ring⟩

/-! ### The printer -/

variable (F : FloatSyntax)

/-- `s.partition(sep)` without the separator. -/
def partition (sep : Char) (s : List Char) : List Char × List Char :=
  (s.takeWhile (· != sep), (s.dropWhile (· != sep)).drop 1)

/-- The last part of `_number`: `digits` with the decimal point `n` places behind their start. -/
def layout (digits : List Char) (n : Int) : List Char :=
  let k : Int := digits.length
  if k ≤ n ∧ n ≤ 21 then digits ++ zeros (n - k).toNat
  else if 0 < n ∧ n ≤ 21 then digits.take n.toNat ++ '.' :: digits.drop n.toNat
  else if -6 < n ∧ n ≤ 0 then '0' :: '.' :: (zeros (-n).toNat ++ digits)
  else
    let e := n - 1
    let eStr := (if 0 ≤ e then '+' else '-') :: textOfNat e.natAbs
    if k = 1 then digits ++ 'e' :: eStr
    else digits.take 1 ++ '.' :: (digits.drop 1 ++ 'e' :: eStr)

/-- `_number` -/
def number : PyFloat → Except PyErr (List Char)
  | .fin q =>
    if q = 0 then .ok ['0']
    else
      let sign := if q < 0 then ['-'] else []
      let (mantissa, exp) := partition 'e' (F.repr |q|)
      let (intPart, fracPart) := partition '.' mantissa
      let digits := lstrip (intPart ++ fracPart)
      let n : Int := if rstrip (lstrip intPart) ≠ [] then (lstrip intPart).length
        else -((fracPart.length : Int) - (lstrip fracPart).length)
      match if exp = [] then some 0 else intOfText exp with
      | none => .error .valueError
      | some e =>
        let digits := if rstrip digits = [] then ['0'] else rstrip digits
        .ok (sign ++ layout digits (n + e))
  | .posInf | .negInf | .nan => .error .valueError

/-! ### The layout -/

/-- Digits without a zero at either end. -/
structure Significant (digits : List Char) : Prop where
  isDigits : IsDigits digits
  head : ∃ c t, digits = c :: t ∧ c ≠ '0'
  last : ∃ t d, digits = t ++ [d] ∧ d ≠ '0'

theorem Significant.ne_nil {digits : List Char} (h : Significant digits) : digits ≠ [] := by
  obtain ⟨c, t, rfl, -⟩ := h.head
  exact List.cons_ne_nil c t

/-- The numeral that is laid out. -/
def layoutNumeral (neg : Bool) (digits : List Char) (n : Int) : Numeral :=
  if digits.length ≤ n ∧ n ≤ 21 then ⟨neg, digits ++ zeros (n - digits.length).toNat, [], none⟩
  else if 0 < n ∧ n ≤ 21 then ⟨neg, digits.take n.toNat, digits.drop n.toNat, none⟩
  else if -6 < n ∧ n ≤ 0 then ⟨neg, ['0'], zeros (-n).toNat ++ digits, none⟩
  else ⟨neg, digits.take 1, digits.drop 1, some (decide (n - 1 < 0), textOfNat (n - 1).natAbs)⟩

theorem value_textOfNat (n : Nat) : value (textOfNat n) = n := Nat.ofDigitChars_ten_toDigits

theorem isDigits_textOfNat (n : Nat) : IsDigits (textOfNat n) :=
  fun _ hc => Nat.isDigit_of_mem_toDigits (by decide) (by decide) hc

theorem expText_sign (e : Int) :
    Numeral.expText (some (decide (e < 0), textOfNat e.natAbs)) =
      'e' :: (if 0 ≤ e then '+' else '-') :: textOfNat e.natAbs := by
  by_cases he : e < 0
  · rw [decide_eq_true he, if_neg (by omega)]
    rfl
  · rw [decide_eq_false he, if_pos (by omega)]
    rfl

theorem exponent_sign (e : Int) (neg : Bool) (int frac : List Char) :
    Numeral.exponent ⟨neg, int, frac, some (decide (e < 0), textOfNat e.natAbs)⟩ = e := by
  by_cases he : e < 0
  · simp only [decide_eq_true he, Numeral.exponent, value_textOfNat]
    omega
  · simp only [decide_eq_false he, Numeral.exponent, value_textOfNat]
    omega

theorem fracText_of_ne_nil {frac : List Char} (h : frac ≠ []) : Numeral.fracText frac = '.' :: frac := if_neg h

theorem layout_text {digits : List Char} (h : Significant digits) (n : Int) :
    layout digits n = (layoutNumeral false digits n).text := by
  have hne := h.ne_nil
  have hpos : 0 < digits.length := List.length_pos_of_ne_nil hne
  rw [layout, layoutNumeral]
  split_ifs with h1 h2 h3 h4
  · simp [Numeral.text, Numeral.fracText, Numeral.expText]
  · have hdrop : digits.drop n.toNat ≠ [] := by
      rw [Ne, List.drop_eq_nil_iff]
      omega
    rw [Numeral.text, fracText_of_ne_nil hdrop]
    simp [Numeral.expText]
  · have hfrac : zeros (-n).toNat ++ digits ≠ [] := List.append_ne_nil_of_right_ne_nil _ hne
    rw [Numeral.text, fracText_of_ne_nil hfrac]
    simp [Numeral.expText]
  · -- a single digit has no point behind it
    have htake : digits.take 1 = digits := List.take_of_length_le (by omega)
    have hdrop : digits.drop 1 = [] := List.drop_eq_nil_of_le (by omega)
    rw [Numeral.text, htake, hdrop, expText_sign]
    rfl
  · have hdrop : digits.drop 1 ≠ [] := by
      rw [Ne, List.drop_eq_nil_iff]
      omega
    rw [Numeral.text, fracText_of_ne_nil hdrop, expText_sign]
    simp

theorem sign_layout {digits : List Char} (h : Significant digits) (neg : Bool) (n : Int) :
    (if neg then ['-'] else []) ++ layout digits n = (layoutNumeral neg digits n).text := by
  rw [layout_text h]
  cases neg with
  | false => rfl
  | true =>
    rw [if_pos rfl, layoutNumeral, layoutNumeral]
    split_ifs <;> rfl

theorem layout_magnitude {digits : List Char} (h : Significant digits) (neg : Bool) (n : Int) :
    (layoutNumeral neg digits n).magnitude = value digits * (10 : ℚ) ^ (n - digits.length) := by
  have hpos : 0 < digits.length := List.length_pos_of_ne_nil h.ne_nil
  rw [layoutNumeral]
  split_ifs with h1 h2 h3
  · have hshift : ((n - digits.length).toNat : Int) = n - digits.length := by omega
    rw [Numeral.magnitude, List.append_nil, value_append, value_zeros, length_zeros, ← hshift, zpow_natCast]
    simp [Numeral.exponent]
  · have hlength : ((digits.drop n.toNat).length : Int) = digits.length - n := by
      rw [List.length_drop]
      omega
    rw [Numeral.magnitude, List.take_append_drop]
    simp only [Numeral.exponent, hlength, zero_sub, neg_sub]
  · have hlength : ((zeros (-n).toNat ++ digits).length : Int) = digits.length - n := by
      rw [List.length_append, length_zeros]
      omega
    have hvalue : value (['0'] ++ (zeros (-n).toNat ++ digits)) = value digits := by
      rw [value_append, value_append, value_zeros, value_singleton]
      simp
    rw [Numeral.magnitude, hvalue]
    simp only [Numeral.exponent, hlength, zero_sub, neg_sub]
  · have hlength : ((digits.drop 1).length : Int) = digits.length - 1 := by
      rw [List.length_drop]
      omega
    rw [Numeral.magnitude, List.take_append_drop, exponent_sign, hlength]
    rw [show n - 1 - ((digits.length : Int) - 1) = n - digits.length by omega]

theorem layout_spelled {digits : List Char} (h : Significant digits) (neg : Bool) (n : Int) :
    (layoutNumeral neg digits n).Spelled := by
  have hpos : 0 < digits.length := List.length_pos_of_ne_nil h.ne_nil
  have htake : ∀ k, IsDigits (digits.take k) := fun k c hc => h.isDigits c (List.mem_of_mem_take hc)
  have hdrop : ∀ k, IsDigits (digits.drop k) := fun k c hc => h.isDigits c (List.mem_of_mem_drop hc)
  have htakeNe : ∀ k, 0 < k → digits.take k ≠ [] := by
    intro k hk
    rw [Ne, List.take_eq_nil_iff]
    exact not_or.mpr ⟨by omega, h.ne_nil⟩
  have hnil : IsDigits [] := fun _ hc => (List.not_mem_nil hc).elim
  rw [layoutNumeral]
  split_ifs with h1 h2 h3
  · exact ⟨isDigits_append.mpr ⟨h.isDigits, isDigits_zeros _⟩, List.append_ne_nil_of_left_ne_nil h.ne_nil _, hnil,
      by simp⟩
  · exact ⟨htake _, htakeNe _ (by omega), hdrop _, by simp⟩
  · exact ⟨isDigits_zeros 1, by simp, isDigits_append.mpr ⟨isDigits_zeros _, h.isDigits⟩, by simp⟩
  · refine ⟨htake 1, htakeNe 1 (by decide), hdrop 1, ?_⟩
    intro sign e he
    cases he
    exact ⟨isDigits_textOfNat _, textOfNat_ne_nil _⟩

theorem layout_plain {digits : List Char} (h : Significant digits) (neg : Bool) (n : Int) :
    (layoutNumeral neg digits n).Plain := by
  obtain ⟨c, t, rfl, hc⟩ := h.head
  rw [layoutNumeral]
  split_ifs with h1 h2 h3
  · exact .inr ⟨c, _, rfl, hc⟩
  · obtain ⟨k, hk⟩ := Nat.exists_eq_succ_of_ne_zero (by omega : n.toNat ≠ 0)
    exact .inr ⟨c, t.take k, by rw [hk, List.take_succ_cons], hc⟩
  · exact .inl rfl
  · exact .inr ⟨c, [], rfl, hc⟩

/-! ### Taking `repr` apart -/

theorem partition_append {sep : Char} {s : List Char} (h : sep ∉ s) (t : List Char) :
    partition sep (s ++ sep :: t) = (s, t) := by
  have hs : ∀ c ∈ s, (c != sep) = true := fun c hc => bne_iff_ne.mpr fun he => h (he ▸ hc)
  rw [partition, List.takeWhile_append_of_pos hs, List.dropWhile_append_of_pos hs]
  simp

theorem partition_self {sep : Char} {s : List Char} (h : sep ∉ s) : partition sep s = (s, []) := by
  have hs : ∀ c ∈ s, (c != sep) = true := fun c hc => bne_iff_ne.mpr fun he => h (he ▸ hc)
  have htake := @List.takeWhile_append_of_pos _ _ _ [] hs
  have hdrop := @List.dropWhile_append_of_pos _ _ _ [] hs
  rw [List.append_nil] at htake hdrop
  rw [partition, htake, hdrop]
  simp

theorem not_mem_digits {s : List Char} (h : IsDigits s) {c : Char} (hc : c.isDigit = false) : c ∉ s := by
  intro hmem
  rw [h c hmem] at hc
  cases hc

theorem partition_point {int frac : List Char} (hint : IsDigits int) :
    partition '.' (int ++ Numeral.fracText frac) = (int, frac) := by
  rw [Numeral.fracText]
  split_ifs with hnil
  · rw [List.append_nil, partition_self (not_mem_digits hint (by decide)), hnil]
  · exact partition_append (not_mem_digits hint (by decide)) frac

theorem partition_exp {m : Numeral} (hm : m.Spelled) (hpos : m.neg = false) :
    partition 'e' m.text = (m.int ++ Numeral.fracText m.frac, (Numeral.expText m.exp).drop 1) := by
  have hmantissa : 'e' ∉ m.int ++ Numeral.fracText m.frac := by
    rw [List.mem_append, not_or, Numeral.fracText]
    refine ⟨not_mem_digits hm.int (by decide), ?_⟩
    split_ifs
    · exact List.not_mem_nil
    · rw [List.mem_cons, not_or]
      exact ⟨by decide, not_mem_digits hm.frac (by decide)⟩
  have htext : m.text = (m.int ++ Numeral.fracText m.frac) ++ Numeral.expText m.exp := by
    rw [Numeral.text, hpos]
    simp
  rw [htext]
  obtain hexp | ⟨neg, digits, hexp⟩ : m.exp = none ∨ ∃ neg digits, m.exp = some (neg, digits) := by
    cases m.exp with
    | none => exact .inl rfl
    | some exp => exact .inr ⟨exp.1, exp.2, rfl⟩
  · rw [hexp, Numeral.expText, List.append_nil, partition_self hmantissa]
    rfl
  · rw [hexp]
    cases neg with
    | true => exact partition_append hmantissa ('-' :: digits)
    | false => exact partition_append hmantissa ('+' :: digits)

theorem digitsFrom_value {digits : List Char} (h : IsDigits digits) (hne : digits ≠ []) :
    digitsFrom 0 true digits = some (value digits) :=
  digitsFrom_digits digits (fun c hc => toNat_of_isDigit (h c hc)) 0 true fun _ => hne

theorem strip_sign {c : Char} (hc : isSpace c = false) {digits : List Char} (h : IsDigits digits) :
    strip (c :: digits) = c :: digits := by
  refine strip_eq fun d hd => ?_
  rcases List.mem_cons.mp hd with rfl | hd
  · exact hc
  · have hrange := toNat_of_isDigit (h d hd)
    exact isSpace_digit (by omega)

/-- `int(exp) if exp else 0` -/
theorem intOfText_exp {m : Numeral} (hm : m.Spelled) :
    (if (Numeral.expText m.exp).drop 1 = [] then some 0 else intOfText ((Numeral.expText m.exp).drop 1)) =
      some m.exponent := by
  have hexp := hm.exp
  rw [Numeral.exponent]
  match m.exp, hexp with
  | none, _ => rfl
  | some (true, digits), hexp =>
    obtain ⟨hdigits, hne⟩ := hexp true digits rfl
    simp only [Numeral.expText, List.drop_one, List.tail_cons, reduceCtorEq, if_false, intOfText,
      strip_sign (by decide : isSpace '-' = false) hdigits, digitsFrom_value hdigits hne, Option.map_some]
  | some (false, digits), hexp =>
    obtain ⟨hdigits, hne⟩ := hexp false digits rfl
    simp only [Numeral.expText, List.drop_one, List.tail_cons, reduceCtorEq, if_false, intOfText,
      strip_sign (by decide : isSpace '+' = false) hdigits, digitsFrom_value hdigits hne, Option.map_some]

/-- Where the point is, counted from the first digit that is not zero. -/
theorem point_eq (int frac : List Char) :
    (if rstrip (lstrip int) ≠ [] then ((lstrip int).length : Int)
      else -((frac.length : Int) - (lstrip frac).length)) = (lstrip (int ++ frac)).length - frac.length := by
  have hstrip : rstrip (lstrip int) = [] ↔ lstrip int = [] := by
    constructor
    · intro hnil
      have hzeros := rstrip_append_zeros (lstrip int)
      rw [hnil, List.nil_append] at hzeros
      rcases lstrip_cases int with h | ⟨c, t, h, hc⟩
      · exact h
      · rw [h] at hzeros
        exact absurd (List.eq_of_mem_replicate (hzeros ▸ List.mem_cons_self)) hc
    · intro hnil
      rw [hnil]
      rfl
  split_ifs with h
  · have hne : lstrip int ≠ [] := fun hnil => h (hstrip.mpr hnil)
    rw [lstrip_append frac hne, List.length_append]
    omega
  · have hnil : lstrip int = [] := hstrip.mp (not_not.mp h)
    rw [lstrip_append_of_nil frac hnil]
    omega

theorem significant_strip {s : List Char} (h : IsDigits s) (hne : lstrip s ≠ []) :
    Significant (rstrip (lstrip s)) ∧ ∀ n : Int, (value s : ℚ) * (10 : ℚ) ^ (n - (lstrip s).length) =
      value (rstrip (lstrip s)) * (10 : ℚ) ^ (n - (rstrip (lstrip s)).length) := by
  have hzeros := rstrip_append_zeros (lstrip s)
  have hle : (rstrip (lstrip s)).length ≤ (lstrip s).length := by
    have hlength := congrArg List.length hzeros
    rw [List.length_append] at hlength
    omega
  obtain ⟨c, t, hhead, hc⟩ := (lstrip_cases s).resolve_left hne
  have hstripped : rstrip (lstrip s) ≠ [] := by
    intro hnil
    rw [hnil, List.nil_append, hhead] at hzeros
    exact hc (List.eq_of_mem_replicate (hzeros ▸ List.mem_cons_self))
  refine ⟨⟨isDigits_rstrip (isDigits_lstrip h), ?_, (rstrip_cases _).resolve_left hstripped⟩, fun n => ?_⟩
  · obtain ⟨d, u, hd⟩ := List.exists_cons_of_ne_nil hstripped
    rw [hd, hhead, List.cons_append] at hzeros
    exact ⟨d, u, hd, (List.cons.inj hzeros).1 ▸ hc⟩
  · have hvalue : value s = value (rstrip (lstrip s)) * 10 ^ ((lstrip s).length - (rstrip (lstrip s)).length) := by
      have h := congrArg value hzeros
      rw [value_append, value_zeros, length_zeros, Nat.add_zero, value_lstrip] at h
      exact h.symm
    rw [hvalue, Nat.cast_mul, Nat.cast_pow, ← zpow_natCast, mul_assoc, Nat.cast_ofNat,
      ← zpow_add₀ (by norm_num : (10 : ℚ) ≠ 0), Nat.cast_sub hle]
    congr 2
    omega

/-! ### What is printed -/

variable {F}

theorem isDouble_abs {q : ℚ} (h : IsDouble q) : IsDouble |q| := by
  rcases abs_choice q with hq | hq
  · rw [hq]
    exact h
  · rw [hq]
    exact isDouble_neg h

/-- What is laid out is what `repr` spells, without the zeros at its ends. -/
theorem number_of_repr {q : ℚ} (hne : q ≠ 0) {m : Numeral} (hm : m.Spelled) (hsign : m.neg = false)
    (hrepr : F.repr |q| = m.text) (hstripped : lstrip (m.int ++ m.frac) ≠ []) :
    number F (.fin q) = .ok ((if q < 0 then ['-'] else []) ++ layout (rstrip (lstrip (m.int ++ m.frac)))
      (((lstrip (m.int ++ m.frac)).length : Int) - m.frac.length + m.exponent)) := by
  have hsignificant := (significant_strip (isDigits_append.mpr ⟨hm.int, hm.frac⟩) hstripped).1
  rw [number, if_neg hne, hrepr]
  simp only [partition_exp hm hsign, partition_point hm.int, point_eq, intOfText_exp hm, if_neg hsignificant.ne_nil]

/-- The digits and the place of the point stand for what `repr` spells. -/
theorem number_eq {q : ℚ} (hq : IsDouble q) (hne : q ≠ 0) : ∃ (digits : List Char) (n : Int) (v : ℚ),
    Significant digits ∧ v = value digits * (10 : ℚ) ^ (n - digits.length) ∧ F.float v = .fin |q| ∧
      (∀ j : Nat, j ≤ 2 ^ 53 → |q| = j → v = j) ∧
      number F (.fin q) = .ok (layoutNumeral (decide (q < 0)) digits n).text := by
  obtain ⟨m, hm, hsign, hrepr, hread, hexact⟩ := F.repr_spec |q| (isDouble_abs hq) (abs_pos.mpr hne)
  have hvalue : m.value = m.magnitude := by
    rw [Numeral.value, hsign]
    rfl
  -- a text of nothing but zeros is read as zero
  have hstripped : lstrip (m.int ++ m.frac) ≠ [] := by
    intro hnil
    have hzero : value (m.int ++ m.frac) = 0 := by
      rw [← value_lstrip, hnil, value_nil]
    rw [hvalue, Numeral.magnitude, hzero, Nat.cast_zero, zero_mul, F.float_double 0 isDouble_zero] at hread
    exact hne (abs_eq_zero.mp (PyFloat.fin.inj hread).symm)
  obtain ⟨hsignificant, hscaled⟩ := significant_strip (isDigits_append.mpr ⟨hm.int, hm.frac⟩) hstripped
  refine ⟨rstrip (lstrip (m.int ++ m.frac)),
    ((lstrip (m.int ++ m.frac)).length : Int) - m.frac.length + m.exponent, m.value, hsignificant, ?_, hread, hexact,
    ?_⟩
  · rw [← hscaled, hvalue, Numeral.magnitude]
    congr 2
    omega
  · rw [number_of_repr hne hm hsign hrepr hstripped, ← sign_layout hsignificant]
    simp only [decide_eq_true_eq]

/-- **The printer.** What is written is a number of JSON and is read as the double it was written for. -/
theorem number_spec {q : ℚ} (hq : IsDouble q) :
    ∃ m : Numeral, m.Spelled ∧ m.Plain ∧ number F (.fin q) = .ok m.text ∧ F.float m.value = .fin q := by
  by_cases hne : q = 0
  · subst hne
    refine ⟨⟨false, ['0'], [], none⟩, ⟨isDigits_zeros 1, by simp, by simp [IsDigits], by simp⟩, .inl rfl, rfl, ?_⟩
    have hzero : Numeral.value ⟨false, ['0'], [], none⟩ = 0 := by
      have hdigit : value ['0'] = 0 := rfl
      simp [Numeral.value, Numeral.magnitude, hdigit]
    rw [hzero, F.float_double 0 isDouble_zero]
  · obtain ⟨digits, n, v, hdigits, hv, hread, -, htext⟩ := number_eq (F := F) hq hne
    refine ⟨_, layout_spelled hdigits _ n, layout_plain hdigits _ n, htext, ?_⟩
    have hneg : (layoutNumeral (decide (q < 0)) digits n).neg = decide (q < 0) := by
      rw [layoutNumeral]
      split_ifs <;> rfl
    rw [Numeral.value, layout_magnitude hdigits, hneg, ← hv]
    by_cases hlt : q < 0
    · rw [if_pos (decide_eq_true hlt), F.float_neg, hread, abs_of_neg hlt, negate, neg_neg]
    · rw [if_neg (by simpa using hlt), hread, abs_of_nonneg (not_lt.mp hlt)]

/-- Digits whose number is a natural one have the point behind them, and not far. -/
theorem point_of_nat {digits : List Char} (h : Significant digits) {n : Int} {j : Nat} (hj : j ≤ 2 ^ 53)
    (hv : (j : ℚ) = value digits * (10 : ℚ) ^ (n - digits.length)) :
    digits.length ≤ n ∧ n ≤ 21 ∧ j = value (digits ++ zeros (n - digits.length).toNat) := by
  have hten : (10 : ℚ) ≠ 0 := by norm_num
  have hbehind : (digits.length : Int) ≤ n := by
    by_contra hlt
    -- the last digit would be a zero
    obtain ⟨k, hk⟩ := Int.eq_ofNat_of_zero_le (by omega : 0 ≤ digits.length - n)
    obtain ⟨k, rfl⟩ := Nat.exists_eq_succ_of_ne_zero (by omega : k ≠ 0)
    have hvalue : value digits = j * 10 ^ (k + 1) := by
      have hmul : (j : ℚ) * (10 : ℚ) ^ ((k + 1 : Nat) : Int) = value digits := by
        rw [hv, mul_assoc, ← zpow_add₀ hten, show n - (digits.length : Int) + ((k + 1 : Nat) : Int) = 0 by omega,
          zpow_zero, mul_one]
      rw [zpow_natCast] at hmul
      exact_mod_cast hmul.symm
    obtain ⟨t, d, rfl, hd⟩ := h.last
    have hdigit := (isDigits_append.mp h.isDigits).2 d List.mem_cons_self
    have hmod := value_mod_ten (s := t) hdigit hd
    rw [hvalue, Nat.pow_succ, ← Nat.mul_assoc] at hmod
    exact hmod (Nat.mul_mod_left _ _)
  obtain ⟨k, hk⟩ := Int.eq_ofNat_of_zero_le (by omega : 0 ≤ n - digits.length)
  have hvalue : j = value digits * 10 ^ k := by
    rw [hk, zpow_natCast] at hv
    exact_mod_cast hv
  have hzeros : value (digits ++ zeros (n - digits.length).toNat) = j := by
    rw [value_append, value_zeros, length_zeros, hvalue, hk]
    rfl
  refine ⟨hbehind, ?_, hzeros.symm⟩
  by_contra hfar
  obtain ⟨c, t, hct, hc⟩ := h.head
  have hle := le_value (s := t) (h.isDigits c (hct ▸ List.mem_cons_self)) hc
  rw [← hct] at hle
  have hlength : digits.length = t.length + 1 := by rw [hct, List.length_cons]
  have hlarge : 10 ^ 21 ≤ j := by
    calc 10 ^ 21 ≤ 10 ^ (t.length + k) := Nat.pow_le_pow_right (by decide) (by omega)
      _ = 10 ^ t.length * 10 ^ k := Nat.pow_add 10 _ _
      _ ≤ value digits * 10 ^ k := Nat.mul_le_mul_right _ hle
      _ = j := hvalue.symm
  have hsmall : (2 ^ 53 : Nat) < 10 ^ 21 := by norm_num
  omega

/-- An integer is printed as `str` prints it. -/
theorem number_int {n : Int} (hn : n.natAbs ≤ 2 ^ 53) : number F (.fin n) = .ok (textOfInt n) := by
  by_cases hzero : n = 0
  · subst hzero
    rfl
  · have hne : (n : ℚ) ≠ 0 := by exact_mod_cast hzero
    obtain ⟨digits, p, v, hdigits, hv, -, hexact, htext⟩ := number_eq (F := F) (isDouble_int hn) hne
    have habs : |(n : ℚ)| = (n.natAbs : ℚ) := by
      rw [← Int.cast_abs, Int.abs_eq_natAbs]
      rfl
    rw [hexact _ hn habs] at hv
    obtain ⟨hbehind, hnear, hj⟩ := point_of_nat hdigits hn hv
    obtain ⟨c, t, rfl, hc⟩ := hdigits.head
    have hspelled : textOfNat n.natAbs = (c :: t) ++ zeros (p - (c :: t).length).toNat := by
      rw [hj, List.cons_append]
      exact toDigits_value (isDigits_append.mpr ⟨hdigits.isDigits, isDigits_zeros _⟩) hc
    rw [htext, layoutNumeral, if_pos ⟨hbehind, hnear⟩, Numeral.text, textOfInt, hspelled]
    by_cases hlt : n < 0
    · have hcast : (n : ℚ) < 0 := by exact_mod_cast hlt
      rw [if_pos hlt, if_pos (decide_eq_true hcast)]
      simp [Numeral.fracText, Numeral.expText]
    · have hcast : ¬(n : ℚ) < 0 := by exact_mod_cast hlt
      rw [if_neg hlt, if_neg (by simpa using hlt)]
      simp [Numeral.fracText, Numeral.expText]

end Lager.Util.Jcs
