import Lager.Util.JcsIdentity

/-!
# Canonical numbers are those of ECMAScript

`Number::toString` of ECMAScript is given the digits of a number and the place of its point; `_number` takes both out of
what `repr` prints. Whatever the layout `repr` chooses for them, the two write the same text.
-/

namespace Lager.Util.Jcs

open Lager.Py Lager.Lib Lager.Lib.Decimal

/-! ### The two notations -/

/-- `Number::toString` of ECMAScript for the `k` digits of a number, with the point `n` places behind their start: the
plain notation for `n` from -5 to 21, and the one with an exponent for any other. -/
def numberToString (digits : List Char) (n : Int) : List Char :=
  let k : Int := digits.length
  if -5 ≤ n ∧ n ≤ 21 then
    if k ≤ n then digits ++ zeros (n - k).toNat
    else if 0 < n then digits.take n.toNat ++ ['.'] ++ digits.drop n.toNat
    else ['0', '.'] ++ zeros (-n).toNat ++ digits
  else
    let exponentSign := if n < 0 then '-' else '+'
    let exponent := 'e' :: exponentSign :: textOfNat (n - 1).natAbs
    if k = 1 then digits ++ exponent
    else digits.take 1 ++ ['.'] ++ digits.drop 1 ++ exponent

/-- The layouts of `repr` for digits with the point `n` places behind their start: without an exponent, with at least
one digit on either side of the point, or with one digit in front of it and an exponent with a sign and any zeros. -/
inductive ReprLayout (digits : List Char) (n : Int) : List Char → Prop
  | whole (h : digits.length ≤ n) : ReprLayout digits n (digits ++ zeros (n - digits.length).toNat ++ ['.', '0'])
  | inside (hpos : 0 < n) (h : n < digits.length) :
      ReprLayout digits n (digits.take n.toNat ++ ['.'] ++ digits.drop n.toNat)
  | small (h : n ≤ 0) : ReprLayout digits n (['0', '.'] ++ zeros (-n).toNat ++ digits)
  | scientific (padding : Nat) : ReprLayout digits n (digits.take 1 ++
      (if digits.length = 1 then [] else ['.'] ++ digits.drop 1) ++ ['e', if n - 1 < 0 then '-' else '+'] ++
      zeros padding ++ textOfNat (n - 1).natAbs)

theorem layout_eq_numberToString {digits : List Char} (h : Significant digits) (n : Int) :
    layout digits n = numberToString digits n := by
  have hpos : 0 < digits.length := List.length_pos_of_ne_nil h.ne_nil
  unfold layout numberToString
  dsimp only
  by_cases hplain : -5 ≤ n ∧ n ≤ 21
  · rw [if_pos hplain]
    by_cases hwhole : (digits.length : Int) ≤ n
    · rw [if_pos ⟨hwhole, hplain.2⟩, if_pos hwhole]
    · rw [if_neg fun h => hwhole h.1, if_neg hwhole]
      by_cases hinside : 0 < n
      · rw [if_pos ⟨hinside, hplain.2⟩, if_pos hinside]
        simp
      · rw [if_neg fun h => hinside h.1, if_neg hinside, if_pos (by omega)]
        rfl
  · rw [if_neg hplain, if_neg (by omega), if_neg (by omega), if_neg (by omega)]
    have hsign : (if 0 ≤ n - 1 then '+' else '-') = if n < 0 then '-' else '+' := by
      by_cases hneg : n < 0
      · rw [if_neg (by omega), if_pos hneg]
      · rw [if_pos (by omega), if_neg hneg]
    rw [hsign]
    by_cases hone : (digits.length : Int) = 1
    · rw [if_pos hone, if_pos hone]
    · rw [if_neg hone, if_neg hone]
      simp

/-! ### Digits and point out of a layout -/

theorem lstrip_digits {digits : List Char} (h : Significant digits) (t : List Char) :
    lstrip (digits ++ t) = digits ++ t := by
  obtain ⟨c, s, rfl, hc⟩ := h.head
  exact List.dropWhile_cons_of_neg (by simpa using hc)

theorem lstrip_zeros (n : Nat) (t : List Char) : lstrip (zeros n ++ t) = lstrip t := by
  induction n with
  | zero => rfl
  | succ n ih =>
    rw [zeros, List.replicate_succ, List.cons_append]
    exact ih

theorem rstrip_digits {digits : List Char} (h : Significant digits) (n : Nat) :
    rstrip (digits ++ zeros n) = digits := by
  obtain ⟨t, d, rfl, hd⟩ := h.last
  have hstop : ¬(d == '0') = true := by simpa using hd
  have hreverse : lstrip (zeros n ++ (d :: t.reverse)) = d :: t.reverse := by
    rw [lstrip_zeros]
    exact List.dropWhile_cons_of_neg hstop
  have htext : (t ++ [d] ++ zeros n).reverse = zeros n ++ (d :: t.reverse) := by
    rw [List.reverse_append, List.reverse_append, zeros, List.reverse_replicate]
    rfl
  show (lstrip (t ++ [d] ++ zeros n).reverse).reverse = _
  rw [htext, hreverse, List.reverse_cons, List.reverse_reverse]

/-- A numeral with the digits and the point. -/
structure Shows (m : Numeral) (digits : List Char) (n : Int) : Prop where
  spelled : m.Spelled
  neg : m.neg = false
  stripped : lstrip (m.int ++ m.frac) ≠ []
  digits : rstrip (lstrip (m.int ++ m.frac)) = digits
  point : ((lstrip (m.int ++ m.frac)).length : Int) - m.frac.length + m.exponent = n

/-- A numeral whose digits are those and zeros around them. -/
theorem shows_of_digits {m : Numeral} {digits : List Char} {n : Int} (h : Significant digits) (hspelled : m.Spelled)
    (hneg : m.neg = false) {before behind : Nat} (hdigits : m.int ++ m.frac = zeros before ++ (digits ++ zeros behind))
    (hpoint : ((digits.length : Int) + behind) - m.frac.length + m.exponent = n) : Shows m digits n := by
  have hlstrip : lstrip (m.int ++ m.frac) = digits ++ zeros behind := by
    rw [hdigits, lstrip_zeros, lstrip_digits h]
  refine ⟨hspelled, hneg, ?_, ?_, ?_⟩
  · rw [hlstrip]
    exact List.append_ne_nil_of_left_ne_nil h.ne_nil _
  · rw [hlstrip, rstrip_digits h]
  · rw [hlstrip, List.length_append, length_zeros]
    push_cast
    exact hpoint

theorem exponent_padded (neg : Bool) (int frac : List Char) (padding e : Nat) :
    Numeral.exponent ⟨neg, int, frac, some (true, zeros padding ++ textOfNat e)⟩ = -(e : Int) ∧
      Numeral.exponent ⟨neg, int, frac, some (false, zeros padding ++ textOfNat e)⟩ = e := by
  have hvalue : value (zeros padding ++ textOfNat e) = e := by
    rw [value_append, value_zeros, Nat.zero_mul, Nat.zero_add, value_textOfNat]
  constructor
  · show -(value (zeros padding ++ textOfNat e) : Int) = _
    rw [hvalue]
  · show (value (zeros padding ++ textOfNat e) : Int) = _
    rw [hvalue]

/-- A numeral without an exponent. -/
theorem spelled_plain {neg : Bool} {int frac : List Char} (hint : IsDigits int) (hne : int ≠ []) (hfrac : IsDigits frac) :
    Numeral.Spelled ⟨neg, int, frac, none⟩ := by
  refine ⟨hint, hne, hfrac, fun sign exponent h => ?_⟩
  cases h

/-- Every layout is a numeral that shows the digits and the point. -/
theorem exists_shows {digits text : List Char} {n : Int} (h : Significant digits) (hlayout : ReprLayout digits n text) :
    ∃ m : Numeral, m.text = text ∧ Shows m digits n := by
  have hpos : 0 < digits.length := List.length_pos_of_ne_nil h.ne_nil
  have htake : ∀ k, IsDigits (digits.take k) := fun k c hc => h.isDigits c (List.mem_of_mem_take hc)
  have hdrop : ∀ k, IsDigits (digits.drop k) := fun k c hc => h.isDigits c (List.mem_of_mem_drop hc)
  cases hlayout with
  | whole hbehind =>
    refine ⟨⟨false, digits ++ zeros (n - digits.length).toNat, ['0'], none⟩, ?_, @shows_of_digits _ _ _ h
      (spelled_plain (isDigits_append.mpr ⟨h.isDigits, isDigits_zeros _⟩) ?_ (isDigits_zeros 1)) rfl 0
      ((n - digits.length).toNat + 1) ?_ ?_⟩
    · simp [Numeral.text, Numeral.fracText, Numeral.expText]
    · exact List.append_ne_nil_of_left_ne_nil h.ne_nil _
    · show digits ++ zeros _ ++ zeros 1 = digits ++ zeros _
      rw [List.append_assoc, zeros, zeros, ← List.replicate_add]
      rfl
    · simp only [List.length_singleton, Numeral.exponent]
      omega
  | inside hin h' =>
    refine ⟨⟨false, digits.take n.toNat, digits.drop n.toNat, none⟩, ?_, @shows_of_digits _ _ _ h
      (spelled_plain (htake _) ?_ (hdrop _)) rfl 0 0 ?_ ?_⟩
    · have hne : digits.drop n.toNat ≠ [] := by
        rw [Ne, List.drop_eq_nil_iff]
        omega
      rw [Numeral.text, fracText_of_ne_nil hne]
      simp [Numeral.expText]
    · rw [Ne, List.take_eq_nil_iff]
      exact not_or.mpr ⟨by omega, h.ne_nil⟩
    · rw [List.take_append_drop]
      exact (List.append_nil digits).symm
    · simp only [List.length_drop, Numeral.exponent]
      omega
  | small hle =>
    refine ⟨⟨false, ['0'], zeros (-n).toNat ++ digits, none⟩, ?_, @shows_of_digits _ _ _ h
      (spelled_plain (isDigits_zeros 1) (by simp) (isDigits_append.mpr ⟨isDigits_zeros _, h.isDigits⟩)) rfl ((-n).toNat + 1) 0 ?_ ?_⟩
    · have hne : zeros (-n).toNat ++ digits ≠ [] := List.append_ne_nil_of_right_ne_nil _ h.ne_nil
      rw [Numeral.text, fracText_of_ne_nil hne]
      simp [Numeral.expText]
    · show '0' :: (zeros (-n).toNat ++ digits) = zeros ((-n).toNat + 1) ++ (digits ++ [])
      rw [List.append_nil, zeros, zeros, List.replicate_succ, List.cons_append]
    · simp only [List.length_append, length_zeros, Numeral.exponent]
      omega
  | scientific padding =>
    have hexp := exponent_padded false (digits.take 1) (digits.drop 1) padding (n - 1).natAbs
    refine ⟨⟨false, digits.take 1, digits.drop 1,
      some (decide (n - 1 < 0), zeros padding ++ textOfNat (n - 1).natAbs)⟩, ?_,
      @shows_of_digits _ _ _ h ⟨htake 1, ?_, hdrop 1, ?_⟩ rfl 0 0 ?_ ?_⟩
    · have hfrac : Numeral.fracText (digits.drop 1) = if digits.length = 1 then [] else ['.'] ++ digits.drop 1 := by
        by_cases hone : digits.length = 1
        · rw [if_pos hone, List.drop_eq_nil_of_le (by omega)]
          rfl
        · rw [if_neg hone, fracText_of_ne_nil]
          · rfl
          · rw [Ne, List.drop_eq_nil_iff]
            omega
      rw [Numeral.text, hfrac]
      by_cases hneg : n - 1 < 0
      · rw [decide_eq_true hneg, if_pos hneg]
        simp [Numeral.expText]
      · rw [decide_eq_false hneg, if_neg hneg]
        simp [Numeral.expText]
    · rw [Ne, List.take_eq_nil_iff]
      exact not_or.mpr ⟨by decide, h.ne_nil⟩
    · rintro neg e ⟨⟩
      exact ⟨isDigits_append.mpr ⟨isDigits_zeros _, isDigits_textOfNat _⟩,
        List.append_ne_nil_of_right_ne_nil _ (textOfNat_ne_nil _)⟩
    · rw [List.take_append_drop]
      exact (List.append_nil digits).symm
    · by_cases hneg : n - 1 < 0
      · rw [decide_eq_true hneg, hexp.1, List.length_drop]
        omega
      · rw [decide_eq_false hneg, hexp.2, List.length_drop]
        omega

/-! ### The result -/

/-- **Canonical numbers follow ECMAScript.** Whatever layout `repr` has for the digits and the point of a double other
than zero, `_number` writes what `Number::toString` does for them, and no other double is written so. -/
theorem number_eq_numberToString (F : FloatSyntax) {q : ℚ} (hq : IsDouble q) (hne : q ≠ 0) {digits : List Char}
    {n : Int} (hdigits : Significant digits) (hrepr : ReprLayout digits n (F.repr |q|)) :
    number F (.fin q) = .ok ((if q < 0 then ['-'] else []) ++ numberToString digits n) ∧
      ∀ r, IsDouble r → r ≠ q → number F (.fin r) ≠ number F (.fin q) := by
  obtain ⟨m, htext, hshows⟩ := exists_shows hdigits hrepr
  refine ⟨?_, fun r hr hother hsame => hother ?_⟩
  · rw [number_of_repr hne hshows.spelled hshows.neg htext.symm hshows.stripped, hshows.digits, hshows.point,
      layout_eq_numberToString hdigits]
  · obtain ⟨a, ha, hplain, hnumber, hread⟩ := number_spec (F := F) hr
    obtain ⟨b, hb, hplain', hnumber', hread'⟩ := number_spec (F := F) hq
    rw [hnumber, hnumber'] at hsame
    have hscan := @scan_text a ha hplain [] nofun
    rw [List.append_nil, Except.ok.inj hsame, ← List.append_nil b.text, @scan_text b hb hplain' [] nofun] at hscan
    have hnumerals : b = a := (Prod.mk.inj (Option.some.inj hscan)).1
    rw [← hnumerals, hread'] at hread
    exact (PyFloat.fin.inj hread).symm

/-- A double that `repr` prints with an exponent, and ECMAScript without. -/
theorem number_largeDouble : number largeSyntax (.fin largeDouble) = .ok "123456789012345680000".toList := by
  have hpos : (0 : ℚ) < largeDouble := by norm_num [largeDouble]
  have hdigits : Significant "12345678901234568".toList :=
    ⟨forall_char_mem (by decide), ⟨'1', "2345678901234568".toList, rfl, by decide⟩,
      ⟨"1234567890123456".toList, '8', rfl, by decide⟩⟩
  have hrepr : ReprLayout "12345678901234568".toList 21 (largeSyntax.repr |largeDouble|) := by
    rw [abs_of_pos hpos]
    exact ReprLayout.scientific 0
  have hnumber := (number_eq_numberToString largeSyntax isDouble_large hpos.ne' hdigits hrepr).1
  rw [if_neg (not_lt.mpr hpos.le)] at hnumber
  exact hnumber

end Lager.Util.Jcs
