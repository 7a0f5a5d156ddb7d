import Lager.Py.Lossy
import Lager.Py.Loads
import Mathlib.Data.List.SplitBy

/-!
# `urllib.parse.quote` and `unquote`

`quote` with `safe=''`: every byte of the text that is not a letter, a digit or one of `_.-~` becomes a percent sign
and two hexadecimal digits. `unquote` takes the escapes of each run of ASCII characters back and decodes the run,
broken bytes replaced. What was quoted is read as it was.
-/

namespace Lager.Py.Url

/-- `_ALWAYS_SAFE` -/
def isAlwaysSafe (c : Char) : Bool :=
  let n := c.toNat
  decide ((65 ≤ n ∧ n ≤ 90) ∨ (97 ≤ n ∧ n ≤ 122) ∨ (48 ≤ n ∧ n ≤ 57) ∨ c = '_' ∨ c = '.' ∨ c = '-' ∨ c = '~')

def upperHexDigit (n : Nat) : Char := "0123456789ABCDEF".toList.getD n '0'

/-- `'%{:02X}'.format(b)` -/
def percent (b : UInt8) : List Char := ['%', upperHexDigit (b.toNat / 16), upperHexDigit (b.toNat % 16)]

/-- `_Quoter.__missing__` -/
def quoteByte (b : UInt8) : List Char :=
  if isAlwaysSafe (Char.ofNat b.toNat) then [Char.ofNat b.toNat] else percent b

def quote (text : List Char) : List Char := (encode text).flatMap quoteByte

/-- `_hextobyte`, of the two characters behind a percent sign. -/
def hexToByte (high low : Char) : Option UInt8 := do
  let high ← hexDigit? high
  let low ← hexDigit? low
  some (16 * high + low).toUInt8

/-- `unquote_to_bytes` of ASCII characters. A percent sign without two digits stays. -/
def unquoteToBytes : List Char → Bytes
  | c :: high :: low :: rest =>
    match if c = '%' then hexToByte high low else none with
    | some b => b :: unquoteToBytes rest
    | none => c.toNat.toUInt8 :: unquoteToBytes (high :: low :: rest)
  | c :: rest => c.toNat.toUInt8 :: unquoteToBytes rest
  | [] => []

def isAscii (c : Char) : Bool := decide (c.toNat < 128)

/-- A run of ASCII characters, or of others. -/
def unquoteRun (run : List Char) : List Char :=
  if run.all isAscii then decodeReplace (unquoteToBytes run) else run

def unquote (text : List Char) : List Char :=
  if '%' ∉ text then text else (text.splitBy fun a b => isAscii a == isAscii b).flatMap unquoteRun

/-! ### What `quote` writes -/

theorem upperHexDigit_ascii : ∀ n < 16, 48 ≤ (upperHexDigit n).toNat ∧ (upperHexDigit n).toNat < 128 := by decide

theorem hexDigit?_upperHexDigit : ∀ n < 16, hexDigit? (upperHexDigit n) = some n := by decide

theorem isAlwaysSafe_bounds {c : Char} (h : isAlwaysSafe c = true) : 45 ≤ c.toNat ∧ c.toNat < 128 := by
  simp only [isAlwaysSafe, decide_eq_true_eq] at h
  rcases h with h | h | h | rfl | rfl | rfl | rfl
  iterate 3 omega
  all_goals decide

theorem ne_percent_of_isAlwaysSafe {c : Char} (h : isAlwaysSafe c = true) : c ≠ '%' := by
  rintro rfl
  exact absurd h (by decide)

/-- The first 256 characters are the bytes. -/
theorem toNat_ofNat_byte (b : UInt8) : (Char.ofNat b.toNat).toNat = b.toNat := by
  have hb := b.toNat_lt
  have hvalid : b.toNat.isValidChar := Or.inl (by omega)
  rw [Char.ofNat, dif_pos hvalid]
  rfl

/-- A quoted text has printing ASCII characters only. -/
theorem mem_quote {text : List Char} {c : Char} (h : c ∈ quote text) : 37 ≤ c.toNat ∧ c.toNat < 128 := by
  rw [quote, List.mem_flatMap] at h
  obtain ⟨b, -, hc⟩ := h
  rw [quoteByte] at hc
  split_ifs at hc with hsafe
  · rw [List.mem_singleton.mp hc]
    have hbounds := isAlwaysSafe_bounds hsafe
    omega
  · have hb := b.toNat_lt
    have hhigh := upperHexDigit_ascii (b.toNat / 16) (by omega)
    have hlow := upperHexDigit_ascii (b.toNat % 16) (by omega)
    simp only [percent, List.mem_cons, List.not_mem_nil, or_false] at hc
    rcases hc with rfl | rfl | rfl
    · decide
    · omega
    · omega

theorem quote_append (s t : List Char) : quote (s ++ t) = quote s ++ quote t := by
  rw [quote, encode_append, List.flatMap_append]
  rfl

theorem quote_safe_char {c : Char} (h : isAlwaysSafe c = true) : quote [c] = [c] := by
  have hbounds := isAlwaysSafe_bounds h
  rw [quote, encode_ascii hbounds.2, List.flatMap_singleton, quoteByte, toNat_toUInt8 (by omega), Char.ofNat_toNat,
    if_pos h]

theorem quote_ne_nil {text : List Char} (h : text ≠ []) : quote text ≠ [] := by
  obtain ⟨c, rest, rfl⟩ := List.exists_cons_of_ne_nil h
  obtain ⟨lead, more, hchar, -⟩ := exists_utf8EncodeChar c
  intro hnil
  have hquote : quoteByte lead = [] := by
    rw [quote, encode, List.flatMap_cons, hchar, List.cons_append, List.flatMap_cons, List.append_eq_nil_iff] at hnil
    exact hnil.1
  rw [quoteByte] at hquote
  split_ifs at hquote
  cases hquote

/-- A character that is not safe is escaped from its first byte on. -/
theorem quote_unsafe_char {c : Char} (h : isAlwaysSafe c = false) : ∃ b more, quote [c] = percent b ++ more := by
  obtain ⟨lead, more, hchar, hlength⟩ := exists_utf8EncodeChar c
  have hencode : encode [c] = lead :: more := by
    rw [encode, List.flatMap_singleton, hchar]
  refine ⟨lead, more.flatMap quoteByte, ?_⟩
  have hlead : isAlwaysSafe (Char.ofNat lead.toNat) = false := by
    rw [Bool.eq_false_iff]
    intro hsafe
    have hascii : lead.toNat < 128 := toNat_ofNat_byte lead ▸ (isAlwaysSafe_bounds hsafe).2
    have hdecode := decode_encode [c]
    rw [hencode, decode_cons_ascii more hascii, Option.map_eq_some_iff] at hdecode
    obtain ⟨rest, -, hcons⟩ := hdecode
    rw [(List.cons.inj hcons).1, h] at hsafe
    cases hsafe
  rw [quote, hencode, List.flatMap_cons, quoteByte, hlead, if_neg Bool.false_ne_true]

theorem length_quote (text : List Char) : text.length ≤ (quote text).length := by
  induction text with
  | nil => exact Nat.zero_le _
  | cons c text ih =>
    have hchar : 0 < (quote [c]).length := List.length_pos_of_ne_nil (quote_ne_nil (List.cons_ne_nil c []))
    rw [← List.singleton_append, quote_append, List.length_append, List.length_append, List.length_singleton]
    omega

/-- A text that `quote` leaves as it is has nothing to escape in it. -/
theorem quote_eq_self_iff (text : List Char) : quote text = text ↔ ∀ c ∈ text, isAlwaysSafe c = true := by
  constructor
  · intro h c hc
    by_contra hunsafe
    obtain ⟨s, t, rfl⟩ := List.append_of_mem hc
    obtain ⟨b, more, hescape⟩ := quote_unsafe_char (Bool.eq_false_iff.mpr hunsafe)
    have hlength := congrArg List.length h
    rw [quote_append, ← List.singleton_append, quote_append, hescape] at hlength
    simp only [percent, List.length_append, List.length_cons, List.length_nil] at hlength
    have hs := length_quote s
    have ht := length_quote t
    omega
  · intro h
    induction text with
    | nil => rfl
    | cons c text ih =>
      rw [← List.singleton_append, quote_append, quote_safe_char (h c List.mem_cons_self),
        ih fun d hd => h d (List.mem_cons_of_mem c hd)]

/-! ### The round trip -/

theorem unquoteToBytes_cons {c : Char} (h : c ≠ '%') (rest : List Char) :
    unquoteToBytes (c :: rest) = c.toNat.toUInt8 :: unquoteToBytes rest := by
  match rest with
  | [] => rfl
  | [_] => rfl
  | high :: low :: rest => rw [unquoteToBytes, if_neg h]

theorem unquoteToBytes_percent (b : UInt8) (rest : List Char) :
    unquoteToBytes (percent b ++ rest) = b :: unquoteToBytes rest := by
  have hb := b.toNat_lt
  have hbyte : hexToByte (upperHexDigit (b.toNat / 16)) (upperHexDigit (b.toNat % 16)) = some b := by
    rw [hexToByte, hexDigit?_upperHexDigit _ (by omega), hexDigit?_upperHexDigit _ (by omega)]
    show some (16 * (b.toNat / 16) + b.toNat % 16).toUInt8 = some b
    rw [Nat.div_add_mod]
    exact congrArg some (UInt8.ofNat_toNat)
  show unquoteToBytes ('%' :: _ :: _ :: rest) = _
  rw [unquoteToBytes, if_pos rfl, hbyte]

theorem unquoteToBytes_quoteByte (b : UInt8) (rest : List Char) :
    unquoteToBytes (quoteByte b ++ rest) = b :: unquoteToBytes rest := by
  rw [quoteByte]
  split_ifs with hsafe
  · rw [List.singleton_append, unquoteToBytes_cons (ne_percent_of_isAlwaysSafe hsafe), toNat_ofNat_byte]
    exact congrArg (· :: unquoteToBytes rest) UInt8.ofNat_toNat
  · exact unquoteToBytes_percent b rest

theorem unquoteToBytes_quote (text : List Char) : unquoteToBytes (quote text) = encode text := by
  rw [quote]
  induction encode text with
  | nil => rfl
  | cons b bytes ih => rw [List.flatMap_cons, unquoteToBytes_quoteByte, ih]

theorem quote_eq_self_of_percent_notMem {text : List Char} (h : '%' ∉ quote text) : quote text = text := by
  rw [quote_eq_self_iff]
  intro c hc
  by_contra hunsafe
  obtain ⟨s, t, rfl⟩ := List.append_of_mem hc
  obtain ⟨b, more, hescape⟩ := quote_unsafe_char (Bool.eq_false_iff.mpr hunsafe)
  rw [quote_append, ← List.singleton_append, quote_append, hescape] at h
  simp [percent] at h

/-- **What was quoted is read as it was.** -/
theorem unquote_quote (text : List Char) : unquote (quote text) = text := by
  rw [unquote]
  split_ifs with hpercent
  · have hne : quote text ≠ [] := List.ne_nil_of_mem hpercent
    have hascii : ∀ c ∈ quote text, isAscii c = true := fun c hc => decide_eq_true (mem_quote hc).2
    have hone : (quote text).IsChain fun a b => isAscii a == isAscii b := by
      apply List.Pairwise.isChain
      apply List.pairwise_of_forall_mem_list
      intro a ha b hb
      rw [hascii a ha, hascii b hb]
      rfl
    rw [List.splitBy_of_isChain hne hone, List.flatMap_singleton, unquoteRun, if_pos (List.all_eq_true.mpr hascii),
      unquoteToBytes_quote, decodeReplace_encode]
  · exact quote_eq_self_of_percent_notMem hpercent

end Lager.Py.Url
