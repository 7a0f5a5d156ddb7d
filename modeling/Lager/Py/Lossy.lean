import Lager.Py.Text

/-!
# `bytes.decode('utf-8', errors='replace')`

Bytes that begin no character are replaced: each longest start of a character that breaks off becomes one U+FFFD.
What `encode` wrote is read as it was.
-/

namespace Lager.Py

/-- The number of bytes that the first byte announces. -/
def sequenceLength (lead : UInt8) : Nat :=
  if lead.toNat < 0x80 then 1 else if lead.toNat < 0xE0 then 2 else if lead.toNat < 0xF0 then 3 else 4

/-- The character that the bytes begin with. -/
def decodeFirst (bytes : Bytes) : Option Char :=
  match bytes with
  | [] => none
  | lead :: _ =>
    match decode (bytes.take (sequenceLength lead)) with
    | some [c] => some c
    | _ => none

/-- Whether a second byte can follow the first one in a character of three or four bytes. -/
def canFollow (lead second : UInt8) : Bool :=
  let low := if lead = 0xE0 then 0xA0 else if lead = 0xF0 then 0x90 else 0x80
  let high := if lead = 0xED then 0x9F else if lead = 0xF4 then 0x8F else 0xBF
  decide (0xE0 ≤ lead ∧ lead ≤ 0xF4 ∧ low ≤ second ∧ second ≤ high)

/-- The number of bytes that are replaced where no character begins. -/
def brokenLength : Bytes → Nat
  | lead :: second :: third :: _ =>
    if canFollow lead second then if 0xF0 ≤ lead ∧ (continuation third).isSome then 3 else 2 else 1
  | [lead, second] => if canFollow lead second then 2 else 1
  | _ => 1

/-- The bytes after the first character or the first replaced ones. -/
def afterFirst (bytes : Bytes) : Bytes :=
  match bytes with
  | [] => []
  | lead :: _ =>
    match decodeFirst bytes with
    | some _ => bytes.drop (sequenceLength lead)
    | none => bytes.drop (brokenLength bytes)

theorem sequenceLength_pos (lead : UInt8) : 0 < sequenceLength lead := by
  unfold sequenceLength
  split_ifs <;> omega

theorem brokenLength_pos (bytes : Bytes) : 0 < brokenLength bytes := by
  unfold brokenLength
  split
  · split_ifs <;> omega
  · split_ifs <;> omega
  · exact Nat.one_pos

theorem length_afterFirst {bytes : Bytes} (h : bytes ≠ []) : (afterFirst bytes).length < bytes.length := by
  cases bytes with
  | nil => exact absurd rfl h
  | cons lead rest =>
    have hdrop : ∀ n, 0 < n → ((lead :: rest).drop n).length < (lead :: rest).length := fun n hn => by
      rw [List.length_drop, List.length_cons]
      omega
    unfold afterFirst
    dsimp only
    cases decodeFirst (lead :: rest) with
    | none => exact hdrop _ (brokenLength_pos _)
    | some c => exact hdrop _ (sequenceLength_pos _)

def decodeReplace (bytes : Bytes) : List Char :=
  if h : bytes = [] then []
  else (decodeFirst bytes).getD (Char.ofNat 0xFFFD) :: decodeReplace (afterFirst bytes)
termination_by bytes.length
decreasing_by exact length_afterFirst h

/-- The first byte of a character announces its bytes. -/
theorem exists_utf8EncodeChar (c : Char) : ∃ lead more, String.utf8EncodeChar c = lead :: more ∧
    sequenceLength lead = (String.utf8EncodeChar c).length := by
  have hvalid : c.toNat < 0xD800 ∨ (0xDFFF < c.toNat ∧ c.toNat < 0x110000) := c.valid
  have hval : c.val.toNat = c.toNat := rfl
  have hlength : ∀ n, n < 256 → sequenceLength (UInt8.ofNat n) =
      if n < 0x80 then 1 else if n < 0xE0 then 2 else if n < 0xF0 then 3 else 4 := fun n hn => by
    rw [sequenceLength, UInt8.toNat_ofNat', Nat.mod_eq_of_lt hn]
  show ∃ lead more, (if c.toNat ≤ 0x7f then _ else if c.toNat ≤ 0x7ff then _ else if c.toNat ≤ 0xffff then _ else _) =
    lead :: more ∧ sequenceLength lead =
      (if c.toNat ≤ 0x7f then _ else if c.toNat ≤ 0x7ff then _ else if c.toNat ≤ 0xffff then _ else _ : Bytes).length
  split_ifs with h1 h2 h3
  · refine ⟨_, _, rfl, ?_⟩
    rw [hlength _ (by omega), if_pos (by omega)]
    rfl
  · refine ⟨_, _, rfl, ?_⟩
    rw [hlength _ (by omega), if_neg (by omega), if_pos (by omega)]
    rfl
  · refine ⟨_, _, rfl, ?_⟩
    rw [hlength _ (by omega), if_neg (by omega), if_neg (by omega), if_pos (by omega)]
    rfl
  · refine ⟨_, _, rfl, ?_⟩
    rw [hlength _ (by omega), if_neg (by omega), if_neg (by omega), if_neg (by omega)]
    rfl

theorem decodeReplace_utf8EncodeChar (c : Char) (rest : Bytes) :
    decodeReplace (String.utf8EncodeChar c ++ rest) = c :: decodeReplace rest := by
  obtain ⟨lead, more, hchar, hlength⟩ := exists_utf8EncodeChar c
  have hdecode : decode (String.utf8EncodeChar c) = some [c] := by
    have hself := decode_utf8EncodeChar c []
    rwa [List.append_nil] at hself
  have hfirst : decodeFirst (String.utf8EncodeChar c ++ rest) = some c := by
    rw [hchar, List.cons_append, decodeFirst, ← List.cons_append, ← hchar, hlength, List.take_left, hdecode]
  have hafter : afterFirst (String.utf8EncodeChar c ++ rest) = rest := by
    rw [hchar, List.cons_append] at hfirst ⊢
    rw [afterFirst, hfirst]
    dsimp only
    rw [← List.cons_append, ← hchar, hlength, List.drop_left]
  have hne : String.utf8EncodeChar c ++ rest ≠ [] := by
    rw [hchar]
    nofun
  rw [decodeReplace, dif_neg hne, hfirst, hafter, Option.getD_some]

theorem decodeReplace_encode (s : List Char) : decodeReplace (encode s) = s := by
  induction s with
  | nil => rw [encode, List.flatMap_nil, decodeReplace, dif_pos rfl]
  | cons c s ih =>
    show decodeReplace (String.utf8EncodeChar c ++ encode s) = _
    rw [decodeReplace_utf8EncodeChar, ih]

end Lager.Py
