import Lager.Lib.Bytes
import Mathlib.Data.List.Basic

/-!
# Replies over USB-TMC

`UsbTmc` of `daemon/src/oscilloscope/rigol/scpi.rs`. The device is what its two endpoints answer: whether the `n`th
request is taken, and what the `n`th read would bring if there were room for all of it. A reply comes in transfers,
each asked for with the next tag; a transfer comes in reads, the first of which begins with its header.

Slices and subtractions are the checked ones of Rust. What is left out is what happens after a reply has failed:
`recover`, and the count of failures in a row.
-/

namespace Lager.Scope.UsbTmc

open Lager.Lib

def DEV_DEP_MSG_IN : UInt8 := 2
def HEADER : Nat := 12
def EOM : UInt8 := 1
def READ_CHUNK : Nat := 2 ^ 20
def MAX_MESSAGE_BYTES : Nat := 64 * 2 ^ 20
def MAX_DISCARDED_READS : Nat := 32

inductive TmcError where
  | short (got : Nat)
  | messageId (got : UInt8)
  | tagged (got tag : UInt8)
  | bulk
  | truncated (have_ announced : Nat)
  | tooLong
  deriving DecidableEq

inductive Failure where
  | panic
  | error (e : TmcError)
  deriving DecidableEq

/-- `Tag::next`. -/
def nextTag (tag : UInt8) : UInt8 := if tag = 255 then 1 else tag + 1

structure InHeader where
  length : Nat
  endOfMessage : Bool
  deriving DecidableEq

def parseInHeader (tag : UInt8) (header : List UInt8) : Except TmcError InHeader :=
  match header with
  | b0 :: b1 :: b2 :: _ :: b4 :: b5 :: b6 :: b7 :: b8 :: _ :: _ :: _ :: _ =>
    if b0 ≠ DEV_DEP_MSG_IN then .error (.messageId b0)
    else if b1 ≠ tag ∨ b2 ≠ ~~~tag then .error (.tagged b1 tag)
    else .ok ⟨leNat [b4, b5, b6, b7], decide (b8 &&& EOM ≠ 0)⟩
  | short => .error (.short short.length)

/-! ### The endpoints -/

structure Bulk where
  bulkOut : Nat → Bool
  bulkIn : Nat → Option (List UInt8)
  maxPacket : Nat

/-- The last tag used, and how many requests and reads there have been. -/
structure Link where
  tag : UInt8
  outs : Nat
  ins : Nat
  deriving DecidableEq

/-- What a read leaves: the buffer, the number of bytes it brought, and the link. -/
structure Read where
  buffer : List UInt8
  got : Nat
  link : Link

def writeAt (buffer : List UInt8) (start : Nat) (bytes : List UInt8) : List UInt8 :=
  buffer.take start ++ bytes ++ buffer.drop (start + bytes.length)

/-- `bulk_in(&mut buffer[start..], timeout)`. -/
def bulkIn (b : Bulk) (link : Link) (buffer : List UInt8) (start : Nat) : Except Failure Read :=
  if start ≤ buffer.length then
    match b.bulkIn link.ins with
    | some bytes =>
      let got := bytes.take (buffer.length - start)
      .ok ⟨writeAt buffer start got, got.length, { link with ins := link.ins + 1 }⟩
    | none => .error (.error .bulk)
  else .error .panic

/-! ### One transfer -/

/-- The loop that discards what comes ahead of the reply; `left` reads may still be discarded. -/
def awaitHeader (b : Bulk) (tag : UInt8) : Nat → Read → Except Failure (InHeader × Read)
  | left, r =>
    if r.got ≤ r.buffer.length then
      match parseInHeader tag (r.buffer.take r.got), left with
      | .ok header, _ => .ok (header, r)
      | .error e, 0 => .error (.error e)
      | .error _, left + 1 =>
        match bulkIn b r.link r.buffer 0 with
        | .ok r' => awaitHeader b tag left r'
        | .error e => .error e
    else .error .panic

theorem bulkIn_got_le {b : Bulk} {link : Link} {buffer : List UInt8} {start : Nat} {r : Read}
    (h : bulkIn b link buffer start = .ok r) : r.got ≤ buffer.length - start := by
  unfold bulkIn at h
  split_ifs at h with hstart
  cases hin : b.bulkIn link.ins with
  | none => simp [hin] at h
  | some bytes =>
    simp only [hin, Except.ok.injEq] at h
    subst h
    exact List.length_take_le _ _

/-- The loop that reads the packets after the first: `have_` bytes of data are in the buffer, and the last read
brought `last`. -/
def fill (b : Bulk) (packet length : Nat) (have_ last : Nat) (buffer : List UInt8) (link : Link) :
    Except Failure (Nat × List UInt8 × Link) :=
  if have_ < length ∧ 0 < last ∧ last % packet = 0 then
    match bulkIn b link buffer (HEADER + have_) with
    | .ok r => fill b packet length (have_ + r.got) r.got r.buffer r.link
    | .error e => .error e
  else .ok (have_, buffer, link)
  termination_by 2 * (length - have_) + min last 1
  decreasing_by omega

/-- The end of `read_transfer`, once the header is in the buffer. -/
def finishTransfer (b : Bulk) (packet : Nat) (into : List UInt8) (header : InHeader) (r : Read) :
    Except Failure (Bool × List UInt8 × Link) :=
  if r.got < HEADER then .error .panic
  else
    match fill b packet header.length (r.got - HEADER) r.got r.buffer r.link with
    | .ok (have_, buffer, link) =>
      if have_ < header.length then .error (.error (.truncated have_ header.length))
      else if buffer.length < HEADER + header.length then .error .panic
      else .ok (header.endOfMessage, into ++ sub buffer HEADER header.length, link)
    | .error e => .error e

/-- `read_transfer`: whether the transfer ends the message, and what has been collected with it. -/
def readTransfer (b : Bulk) (maxTransfer : Nat) (link : Link) (into : List UInt8) :
    Except Failure (Bool × List UInt8 × Link) :=
  let tag := nextTag link.tag
  if b.bulkOut link.outs then
    let packet := max b.maxPacket 64
    let buffer := List.replicate (HEADER + maxTransfer + packet) 0
    let first := bulkIn b { link with tag := tag, outs := link.outs + 1 } buffer 0
    let answer := first >>= awaitHeader b tag MAX_DISCARDED_READS
    match answer with
    | .ok (header, r) => finishTransfer b packet into header r
    | .error e => .error e
  else .error (.error .bulk)

/-! ### A whole message -/

/-- The loop of `read_whole_message`, for at most as many turns as `fuel`. -/
def readWholeMessage (b : Bulk) (maxTransfer : Nat) : Nat → Link → List UInt8 →
    Option (Except Failure (List UInt8 × Link))
  | 0, _, _ => none
  | fuel + 1, link, message =>
    if message.length < MAX_MESSAGE_BYTES then
      match readTransfer b maxTransfer link message with
      | .ok (true, message, link) => some (.ok (message, link))
      | .ok (false, message, link) => readWholeMessage b maxTransfer fuel link message
      | .error e => some (.error e)
    else some (.error (.error .tooLong))

theorem readWholeMessage_mono {b : Bulk} {maxTransfer : Nat} {r : Except Failure (List UInt8 × Link)} {fuel : Nat} :
    ∀ {link : Link} {message : List UInt8}, readWholeMessage b maxTransfer fuel link message = some r →
      ∀ {fuel'}, fuel ≤ fuel' → readWholeMessage b maxTransfer fuel' link message = some r := by
  induction fuel with
  | zero =>
    intro link message h
    cases h
  | succ fuel ih =>
    intro link message h fuel' hle
    obtain ⟨fuel', rfl⟩ : ∃ k, fuel' = k + 1 := ⟨fuel' - 1, by omega⟩
    rw [readWholeMessage] at h ⊢
    by_cases hlen : message.length < MAX_MESSAGE_BYTES
    · rw [if_pos hlen] at h ⊢
      cases hread : readTransfer b maxTransfer link message with
      | error e => simpa [hread] using h
      | ok v =>
        obtain ⟨endOfMessage, message', link'⟩ := v
        cases endOfMessage with
        | true => simpa [hread] using h
        | false =>
          rw [hread] at h
          exact ih h (by omega)
    · rwa [if_neg hlen] at h ⊢

/-- The fuel does not decide the result. -/
theorem readWholeMessage_det {b : Bulk} {maxTransfer fuel fuel' : Nat} {link : Link} {message : List UInt8}
    {r r' : Except Failure (List UInt8 × Link)} (h : readWholeMessage b maxTransfer fuel link message = some r)
    (h' : readWholeMessage b maxTransfer fuel' link message = some r') : r = r' := by
  have h1 := readWholeMessage_mono h (Nat.le_max_left fuel fuel')
  have h2 := readWholeMessage_mono h' (Nat.le_max_right fuel fuel')
  rw [h1] at h2
  exact Option.some.inj h2

/-! ### Headers -/

/-- No header for the request with this tag begins here. -/
def NotHeader (tag : UInt8) (bytes : List UInt8) : Prop := ∀ header, parseInHeader tag bytes ≠ .ok header

theorem parseInHeader_append {tag : UInt8} {header : List UInt8} (h : header.length = HEADER) (rest : List UInt8) :
    parseInHeader tag (header ++ rest) = parseInHeader tag header := by
  match header, h with
  | [_, _, _, _, _, _, _, _, _, _, _, _], _ => rfl

theorem parseInHeader_ok_length {tag : UInt8} {bytes : List UInt8} {header : InHeader}
    (h : parseInHeader tag bytes = .ok header) : HEADER ≤ bytes.length := by
  unfold parseInHeader at h
  split at h
  · simp [HEADER]
  · cases h

theorem parseInHeader_take {tag : UInt8} {n : Nat} (hn : HEADER ≤ n) (bytes : List UInt8) (header : InHeader) :
    parseInHeader tag (bytes.take n) = .ok header ↔ parseInHeader tag bytes = .ok header := by
  by_cases hlen : bytes.length ≤ n
  · rw [List.take_of_length_le hlen]
  · have hfirst : (bytes.take HEADER).length = HEADER := by
      rw [List.length_take]
      omega
    have hsplit : bytes.take n = bytes.take HEADER ++ (bytes.take n).drop HEADER := by
      rw [← List.take_append_drop HEADER (bytes.take n), List.take_take, Nat.min_eq_left hn, List.drop_left' hfirst]
    rw [hsplit, parseInHeader_append hfirst, ← parseInHeader_append hfirst (bytes.drop HEADER), List.take_append_drop]

theorem notHeader_of_short {tag : UInt8} {bytes : List UInt8} (h : bytes.length < HEADER) : NotHeader tag bytes :=
  fun _ hok => absurd (parseInHeader_ok_length hok) (by omega)

/-! ### Reads into the buffer -/

theorem length_writeAt {buffer bytes : List UInt8} {start : Nat} (h : start + bytes.length ≤ buffer.length) :
    (writeAt buffer start bytes).length = buffer.length := by
  simp only [writeAt, List.length_append, List.length_take, List.length_drop]
  omega

theorem take_writeAt {buffer bytes : List UInt8} {start : Nat} (h : start ≤ buffer.length) :
    (writeAt buffer start bytes).take (start + bytes.length) = buffer.take start ++ bytes := by
  apply List.take_left'
  rw [List.length_append, List.length_take, Nat.min_eq_left h]

theorem bulkIn_eq {b : Bulk} {link : Link} {buffer bytes : List UInt8} {start : Nat} (hstart : start ≤ buffer.length)
    (h : b.bulkIn link.ins = some bytes) :
    bulkIn b link buffer start = .ok ⟨writeAt buffer start (bytes.take (buffer.length - start)),
      (bytes.take (buffer.length - start)).length, { link with ins := link.ins + 1 }⟩ := by
  unfold bulkIn
  rw [if_pos hstart, h]

theorem awaitHeader_found {b : Bulk} {tag : UInt8} {r : Read} {header : InHeader} (hgot : r.got ≤ r.buffer.length)
    (h : parseInHeader tag (r.buffer.take r.got) = .ok header) (left : Nat) :
    awaitHeader b tag left r = .ok (header, r) := by
  unfold awaitHeader
  rw [if_pos hgot, h]

theorem awaitHeader_discard {b : Bulk} {tag : UInt8} {r : Read} (hgot : r.got ≤ r.buffer.length)
    (h : NotHeader tag (r.buffer.take r.got)) (left : Nat) :
    awaitHeader b tag (left + 1) r = bulkIn b r.link r.buffer 0 >>= awaitHeader b tag left := by
  rw [awaitHeader.eq_def]
  dsimp only
  rw [if_pos hgot]
  cases hparse : parseInHeader tag (r.buffer.take r.got) with
  | ok header => exact absurd hparse (h header)
  | error e =>
    dsimp only
    cases bulkIn b r.link r.buffer 0 with
    | ok r' => rfl
    | error e => rfl

/-! ### What the device brings -/

/-- From its `n`th read on the device brings these. -/
def Supplies (b : Bulk) (n : Nat) (reads : List (List UInt8)) : Prop :=
  ∀ i bytes, reads[i]? = some bytes → b.bulkIn (n + i) = some bytes

section Supplies

variable {b : Bulk} {n : Nat} {xs ys : List (List UInt8)}

theorem Supplies.left (h : Supplies b n (xs ++ ys)) : Supplies b n xs := by
  intro i bytes hi
  refine h i bytes ?_
  rw [List.getElem?_append_left (List.getElem?_eq_some_iff.mp hi).1, hi]

theorem Supplies.right (h : Supplies b n (xs ++ ys)) : Supplies b (n + xs.length) ys := by
  intro i bytes hi
  rw [Nat.add_assoc]
  refine h (xs.length + i) bytes ?_
  rw [List.getElem?_append_right (Nat.le_add_right _ _), Nat.add_sub_cancel_left, hi]

theorem Supplies.drop (h : Supplies b n xs) (k : Nat) : Supplies b (n + k) (xs.drop k) := by
  intro i bytes hi
  rw [List.getElem?_drop] at hi
  rw [Nat.add_assoc]
  exact h (k + i) bytes hi

theorem Supplies.cons {bytes : List UInt8} (h : b.bulkIn n = some bytes) (hrest : Supplies b (n + 1) xs) :
    Supplies b n (bytes :: xs) := by
  intro i x hi
  cases i with
  | zero => exact h.trans hi
  | succ i =>
    rw [Nat.add_comm i 1, ← Nat.add_assoc]
    exact hrest i x hi

theorem Supplies.first {bytes : List UInt8} (h : Supplies b n (bytes :: xs)) : b.bulkIn n = some bytes := h 0 bytes rfl

theorem Supplies.rest {bytes : List UInt8} (h : Supplies b n (bytes :: xs)) : Supplies b (n + 1) xs := h.drop 1

end Supplies

/-- Packets that are no header are read over the start of the buffer until the header is there. -/
theorem awaitHeader_eq {b : Bulk} {tag : UInt8} {first : List UInt8} {header : InHeader}
    (hfirst : parseInHeader tag first = .ok header) (stale : List (List UInt8)) :
    ∀ (left : Nat) (link : Link) (buffer : List UInt8),
      stale.length ≤ left → (∀ bytes ∈ stale, NotHeader tag bytes) → HEADER ≤ buffer.length →
      Supplies b link.ins (stale ++ [first]) →
      ∃ buffer', (bulkIn b link buffer 0 >>= awaitHeader b tag left) = .ok (header,
          ⟨buffer', (first.take buffer.length).length, { link with ins := link.ins + stale.length + 1 }⟩) ∧
        buffer'.length = buffer.length ∧
        buffer'.take (first.take buffer.length).length = first.take buffer.length := by
  -- What a read from the start leaves: as much of the bytes as there is room for.
  have hover : ∀ (bytes buffer : List UInt8),
      (writeAt buffer 0 (bytes.take buffer.length)).length = buffer.length ∧
      (writeAt buffer 0 (bytes.take buffer.length)).take (bytes.take buffer.length).length =
        bytes.take buffer.length := by
    intro bytes buffer
    constructor
    · apply length_writeAt
      rw [List.length_take]
      omega
    · simpa using @take_writeAt buffer (bytes.take buffer.length) 0 (Nat.zero_le _)
  induction stale with
  | nil =>
    intro left link buffer _ _ hroom hsupplies
    obtain ⟨hlength, hstart⟩ := hover first buffer
    have hread := @bulkIn_eq b link buffer _ 0 (Nat.zero_le _) hsupplies.first
    rw [Nat.sub_zero] at hread
    refine ⟨_, ?_, hlength, hstart⟩
    rw [hread]
    refine awaitHeader_found ?_ ?_ left
    · rw [hlength]
      exact List.length_take_le _ _
    · rw [hstart]
      exact (parseInHeader_take hroom first header).mpr hfirst
  | cons bytes stale ih =>
    intro left link buffer hleft hnot hroom hsupplies
    obtain ⟨left, rfl⟩ : ∃ k, left = k + 1 := ⟨left - 1, by simp at hleft; omega⟩
    obtain ⟨hlength, hstart⟩ := hover bytes buffer
    have hread := @bulkIn_eq b link buffer _ 0 (Nat.zero_le _) hsupplies.first
    rw [Nat.sub_zero] at hread
    obtain ⟨buffer', heq, hlength', hstart'⟩ := ih left { link with ins := link.ins + 1 }
      (writeAt buffer 0 (bytes.take buffer.length)) (by simpa using hleft)
      (fun x hx => hnot x (List.mem_cons_of_mem _ hx)) (by rwa [hlength]) hsupplies.rest
    rw [hlength] at heq hlength' hstart'
    refine ⟨buffer', ?_, hlength', hstart'⟩
    rw [hread]
    show awaitHeader b tag (left + 1) _ = _
    have hno : NotHeader tag (bytes.take buffer.length) := fun h hok =>
      hnot bytes List.mem_cons_self h ((parseInHeader_take hroom bytes h).mp hok)
    have hgot : (bytes.take buffer.length).length ≤ (writeAt buffer 0 (bytes.take buffer.length)).length := by
      rw [hlength]
      exact List.length_take_le _ _
    have hcount : link.ins + 1 + stale.length + 1 = link.ins + (stale.length + 1) + 1 := by omega
    rw [awaitHeader_discard hgot (hstart.symm ▸ hno), List.length_cons, ← hcount]
    exact heq

end Lager.Scope.UsbTmc
