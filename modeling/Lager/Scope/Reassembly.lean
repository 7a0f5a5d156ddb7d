import Lager.Scope.UsbTmc
import Mathlib.Algebra.BigOperators.Group.List.Basic
import Mathlib.Algebra.Group.Nat.Defs
import Mathlib.Algebra.GroupWithZero.Nat

/-!
# Reading a reply back together

A device answers each request with one transfer, packet by packet: a header, the data, up to three bytes of padding,
and after a transfer that ends on a packet boundary an empty packet, or none. `read_transfer` reads until it has the
data, so padding in a packet of its own and the empty packet stay unread and come ahead of the next transfer's header,
where no packet that short is taken for one.
-/

namespace Lager.Scope.UsbTmc

open Lager.Lib

variable {p maxTransfer : Nat} {tag : UInt8}

/-! ### What the device sends -/

/-- The packets of a run of bytes, of `p` bytes each but for the last. -/
def packetsOf (p : Nat) (bytes : List UInt8) : List (List UInt8) :=
  (List.range ((bytes.length + p - 1) / p)).map fun i => sub bytes (i * p) p

structure Transfer where
  stale : List (List UInt8)
  header : List UInt8
  body : List UInt8
  padding : List UInt8
  zeroLength : Bool

def Transfer.bytes (t : Transfer) : List UInt8 := t.header ++ t.body ++ t.padding

def Transfer.packets (p : Nat) (t : Transfer) : List (List UInt8) :=
  packetsOf p t.bytes ++ if t.zeroLength ∧ t.bytes.length % p = 0 then [[]] else []

/-- The packets that hold the header and the data. -/
def Transfer.needed (p : Nat) (t : Transfer) : Nat := (HEADER + t.body.length + p - 1) / p

/-- The packets that are left when the data has been read. -/
def Transfer.leftover (p : Nat) (t : Transfer) : List (List UInt8) := (t.packets p).drop (t.needed p)

/-- `t` answers the request with this tag, after packets that do not. -/
structure Transfer.Answers (maxTransfer : Nat) (tag : UInt8) (t : Transfer) (endOfMessage : Bool) : Prop where
  length : t.header.length = HEADER
  header : parseInHeader tag t.header = .ok ⟨t.body.length, endOfMessage⟩
  body : t.body.length ≤ maxTransfer
  padding : t.padding.length ≤ 3
  stale : ∀ bytes ∈ t.stale, NotHeader tag bytes

/-- A reply from a link whose last tag is the one given: the transfers answer the requests in turn, the last ends the
message, and what comes ahead of each header, with the `pending` packets left from the transfer before, is no more than
may be discarded. -/
inductive Reply (p maxTransfer : Nat) : UInt8 → Nat → List Transfer → Prop where
  | last {tag : UInt8} {pending : Nat} {t : Transfer} (answers : t.Answers maxTransfer (nextTag tag) true)
      (few : pending + t.stale.length ≤ MAX_DISCARDED_READS) : Reply p maxTransfer tag pending [t]
  | more {tag : UInt8} {pending : Nat} {t : Transfer} {ts : List Transfer}
      (answers : t.Answers maxTransfer (nextTag tag) false) (few : pending + t.stale.length ≤ MAX_DISCARDED_READS)
      (rest : Reply p maxTransfer (nextTag tag) (t.leftover p).length ts) : Reply p maxTransfer tag pending (t :: ts)

/-- The reads by which the device delivers the transfers. -/
def delivered (p : Nat) (ts : List Transfer) : List (List UInt8) := ts.flatMap fun t => t.stale ++ t.packets p

/-- The message that the transfers carry. -/
def message (ts : List Transfer) : List UInt8 := ts.flatMap (·.body)

/-- The data that has come before the last transfer. -/
def beforeLast (ts : List Transfer) : Nat := (ts.dropLast.map (·.body.length)).sum

/-! ### Packets -/

theorem mul_needed (t : Transfer) (hp : 0 < p) : HEADER + t.body.length ≤ t.needed p * p := by
  have h := Nat.div_add_mod (HEADER + t.body.length + p - 1) p
  have hlt := Nat.mod_lt (HEADER + t.body.length + p - 1) hp
  rw [Transfer.needed, Nat.mul_comm]
  omega

theorem lt_needed_iff {t : Transfer} {i : Nat} (hp : 0 < p) : i < t.needed p ↔ i * p < HEADER + t.body.length := by
  rw [Transfer.needed, Nat.lt_iff_add_one_le, Nat.le_div_iff_mul_le hp, Nat.succ_mul]
  omega

theorem lt_count_iff {bytes : List UInt8} {i : Nat} (hp : 0 < p) :
    i < (bytes.length + p - 1) / p ↔ i * p < bytes.length := by
  rw [Nat.lt_iff_add_one_le, Nat.le_div_iff_mul_le hp, Nat.succ_mul]
  omega

theorem length_bytes {t : Transfer} (h : t.header.length = HEADER) :
    t.bytes.length = HEADER + t.body.length + t.padding.length := by
  rw [Transfer.bytes, List.length_append, List.length_append, h]

theorem packets_getElem? {t : Transfer} {i : Nat} (h : t.header.length = HEADER) (hp : 0 < p) (hi : i < t.needed p) :
    (t.packets p)[i]? = some (sub t.bytes (i * p) p) := by
  have hcount : i < (t.bytes.length + p - 1) / p := by
    rw [lt_count_iff hp, length_bytes h]
    have := (lt_needed_iff hp).mp hi
    omega
  rw [Transfer.packets, List.getElem?_append_left (by simpa [packetsOf] using hcount), packetsOf, List.getElem?_map,
    List.getElem?_range hcount]
  rfl

theorem one_le_needed (t : Transfer) (hp : 0 < p) : 0 < t.needed p := by
  rw [lt_needed_iff hp, Nat.zero_mul, HEADER]
  omega

/-- What is left of a transfer is too short for a header. -/
theorem leftover_short {t : Transfer} {endOfMessage : Bool} (h : t.Answers maxTransfer tag endOfMessage) (hp : 0 < p) :
    ∀ bytes ∈ t.leftover p, bytes.length < HEADER := by
  intro bytes hbytes
  rw [Transfer.leftover, Transfer.packets, List.drop_append] at hbytes
  rcases List.mem_append.mp hbytes with hmem | hmem
  · rw [packetsOf, ← List.map_drop] at hmem
    obtain ⟨i, hi, rfl⟩ := List.mem_map.mp hmem
    have hge : t.needed p ≤ i := by
      obtain ⟨k, hk, rfl⟩ := List.mem_drop_iff_getElem.mp hi
      simp
    have hpast : HEADER + t.body.length ≤ i * p := Nat.not_lt.mp fun hlt =>
      absurd ((lt_needed_iff hp).mpr hlt) (Nat.not_lt.mpr hge)
    have hpadding := h.padding
    have hlength := length_bytes h.length
    simp only [sub, List.length_take, List.length_drop, HEADER] at *
    omega
  · have hmem := List.mem_of_mem_drop hmem
    split_ifs at hmem
    · rw [List.mem_singleton.mp hmem]
      simp [HEADER]
    · cases hmem

/-- There is at most one such packet. -/
theorem length_leftover_le {t : Transfer} {endOfMessage : Bool} (h : t.Answers maxTransfer tag endOfMessage)
    (hp : 64 ≤ p) : (t.leftover p).length ≤ 1 := by
  have hpos : 0 < p := by omega
  have hneeded := mul_needed t hpos
  have hlength := length_bytes h.length
  have hpadding := h.padding
  have hcount : (t.bytes.length + p - 1) / p ≤ t.needed p + 1 := by
    rw [Nat.div_le_iff_le_mul_add_pred hpos, Nat.mul_add, Nat.mul_comm p (t.needed p)]
    omega
  rw [Transfer.leftover, List.length_drop, Transfer.packets, List.length_append]
  have hpackets : (packetsOf p t.bytes).length = (t.bytes.length + p - 1) / p := by simp [packetsOf]
  rw [hpackets]
  split_ifs with hzero
  · -- A transfer that ends on a boundary has no padding in a packet of its own.
    have hexact : (t.bytes.length + p - 1) / p ≤ t.needed p := by
      obtain ⟨q, hq⟩ := Nat.dvd_of_mod_eq_zero hzero.2
      have hqle : q ≤ t.needed p := by
        by_contra hlt
        have : p * (t.needed p + 1) ≤ p * q := Nat.mul_le_mul_left p (by omega)
        rw [Nat.mul_add, Nat.mul_comm p (t.needed p)] at this
        omega
      rw [Nat.div_le_iff_le_mul_add_pred hpos, hq]
      have := Nat.mul_le_mul_left p hqle
      omega
    simp only [List.length_singleton]
    omega
  · simp only [List.length_nil]
    omega

/-! ### One transfer -/

section Transfer

variable {b : Bulk}

/-- With `i` packets of a transfer read, the loop reads the others that it needs. -/
theorem fill_eq {t : Transfer} {endOfMessage : Bool} (h : t.Answers maxTransfer tag endOfMessage) (hp : 64 ≤ p)
    (k : Nat) : ∀ (i last : Nat) (buffer : List UInt8) (link : Link), 0 < i → i + k = t.needed p →
      buffer.length = HEADER + maxTransfer + p →
      buffer.take (min (i * p) t.bytes.length) = t.bytes.take (i * p) →
      (i * p ≤ t.bytes.length → last = p) →
      Supplies b link.ins ((t.packets p).drop i) →
      ∃ have_ buffer', fill b p t.body.length (min (i * p) t.bytes.length - HEADER) last buffer link =
          .ok (have_, buffer', { link with ins := link.ins + k }) ∧ t.body.length ≤ have_ ∧
        buffer'.length = HEADER + maxTransfer + p ∧
        buffer'.take (HEADER + t.body.length) = t.header ++ t.body := by
  have hpos : 0 < p := by omega
  have hbytes := length_bytes h.length
  have hpadding := h.padding
  have hbody := h.body
  induction k with
  | zero =>
    intro i last buffer link hi hneeded hbuffer htake hlast hsupplies
    have hpast : HEADER + t.body.length ≤ i * p := by
      have := mul_needed t hpos
      rwa [← hneeded] at this
    refine ⟨min (i * p) t.bytes.length - HEADER, buffer, ?_, by omega, hbuffer, ?_⟩
    · rw [fill, if_neg (by omega)]
      rfl
    · have hstart := congrArg (List.take (HEADER + t.body.length)) htake
      rw [List.take_take, List.take_take, Nat.min_eq_left (by omega), Nat.min_eq_left hpast] at hstart
      rw [hstart, Transfer.bytes, List.take_left' (by rw [List.length_append, h.length])]
  | succ k ih =>
    intro i last buffer link hi hneeded hbuffer htake hlast hsupplies
    have hmore : i * p < HEADER + t.body.length := (lt_needed_iff hpos).mp (by omega)
    have hfull : 1 * p ≤ i * p := Nat.mul_le_mul_right p hi
    have hmin : min (i * p) t.bytes.length = i * p := by omega
    have hnext : (i + 1) * p = i * p + p := Nat.succ_mul i p
    rw [hmin] at htake ⊢
    have hread : b.bulkIn link.ins = some (sub t.bytes (i * p) p) := by
      refine hsupplies 0 _ ?_
      rw [List.getElem?_drop, Nat.add_zero]
      exact packets_getElem? h.length hpos (by omega)
    have hsub : (sub t.bytes (i * p) p).length = min p (t.bytes.length - i * p) := by
      rw [sub, List.length_take, List.length_drop]
    have hroom : (sub t.bytes (i * p) p).take (buffer.length - i * p) = sub t.bytes (i * p) p := by
      apply List.take_of_length_le
      rw [hsub]
      omega
    have hstart : HEADER + (i * p - HEADER) = i * p := by
      simp only [HEADER] at *
      omega
    have hgot := @bulkIn_eq b link buffer _ (i * p) (by omega) hread
    rw [hroom] at hgot
    rw [fill, if_pos ⟨by simp only [HEADER] at *; omega, by rw [hlast (by omega)]; exact hpos,
      by rw [hlast (by omega)]; exact Nat.mod_self p⟩, hstart, hgot]
    dsimp only
    have hhave : i * p - HEADER + (sub t.bytes (i * p) p).length = min ((i + 1) * p) t.bytes.length - HEADER := by
      rw [hsub, hnext]
      simp only [HEADER] at *
      omega
    have hwritten : (writeAt buffer (i * p) (sub t.bytes (i * p) p)).take (min ((i + 1) * p) t.bytes.length) =
        t.bytes.take ((i + 1) * p) := by
      have hlen : min ((i + 1) * p) t.bytes.length = i * p + (sub t.bytes (i * p) p).length := by
        rw [hsub, hnext]
        omega
      rw [hlen, take_writeAt (by omega), htake, hnext, List.take_add, sub]
    rw [hhave]
    have hcount : link.ins + 1 + k = link.ins + (k + 1) := by omega
    rw [← hcount]
    refine ih (i + 1) _ _ { link with ins := link.ins + 1 } (Nat.succ_pos i) (by omega) ?_ hwritten ?_ ?_
    · rw [length_writeAt (by rw [hsub]; omega), hbuffer]
    · intro hle
      rw [hsub]
      omega
    · have := hsupplies.drop 1
      rwa [List.drop_drop] at this

theorem parse_first {t : Transfer} {endOfMessage : Bool} (h : t.Answers maxTransfer tag endOfMessage) (hp : 64 ≤ p) :
    parseInHeader tag (sub t.bytes (0 * p) p) = .ok ⟨t.body.length, endOfMessage⟩ := by
  have hfirst : sub t.bytes (0 * p) p = t.bytes.take p := by simp [sub]
  rw [hfirst, parseInHeader_take (by simp only [HEADER]; omega), Transfer.bytes, List.append_assoc,
    parseInHeader_append h.length]
  exact h.header

/-- **One transfer is read for its data**, and no more of its packets than hold them. -/
theorem readTransfer_eq {t : Transfer} {endOfMessage : Bool} {link : Link} {pending : List (List UInt8)}
    (h : t.Answers maxTransfer (nextTag link.tag) endOfMessage) (hp : 64 ≤ b.maxPacket)
    (hout : ∀ n, b.bulkOut n = true) (hpending : ∀ bytes ∈ pending, bytes.length < HEADER)
    (hfew : pending.length + t.stale.length ≤ MAX_DISCARDED_READS)
    (hsupplies : Supplies b link.ins (pending ++ (t.stale ++ t.packets b.maxPacket))) (into : List UInt8) :
    readTransfer b maxTransfer link into = .ok (endOfMessage, into ++ t.body,
      ⟨nextTag link.tag, link.outs + 1, link.ins + (pending.length + t.stale.length) + t.needed b.maxPacket⟩) := by
  have hpos : 0 < b.maxPacket := by omega
  have hneeded := one_le_needed t hpos
  have hbytes := length_bytes h.length
  have hpadding := h.padding
  have hbody := h.body
  have hmax : max b.maxPacket 64 = b.maxPacket := Nat.max_eq_left hp
  obtain ⟨first, hfirst⟩ : ∃ first, first = sub t.bytes (0 * b.maxPacket) b.maxPacket := ⟨_, rfl⟩
  have hlength : first.length = min b.maxPacket t.bytes.length := by simp [hfirst, sub]
  have hlong : HEADER ≤ first.length := by
    simp only [HEADER] at *
    omega
  have hfits : first.length ≤ HEADER + maxTransfer + b.maxPacket := by
    rw [hlength]
    omega
  obtain ⟨rest, hrest⟩ : ∃ rest, t.packets b.maxPacket = first :: rest := by
    have := packets_getElem? h.length hpos hneeded
    cases hl : t.packets b.maxPacket with
    | nil => simp [hl] at this
    | cons x rest =>
      rw [hl] at this
      exact ⟨rest, by rw [hfirst, Option.some.inj this]⟩
  rw [← List.append_assoc] at hsupplies
  have hahead : Supplies b link.ins ((pending ++ t.stale) ++ [first]) := by
    rw [hrest, ← List.singleton_append, ← List.append_assoc] at hsupplies
    exact hsupplies.left
  obtain ⟨buffer, hawait, hbuffer, hstart⟩ := awaitHeader_eq (hfirst ▸ parse_first h hp) (pending ++ t.stale)
    MAX_DISCARDED_READS ⟨nextTag link.tag, link.outs + 1, link.ins⟩
    (List.replicate (HEADER + maxTransfer + b.maxPacket) 0) (by rwa [List.length_append])
    (fun bytes hmem => (List.mem_append.mp hmem).elim (fun hm => notHeader_of_short (hpending bytes hm))
      (h.stale bytes)) (by rw [List.length_replicate]; omega) hahead
  rw [List.length_replicate] at hbuffer hstart hawait
  rw [List.take_of_length_le hfits] at hstart hawait
  rw [List.length_append] at hawait
  obtain ⟨have_, buffer', hfill, hhave, hbuffer', hdata⟩ := fill_eq h hp (t.needed b.maxPacket - 1) 1 first.length
    buffer ⟨nextTag link.tag, link.outs + 1, link.ins + (pending.length + t.stale.length) + 1⟩ Nat.one_pos (by omega)
    hbuffer (by rw [Nat.one_mul, ← hlength, hstart, hfirst]; simp [sub]) (fun hle => by omega) (by
      have := (hsupplies.right).drop 1
      rwa [List.length_append] at this)
  rw [Nat.one_mul, ← hlength] at hfill
  have hins : link.ins + (pending.length + t.stale.length) + 1 + (t.needed b.maxPacket - 1) =
      link.ins + (pending.length + t.stale.length) + t.needed b.maxPacket := by omega
  rw [hins] at hfill
  have hsub : sub buffer' HEADER t.body.length = t.body := by
    have := congrArg (List.drop HEADER) hdata
    rw [List.drop_take, Nat.add_sub_cancel_left, List.drop_left' h.length] at this
    exact this
  unfold readTransfer
  rw [if_pos (hout _), hmax]
  dsimp only
  rw [hawait]
  dsimp only
  unfold finishTransfer
  rw [if_neg (Nat.not_lt.mpr hlong)]
  dsimp only
  rw [hfill]
  dsimp only
  have hroom : ¬ buffer'.length < HEADER + t.body.length := by omega
  rw [if_neg (Nat.not_lt.mpr hhave), if_neg hroom, hsub]

end Transfer

/-! ### A whole reply -/

theorem Reply.ne_nil {pending : Nat} {ts : List Transfer} (h : Reply p maxTransfer tag pending ts) : ts ≠ [] := by
  cases h with
  | last answers few => exact List.cons_ne_nil _ _
  | more answers few rest => exact List.cons_ne_nil _ _

theorem beforeLast_cons {t : Transfer} {ts : List Transfer} (h : ts ≠ []) :
    beforeLast (t :: ts) = t.body.length + beforeLast ts := by
  rw [beforeLast, List.dropLast_cons_of_ne_nil h]
  simp [beforeLast]

theorem needed_le_length {t : Transfer} (h : t.header.length = HEADER) (hp : 0 < p) :
    t.needed p ≤ (t.packets p).length := by
  have hneeded := one_le_needed t hp
  have := packets_getElem? h hp (i := t.needed p - 1) (by omega)
  have := (List.getElem?_eq_some_iff.mp this).1
  omega

/-- A reply is read transfer by transfer, and given up where the message is past its limit with a transfer still to
come. -/
theorem readWholeMessage_reply {b : Bulk} (hp : 64 ≤ b.maxPacket) (hout : ∀ n, b.bulkOut n = true) {n : Nat}
    {ts : List Transfer} (h : Reply b.maxPacket maxTransfer tag n ts) :
    ∀ (link : Link) (pending : List (List UInt8)) (into : List UInt8), link.tag = tag → pending.length = n →
      (∀ bytes ∈ pending, bytes.length < HEADER) → Supplies b link.ins (pending ++ delivered b.maxPacket ts) →
      ∃ link', readWholeMessage b maxTransfer ts.length link into =
        some (if into.length + beforeLast ts < MAX_MESSAGE_BYTES then .ok (into ++ message ts, link')
          else .error (.error .tooLong)) := by
  have hpos : 0 < b.maxPacket := by omega
  induction h with
  | @last tag n t answers few =>
    rintro link pending into rfl rfl hpending hsupplies
    have hbefore : beforeLast [t] = 0 := rfl
    rw [hbefore, Nat.add_zero]
    have hread := readTransfer_eq answers hp hout hpending few (by simpa [delivered] using hsupplies) into
    refine ⟨⟨nextTag link.tag, link.outs + 1,
      link.ins + (pending.length + t.stale.length) + t.needed b.maxPacket⟩, ?_⟩
    rw [List.length_singleton, readWholeMessage]
    split_ifs with hlen
    · rw [hread]
      simp only [message, List.flatMap_cons, List.flatMap_nil, List.append_nil]
    · rfl
  | @more tag n t ts answers few rest ih =>
    rintro link pending into rfl rfl hpending hsupplies
    have hsplit : pending ++ delivered b.maxPacket (t :: ts) =
        (pending ++ (t.stale ++ t.packets b.maxPacket)) ++ delivered b.maxPacket ts := by
      simp [delivered]
    rw [hsplit] at hsupplies
    have hread := readTransfer_eq answers hp hout hpending few hsupplies.left into
    have hneeded := needed_le_length answers.length hpos
    have hleft : Supplies b (link.ins + (pending.length + t.stale.length) + t.needed b.maxPacket)
        (t.leftover b.maxPacket ++ delivered b.maxPacket ts) := by
      rw [← List.append_assoc pending, List.append_assoc (pending ++ t.stale)] at hsupplies
      have := hsupplies.right.drop (t.needed b.maxPacket)
      rwa [List.length_append, List.drop_append_of_le_length hneeded] at this
    obtain ⟨link', hrest⟩ := ih ⟨nextTag link.tag, link.outs + 1,
      link.ins + (pending.length + t.stale.length) + t.needed b.maxPacket⟩ (t.leftover b.maxPacket) (into ++ t.body)
      rfl rfl (leftover_short answers hpos) hleft
    refine ⟨link', ?_⟩
    rw [List.length_cons, readWholeMessage, beforeLast_cons rest.ne_nil, hread]
    rw [List.length_append, Nat.add_assoc into.length, List.append_assoc] at hrest
    split_ifs with hlen htotal htotal
    · rw [if_pos htotal] at hrest
      exact hrest
    · rw [if_neg htotal] at hrest
      exact hrest
    · omega
    · rfl

/-- **A reply is read back exactly**, over endpoints of 64 bytes or more, where fewer than 64 MiB come before its last
transfer. -/
theorem read_message_reassembles (b : Bulk) (maxTransfer : Nat) (link : Link) (ts : List Transfer)
    (hpacket : 64 ≤ b.maxPacket) (hout : ∀ n, b.bulkOut n = true) (hreply : Reply b.maxPacket maxTransfer link.tag 0 ts)
    (hsupplies : Supplies b link.ins (delivered b.maxPacket ts)) (hsize : beforeLast ts < MAX_MESSAGE_BYTES) :
    ∃ link', ∀ fuel, ts.length ≤ fuel →
      readWholeMessage b maxTransfer fuel link [] = some (.ok (message ts, link')) := by
  obtain ⟨link', hread⟩ := readWholeMessage_reply hpacket hout hreply link [] [] rfl rfl (by simp) hsupplies
  rw [if_pos (by simpa using hsize), List.nil_append] at hread
  exact ⟨link', fun fuel hle => readWholeMessage_mono hread hle⟩

/-! ### Devices -/

/-- The header of a transfer of `length` bytes. -/
def inHeader (tag : UInt8) (length : Nat) (endOfMessage : Bool) : List UInt8 :=
  [DEV_DEP_MSG_IN, tag, ~~~tag, 0] ++ leBytes 4 length ++ [if endOfMessage then EOM else 0, 0, 0, 0]

theorem parseInHeader_inHeader {length : Nat} (h : length < 2 ^ 32) (tag : UInt8) (endOfMessage : Bool) :
    parseInHeader tag (inHeader tag length endOfMessage) = .ok ⟨length, endOfMessage⟩ := by
  have hlength : leNat (leBytes 4 length) = length := leNat_leBytes h
  simp only [leBytes] at hlength
  cases endOfMessage with
  | true => simp [inHeader, parseInHeader, leBytes, hlength, EOM]
  | false => simp [inHeader, parseInHeader, leBytes, hlength]

/-- A transfer with nothing but its header and data. -/
def plain (tag : UInt8) (body : List UInt8) (endOfMessage : Bool) : Transfer :=
  ⟨[], inHeader tag body.length endOfMessage, body, [], false⟩

theorem plain_answers {body : List UInt8} (hbody : body.length ≤ maxTransfer) (h : maxTransfer < 2 ^ 32) (tag : UInt8)
    (endOfMessage : Bool) : (plain tag body endOfMessage).Answers maxTransfer tag endOfMessage :=
  ⟨by simp [plain, inHeader, leBytes, HEADER], parseInHeader_inHeader (by omega) tag endOfMessage, hbody,
    Nat.zero_le _, fun _ h => (List.not_mem_nil h).elim⟩

/-- The device that delivers these transfers and then falls silent. -/
def delivering (p : Nat) (ts : List Transfer) : Bulk := ⟨fun _ => true, fun n => (delivered p ts)[n]?, p⟩

theorem delivering_supplies (p : Nat) (ts : List Transfer) : Supplies (delivering p ts) 0 (delivered p ts) := by
  intro i bytes hi
  rw [Nat.zero_add]
  exact hi

/-- A link that has not been used. -/
def fresh : Link := ⟨0, 0, 0⟩

/-- Two transfers: one of exactly a packet, with a stale packet ahead of it and an empty one after it, and a last one
of one byte. -/
def twoTransfers : List Transfer :=
  [⟨[[7, 7]], inHeader 1 52 false, List.replicate 52 65, [], true⟩, plain 2 [10] true]

theorem twoTransfers_read : ∃ link', ∀ fuel, 2 ≤ fuel →
    readWholeMessage (delivering 64 twoTransfers) 64 fuel fresh [] =
      some (.ok (List.replicate 52 65 ++ [10], link')) := by
  have hfirst : (⟨[[7, 7]], inHeader 1 52 false, List.replicate 52 65, [], true⟩ : Transfer).Answers 64 1 false :=
    ⟨rfl, rfl, by decide, by decide, fun bytes h => by
      rw [List.mem_singleton.mp h]
      exact notHeader_of_short (by decide)⟩
  have hreply : Reply 64 64 0 0 twoTransfers :=
    .more hfirst (by decide) (.last (plain_answers (by decide) (by decide) 2 true) (by decide))
  exact read_message_reassembles (delivering 64 twoTransfers) 64 fresh twoTransfers (by decide) (fun _ => rfl) hreply
    (delivering_supplies 64 twoTransfers) (by decide)

/-- `n` full transfers and a last one of one byte. -/
def longReply : Nat → UInt8 → List Transfer
  | 0, tag => [plain (nextTag tag) [10] true]
  | n + 1, tag => plain (nextTag tag) (List.replicate READ_CHUNK 0) false :: longReply n (nextTag tag)

theorem longReply_reply (n : Nat) : ∀ (tag : UInt8) (pending : Nat), pending ≤ 1 →
    Reply 64 READ_CHUNK tag pending (longReply n tag) := by
  induction n with
  | zero =>
    intro tag pending hpending
    refine .last (plain_answers (by decide) (by decide) _ _) ?_
    simp only [plain, List.length_nil, MAX_DISCARDED_READS]
    omega
  | succ n ih =>
    intro tag pending hpending
    have hanswers := plain_answers (Nat.le_of_eq (List.length_replicate (n := READ_CHUNK) (a := (0 : UInt8))))
      (by decide) (nextTag tag) false
    refine .more hanswers ?_ (ih _ _ (length_leftover_le hanswers (Nat.le_refl 64)))
    simp only [plain, List.length_nil, MAX_DISCARDED_READS]
    omega

theorem beforeLast_longReply (n : Nat) : ∀ tag, beforeLast (longReply n tag) = n * READ_CHUNK := by
  induction n with
  | zero => intro tag; exact (Nat.zero_mul READ_CHUNK).symm
  | succ n ih =>
    intro tag
    have hbody : (plain (nextTag tag) (List.replicate READ_CHUNK 0) false).body.length = READ_CHUNK :=
      List.length_replicate
    rw [longReply, beforeLast_cons (longReply_reply n (nextTag tag) 0 (Nat.zero_le 1)).ne_nil, ih, hbody,
      Nat.succ_mul, Nat.add_comm]

theorem longReply_tooLong {n : Nat} (h : MAX_MESSAGE_BYTES ≤ n * READ_CHUNK) (fuel : Nat) (link' : Link) :
    readWholeMessage (delivering 64 (longReply n 0)) READ_CHUNK fuel fresh [] ≠
      some (.ok (message (longReply n 0), link')) := by
  intro hread
  obtain ⟨link'', hlong⟩ := readWholeMessage_reply (b := delivering 64 (longReply n 0)) (Nat.le_refl 64)
    (fun _ => rfl) (longReply_reply n 0 0 (Nat.zero_le 1)) fresh [] [] rfl rfl (by simp)
    (delivering_supplies 64 (longReply n 0))
  rw [beforeLast_longReply, if_neg (by rw [List.length_nil]; omega)] at hlong
  cases readWholeMessage_det hlong hread

/-- The forty bytes of one transfer, over endpoints of 32 bytes. -/
def smallPackets : List Transfer := [plain 1 (List.replicate 40 65) true]

/-- **Not every reply is read back**: the loop takes packets of fewer than 64 bytes for short ones, and a message whose
transfers reach 64 MiB before the last is given up. -/
theorem reassembly_fails :
    (Reply 32 64 fresh.tag 0 smallPackets ∧
      ¬ ∃ fuel link', readWholeMessage (delivering 32 smallPackets) 64 fuel fresh [] =
        some (.ok (message smallPackets, link'))) ∧
    Reply 64 READ_CHUNK fresh.tag 0 (longReply 64 0) ∧
      ¬ ∃ fuel link', readWholeMessage (delivering 64 (longReply 64 0)) READ_CHUNK fuel fresh [] =
        some (.ok (message (longReply 64 0), link')) := by
  refine ⟨⟨.last (plain_answers (by decide) (by decide) 1 true) (by decide), ?_⟩,
    longReply_reply 64 0 0 (Nat.zero_le 1), ?_⟩
  · rintro ⟨fuel, link', hread⟩
    have hshort : readWholeMessage (delivering 32 smallPackets) 64 1 fresh [] =
        some (.error (.error (.truncated 20 40))) := by
      decide +kernel
    cases readWholeMessage_det hshort hread
  · rintro ⟨fuel, link', hread⟩
    exact longReply_tooLong (by decide) fuel link' hread

end Lager.Scope.UsbTmc
