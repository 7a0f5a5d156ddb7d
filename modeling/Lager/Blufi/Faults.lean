import Lager.Lib.Run
import Lager.Blufi.RoundTrip

/-!
# What a client makes of a faulty channel

A peer sends messages, each cut into pieces that go into one checksummed frame each. On the way a notification
is lost, arrives more than once, or is replaced by bytes whose checksum fails. `_parseNotificationLocked` returns
at such bytes and at nothing else: a sequence number out of place is logged, `rxBuf` is kept, and the next good
frame is joined to whatever stands in it. So the last piece of a message whose first piece was damaged is handed
on as the message.

What is handed on is right as long as the good frames come in turn (`InTurn`): `deliveries_complete`.
-/

namespace Lager.Blufi

open Lager.Lib

/-! ### What the peer sends -/

/-- A message and the pieces its frames carry. -/
structure Message where
  post : Post
  key : Option Bytes
  pieces : List Bytes
  pieces_ne : pieces ≠ []
  checked : post.checksum = true

def Message.payload (m : Message) : Bytes := m.pieces.flatten

/-- One notification of a message: the message's place among those sent, and the piece's in the message. -/
structure Frame where
  message : Message
  number : Nat
  index : Nat
  sequence : Nat

def Frame.isLast (f : Frame) : Bool := f.index + 1 = f.message.pieces.length

def Frame.piece (f : Frame) : Bytes := f.message.pieces.getD f.index []

/-- The data of the frame: a fragment has the number of bytes still to come in front. -/
def Frame.data (f : Frame) : Bytes :=
  if f.isLast then f.piece else leBytes 2 (f.message.pieces.drop f.index).flatten.length ++ f.piece

def Frame.bytes (aes : Aes) (f : Frame) : Except Raised Bytes :=
  getPostBytes aes f.message.key f.message.post (!f.isLast) f.sequence f.data

/-- The frames of the messages in the order they are sent, with their sequence numbers. -/
def frames (sent : List Message) : List Frame :=
  (sent.zipIdx.flatMap fun mk => (List.range mk.1.pieces.length).map fun j => (mk, j)).zipIdx.map
    fun mkjn => ⟨mkjn.1.1.1, mkjn.1.1.2, mkjn.1.2, mkjn.2 % 256⟩

/-- What a notification of a frame has become on the way. -/
inductive Fate where
  | intact
  | damaged (bytes : Bytes)
  deriving DecidableEq

/-- The notifications that arrive, when each frame has as many as `fates` lists for it: none if it is lost,
several if it is duplicated. -/
def notified (sent : List Message) (fates : List (List Fate)) : List (Frame × Fate) :=
  ((frames sent).zip fates).flatMap fun ff => ff.2.map fun fate => (ff.1, fate)

/-! ### The client -/

/-- The client's peer state, and which message the pieces in `rxBuf` ought to be of and how many they ought to be
by the good frames that arrived. -/
structure Listening where
  peer : Peer
  collected : Option (Nat × Nat)

def listening : Listening := ⟨newPeer, none⟩

/-- The notification says that it has a checksum, and it is not that of its data. -/
def checksumFails (aes : Aes) (key : Option Bytes) : Bytes → Bool
  | type :: frameCtrl :: seq :: dataLen :: tail =>
    match decryptIf aes (isEncrypted frameCtrl.toNat) key seq.toNat (tail.take dataLen.toNat) with
    | .error _ => false
    | .ok dataBytes => isChecksum frameCtrl.toNat ∧ (type :: frameCtrl :: seq :: dataLen :: tail).reverse.take 2 ≠
        (toLe 2 (calcCRC (calcCRC 0 [seq, dataLen]) dataBytes)).reverse
  | _ => false

/-- A notification arrives. -/
def arrive (aes : Aes) (deriveSharedKey : Bytes → Except Raised Bytes) (s : Listening) :
    Frame × Fate → Option Listening
  | (f, .intact) =>
    match f.bytes aes with
    | .error _ => none
    | .ok bytes => some
      { peer := (parseNotificationLocked aes deriveSharedKey s.peer bytes).1
        collected := if f.isLast then none else some (f.number, f.index + 1) }
  | (_, .damaged bytes) =>
    if checksumFails aes s.peer.mAESKey bytes then
      some { s with peer := (parseNotificationLocked aes deriveSharedKey s.peer bytes).1 }
    else none

/-- Every message handed on is one the peer sent, whole and with its type. -/
def Complete (sent : List Message) (peer : Peer) : Prop :=
  ∀ d ∈ peer.delivered, ∃ m ∈ sent, d = (m.post.type, m.payload)

/-- A good frame comes in turn: it is the first of a message when no message has been begun, or the one after the
last good frame. Its decryption, if it needs one, is possible, and the handler of a message it completes
returns. -/
def InTurn (aes : Aes) (deriveSharedKey : Bytes → Except Raised Bytes) (s : Listening) (e : Frame × Fate) : Prop :=
  e.2 = .intact →
    (s.collected = if e.1.index = 0 then none else some (e.1.number, e.1.index)) ∧
    (e.1.message.post.encrypt = true → aes.Undoes e.1.message.key s.peer.mAESKey) ∧
    (e.1.isLast = true → HandlerReturns deriveSharedKey s.peer e.1.message.post.type e.1.message.payload)

variable {aes : Aes} {deriveSharedKey : Bytes → Except Raised Bytes} {sent : List Message}

/-! ### One notification -/

/-- Bytes whose checksum fails only count as read. -/
theorem parse_damaged {peer : Peer} {bytes : Bytes} (h : checksumFails aes peer.mAESKey bytes = true) :
    (parseNotificationLocked aes deriveSharedKey peer bytes).1 =
      { peer with mReadSequence := peer.mReadSequence + 1 } := by
  match bytes with
  | [] => cases h
  | [_] => cases h
  | [_, _] => cases h
  | [_, _, _] => cases h
  | type :: frameCtrl :: seq :: dataLen :: tail =>
    rw [checksumFails] at h
    rw [parseNotificationLocked]
    simp only
    cases hdec : decryptIf aes (isEncrypted frameCtrl.toNat) peer.mAESKey seq.toNat (tail.take dataLen.toNat) with
    | error e => rfl
    | ok dataBytes =>
      rw [hdec] at h
      simp only [if_pos (of_decide_eq_true h)]

theorem mem_frames {f : Frame} (h : f ∈ frames sent) :
    sent[f.number]? = some f.message ∧ f.index < f.message.pieces.length ∧ f.sequence < 256 := by
  obtain ⟨⟨⟨⟨m, k⟩, j⟩, n⟩, hmem, rfl⟩ := List.mem_map.mp h
  have hpair := (List.mem_zipIdx' hmem).2
  have hin : ((m, k), j) ∈ sent.zipIdx.flatMap fun mk => (List.range mk.1.pieces.length).map fun j => (mk, j) :=
    hpair ▸ List.getElem_mem _
  obtain ⟨⟨m', k'⟩, hmk, hj⟩ := List.mem_flatMap.mp hin
  obtain ⟨j', hj', heq⟩ := List.mem_map.mp hj
  cases heq
  refine ⟨?_, List.mem_range.mp hj', Nat.mod_lt n (by decide)⟩
  exact List.mk_mem_zipIdx_iff_getElem?.mp hmk

theorem mem_notified {fates : List (List Fate)} {e : Frame × Fate} (h : e ∈ notified sent fates) :
    e.1 ∈ frames sent := by
  obtain ⟨ff, hff, he⟩ := List.mem_flatMap.mp h
  obtain ⟨fate, -, rfl⟩ := List.mem_map.mp he
  exact (List.of_mem_zip hff).1

theorem flatten_take_succ {f : Frame} (hj : f.index < f.message.pieces.length) :
    (f.message.pieces.take f.index).flatten ++ f.piece = (f.message.pieces.take (f.index + 1)).flatten := by
  rw [Frame.piece, List.take_succ_eq_append_getElem hj, List.flatten_append, List.getD_eq_getElem?_getD,
    List.getElem?_eq_getElem hj, Option.getD_some, List.flatten_singleton]

/-- A good frame is taken apart as it was built. -/
theorem parse_intact (deriveSharedKey : Bytes → Except Raised Bytes) {f : Frame} {peer : Peer} {bytes : Bytes}
    (hf : f ∈ frames sent) (hbytes : f.bytes aes = .ok bytes)
    (haes : f.message.post.encrypt = true → aes.Undoes f.message.key peer.mAESKey) :
    parseNotificationLocked aes deriveSharedKey peer bytes =
      accept deriveSharedKey { peer with mReadSequence := peer.mReadSequence + 1 } f.message.post.type.value
        (getFrameCTRLValue f.message.post.encrypt f.message.post.checksum f.message.post.requireAck (!f.isLast))
        f.data := by
  obtain ⟨-, -, hseq⟩ := mem_frames hf
  have hlen : f.data.length < 256 := by
    by_contra hlong
    rw [Frame.bytes, getPostBytes_raises hseq (Nat.not_lt.mp hlong)] at hbytes
    cases hbytes
  obtain ⟨bytes', hbytes', -, hparse⟩ :
      ∃ frame, getPostBytes aes f.message.key f.message.post (!f.isLast) f.sequence f.data = .ok frame ∧ _ :=
    getPostBytes_parse haes hseq hlen
  obtain rfl : bytes' = bytes := Except.ok.inj (hbytes'.symm.trans hbytes)
  exact hparse

theorem parse_fragment {f : Frame} {peer : Peer} {bytes : Bytes} (hf : f ∈ frames sent)
    (hbytes : f.bytes aes = .ok bytes) (haes : f.message.post.encrypt = true → aes.Undoes f.message.key peer.mAESKey)
    (hlast : f.isLast = false) :
    (parseNotificationLocked aes deriveSharedKey peer bytes).1 =
      { peer with mReadSequence := peer.mReadSequence + 1, rxBuf := peer.rxBuf ++ f.piece } := by
  have hdrop : f.data.drop 2 = f.piece := by
    rw [Frame.data, hlast, if_neg (by decide)]
    exact List.drop_left' (length_leBytes 2 _)
  rw [parse_intact deriveSharedKey hf hbytes haes, hlast, Bool.not_false, accept_fragment, hdrop]

/-- The last frame of a message hands on what is collected with its own piece, and empties the buffer if the
handler returns. -/
theorem parse_last {f : Frame} {peer : Peer} {bytes : Bytes} (hf : f ∈ frames sent)
    (hbytes : f.bytes aes = .ok bytes) (haes : f.message.post.encrypt = true → aes.Undoes f.message.key peer.mAESKey)
    (hlast : f.isLast = true) (hhandler : HandlerReturns deriveSharedKey peer f.message.post.type (peer.rxBuf ++ f.piece)) :
    (parseNotificationLocked aes deriveSharedKey peer bytes).1.delivered =
      peer.delivered ++ [(f.message.post.type, peer.rxBuf ++ f.piece)] ∧
    (parseNotificationLocked aes deriveSharedKey peer bytes).1.rxBuf = [] := by
  have hdata : f.data = f.piece := by rw [Frame.data, hlast, if_pos rfl]
  rw [parse_intact deriveSharedKey hf hbytes haes, hlast, Bool.not_true, accept_last, hdata, complete]
  obtain ⟨hdelivered, -, hok⟩ := parseMessage_spec deriveSharedKey
    { peer with mReadSequence := peer.mReadSequence + 1, rxBuf := peer.rxBuf ++ f.piece } f.message.post.type
    (peer.rxBuf ++ f.piece)
  have hreturns := hok.mpr hhandler
  cases hmessage : parseMessage deriveSharedKey
      { peer with mReadSequence := peer.mReadSequence + 1, rxBuf := peer.rxBuf ++ f.piece } f.message.post.type.value
      (peer.rxBuf ++ f.piece) with
  | mk peer' result =>
    rw [hmessage] at hdelivered hreturns
    simp only at hreturns
    subst hreturns
    exact ⟨hdelivered, rfl⟩

/-! ### Runs whose good frames come in turn -/

/-- `rxBuf` has the pieces it ought to have, and all that was handed on is complete. -/
structure Following (sent : List Message) (s : Listening) : Prop where
  nothing : s.collected = none → s.peer.rxBuf = []
  begun : ∀ k j, s.collected = some (k, j) → ∃ m, sent[k]? = some m ∧ s.peer.rxBuf = (m.pieces.take j).flatten
  complete : Complete sent s.peer

theorem Following.rxBuf {s : Listening} {f : Frame} (h : Following sent s) (hf : f ∈ frames sent)
    (hturn : s.collected = if f.index = 0 then none else some (f.number, f.index)) :
    s.peer.rxBuf = (f.message.pieces.take f.index).flatten := by
  obtain ⟨hnumber, -, -⟩ := mem_frames hf
  by_cases h0 : f.index = 0
  · rw [if_pos h0] at hturn
    rw [h.nothing hturn, h0, List.take_zero, List.flatten_nil]
  · rw [if_neg h0] at hturn
    obtain ⟨m, hm, hbuf⟩ := h.begun _ _ hturn
    obtain rfl := Option.some.inj (hnumber.symm.trans hm)
    exact hbuf

theorem Following.arrive {s t : Listening} {e : Frame × Fate} (h : Following sent s) (hf : e.1 ∈ frames sent)
    (hturn : InTurn aes deriveSharedKey s e) (hstep : arrive aes deriveSharedKey s e = some t) : Following sent t := by
  obtain ⟨f, fate⟩ := e
  cases fate with
  | damaged bytes =>
    simp only [Blufi.arrive] at hstep
    split_ifs at hstep with hfails
    obtain rfl := Option.some.inj hstep
    rw [parse_damaged hfails]
    exact ⟨h.nothing, h.begun, h.complete⟩
  | intact =>
    obtain ⟨hplace, haes, hhandler⟩ := hturn rfl
    have hbuf := h.rxBuf hf hplace
    obtain ⟨hnumber, hindex, -⟩ := mem_frames hf
    have hpiece := flatten_take_succ hindex
    simp only [Blufi.arrive] at hstep
    cases hbytes : f.bytes aes with
    | error err =>
      rw [hbytes] at hstep
      cases hstep
    | ok bytes =>
      rw [hbytes] at hstep
      obtain rfl := Option.some.inj hstep
      cases hlast : f.isLast with
      | false =>
        rw [parse_fragment hf hbytes haes hlast]
        refine ⟨fun hnone => ?_, fun k j hkj => ?_, h.complete⟩
        · rw [if_neg (by decide)] at hnone
          cases hnone
        · rw [if_neg (by decide)] at hkj
          cases hkj
          exact ⟨f.message, hnumber, by rw [hbuf, hpiece]⟩
      | true =>
        -- the buffer and the piece are all of the message
        have hpayload : s.peer.rxBuf ++ f.piece = f.message.payload := by
          have hall : f.index + 1 = f.message.pieces.length := of_decide_eq_true hlast
          rw [hbuf, hpiece, hall, List.take_length, Message.payload]
        obtain ⟨hdelivered, hempty⟩ := parse_last hf hbytes haes hlast (hpayload ▸ hhandler hlast)
        refine ⟨fun _ => hempty, fun k j hkj => ?_, fun d hd => ?_⟩
        · rw [if_pos rfl] at hkj
          cases hkj
        · rw [hdelivered, hpayload] at hd
          rcases List.mem_append.mp hd with hd | hd
          · exact h.complete d hd
          · exact ⟨f.message, List.mem_of_getElem? hnumber, List.mem_singleton.mp hd⟩

/-- **What is handed on.** Whatever was lost, repeated or damaged: as long as every good frame comes in turn, all
that has been handed on are whole messages of the peer with their types. -/
theorem deliveries_complete (aes : Aes) (deriveSharedKey : Bytes → Except Raised Bytes) (sent : List Message)
    (fates : List (List Fate)) {s : Listening}
    (hturn : Along (arrive aes deriveSharedKey) (InTurn aes deriveSharedKey) listening (notified sent fates))
    (hrun : run (arrive aes deriveSharedKey) listening (notified sent fates) = some s) : Complete sent s.peer := by
  have hal := hturn.and_mem (q := fun e => e.1 ∈ frames sent) fun e he => mem_notified he
  have hfirst : Following sent listening := by
    refine ⟨fun _ => rfl, fun k j hkj => ?_, fun d hd => ?_⟩
    · cases hkj
    · cases hd
  exact (run_invariant (Following sent) (fun s e t hok h hstep => h.arrive hok.2 hok.1 hstep) hal hfirst hrun).complete

/-! ### Two pieces -/

/-- `AB` and `CD` in two frames. -/
def twoPieces : Message := ⟨customData, none, [[0x41, 0x42], [0x43, 0x44]], by decide, rfl⟩

/-- The first frame of `twoPieces` with its last byte changed. -/
def firstDamaged : Fate := .damaged [0x4d, 0x1a, 0, 4, 4, 0, 0x41, 0x42, 0, 0]

def noKey (_ : Bytes) : Except Raised Bytes := .error .cryptoError

theorem message_of_mem {m : Message} {fates : List (List Fate)} {e : Frame × Fate} (h : e ∈ notified [m] fates) :
    e.1.message = m := by
  have hmem := List.mem_of_getElem? (mem_frames (mem_notified h)).1
  exact List.mem_singleton.mp hmem

/-- With the first frame damaged, `CD` is handed on as the message. -/
theorem damaged_message_delivered :
    ∃ s, run (arrive noCipher noKey) listening (notified [twoPieces] [[firstDamaged], [.intact]]) = some s ∧
      ¬ Complete [twoPieces] s.peer := by
  have hrun : (run (arrive noCipher noKey) listening (notified [twoPieces] [[firstDamaged], [.intact]])).map
      (fun s => s.peer.delivered) = some [(customData.type, [0x43, 0x44])] := by decide +kernel
  obtain ⟨s, hs, hdelivered⟩ := Option.map_eq_some_iff.mp hrun
  refine ⟨s, hs, fun hcomplete => ?_⟩
  obtain ⟨m, hm, heq⟩ := hcomplete (customData.type, [0x43, 0x44]) (by rw [hdelivered]; exact List.mem_singleton_self _)
  obtain rfl := List.mem_singleton.mp hm
  have hpayload : ([0x43, 0x44] : Bytes) = twoPieces.payload := congrArg Prod.snd heq
  exact absurd hpayload (by decide)

/-- The damaged frame is sent again, and the message arrives whole. -/
theorem repeated_message_complete :
    ∃ s, run (arrive noCipher noKey) listening (notified [twoPieces] [[firstDamaged, .intact], [.intact]]) = some s ∧
      s.peer.delivered ≠ [] ∧ Complete [twoPieces] s.peer := by
  have hrun : (run (arrive noCipher noKey) listening (notified [twoPieces] [[firstDamaged, .intact], [.intact]])).map
      (fun s => s.peer.delivered) = some [(customData.type, [0x41, 0x42, 0x43, 0x44])] := by decide +kernel
  have hplaced : Along (arrive noCipher noKey)
      (fun s e => e.2 = .intact → s.collected = if e.1.index = 0 then none else some (e.1.number, e.1.index))
      listening (notified [twoPieces] [[firstDamaged, .intact], [.intact]]) := by decide +kernel
  have hturn : Along (arrive noCipher noKey) (InTurn noCipher noKey) listening
      (notified [twoPieces] [[firstDamaged, .intact], [.intact]]) := by
    refine (hplaced.and_mem fun e he => message_of_mem he).imp fun s e h hintact => ?_
    refine ⟨h.1 hintact, fun henc => ?_, fun _ _ => ⟨fun hv => ?_, fun hn => ?_⟩⟩
    · rw [h.2] at henc
      cases henc
    · rw [h.2] at hv
      exact absurd hv (by decide)
    · rw [h.2] at hn
      exact absurd hn (by decide)
  obtain ⟨s, hs, hdelivered⟩ := Option.map_eq_some_iff.mp hrun
  refine ⟨s, hs, ?_, deliveries_complete noCipher noKey [twoPieces] _ hturn hs⟩
  rw [hdelivered]
  exact List.cons_ne_nil _ _

end Lager.Blufi
