import Lager.Blufi.Frames

/-!
# A BluFi message arrives once

One frame first: what `getPostBytes` builds is what `_parseNotificationLocked` takes apart. Then the loop of
`postContainData`, by induction on the rest of the message: the peer's buffer holds the pieces so far, and the
last frame hands it to the handler.

The frames cannot say every length. A package limit above 259 lets the data of a frame outgrow its length byte,
and a message cut into fragments has two bytes for its total length: `Fits` is the exact condition for
`postContainData` to return.
-/

namespace Lager.Blufi

open Lager.Lib

variable {aes : Aes} {deriveSharedKey : Bytes → Except Raised Bytes} {key : Option Bytes} {p : Post}
  {peer : Peer} {data frame : Bytes} {sequence : Nat} {frag : Bool}

/-! ### What the assumptions on the outside say -/

/-- Decryption under the second key undoes encryption under the first, and encryption keeps the length (a
stream mode without padding). -/
def Aes.Undoes (aes : Aes) (key key' : Option Bytes) : Prop :=
  ∀ seq data, ∃ sent, aes.encrypt key seq data = .ok sent ∧ sent.length = data.length ∧
    aes.decrypt key' seq sent = .ok data

/-! ### The header fields -/

theorem toNat_ofNat_byte {n : Nat} (h : n < 256) : (UInt8.ofNat n).toNat = n := by
  rw [UInt8.toNat_ofNat', Nat.mod_eq_of_lt h]

theorem byte_ok {n : Nat} (h : n < 256) : byte n = .ok [UInt8.ofNat n] := if_pos h

theorem typeValue_lt (t : FrameType) : t.value < 256 := by
  obtain ⟨package, subType⟩ := t
  have h : ∀ s : Fin 64, getTypeValue Package.ctrl.value s < 256 ∧ getTypeValue Package.data.value s < 256 := by
    decide
  cases package with
  | ctrl => exact (h subType).1
  | data => exact (h subType).2

theorem getPackageType_value (t : FrameType) : getPackageType t.value = t.package.value := by
  obtain ⟨package, subType⟩ := t
  have h : ∀ s : Fin 64, getPackageType (getTypeValue Package.ctrl.value s) = Package.ctrl.value ∧
      getPackageType (getTypeValue Package.data.value s) = Package.data.value := by decide
  cases package with
  | ctrl => exact (h subType).1
  | data => exact (h subType).2

theorem getSubType_value (t : FrameType) : getSubType t.value = t.subType := by
  obtain ⟨package, subType⟩ := t
  have h : ∀ s : Fin 64, getSubType (getTypeValue Package.ctrl.value s) = s ∧
      getSubType (getTypeValue Package.data.value s) = s := by decide
  cases package with
  | ctrl => exact (h subType).1
  | data => exact (h subType).2

theorem frameCtrl_lt (e c r f : Bool) : getFrameCTRLValue e c r f < 256 := by
  revert e c r f
  decide

theorem isEncrypted_frameCtrl (e c r f : Bool) : isEncrypted (getFrameCTRLValue e c r f) = e := by
  revert e c r f
  decide

theorem isChecksum_frameCtrl (e c r f : Bool) : isChecksum (getFrameCTRLValue e c r f) = c := by
  revert e c r f
  decide

theorem hasFrag_frameCtrl (e c r f : Bool) : hasFrag (getFrameCTRLValue e c r f) = f := by
  revert e c r f
  decide

/-! ### One frame -/

/-- The length of the checksum. -/
def Post.checksumLength (p : Post) : Nat := if p.checksum then 2 else 0

/-- A frame of at most `limit` bytes whose length byte says how much data it has. -/
structure GoodFrame (p : Post) (limit : Int) (frame : Bytes) : Prop where
  fits : (frame.length : Int) ≤ limit
  dataLength : 4 + (frame.getD 3 0).toNat + p.checksumLength = frame.length

/-- What is sent of the data: the data or its encryption. -/
theorem sent_ok (haes : p.encrypt = true → aes.Undoes key peer.mAESKey) (sequence : Nat) (data : Bytes) :
    ∃ sent, encryptIf aes p.encrypt key sequence data = .ok sent ∧ sent.length = data.length ∧
      decryptIf aes p.encrypt peer.mAESKey sequence sent = .ok data := by
  cases he : p.encrypt with
  | false => exact ⟨data, rfl, rfl, rfl⟩
  | true => exact haes he sequence data

/-- **One frame.** The frame of a piece of data that its length byte can count is good, and the peer takes the
data out of it again. -/
theorem getPostBytes_parse (haes : p.encrypt = true → aes.Undoes key peer.mAESKey) (hseq : sequence < 256)
    (hlen : data.length < 256) :
    ∃ frame, getPostBytes aes key p frag sequence data = .ok frame ∧
      GoodFrame p (4 + data.length + p.checksumLength) frame ∧
      parseNotificationLocked aes deriveSharedKey peer frame =
        accept deriveSharedKey { peer with mReadSequence := peer.mReadSequence + 1 } p.type.value
          (getFrameCTRLValue p.encrypt p.checksum p.requireAck frag) data := by
  obtain ⟨sent, hsent, hlength, hback⟩ := sent_ok haes sequence data
  have hctrl := frameCtrl_lt p.encrypt p.checksum p.requireAck frag
  let check := if p.checksum then checksumBytes sequence data else []
  let frame := UInt8.ofNat p.type.value :: UInt8.ofNat (getFrameCTRLValue p.encrypt p.checksum p.requireAck frag) ::
    UInt8.ofNat sequence :: UInt8.ofNat data.length :: (sent ++ check)
  have hcheck : check.length = p.checksumLength := by
    unfold check Post.checksumLength
    split
    · rw [checksumBytes, length_toLe]
    · rfl
  refine ⟨frame, ?_, ⟨?_, ?_⟩, ?_⟩
  · rw [getPostBytes, byte_ok (typeValue_lt _), byte_ok hctrl, byte_ok hseq, byte_ok hlen, hsent]
    rfl
  · simp only [frame, List.length_cons, List.length_append, hcheck, hlength]
    omega
  · simp only [frame, List.length_cons, List.length_append, hcheck, hlength, List.getD_cons_succ, List.getD_cons_zero,
      toNat_ofNat_byte hlen]
    omega
  · have hdata : (sent ++ check).take (UInt8.ofNat data.length).toNat = sent := by
      rw [toNat_ofNat_byte hlen, ← hlength, List.take_left]
    have hsum : p.checksum = true → frame.reverse.take 2 = (checksumBytes sequence data).reverse := by
      intro hc
      have hframe : frame.reverse = (checksumBytes sequence data).reverse ++ (frame.take (4 + sent.length)).reverse := by
        simp [frame, check, hc, Nat.add_comm 4]
      rw [hframe]
      exact List.take_left' (by rw [List.length_reverse, checksumBytes, length_toLe])
    simp only [frame, parseNotificationLocked, hdata, toNat_ofNat_byte hctrl, toNat_ofNat_byte hseq,
      isEncrypted_frameCtrl, isChecksum_frameCtrl, toNat_ofNat_byte (typeValue_lt _), hback]
    rw [if_neg]
    rintro ⟨hc, hne⟩
    exact hne (hsum hc)

theorem GoodFrame.mono {limit limit' : Int} (h : GoodFrame p limit frame) (hle : limit ≤ limit') :
    GoodFrame p limit' frame :=
  ⟨Int.le_trans h.fits hle, h.dataLength⟩

/-- The message in the buffer is complete: its handler is called, and the buffer reset if it returns. -/
def complete (deriveSharedKey : Bytes → Except Raised Bytes) (peer : Peer) (t : FrameType) : Peer :=
  match parseMessage deriveSharedKey peer t.value peer.rxBuf with
  | (peer, .ok ()) => { peer with rxBuf := [] }
  | (peer, .error _) => peer

theorem accept_fragment (peer : Peer) (e c r : Bool) (typeValue : Nat) (data : Bytes) :
    accept deriveSharedKey peer typeValue (getFrameCTRLValue e c r true) data =
      ({ peer with rxBuf := peer.rxBuf ++ data.drop 2 }, .ok ()) := by
  rw [accept, hasFrag_frameCtrl, if_pos rfl]

theorem accept_last (peer : Peer) (e c r : Bool) (t : FrameType) (data : Bytes) :
    (accept deriveSharedKey peer t.value (getFrameCTRLValue e c r false) data).1 =
      complete deriveSharedKey { peer with rxBuf := peer.rxBuf ++ data } t := by
  rw [accept, hasFrag_frameCtrl, if_neg (by decide), complete]
  simp only
  cases parseMessage deriveSharedKey { peer with rxBuf := peer.rxBuf ++ data } t.value (peer.rxBuf ++ data) with
  | mk peer' result =>
    cases result with
    | ok u => rfl
    | error e => rfl

theorem frameOf_last (deriveSharedKey : Bytes → Except Raised Bytes)
    (haes : p.encrypt = true → aes.Undoes key peer.mAESKey) (hseq : sequence < 256)
    (hlen : data.length < 256) :
    ∃ frame, frameOf aes key p sequence data [] = .ok frame ∧
      GoodFrame p (4 + data.length + p.checksumLength) frame ∧
      (parseNotificationLocked aes deriveSharedKey peer frame).1 =
        complete deriveSharedKey
          { peer with mReadSequence := peer.mReadSequence + 1, rxBuf := peer.rxBuf ++ data } p.type := by
  obtain ⟨frame, hframe, hgood, hparse⟩ := getPostBytes_parse haes hseq hlen
  refine ⟨frame, hframe, hgood, ?_⟩
  rw [hparse]
  exact accept_last _ _ _ _ _ _

theorem frameOf_fragment (deriveSharedKey : Bytes → Except Raised Bytes) {content left : Bytes}
    (haes : p.encrypt = true → aes.Undoes key peer.mAESKey) (hseq : sequence < 256) (hleft : left ≠ [])
    (hlen : content.length + 2 < 256) (htotal : content.length + left.length < 65536) :
    ∃ frame, frameOf aes key p sequence content left = .ok frame ∧
      GoodFrame p (4 + (content.length + 2) + p.checksumLength) frame ∧
      (parseNotificationLocked aes deriveSharedKey peer frame).1 =
        { peer with mReadSequence := peer.mReadSequence + 1, rxBuf := peer.rxBuf ++ content } := by
  have hlength : (leBytes 2 (content.length + left.length) ++ content).length = content.length + 2 := by
    rw [List.length_append, length_leBytes, Nat.add_comm]
  obtain ⟨frame, hframe, hgood, hparse⟩ := getPostBytes_parse haes hseq (hlength ▸ hlen)
  refine ⟨frame, ?_, ?_, ?_⟩
  · rw [frameOf, frameData, if_neg hleft, packH, if_pos htotal, ok_bind, decide_eq_true hleft]
    exact hframe
  · rw [hlength] at hgood
    exact hgood
  · rw [hparse, accept_fragment]
    rfl

/-! ### The loop -/

theorem cut_last {limit : Nat} (h2 : 2 ≤ limit) (h : data.length ≤ limit + 2) : cut limit data = (data, []) := by
  have hleft : (data.drop limit).length = data.length - limit := List.length_drop
  unfold cut
  simp only
  split
  · have hrest : (data.drop limit).take limit = data.drop limit := List.take_of_length_le (by omega)
    rw [hrest, List.take_append_drop, List.drop_of_length_le (by omega)]
  · have hempty : (data.drop limit).length = 0 := by omega
    rw [List.length_eq_zero_iff] at hempty
    rw [hempty, List.take_of_length_le (by omega)]

theorem cut_fragment {limit : Nat} (h : limit + 2 < data.length) :
    cut limit data = (data.take limit, data.drop limit) := by
  have hleft : (data.drop limit).length = data.length - limit := List.length_drop
  unfold cut
  simp only
  rw [if_neg (by omega)]

/-- The data of a frame fits its length byte, and a message that needs several fits the total length. `limit`:
how much data goes into a fragment. -/
def Fits (limit : Nat) (data : Bytes) : Prop :=
  min data.length (limit + 2) < 256 ∧ (limit + 2 < data.length → data.length < 65536)

theorem Fits.drop {limit : Nat} (h : Fits limit data) (hlen : limit + 2 < data.length) :
    Fits limit (data.drop limit) := by
  obtain ⟨hmin, htotal⟩ := h
  have := htotal hlen
  rw [Fits, List.length_drop]
  omega

theorem generateSendSequence_lt (mSendSequence : Int) : generateSendSequence mSendSequence < 256 := by
  rw [generateSendSequence]
  omega

variable {acked : Nat → Bool} {limit : Nat}

theorem postLoop_nil (mSendSequence : Int) :
    postLoop aes acked key p limit [] mSendSequence = ⟨[], mSendSequence, .ok true⟩ := by
  rw [postLoop, if_pos List.take_nil]

theorem take_ne_nil (h2 : 2 ≤ limit) (hne : data ≠ []) : data.take limit ≠ [] := by
  rw [Ne, List.take_eq_nil_iff]
  rintro (h | h)
  · omega
  · exact hne h

/-- One round of the loop when its frame can be built and, for a fragment, the acknowledgement arrives. -/
theorem postLoop_step (hack : ∀ n, acked n = true) (h2 : 2 ≤ limit) (hne : data ≠ []) (mSendSequence : Int)
    (hframe : frameOf aes key p (generateSendSequence mSendSequence) (cut limit data).1 (cut limit data).2 = .ok frame) :
    postLoop aes acked key p limit data mSendSequence =
      ⟨frame :: (postLoop aes acked key p limit (cut limit data).2 (generateSendSequence mSendSequence)).frames,
        (postLoop aes acked key p limit (cut limit data).2 (generateSendSequence mSendSequence)).mSendSequence,
        (postLoop aes acked key p limit (cut limit data).2 (generateSendSequence mSendSequence)).result⟩ := by
  rw [postLoop, if_neg (take_ne_nil h2 hne)]
  simp only [hframe]
  rw [if_neg (by simp [hack])]

/-- **The loop.** A message that fits is sent in good frames, and they leave the peer with the whole message
handed to its handler. -/
theorem postLoop_delivers (deriveSharedKey : Bytes → Except Raised Bytes) (hack : ∀ n, acked n = true)
    (h2 : 2 ≤ limit) (mSendSequence : Int) (peer : Peer) (data : Bytes) (hne : data ≠ []) (hfits : Fits limit data)
    (haes : p.encrypt = true → aes.Undoes key peer.mAESKey) :
    (postLoop aes acked key p limit data mSendSequence).result = .ok true ∧
    (∀ frame ∈ (postLoop aes acked key p limit data mSendSequence).frames,
      GoodFrame p (4 + (limit + 2) + p.checksumLength) frame) ∧
    ∃ n, feed aes deriveSharedKey peer (postLoop aes acked key p limit data mSendSequence).frames =
      complete deriveSharedKey { peer with mReadSequence := n, rxBuf := peer.rxBuf ++ data } p.type := by
  -- on the length of the rest; the peer's buffer has the pieces before it
  induction hn : data.length using Nat.strongRecOn generalizing data mSendSequence peer with
  | ind n ih =>
    have hseq := generateSendSequence_lt mSendSequence
    by_cases hlen : data.length ≤ limit + 2
    · have hcut := cut_last h2 hlen
      obtain ⟨frame, hframe, hgood, hparse⟩ := frameOf_last deriveSharedKey haes hseq
        (show data.length < 256 by have := hfits.1; omega)
      have hstep := postLoop_step hack h2 hne mSendSequence (by rw [hcut]; exact hframe)
      rw [hstep, hcut, postLoop_nil]
      refine ⟨rfl, fun f hf => ?_, ?_⟩
      · rw [List.mem_singleton.mp hf]
        exact hgood.mono (by omega)
      · exact ⟨_, hparse⟩
    · have hcut := cut_fragment (Nat.not_le.mp hlen)
      have htake : (data.take limit).length = limit := List.length_take_of_le (by omega)
      have hdrop : (data.drop limit).length = data.length - limit := List.length_drop
      have hleft : data.drop limit ≠ [] := List.ne_nil_of_length_pos (by omega)
      have hshort : (data.take limit).length + 2 < 256 := by
        have := hfits.1
        omega
      have htotal : (data.take limit).length + (data.drop limit).length < 65536 := by
        have := hfits.2 (by omega)
        omega
      obtain ⟨frame, hframe, hgood, hparse⟩ := frameOf_fragment deriveSharedKey haes hseq hleft hshort htotal
      have hstep := postLoop_step hack h2 hne mSendSequence (by rw [hcut]; exact hframe)
      obtain ⟨hresult, hframes, m, hfeed⟩ := ih _ (by omega) (generateSendSequence mSendSequence)
        { peer with mReadSequence := peer.mReadSequence + 1, rxBuf := peer.rxBuf ++ data.take limit }
        (data.drop limit) hleft (hfits.drop (by omega)) haes rfl
      rw [hstep, hcut]
      refine ⟨hresult, fun f hf => ?_, m, ?_⟩
      · rcases List.mem_cons.mp hf with rfl | hf
        · exact hgood.mono (by omega)
        · exact hframes f hf
      · rw [feed, List.foldl_cons, hparse]
        rw [List.append_assoc, List.take_append_drop] at hfeed
        exact hfeed

/-- A frame with more data than its length byte can count is not built. -/
theorem getPostBytes_raises (hseq : sequence < 256) (hlen : 256 ≤ data.length) :
    getPostBytes aes key p frag sequence data = .error .valueError := by
  rw [getPostBytes, byte_ok (typeValue_lt _), byte_ok (frameCtrl_lt _ _ _ _), byte_ok hseq, byte,
    if_neg (Nat.not_lt.mpr hlen)]
  rfl

/-- The first frame of a message that does not fit cannot be built. -/
theorem frameOf_raises (h2 : 2 ≤ limit) (hseq : sequence < 256) (hfits : ¬ Fits limit data) :
    ∃ e, frameOf aes key p sequence (cut limit data).1 (cut limit data).2 = .error e := by
  by_cases hlen : data.length ≤ limit + 2
  · have hlong : 256 ≤ data.length := by
      rw [Fits] at hfits
      omega
    rw [cut_last h2 hlen]
    exact ⟨_, getPostBytes_raises hseq hlong⟩
  · have htake : (data.take limit).length = limit := List.length_take_of_le (by omega)
    have hdrop : (data.drop limit).length = data.length - limit := List.length_drop
    have hleft : data.drop limit ≠ [] := List.ne_nil_of_length_pos (by omega)
    have htotal : (data.take limit).length + (data.drop limit).length = data.length := by omega
    rw [cut_fragment (Nat.not_le.mp hlen), frameOf, frameData, if_neg hleft, htotal, packH]
    by_cases hbig : data.length < 65536
    · have hlong : 256 ≤ (leBytes 2 data.length ++ data.take limit).length := by
        rw [List.length_append, length_leBytes, htake]
        rw [Fits] at hfits
        omega
      rw [if_pos hbig]
      exact ⟨_, getPostBytes_raises hseq hlong⟩
    · rw [if_neg hbig]
      exact ⟨_, rfl⟩

theorem postLoop_raises (h2 : 2 ≤ limit) (hfits : ¬ Fits limit data) (mSendSequence : Int) :
    ∃ e, (postLoop aes acked key p limit data mSendSequence).result = .error e := by
  have hne : data ≠ [] := by
    rintro rfl
    exact hfits ⟨by simp, by simp⟩
  obtain ⟨e, he⟩ : ∃ e, frameOf aes key p (generateSendSequence mSendSequence) (cut limit data).1 (cut limit data).2 =
      .error e := frameOf_raises h2 (generateSendSequence_lt mSendSequence) hfits
  refine ⟨e, ?_⟩
  rw [postLoop, if_neg (take_ne_nil h2 hne)]
  simp only [he]

/-! ### The handler -/

/-- The handler of the message returns: a version has its two bytes, and a key can be derived from a public
key. -/
def HandlerReturns (deriveSharedKey : Bytes → Except Raised Bytes) (peer : Peer) (t : FrameType) (data : Bytes) :
    Prop :=
  t.package = .data →
    ((t.subType : Nat) = SUBTYPE_VERSION → 2 ≤ data.length) ∧
    ((t.subType : Nat) = SUBTYPE_NEG → ∃ key, deriveSharedKey (peer.rxPubKeyBuf ++ data) = .ok key)

theorem ofNat_getSubType (t : FrameType) : Fin.ofNat 64 (getSubType t.value) = t.subType := by
  rw [getSubType_value]
  exact Fin.ofNat_val_eq_self _

theorem parseDataData_spec (deriveSharedKey : Bytes → Except Raised Bytes) (peer : Peer) (subType : Nat)
    (data : Bytes) :
    (parseDataData deriveSharedKey peer subType data).1.delivered = peer.delivered ∧
    (parseDataData deriveSharedKey peer subType data).1.rxBuf = peer.rxBuf ∧
    ((parseDataData deriveSharedKey peer subType data).2 = .ok () ↔
      (subType = SUBTYPE_VERSION → 2 ≤ data.length) ∧
      (subType = SUBTYPE_NEG → ∃ key, deriveSharedKey (peer.rxPubKeyBuf ++ data) = .ok key)) := by
  unfold parseDataData
  by_cases hneg : subType = SUBTYPE_NEG
  · have hversion : subType ≠ SUBTYPE_VERSION := by
      rw [hneg]
      decide
    simp only [if_pos hneg]
    cases hkey : deriveSharedKey (peer.rxPubKeyBuf ++ data) with
    | ok key => simp [hversion]
    | error e => simp [hneg]
  · rw [if_neg hneg]
    by_cases hversion : subType = SUBTYPE_VERSION
    · by_cases hshort : data.length < 2
      · simp [hversion, hshort]
      · simp [hversion, hshort, SUBTYPE_VERSION, SUBTYPE_NEG, Nat.not_lt.mp hshort]
    · simp [hversion, hneg]

theorem parseMessage_spec (deriveSharedKey : Bytes → Except Raised Bytes) (peer : Peer) (t : FrameType) (data : Bytes) :
    (parseMessage deriveSharedKey peer t.value data).1.delivered = peer.delivered ++ [(t, data)] ∧
    (parseMessage deriveSharedKey peer t.value data).1.rxBuf = peer.rxBuf ∧
    ((parseMessage deriveSharedKey peer t.value data).2 = .ok () ↔ HandlerReturns deriveSharedKey peer t data) := by
  rw [parseMessage, getPackageType_value, ofNat_getSubType]
  cases hp : t.package with
  | ctrl =>
    rw [if_pos rfl]
    refine ⟨by rw [← hp], rfl, ⟨fun _ h => ?_, fun _ => rfl⟩⟩
    rw [hp] at h
    cases h
  | data =>
    rw [if_neg (by decide), if_pos rfl, getSubType_value, ← hp]
    obtain ⟨hdelivered, hbuf, hok⟩ := parseDataData_spec deriveSharedKey
      { peer with delivered := peer.delivered ++ [(t, data)] } t.subType data
    refine ⟨hdelivered, hbuf, hok.trans ?_⟩
    exact ⟨fun h _ => h, fun h => h hp⟩

/-- The handler is called with the message. The buffer is empty afterwards if the handler has returned. -/
theorem complete_spec (deriveSharedKey : Bytes → Except Raised Bytes) (peer : Peer) (t : FrameType) (hbuf : peer.rxBuf ≠ []) :
    (complete deriveSharedKey peer t).delivered = peer.delivered ++ [(t, peer.rxBuf)] ∧
    ((complete deriveSharedKey peer t).rxBuf = [] ↔ HandlerReturns deriveSharedKey peer t peer.rxBuf) := by
  obtain ⟨hdelivered, hkept, hok⟩ := parseMessage_spec deriveSharedKey peer t peer.rxBuf
  rw [complete]
  cases hmessage : parseMessage deriveSharedKey peer t.value peer.rxBuf with
  | mk peer' result =>
    rw [hmessage] at hdelivered hkept hok
    cases result with
    | ok u => exact ⟨hdelivered, fun _ => hok.mp rfl, fun _ => rfl⟩
    | error e => exact ⟨hdelivered, fun h => absurd (hkept.symm.trans h) hbuf, fun h => by cases hok.mpr h⟩

/-! ### The whole message -/

/-- `postContainData` succeeds with good frames, and the peer that is given them has the message delivered once
and its buffer empty. -/
structure RoundTrips (aes : Aes) (acked : Nat → Bool) (deriveSharedKey : Bytes → Except Raised Bytes) (c : Client)
    (peer : Peer) (p : Post) (data : Bytes) : Prop where
  succeeds : (postContainData aes acked c p data).result = .ok true
  frames : ∀ frame ∈ (postContainData aes acked c p data).frames, GoodFrame p c.pkgLengthLimit frame
  delivered : (feed aes deriveSharedKey peer (postContainData aes acked c p data).frames).delivered =
    peer.delivered ++ [(p.type, data)]
  emptied : (feed aes deriveSharedKey peer (postContainData aes acked c p data).frames).rxBuf = []

/-- Whatever limit was asked for, there is room for data. -/
theorem pkgLengthLimit_ge {c : Client} (hmtu : c.mBlufiMTU = -1 ∨ 19 ≤ c.mBlufiMTU) (lengthLimit : Int) :
    19 ≤ (setPostPackageLengthLimit c lengthLimit).pkgLengthLimit := by
  simp only [setPostPackageLengthLimit, Client.pkgLengthLimit, MIN_PACKAGE_LENGTH, DEFAULT_PACKAGE_LENGTH]
  omega

/-- How much data `postContainData` puts into a fragment. -/
def Client.room (c : Client) (p : Post) : Nat := (c.postDataLengthLimit p.checksum).toNat

theorem postContainData_eq (aes : Aes) (acked : Nat → Bool) {c : Client} (h : 19 ≤ c.pkgLengthLimit) (p : Post)
    (data : Bytes) :
    2 ≤ c.room p ∧ c.pkgLengthLimit = 4 + (c.room p + 2) + p.checksumLength ∧
    postContainData aes acked c p data = postLoop aes acked c.mAESKey p (c.room p) data c.mSendSequence := by
  have hlimit : c.postDataLengthLimit p.checksum = c.pkgLengthLimit - 6 - p.checksumLength := by
    simp only [Client.postDataLengthLimit, PACKAGE_HEADER_LENGTH, Post.checksumLength]
    split <;> omega
  have hcheck : p.checksumLength ≤ 2 := by
    unfold Post.checksumLength
    split <;> omega
  rw [postContainData, Client.room, if_neg (by omega)]
  exact ⟨by omega, by omega, rfl⟩

/-- **BluFi round trip.** Under whatever package limit, a message makes the round trip exactly if it is not
empty, its frames can say their lengths, and the peer's handler returns on it. -/
theorem blufi_round_trip_iff (aes : Aes) (acked : Nat → Bool) (deriveSharedKey : Bytes → Except Raised Bytes)
    (c : Client) (lengthLimit : Int) (peer : Peer) (p : Post) (data : Bytes)
    (hmtu : c.mBlufiMTU = -1 ∨ 19 ≤ c.mBlufiMTU) (haes : p.encrypt = true → aes.Undoes c.mAESKey peer.mAESKey)
    (hack : ∀ n, acked n = true) (hpeer : peer.rxBuf = []) :
    RoundTrips aes acked deriveSharedKey (setPostPackageLengthLimit c lengthLimit) peer p data ↔
      data ≠ [] ∧ Fits ((setPostPackageLengthLimit c lengthLimit).room p) data ∧
      HandlerReturns deriveSharedKey peer p.type data := by
  have hge := pkgLengthLimit_ge hmtu lengthLimit
  -- the limit is all that has changed of the client
  generalize hc : setPostPackageLengthLimit c lengthLimit = client at hge ⊢
  replace haes : p.encrypt = true → aes.Undoes client.mAESKey peer.mAESKey := hc ▸ haes
  obtain ⟨h2, hlimit, hpost⟩ := postContainData_eq aes acked hge p data
  have hsent : data ≠ [] → Fits (client.room p) data → ∃ n,
      feed aes deriveSharedKey peer (postContainData aes acked client p data).frames =
        complete deriveSharedKey { peer with mReadSequence := n, rxBuf := data } p.type := by
    intro hne hfits
    obtain ⟨-, -, n, hfeed⟩ :=
      postLoop_delivers deriveSharedKey hack h2 client.mSendSequence peer data hne hfits haes
    rw [hpeer, List.nil_append] at hfeed
    exact ⟨n, hpost ▸ hfeed⟩
  constructor
  · intro h
    have hne : data ≠ [] := by
      rintro rfl
      have hdelivered := h.delivered
      rw [hpost, postLoop_nil] at hdelivered
      simp [feed] at hdelivered
    have hfits : Fits (client.room p) data := by
      by_contra hbad
      obtain ⟨e, he⟩ := postLoop_raises h2 hbad client.mSendSequence
      have hsucceeds := h.succeeds
      rw [hpost, he] at hsucceeds
      cases hsucceeds
    obtain ⟨n, hfeed⟩ := hsent hne hfits
    refine ⟨hne, hfits, ?_⟩
    exact (complete_spec deriveSharedKey _ p.type hne).2.mp (hfeed ▸ h.emptied)
  · rintro ⟨hne, hfits, hhandler⟩
    obtain ⟨n, hfeed⟩ := hsent hne hfits
    obtain ⟨hresult, hframes, -⟩ :=
      postLoop_delivers deriveSharedKey hack h2 client.mSendSequence peer data hne hfits haes
    obtain ⟨hdelivered, hemptied⟩ :=
      complete_spec deriveSharedKey { peer with mReadSequence := n, rxBuf := data } p.type hne
    refine ⟨hpost ▸ hresult, fun frame hframe => ?_, hfeed ▸ hdelivered, hfeed ▸ hemptied.mpr hhandler⟩
    rw [hpost] at hframe
    rw [hlimit]
    exact hframes frame hframe

/-! ### Two messages -/

/-- A cipher that is never asked for, a client as it is after `__init__`, and a peer that expects its first
frame. -/
def noCipher : Aes := ⟨fun _ _ _ => .error .cryptoError, fun _ _ _ => .error .cryptoError⟩

def newClient : Client := ⟨-1, -1, -1, none⟩

def newPeer : Peer := ⟨-1, none, [], [], []⟩

/-- Custom data, in the clear, with a checksum and acknowledgements. -/
def customData : Post := ⟨false, true, true, ⟨.data, ⟨0x13, by decide⟩⟩⟩

/-- 256 bytes under a limit of 300, in one frame whose length byte cannot count them. -/
theorem long_frame_not_sent :
    ¬ RoundTrips noCipher (fun _ => true) (fun _ => .error .cryptoError) (setPostPackageLengthLimit newClient 300)
      newPeer customData (List.replicate 256 0) := by
  intro h
  have hroom : (setPostPackageLengthLimit newClient 300).room customData = 288 := by decide
  obtain ⟨h2, -, hpost⟩ := postContainData_eq noCipher (fun _ => true)
    (pkgLengthLimit_ge (c := newClient) (Or.inl rfl) 300) customData (List.replicate 256 0)
  have hbad : ¬ Fits ((setPostPackageLengthLimit newClient 300).room customData) (List.replicate 256 0) := by
    rw [hroom, Fits, List.length_replicate]
    decide
  obtain ⟨e, he⟩ := postLoop_raises h2 hbad (setPostPackageLengthLimit newClient 300).mSendSequence
  have hsucceeds := h.succeeds
  rw [hpost, he] at hsucceeds
  cases hsucceeds

/-- 1000 bytes under the default limit. -/
theorem long_message_round_trip :
    RoundTrips noCipher (fun _ => true) (fun _ => .error .cryptoError) (setPostPackageLengthLimit newClient 0)
      newPeer customData (List.replicate 1000 7) := by
  have hroom : (setPostPackageLengthLimit newClient 0).room customData = 12 := by decide
  refine (blufi_round_trip_iff noCipher (fun _ => true) (fun _ => .error .cryptoError) newClient 0 newPeer customData
    (List.replicate 1000 7) (Or.inl rfl) nofun (fun _ => rfl) rfl).mpr ⟨?_, ?_, fun _ => ⟨?_, ?_⟩⟩
  · exact List.ne_nil_of_length_pos (by rw [List.length_replicate]; decide)
  · rw [hroom, Fits, List.length_replicate]
    decide
  · exact fun h => absurd h (by decide)
  · exact fun h => absurd h (by decide)

end Lager.Blufi
