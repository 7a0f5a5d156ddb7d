import Lager.Scope.Lscp

/-!
# LSCP frames survive the wire

`Decodes buf f` says what a byte string must look like for `decode` to return `f`. `decode_eq_ok_iff` shows
that `decode` does return it exactly then, and that none of its checked operations fails on the way. The round
trip in both directions is read off that.
-/

namespace Lager.Scope

open Lager.Lib

variable {buf : List UInt8} {f : CaptureFrame}

/-! ### The checked operations inside their bounds -/

theorem index_eq {i : Nat} (h : i < buf.length) : index buf i = .ok (buf.getD i 0) := by
  rw [index, List.getD_eq_getElem?_getD, List.getElem?_eq_getElem h]
  rfl

theorem slice_eq {α : Type} {l : List α} {a b : Nat} (hab : a ≤ b) (h : b ≤ l.length) :
    slice l a b = .ok (sub l a (b - a)) :=
  if_pos ⟨hab, h⟩

theorem fromLeBytes_eq {n a b : Nat} (hb : b = a + n) (h : b ≤ buf.length) :
    fromLeBytes n buf a b = .ok (ofLe n (sub buf a n)) := by
  have hn : b - a = n := by omega
  rw [fromLeBytes, slice_eq (by omega) h, hn]
  exact if_pos (length_sub (by omega))

theorem usize_eq {n : Nat} (h : n < 2 ^ 64) : usize n = .ok n := if_pos h

/-! ### The header -/

/-- The fields of a header, without the checks. -/
def headerOf (buf : List UInt8) : Header where
  flags := ofLe 2 (sub buf 6 2)
  seq := ofLe 8 (sub buf 8 8)
  captureMonoNs := ofLe 8 (sub buf 16 8)
  sampleIntervalNs := ofLe 8 (sub buf 24 8)
  preTriggerSamples := ofLe 4 (sub buf 32 4)
  postTriggerSamples := ofLe 4 (sub buf 36 4)
  samplesPerChannel := ofLe 4 (sub buf 40 4)
  channelCount := (buf.getD 44 0).toNat
  resolutionBits := buf.getD 45 0
  overflowMask := ofLe 2 (sub buf 46 2)
  screenSamples := ofLe 4 (sub buf 48 4)

theorem decodeHeader_eq (h : HEADER_SIZE ≤ buf.length) :
    decodeHeader buf =
      if ofLe 4 (sub buf 0 4) ≠ MAGIC then .error (.refused (.badMagic (ofLe 4 (sub buf 0 4))))
      else if ofLe 2 (sub buf 4 2) ≠ VERSION then
        .error (.refused (.unsupportedVersion (ofLe 2 (sub buf 4 2))))
      else .ok (headerOf buf) := by
  rw [HEADER_SIZE] at h
  rw [decodeHeader, HEADER_SIZE, if_neg (by omega), fromLeBytes_eq rfl (by omega), fromLeBytes_eq rfl (by omega),
    fromLeBytes_eq rfl (by omega), fromLeBytes_eq rfl (by omega), fromLeBytes_eq rfl (by omega),
    fromLeBytes_eq rfl (by omega), fromLeBytes_eq rfl (by omega), fromLeBytes_eq rfl (by omega),
    fromLeBytes_eq rfl (by omega), index_eq (by omega), index_eq (by omega), fromLeBytes_eq rfl (by omega),
    fromLeBytes_eq rfl (by omega)]
  rfl

theorem channelCount_lt (buf : List UInt8) : (headerOf buf).channelCount < 256 := (buf.getD 44 0).toNat_lt

/-! ### The descriptors -/

/-- The descriptor at the beginning of a string, without the checks of its bounds. -/
def descriptorOf (d : List UInt8) : Except Fault ChannelFrame := do
  let channel ← channelFromU8 (d.getD 0 0)
  pure { channel, rangeCode := d.getD 1 0, coupling := couplingFromU8 (d.getD 2 0),
         scaleVPerCount := ofLe 4 (sub d 4 4), offsetV := ofLe 4 (sub d 8 4) }

theorem decodeChannel_eq {i : Nat} (hi : i < 256) (h : HEADER_SIZE + CHANNEL_DESC_SIZE * (i + 1) ≤ buf.length) :
    decodeChannel buf i = descriptorOf (buf.drop (HEADER_SIZE + CHANNEL_DESC_SIZE * i)) := by
  rw [HEADER_SIZE, CHANNEL_DESC_SIZE] at *
  have hget : ∀ j, (buf.drop (64 + 16 * i)).getD j 0 = buf.getD (64 + 16 * i + j) 0 := by
    intro j
    rw [List.getD_eq_getElem?_getD, List.getD_eq_getElem?_getD, List.getElem?_drop]
  have hpos : usize (64 + i * 16) = .ok (64 + 16 * i) := by
    rw [Nat.mul_comm]
    exact usize_eq (by omega)
  have hoff : ∀ j, j ≤ 12 → usize (64 + 16 * i + j) = .ok (64 + 16 * i + j) := fun j hj => usize_eq (by omega)
  have hindex : ∀ j, j < 16 → index buf (64 + 16 * i + j) = .ok (buf.getD (64 + 16 * i + j) 0) :=
    fun j hj => index_eq (by omega)
  have hscale : fromLeBytes 4 buf (64 + 16 * i + 4) (64 + 16 * i + 8) = .ok (ofLe 4 (sub buf (64 + 16 * i + 4) 4)) :=
    fromLeBytes_eq rfl (by omega)
  have hoffset : fromLeBytes 4 buf (64 + 16 * i + 8) (64 + 16 * i + 12) = .ok (ofLe 4 (sub buf (64 + 16 * i + 8) 4)) :=
    fromLeBytes_eq rfl (by omega)
  have hfirst := hindex 0 (by omega)
  rw [Nat.add_zero] at hfirst
  simp only [decodeChannel, descriptorOf, HEADER_SIZE, CHANNEL_DESC_SIZE, hpos, hfirst, hoff 1 (by omega),
    hoff 2 (by omega), hoff 4 (by omega), hoff 8 (by omega), hoff 12 (by omega), hindex 1 (by omega),
    hindex 2 (by omega), hscale, hoffset, hget, sub_drop, ok_bind, Nat.add_zero]

/-! ### The whole frame -/

/-- Where the payload begins. -/
def payloadStart (channelCount : Nat) : Nat := HEADER_SIZE + CHANNEL_DESC_SIZE * channelCount

/-- The header of a frame. -/
def CaptureFrame.header (f : CaptureFrame) : Header where
  flags := f.flags
  seq := f.seq
  captureMonoNs := f.captureMonoNs
  sampleIntervalNs := f.sampleIntervalNs
  preTriggerSamples := f.preTriggerSamples
  postTriggerSamples := f.postTriggerSamples
  samplesPerChannel := f.samplesPerChannel
  channelCount := f.channels.length
  resolutionBits := f.resolutionBits
  overflowMask := f.overflowMask
  screenSamples := f.screenSamples

/-- The frame that a header begins. -/
def Header.frame (h : Header) (channels : List ChannelFrame) (samples : List (BitVec 16)) : CaptureFrame where
  seq := h.seq
  captureMonoNs := h.captureMonoNs
  sampleIntervalNs := h.sampleIntervalNs
  preTriggerSamples := h.preTriggerSamples
  postTriggerSamples := h.postTriggerSamples
  samplesPerChannel := h.samplesPerChannel
  resolutionBits := h.resolutionBits
  overflowMask := h.overflowMask
  flags := h.flags
  screenSamples := h.screenSamples
  channels := channels
  samples := samples

/-- The length of the payload that a header promises. -/
def Header.sampleBytes (h : Header) : Nat := h.samplesPerChannel.toNat * h.channelCount * 2

/-- What the bytes of a frame look like to `decode`. -/
structure Decodes (buf : List UInt8) (f : CaptureFrame) : Prop where
  size : payloadStart f.channels.length ≤ buf.length
  magic : ofLe 4 (sub buf 0 4) = MAGIC
  version : ofLe 2 (sub buf 4 2) = VERSION
  header : headerOf buf = f.header
  channels : ∀ i (h : i < f.channels.length), descriptorOf (buf.drop (payloadStart i)) = .ok f.channels[i]
  payload : buf.length - payloadStart f.channels.length = f.header.sampleBytes
  samples : f.samples = decodeSamples (buf.drop (payloadStart f.channels.length))

/-- The second part of `decode`, with the arithmetic and the slice done. -/
theorem decode_eq (hsize : HEADER_SIZE ≤ buf.length) (hmagic : ofLe 4 (sub buf 0 4) = MAGIC)
    (hversion : ofLe 2 (sub buf 4 2) = VERSION) :
    decode buf =
      if buf.length < payloadStart (headerOf buf).channelCount then
        .error (.refused (.tooShort (payloadStart (headerOf buf).channelCount) buf.length))
      else
        (List.range (headerOf buf).channelCount).mapM (decodeChannel buf) >>= fun channels =>
          if buf.length - payloadStart (headerOf buf).channelCount ≠ (headerOf buf).sampleBytes then
            .error (.refused (.lengthMismatch (headerOf buf).sampleBytes
              (buf.length - payloadStart (headerOf buf).channelCount)))
          else .ok ((headerOf buf).frame channels
            (decodeSamples (buf.drop (payloadStart (headerOf buf).channelCount)))) := by
  have hc := channelCount_lt buf
  have hn : (headerOf buf).samplesPerChannel.toNat < 2 ^ 32 := (headerOf buf).samplesPerChannel.isLt
  have hcount : (headerOf buf).samplesPerChannel.toNat * (headerOf buf).channelCount ≤ 2 ^ 32 * 256 :=
    Nat.mul_le_mul (by omega) (by omega)
  have hbytes : usize (headerOf buf).sampleBytes = .ok (headerOf buf).sampleBytes := by
    apply usize_eq
    rw [Header.sampleBytes]
    omega
  have hend : HEADER_SIZE + (headerOf buf).channelCount * CHANNEL_DESC_SIZE =
      payloadStart (headerOf buf).channelCount := by
    rw [payloadStart, Nat.mul_comm]
  have hsmall : payloadStart (headerOf buf).channelCount < 2 ^ 64 := by
    rw [payloadStart, HEADER_SIZE, CHANNEL_DESC_SIZE]
    omega
  rw [decode, decodeHeader_eq hsize, if_neg (not_not.mpr hmagic), if_neg (not_not.mpr hversion), ok_bind, hend,
    usize_eq hsmall, ok_bind]
  by_cases hlen : buf.length < payloadStart (headerOf buf).channelCount
  · rw [if_pos hlen, if_pos hlen]
  · have hpayload : slice buf (payloadStart (headerOf buf).channelCount) buf.length =
        .ok (buf.drop (payloadStart (headerOf buf).channelCount)) := by
      rw [slice_eq (by omega) (Nat.le_refl _), sub, List.take_of_length_le (Nat.le_of_eq List.length_drop)]
    rw [if_neg hlen, if_neg hlen]
    simp only [usize_eq (show (headerOf buf).samplesPerChannel.toNat * (headerOf buf).channelCount < 2 ^ 64 by omega),
      hpayload, ok_bind, List.length_drop]
    rw [← Header.sampleBytes, hbytes]
    rfl

theorem decodeChannel_eq_of_lt {i c : Nat} (hc : c < 256) (hi : i < c) (h : payloadStart c ≤ buf.length) :
    decodeChannel buf i = descriptorOf (buf.drop (payloadStart i)) := by
  apply decodeChannel_eq (by omega)
  rw [payloadStart, HEADER_SIZE, CHANNEL_DESC_SIZE] at *
  omega

theorem header_le_payloadStart (c : Nat) : HEADER_SIZE ≤ payloadStart c := Nat.le_add_right _ _

@[simp] theorem header_channelCount (f : CaptureFrame) : f.header.channelCount = f.channels.length := rfl

@[simp] theorem frame_header (f : CaptureFrame) : f.header.frame f.channels f.samples = f := rfl

theorem Decodes.decode_eq_ok (h : Decodes buf f) : decode buf = .ok f := by
  have hcount : (headerOf buf).channelCount = f.channels.length := by rw [h.header, header_channelCount]
  have hc : f.channels.length < 256 := hcount ▸ channelCount_lt buf
  have hchannels : (List.range f.channels.length).mapM (decodeChannel buf) = .ok f.channels := by
    refine mapM_range_ok_iff.mpr ⟨rfl, fun i hi => ?_⟩
    rw [decodeChannel_eq_of_lt hc hi h.size]
    exact h.channels i hi
  rw [decode_eq (Nat.le_trans (header_le_payloadStart _) h.size) h.magic h.version, h.header, header_channelCount,
    if_neg (Nat.not_lt.mpr h.size), hchannels, ok_bind, if_neg (not_not.mpr h.payload), ← h.samples, frame_header]

/-- `decode` refuses what is shorter than a header or does not begin like one. -/
theorem decode_of_bad_header (h : ¬ (HEADER_SIZE ≤ buf.length ∧ ofLe 4 (sub buf 0 4) = MAGIC ∧
    ofLe 2 (sub buf 4 2) = VERSION)) : ∃ e, decode buf = .error (.refused e) := by
  by_cases hsize : HEADER_SIZE ≤ buf.length
  · rw [decode, decodeHeader_eq hsize]
    by_cases hmagic : ofLe 4 (sub buf 0 4) = MAGIC
    · have hversion : ofLe 2 (sub buf 4 2) ≠ VERSION := fun hv => h ⟨hsize, hmagic, hv⟩
      rw [if_neg (not_not.mpr hmagic), if_pos hversion]
      exact ⟨_, rfl⟩
    · rw [if_pos hmagic]
      exact ⟨_, rfl⟩
  · rw [decode, decodeHeader, if_pos (Nat.not_le.mp hsize)]
    exact ⟨_, rfl⟩

theorem Decodes.of_decode (h : decode buf = .ok f) : Decodes buf f := by
  obtain ⟨hsize, hmagic, hversion⟩ : HEADER_SIZE ≤ buf.length ∧ ofLe 4 (sub buf 0 4) = MAGIC ∧
      ofLe 2 (sub buf 4 2) = VERSION := by
    by_contra hbad
    obtain ⟨e, he⟩ := decode_of_bad_header hbad
    rw [h] at he
    cases he
  rw [decode_eq hsize hmagic hversion] at h
  split at h
  · cases h
  · next hlen =>
    obtain ⟨channels, hchannels, h⟩ := bind_eq_ok h
    split at h
    · cases h
    · next hpayload =>
      obtain ⟨hcount, hall⟩ := mapM_range_ok_iff.mp hchannels
      have hheader : headerOf buf = f.header := by
        cases h
        rw [Header.frame, CaptureFrame.header, hcount]
      cases h
      refine ⟨?_, hmagic, hversion, hheader, fun i hi => ?_, ?_, ?_⟩
      · show payloadStart channels.length ≤ buf.length
        rw [hcount]
        exact Nat.not_lt.mp hlen
      · rw [← decodeChannel_eq_of_lt (channelCount_lt buf) (hcount ▸ hi) (Nat.not_lt.mp hlen)]
        exact hall i hi
      · rw [← hheader]
        show buf.length - payloadStart channels.length = _
        rw [hcount]
        exact not_not.mp hpayload
      · show decodeSamples _ = decodeSamples (buf.drop (payloadStart channels.length))
        rw [hcount]

theorem decode_eq_ok_iff : decode buf = .ok f ↔ Decodes buf f := ⟨.of_decode, Decodes.decode_eq_ok⟩

theorem descriptorOf_ne_panic (d : List UInt8) : descriptorOf d ≠ .error .panic := by
  rw [descriptorOf, channelFromU8]
  split
  · nofun
  · nofun

/-- **No panic.** Every slice is in bounds, every `unwrap` has its bytes and no size overflows, for every
string. -/
theorem decode_ne_panic (buf : List UInt8) : decode buf ≠ .error .panic := by
  intro h
  by_cases hgood : HEADER_SIZE ≤ buf.length ∧ ofLe 4 (sub buf 0 4) = MAGIC ∧ ofLe 2 (sub buf 4 2) = VERSION
  · obtain ⟨hsize, hmagic, hversion⟩ := hgood
    rw [decode_eq hsize hmagic hversion] at h
    split at h
    · cases h
    · next hlen =>
      cases hchannels : (List.range (headerOf buf).channelCount).mapM (decodeChannel buf) with
      | ok channels =>
        rw [hchannels, ok_bind] at h
        split at h <;> cases h
      | error e =>
        rw [hchannels] at h
        cases h
        obtain ⟨i, hi, hpanic⟩ := mapM_error hchannels
        rw [decodeChannel_eq_of_lt (channelCount_lt buf) (List.mem_range.mp hi) (Nat.not_lt.mp hlen)] at hpanic
        exact descriptorOf_ne_panic _ hpanic
  · obtain ⟨e, he⟩ := decode_of_bad_header hgood
    rw [h] at he
    cases he

/-! ### Encoded frames decode -/

/-- The header without its padding. -/
theorem encodeHeader_eq (f : CaptureFrame) :
    encodeHeader f = toLe 4 MAGIC ++ (toLe 2 VERSION ++ (toLe 2 f.flags ++ (toLe 8 f.seq ++
      (toLe 8 f.captureMonoNs ++ (toLe 8 f.sampleIntervalNs ++ (toLe 4 f.preTriggerSamples ++
      (toLe 4 f.postTriggerSamples ++ (toLe 4 f.samplesPerChannel ++ ([UInt8.ofNat f.channels.length] ++
      ([f.resolutionBits] ++ (toLe 2 f.overflowMask ++ (toLe 4 f.screenSamples ++
      List.replicate 12 0)))))))))))) := by
  simp only [encodeHeader, resize, HEADER_SIZE, List.append_assoc]
  rw [List.take_of_length_le (by simp)]
  simp

theorem length_encodeHeader (f : CaptureFrame) : (encodeHeader f).length = HEADER_SIZE := by
  rw [encodeHeader_eq]
  simp [HEADER_SIZE]

theorem headerOf_encode (h : f.channels.length ≤ 255) : headerOf (encode f) = f.header := by
  have hcount : (UInt8.ofNat f.channels.length).toNat = f.channels.length := by
    rw [UInt8.toNat_ofNat']
    omega
  simp [headerOf, encode, encodeHeader_eq, sub_append_left, sub_append_right, sub_cons_succ, CaptureFrame.header,
    List.getElem?_append, hcount]


theorem channelFromU8_channelToU8 {c : Char} (h : 'A' ≤ c ∧ c ≤ 'Z') :
    channelFromU8 (channelToU8 (.alphabetic c)) = .ok (.alphabetic c) := by
  obtain ⟨hA, hZ⟩ : 65 ≤ c.toNat ∧ c.toNat ≤ 90 := h
  have hcode : (UInt8.ofNat c.toNat - 65).toNat = c.toNat - 65 := by
    rw [UInt8.toNat_sub, UInt8.toNat_ofNat']
    simp
    omega
  rw [channelToU8, channelFromU8, hcode, if_pos (by omega), Nat.add_sub_cancel' hA, Char.ofNat_toNat]

theorem couplingFromU8_couplingToU8 (c : Coupling) : couplingFromU8 (couplingToU8 c) = c := by
  cases c <;> rfl

theorem length_encodeChannel (c : ChannelFrame) : (encodeChannel c).length = CHANNEL_DESC_SIZE := by
  simp [encodeChannel, CHANNEL_DESC_SIZE]

/-- A letter from `A` to `Z`. -/
def ChannelId.IsLetter : ChannelId → Prop
  | .alphabetic c => 'A' ≤ c ∧ c ≤ 'Z'
  | .numeric _ => False

theorem descriptorOf_encodeChannel {c : ChannelFrame} (h : c.channel.IsLetter) (rest : List UInt8) :
    descriptorOf (encodeChannel c ++ rest) = .ok c := by
  have hchannel : channelFromU8 (channelToU8 c.channel) = .ok c.channel := by
    cases hc : c.channel with
    | alphabetic letter => exact channelFromU8_channelToU8 (by rwa [hc] at h)
    | numeric n => rw [hc] at h; exact h.elim
  simp [descriptorOf, encodeChannel, hchannel, sub_append_left, sub_append_right, sub_cons_succ,
    couplingFromU8_couplingToU8]

theorem decodeSamples_flatMap (samples : List (BitVec 16)) : decodeSamples (samples.flatMap (toLe 2)) = samples := by
  induction samples with
  | nil => rfl
  | cons x samples ih =>
    rw [List.flatMap_cons]
    show ofLe 2 (toLe 2 x) :: decodeSamples (samples.flatMap (toLe 2)) = _
    rw [ofLe_toLe, ih]

theorem length_encode (f : CaptureFrame) :
    (encode f).length = payloadStart f.channels.length + 2 * f.samples.length := by
  rw [encode, List.length_append, List.length_append, length_encodeHeader,
    length_flatMap_of_length length_encodeChannel, length_flatMap_of_length (length_toLe 2), payloadStart]

theorem drop_encode_channel {i : Nat} (h : i < f.channels.length) :
    ∃ rest, (encode f).drop (payloadStart i) = encodeChannel f.channels[i] ++ rest := by
  obtain ⟨rest, hrest⟩ := drop_flatMap_getElem length_encodeChannel h
  have hle : CHANNEL_DESC_SIZE * i ≤ (f.channels.flatMap encodeChannel).length := by
    rw [length_flatMap_of_length length_encodeChannel]
    exact Nat.mul_le_mul_left _ (Nat.le_of_lt h)
  refine ⟨rest ++ f.samples.flatMap (toLe 2), ?_⟩
  rw [payloadStart, ← List.drop_drop, encode, List.append_assoc, ← length_encodeHeader f, List.drop_left,
    List.drop_append_of_le_length hle, hrest, List.append_assoc]

theorem drop_encode_payload (f : CaptureFrame) :
    (encode f).drop (payloadStart f.channels.length) = f.samples.flatMap (toLe 2) := by
  apply List.drop_left'
  rw [List.length_append, length_encodeHeader, length_flatMap_of_length length_encodeChannel, payloadStart]

/-- A frame with lettered channels, no more than the count byte can say, and the samples it promises. -/
structure Encodable (f : CaptureFrame) : Prop where
  letters : ∀ c ∈ f.channels, c.channel.IsLetter
  count : f.channels.length ≤ 255
  samples : f.samples.length = f.samplesPerChannel.toNat * f.channels.length

theorem Encodable.decodes (h : Encodable f) : Decodes (encode f) f where
  size := by
    rw [length_encode]
    omega
  magic := by
    simp [encode, encodeHeader_eq, sub_append_left]
  version := by
    simp [encode, encodeHeader_eq, sub_append_left, sub_append_right]
  header := headerOf_encode h.count
  channels i hi := by
    obtain ⟨rest, hrest⟩ := drop_encode_channel hi
    rw [hrest]
    exact descriptorOf_encodeChannel (h.letters _ (List.getElem_mem hi)) rest
  payload := by
    rw [length_encode, h.samples, Nat.add_sub_cancel_left, Nat.mul_comm 2]
    rfl
  samples := by rw [drop_encode_payload, decodeSamples_flatMap]

/-! ### Decoded frames encode back -/

/-- The bytes of a frame with this many channels whose value is lost: the reserved ones, and a coupling byte
that is none of the three codes. -/
def Unread (channelCount i : Nat) (x : UInt8) : Prop :=
  (52 ≤ i ∧ i < HEADER_SIZE) ∨
  ∃ k < channelCount, i = payloadStart k + 3 ∨ (payloadStart k + 12 ≤ i ∧ i < payloadStart k + 16) ∨
    (i = payloadStart k + 2 ∧ x ≠ 0 ∧ x ≠ 1 ∧ x ≠ 2)

theorem Decodes.encodeHeader_eq_sub (h : Decodes buf f) : encodeHeader f = sub buf 0 52 ++ List.replicate 12 0 := by
  have hsize : 64 ≤ buf.length := Nat.le_trans (header_le_payloadStart _) h.size
  have hword : ∀ n a, a + n ≤ 64 → toLe n (ofLe n (sub buf a n)) = sub buf a n :=
    fun n a ha => toLe_ofLe (length_sub (by omega))
  have hbyte : ∀ a, a < 64 → [buf.getD a 0] = sub buf a 1 := by
    intro a ha
    have hlt : a < buf.length := by omega
    rw [sub, List.drop_eq_getElem_cons hlt, List.getD_eq_getElem?_getD, List.getElem?_eq_getElem hlt]
    rfl
  have hcount : UInt8.ofNat f.channels.length = buf.getD 44 0 := by
    rw [← header_channelCount, ← h.header]
    exact UInt8.ofNat_toNat
  have hheader := h.header
  rw [headerOf, CaptureFrame.header] at hheader
  injection hheader with hflags hseq hmono hinterval hpre hpost hspc _ hres hover hscreen
  rw [encodeHeader_eq, hcount, ← h.magic, ← h.version, ← hflags, ← hseq, ← hmono, ← hinterval, ← hpre, ← hpost, ← hspc,
    ← hres, ← hover, ← hscreen, hbyte 44 (by omega), hbyte 45 (by omega), hword 4 0 (by omega), hword 2 4 (by omega),
    hword 2 6 (by omega), hword 8 8 (by omega), hword 8 16 (by omega), hword 8 24 (by omega), hword 4 32 (by omega),
    hword 4 36 (by omega), hword 4 40 (by omega), hword 2 46 (by omega), hword 4 48 (by omega)]
  simp only [← List.append_assoc]
  rw [sub_append_sub buf rfl, sub_append_sub buf rfl, sub_append_sub buf rfl, sub_append_sub buf rfl,
    sub_append_sub buf rfl, sub_append_sub buf rfl, sub_append_sub buf rfl, sub_append_sub buf rfl,
    sub_append_sub buf rfl, sub_append_sub buf rfl, sub_append_sub buf rfl, sub_append_sub buf rfl]

theorem channelToU8_of_channelFromU8 {value : UInt8} {id : ChannelId} (h : channelFromU8 value = .ok id) :
    channelToU8 id = value := by
  rw [channelFromU8] at h
  split at h
  · next hle =>
    cases h
    have hletters : ∀ n < 26, (Char.ofNat (65 + n)).toNat = 65 + n := by decide
    have hchar := hletters value.toNat (by omega)
    apply UInt8.toNat_inj.mp
    rw [channelToU8, hchar, UInt8.toNat_sub, UInt8.toNat_ofNat']
    simp
    omega
  · cases h

theorem couplingToU8_couplingFromU8 {x : UInt8} (h : x = 0 ∨ x = 1 ∨ x = 2) :
    couplingToU8 (couplingFromU8 x) = x := by
  obtain rfl | rfl | rfl := h <;> rfl

theorem descriptorOf_ok {d : List UInt8} {c : ChannelFrame} (h : descriptorOf d = .ok c) (hd : 16 ≤ d.length) :
    encodeChannel c = [d.getD 0 0, d.getD 1 0, couplingToU8 (couplingFromU8 (d.getD 2 0)), 0] ++ sub d 4 8 ++
      [0, 0, 0, 0] := by
  obtain ⟨channel, hchannel, h⟩ := bind_eq_ok h
  cases h
  rw [encodeChannel, channelToU8_of_channelFromU8 hchannel, toLe_ofLe (length_sub (by omega)),
    toLe_ofLe (length_sub (by omega)), List.append_assoc _ (sub d 4 4), sub_append_sub d rfl]

/-- A descriptor encodes back to its bytes, but for the reserved ones and a strange coupling. -/
theorem encodeChannel_agrees {d : List UInt8} {c : ChannelFrame} (h : descriptorOf d = .ok c) (hd : 16 ≤ d.length)
    {j : Nat} {x : UInt8} (hx : d[j]? = some x) (hj : j < 16) :
    (encodeChannel c)[j]? = some x ∨ j = 3 ∨ 12 ≤ j ∨ (j = 2 ∧ x ≠ 0 ∧ x ≠ 1 ∧ x ≠ 2) := by
  have hget : d.getD j 0 = x := by rw [List.getD_eq_getElem?_getD, hx]; rfl
  rw [descriptorOf_ok h hd]
  by_cases hlow : j < 4
  · obtain rfl | rfl | rfl | rfl : j = 0 ∨ j = 1 ∨ j = 2 ∨ j = 3 := by omega
    · exact .inl (congrArg some hget)
    · exact .inl (congrArg some hget)
    · by_cases hcode : x = 0 ∨ x = 1 ∨ x = 2
      · refine .inl (congrArg some ?_)
        rw [hget]
        exact couplingToU8_couplingFromU8 hcode
      · simp only [not_or] at hcode
        exact .inr (.inr (.inr ⟨rfl, hcode⟩))
    · exact .inr (.inl rfl)
  · by_cases hmid : j < 12
    · have hlen : (sub d 4 8).length = 8 := length_sub (by omega)
      left
      rw [List.getElem?_append_left (by simp [hlen]; omega), List.getElem?_append_right (by simp; omega)]
      simp only [List.length_cons, List.length_nil]
      rw [getElem?_sub (by omega), Nat.add_sub_cancel' (by omega), hx]
    · exact .inr (.inr (.inl (by omega)))

theorem flatMap_decodeSamples {p : List UInt8} (h : 2 ∣ p.length) : (decodeSamples p).flatMap (toLe 2) = p := by
  fun_induction decodeSamples p with
  | case1 a b rest ih =>
    have hrest : 2 ∣ rest.length := by
      rw [List.length_cons, List.length_cons] at h
      omega
    have hpair : toLe 2 (ofLe 2 [a, b]) = [a, b] := toLe_ofLe rfl
    rw [List.flatMap_cons, hpair, ih hrest]
    rfl
  | case2 p hp =>
    cases p with
    | nil => rfl
    | cons a p =>
      cases p with
      | nil => simp at h
      | cons b p => exact (hp a b p rfl).elim

theorem length_decodeSamples (p : List UInt8) : (decodeSamples p).length = p.length / 2 := by
  fun_induction decodeSamples p with
  | case1 a b rest ih =>
    rw [List.length_cons, ih, List.length_cons, List.length_cons]
    omega
  | case2 p hp =>
    cases p with
    | nil => rfl
    | cons a p =>
      cases p with
      | nil => simp
      | cons b p => exact (hp a b p rfl).elim

theorem Decodes.length_samples (h : Decodes buf f) :
    f.samples.length = f.samplesPerChannel.toNat * f.channels.length := by
  have hpayload := h.payload
  rw [Header.sampleBytes] at hpayload
  rw [h.samples, length_decodeSamples, List.length_drop, hpayload]
  exact Nat.mul_div_cancel _ (by omega)

theorem Decodes.payload_encode (h : Decodes buf f) :
    f.samples.flatMap (toLe 2) = buf.drop (payloadStart f.channels.length) := by
  rw [h.samples]
  apply flatMap_decodeSamples
  rw [List.length_drop, h.payload]
  exact ⟨_, Nat.mul_comm _ _⟩

theorem Decodes.length_encode (h : Decodes buf f) : (encode f).length = buf.length := by
  have hpayload := congrArg List.length h.payload_encode
  rw [length_flatMap_of_length (length_toLe 2), List.length_drop] at hpayload
  rw [Scope.length_encode, hpayload]
  have := h.size
  omega

/-- What a decoded frame encodes to differs from the bytes it came from only where those were not read. -/
theorem Decodes.encode_agrees (h : Decodes buf f) {i : Nat} {x : UInt8} (hx : buf[i]? = some x) :
    (encode f)[i]? = some x ∨ Unread f.channels.length i x := by
  by_cases hhead : i < 52
  · left
    rw [encode, List.append_assoc, h.encodeHeader_eq_sub, List.append_assoc, List.getElem?_append_left,
      getElem?_sub hhead, Nat.zero_add, hx]
    rw [length_sub]
    · exact hhead
    · have := Nat.le_trans (header_le_payloadStart _) h.size
      rw [HEADER_SIZE] at this
      omega
  by_cases htail : i < HEADER_SIZE
  · exact .inr (.inl ⟨by omega, htail⟩)
  by_cases hdesc : i < payloadStart f.channels.length
  · -- the byte `j` of descriptor `k`
    obtain ⟨k, j, hj, rfl⟩ : ∃ k j, j < 16 ∧ i = payloadStart k + j := by
      refine ⟨(i - 64) / 16, (i - 64) % 16, Nat.mod_lt _ (by omega), ?_⟩
      rw [payloadStart, HEADER_SIZE, CHANNEL_DESC_SIZE]
      rw [HEADER_SIZE] at htail
      omega
    have hk : k < f.channels.length := by
      rw [payloadStart, payloadStart, CHANNEL_DESC_SIZE] at hdesc
      omega
    obtain ⟨rest, hrest⟩ := drop_encode_channel hk
    have hd : 16 ≤ (buf.drop (payloadStart k)).length := by
      have := h.size
      rw [payloadStart, HEADER_SIZE, CHANNEL_DESC_SIZE] at this
      rw [List.length_drop, payloadStart, HEADER_SIZE, CHANNEL_DESC_SIZE]
      omega
    rw [← List.getElem?_drop] at hx ⊢
    rw [hrest, List.getElem?_append_left (by rw [length_encodeChannel]; exact hj)]
    refine (encodeChannel_agrees (h.channels k hk) hd hx hj).imp_right fun hfree => .inr ⟨k, hk, ?_⟩
    obtain rfl | htop | ⟨rfl, hcode⟩ := hfree
    · exact .inl rfl
    · exact .inr (.inl (by omega))
    · exact .inr (.inr ⟨rfl, hcode⟩)
  · left
    obtain ⟨j, rfl⟩ := Nat.exists_eq_add_of_le (Nat.not_lt.mp hdesc)
    rw [← List.getElem?_drop, drop_encode_payload, h.payload_encode, List.getElem?_drop, hx]

theorem Decodes.channelSamples_eq (h : Decodes buf f) {i : Nat} (hi : i < f.channels.length) :
    channelSamples f i = .ok (some (sub f.samples (i * f.samplesPerChannel.toNat) f.samplesPerChannel.toNat)) := by
  have hlast : (i + 1) * f.samplesPerChannel.toNat ≤ f.samples.length := by
    rw [h.length_samples, Nat.mul_comm]
    exact Nat.mul_le_mul_left _ hi
  have hc : f.channels.length < 256 := by
    rw [← header_channelCount, ← h.header]
    exact channelCount_lt buf
  have hn : f.samplesPerChannel.toNat < 2 ^ 32 := f.samplesPerChannel.isLt
  have hbound : (i + 1) * f.samplesPerChannel.toNat ≤ 256 * 2 ^ 32 := Nat.mul_le_mul (by omega) (by omega)
  have hstep : (i + 1) * f.samplesPerChannel.toNat = i * f.samplesPerChannel.toNat + f.samplesPerChannel.toNat :=
    Nat.succ_mul _ _
  have hslice := slice_eq (show i * f.samplesPerChannel.toNat ≤ (i + 1) * f.samplesPerChannel.toNat by omega) hlast
  rw [hstep, Nat.add_sub_cancel_left] at hslice
  rw [channelSamples, if_neg (Nat.not_le.mpr hi)]
  simp only [usize_eq (show i * f.samplesPerChannel.toNat < 2 ^ 64 by omega),
    usize_eq (show (i + 1) * f.samplesPerChannel.toNat < 2 ^ 64 by omega), ok_bind]
  rw [hstep, hslice]
  rfl

/-- **Round trip of LSCP/1.** A frame with lettered channels, at most 255 of them, and the samples it promises
comes back from its bytes. What `decode` accepts is a well formed frame, every channel of which can be sliced
out, and it encodes to the same bytes but for the unread ones. `decode` panics on no string. -/
theorem lscp_round_trip :
    (∀ f, Encodable f → decode (encode f) = .ok f) ∧
    (∀ b f, decode b = .ok f →
      f.samples.length = f.samplesPerChannel.toNat * f.channels.length ∧
      (∀ i < f.channels.length, ∃ xs, channelSamples f i = .ok (some xs) ∧ xs.length = f.samplesPerChannel.toNat) ∧
      (encode f).length = b.length ∧
      ∀ (i : Nat) (x : UInt8), b[i]? = some x → (encode f)[i]? = some x ∨ Unread f.channels.length i x) ∧
    ∀ b, decode b ≠ .error .panic := by
  refine ⟨fun f h => h.decodes.decode_eq_ok, fun b f h => ?_, decode_ne_panic⟩
  have hd := Decodes.of_decode h
  refine ⟨hd.length_samples, fun i hi => ⟨_, hd.channelSamples_eq hi, length_sub ?_⟩, hd.length_encode,
    fun i x hx => hd.encode_agrees hx⟩
  rw [hd.length_samples, ← Nat.succ_mul, Nat.mul_comm]
  exact Nat.mul_le_mul_left _ hi

/-- The frame of the tests in `lscp.rs`, with four samples a channel. -/
def sampleFrame : CaptureFrame where
  seq := 42
  captureMonoNs := 1234567890
  sampleIntervalNs := 0x4020000000000000
  preTriggerSamples := 2
  postTriggerSamples := 2
  samplesPerChannel := 4
  resolutionBits := 8
  overflowMask := 2
  flags := 1
  screenSamples := 0
  channels := [⟨.alphabetic 'A', 7, .DC, 0x3A83126F, 0⟩, ⟨.alphabetic 'B', 5, .AC, 0x3B03126F, 0xBF000000⟩]
  samples := [0, 100, -300, 0, 1, 2, -4, -1]

theorem sampleFrame_encodable : Encodable sampleFrame := by
  refine ⟨?_, by decide, by decide⟩
  simp [sampleFrame, ChannelId.IsLetter]

theorem sampleFrame_round_trip :
    decode (encode sampleFrame) = .ok sampleFrame ∧ (encode sampleFrame).length = 112 :=
  ⟨lscp_round_trip.1 sampleFrame sampleFrame_encodable, by rw [length_encode]; rfl⟩

end Lager.Scope
