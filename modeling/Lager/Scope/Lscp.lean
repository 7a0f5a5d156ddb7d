import Lager.Lib.Bytes
import Lager.Lib.Fold

/-!
# LSCP/1, the binary capture frame format

`protocol/src/lscp.rs` of the oscilloscope daemon: a header of 64 bytes, a descriptor of 16 bytes for each
channel, and the samples of all channels, channel by channel. All numbers are little-endian. Integers wider
than a byte and floats are their bit patterns.

`decode` takes bytes from outside. Its slices, `unwrap`s and `usize` arithmetic are the checked ones of Rust:
what would panic there is `Fault.panic` here.
-/

namespace Lager.Scope

open Lager.Lib

/-! ### The frame -/

inductive ChannelId where
  | alphabetic (c : Char)
  | numeric (n : UInt8)
  deriving DecidableEq

inductive Coupling where
  | DC
  | AC
  | GND
  deriving DecidableEq

structure ChannelFrame where
  channel : ChannelId
  rangeCode : UInt8
  coupling : Coupling
  scaleVPerCount : BitVec 32
  offsetV : BitVec 32
  deriving DecidableEq

structure CaptureFrame where
  seq : BitVec 64
  captureMonoNs : BitVec 64
  sampleIntervalNs : BitVec 64
  preTriggerSamples : BitVec 32
  postTriggerSamples : BitVec 32
  samplesPerChannel : BitVec 32
  resolutionBits : UInt8
  overflowMask : BitVec 16
  flags : BitVec 16
  screenSamples : BitVec 32
  channels : List ChannelFrame
  samples : List (BitVec 16)
  deriving DecidableEq

def MAGIC : BitVec 32 := 0x5043534C
def VERSION : BitVec 16 := 1
def HEADER_SIZE : Nat := 64
def CHANNEL_DESC_SIZE : Nat := 16

inductive DecodeError where
  | tooShort (need got : Nat)
  | badMagic (magic : BitVec 32)
  | unsupportedVersion (version : BitVec 16)
  | lengthMismatch (expected got : Nat)
  | badChannel (code : UInt8)
  deriving DecidableEq

/-- How a Rust function may fail to return a value: it panics, or it returns an `Err`. -/
inductive Fault where
  | panic
  | refused (e : DecodeError)
  deriving DecidableEq

/-! ### Encoding -/

/-- `(c as u8).wrapping_sub(b'A')` for a letter. -/
def channelToU8 : ChannelId → UInt8
  | .alphabetic c => UInt8.ofNat c.toNat - 65
  | .numeric n => n

def couplingToU8 : Coupling → UInt8
  | .DC => 0
  | .AC => 1
  | .GND => 2

/-- `Vec::resize(n, 0)`. -/
def resize (l : List UInt8) (n : Nat) : List UInt8 := l.take n ++ List.replicate (n - l.length) 0

def encodeHeader (f : CaptureFrame) : List UInt8 :=
  resize (toLe 4 MAGIC ++ toLe 2 VERSION ++ toLe 2 f.flags ++ toLe 8 f.seq ++ toLe 8 f.captureMonoNs ++
    toLe 8 f.sampleIntervalNs ++ toLe 4 f.preTriggerSamples ++ toLe 4 f.postTriggerSamples ++
    toLe 4 f.samplesPerChannel ++ [UInt8.ofNat f.channels.length] ++ [f.resolutionBits] ++
    toLe 2 f.overflowMask ++ toLe 4 f.screenSamples) HEADER_SIZE

def encodeChannel (c : ChannelFrame) : List UInt8 :=
  [channelToU8 c.channel, c.rangeCode, couplingToU8 c.coupling, 0] ++ toLe 4 c.scaleVPerCount ++
    toLe 4 c.offsetV ++ [0, 0, 0, 0]

/-- `CaptureFrame::encode`. -/
def encode (f : CaptureFrame) : List UInt8 :=
  encodeHeader f ++ f.channels.flatMap encodeChannel ++ f.samples.flatMap (toLe 2)

/-! ### Checked Rust operations -/

/-- `buf[a..b]`. -/
def slice {α : Type} (buf : List α) (a b : Nat) : Except Fault (List α) :=
  if a ≤ b ∧ b ≤ buf.length then .ok (sub buf a (b - a)) else .error .panic

/-- `buf[i]`. -/
def index (buf : List UInt8) (i : Nat) : Except Fault UInt8 :=
  match buf[i]? with
  | some b => .ok b
  | none => .error .panic

/-- `from_le_bytes(buf[a..b].try_into().unwrap())` for a word of `n` bytes. -/
def fromLeBytes (n : Nat) (buf : List UInt8) (a b : Nat) : Except Fault (BitVec (8 * n)) := do
  let bytes ← slice buf a b
  if bytes.length = n then .ok (ofLe n bytes) else .error .panic

/-- A `usize` result of 64 bits. -/
def usize (n : Nat) : Except Fault Nat := if n < 2 ^ 64 then .ok n else .error .panic

/-! ### Decoding -/

def channelFromU8 (value : UInt8) : Except Fault ChannelId :=
  if value.toNat ≤ 90 - 65 then .ok (.alphabetic (Char.ofNat (65 + value.toNat)))
  else .error (.refused (.badChannel value))

def couplingFromU8 (value : UInt8) : Coupling :=
  if value = 1 then .AC else if value = 2 then .GND else .DC

/-- The header's fields, as `decode` has read them. -/
structure Header where
  flags : BitVec 16
  seq : BitVec 64
  captureMonoNs : BitVec 64
  sampleIntervalNs : BitVec 64
  preTriggerSamples : BitVec 32
  postTriggerSamples : BitVec 32
  samplesPerChannel : BitVec 32
  channelCount : Nat
  resolutionBits : UInt8
  overflowMask : BitVec 16
  screenSamples : BitVec 32

/-- The first part of `decode`, down to `screen_samples`. -/
def decodeHeader (buf : List UInt8) : Except Fault Header :=
  if buf.length < HEADER_SIZE then .error (.refused (.tooShort HEADER_SIZE buf.length))
  else do
    let magic ← fromLeBytes 4 buf 0 4
    if magic ≠ MAGIC then .error (.refused (.badMagic magic))
    else
      let version ← fromLeBytes 2 buf 4 6
      if version ≠ VERSION then .error (.refused (.unsupportedVersion version))
      else
        let flags ← fromLeBytes 2 buf 6 8
        let seq ← fromLeBytes 8 buf 8 16
        let captureMonoNs ← fromLeBytes 8 buf 16 24
        let sampleIntervalNs ← fromLeBytes 8 buf 24 32
        let preTriggerSamples ← fromLeBytes 4 buf 32 36
        let postTriggerSamples ← fromLeBytes 4 buf 36 40
        let samplesPerChannel ← fromLeBytes 4 buf 40 44
        let channelCount ← index buf 44
        let resolutionBits ← index buf 45
        let overflowMask ← fromLeBytes 2 buf 46 48
        let screenSamples ← fromLeBytes 4 buf 48 52
        pure { flags, seq, captureMonoNs, sampleIntervalNs, preTriggerSamples, postTriggerSamples,
               samplesPerChannel, channelCount := channelCount.toNat, resolutionBits, overflowMask, screenSamples }

/-- One round of the loop over the descriptors. -/
def decodeChannel (buf : List UInt8) (i : Nat) : Except Fault ChannelFrame := do
  let pos ← usize (HEADER_SIZE + i * CHANNEL_DESC_SIZE)
  let channel ← channelFromU8 (← index buf pos)
  let rangeCode ← index buf (← usize (pos + 1))
  let coupling ← index buf (← usize (pos + 2))
  let scaleVPerCount ← fromLeBytes 4 buf (← usize (pos + 4)) (← usize (pos + 8))
  let offsetV ← fromLeBytes 4 buf (← usize (pos + 8)) (← usize (pos + 12))
  pure { channel, rangeCode, coupling := couplingFromU8 coupling, scaleVPerCount, offsetV }

/-- The loop over `payload.chunks_exact(2)`. -/
def decodeSamples : List UInt8 → List (BitVec 16)
  | a :: b :: rest => ofLe 2 [a, b] :: decodeSamples rest
  | _ => []

/-- `CaptureFrame::decode`. -/
def decode (buf : List UInt8) : Except Fault CaptureFrame := do
  let h ← decodeHeader buf
  let descriptorsEnd ← usize (HEADER_SIZE + h.channelCount * CHANNEL_DESC_SIZE)
  if buf.length < descriptorsEnd then .error (.refused (.tooShort descriptorsEnd buf.length))
  else
    let channels ← (List.range h.channelCount).mapM (decodeChannel buf)
    let sampleCount ← usize (h.samplesPerChannel.toNat * h.channelCount)
    let payload ← slice buf descriptorsEnd buf.length
    let payloadLen ← usize (sampleCount * 2)
    if payload.length ≠ payloadLen then .error (.refused (.lengthMismatch payloadLen payload.length))
    else
      pure { seq := h.seq, captureMonoNs := h.captureMonoNs, sampleIntervalNs := h.sampleIntervalNs,
             preTriggerSamples := h.preTriggerSamples, postTriggerSamples := h.postTriggerSamples,
             samplesPerChannel := h.samplesPerChannel, resolutionBits := h.resolutionBits,
             overflowMask := h.overflowMask, screenSamples := h.screenSamples, flags := h.flags,
             channels, samples := decodeSamples payload }

/-- `CaptureFrame::channel_samples`. -/
def channelSamples (f : CaptureFrame) (i : Nat) : Except Fault (Option (List (BitVec 16))) :=
  if f.channels.length ≤ i then .ok none
  else do
    let n := f.samplesPerChannel.toNat
    let samples ← slice f.samples (← usize (i * n)) (← usize ((i + 1) * n))
    pure (some samples)

end Lager.Scope
