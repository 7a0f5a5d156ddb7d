import Lager.Lib.Bytes
import Lager.Lib.Fold
import Mathlib.Algebra.Order.Group.Int

/-!
# BluFi frames

`blufi/client.py`. A message is sent as one or more frames of at most the package limit:

    type | control | sequence | data length | data | checksum

A message too long for one frame is cut, and every fragment but the last carries, in front of its piece, the
number of bytes that are still to come with it. The peer drops these two bytes, collects the pieces in `rxBuf`
and hands the buffer to the handler of the frame type when a frame comes that is no fragment.

The cipher and the key derivation are code of libraries and parameters here. Of the handlers only what they do
to the key and whether they raise is part of the model.
-/

namespace Lager.Blufi

open Lager.Lib

abbrev Bytes := List UInt8

/-- The exceptions that come up. -/
inductive Raised where
  | valueError
  | structError
  | indexError
  | cryptoError
  deriving DecidableEq

/-! ### Frame types and frame control -/

/-- `CTRL` and `DATA`. -/
inductive Package where
  | ctrl
  | data
  deriving DecidableEq

/-- `PACKAGE_VALUE`. -/
def Package.value : Package → Nat
  | .ctrl => 0
  | .data => 1

def getTypeValue (package subType : Nat) : Nat := (subType <<< 2) ||| package

def getPackageType (typeValue : Nat) : Nat := typeValue &&& 0b11

def getSubType (typeValue : Nat) : Nat := (typeValue &&& 0b11111100) >>> 2

/-- A frame type: a package value and a subtype of six bits. -/
structure FrameType where
  package : Package
  subType : Fin 64
  deriving DecidableEq

def FrameType.value (t : FrameType) : Nat := getTypeValue t.package.value t.subType

def setBit (b : Bool) (position frame : Nat) : Nat := if b then frame ||| (1 <<< position) else frame

/-- `FrameCtrlData.getFrameCTRLValue`; the direction is always `DIRECTION_OUTPUT`, whose bit is clear. -/
def getFrameCTRLValue (encrypted checksum requireAck frag : Bool) : Nat :=
  setBit frag 4 (setBit requireAck 3 (setBit checksum 1 (setBit encrypted 0 0)))

/-- `FrameCtrlData.check`. -/
def check (value position : Nat) : Bool := (value >>> position) &&& 1 == 1

def isEncrypted (value : Nat) : Bool := check value 0
def isChecksum (value : Nat) : Bool := check value 1
def hasFrag (value : Nat) : Bool := check value 4

/-! ### The checksum -/

/-- `BlufiCRC.CRC_TB`. -/
def CRC_TB : List (BitVec 16) :=
  [0x0000, 0x1021, 0x2042, 0x3063, 0x4084, 0x50a5, 0x60c6, 0x70e7, 0x8108, 0x9129, 0xa14a, 0xb16b,
   0xc18c, 0xd1ad, 0xe1ce, 0xf1ef, 0x1231, 0x0210, 0x3273, 0x2252, 0x52b5, 0x4294, 0x72f7, 0x62d6,
   0x9339, 0x8318, 0xb37b, 0xa35a, 0xd3bd, 0xc39c, 0xf3ff, 0xe3de, 0x2462, 0x3443, 0x0420, 0x1401,
   0x64e6, 0x74c7, 0x44a4, 0x5485, 0xa56a, 0xb54b, 0x8528, 0x9509, 0xe5ee, 0xf5cf, 0xc5ac, 0xd58d,
   0x3653, 0x2672, 0x1611, 0x0630, 0x76d7, 0x66f6, 0x5695, 0x46b4, 0xb75b, 0xa77a, 0x9719, 0x8738,
   0xf7df, 0xe7fe, 0xd79d, 0xc7bc, 0x48c4, 0x58e5, 0x6886, 0x78a7, 0x0840, 0x1861, 0x2802, 0x3823,
   0xc9cc, 0xd9ed, 0xe98e, 0xf9af, 0x8948, 0x9969, 0xa90a, 0xb92b, 0x5af5, 0x4ad4, 0x7ab7, 0x6a96,
   0x1a71, 0x0a50, 0x3a33, 0x2a12, 0xdbfd, 0xcbdc, 0xfbbf, 0xeb9e, 0x9b79, 0x8b58, 0xbb3b, 0xab1a,
   0x6ca6, 0x7c87, 0x4ce4, 0x5cc5, 0x2c22, 0x3c03, 0x0c60, 0x1c41, 0xedae, 0xfd8f, 0xcdec, 0xddcd,
   0xad2a, 0xbd0b, 0x8d68, 0x9d49, 0x7e97, 0x6eb6, 0x5ed5, 0x4ef4, 0x3e13, 0x2e32, 0x1e51, 0x0e70,
   0xff9f, 0xefbe, 0xdfdd, 0xcffc, 0xbf1b, 0xaf3a, 0x9f59, 0x8f78, 0x9188, 0x81a9, 0xb1ca, 0xa1eb,
   0xd10c, 0xc12d, 0xf14e, 0xe16f, 0x1080, 0x00a1, 0x30c2, 0x20e3, 0x5004, 0x4025, 0x7046, 0x6067,
   0x83b9, 0x9398, 0xa3fb, 0xb3da, 0xc33d, 0xd31c, 0xe37f, 0xf35e, 0x02b1, 0x1290, 0x22f3, 0x32d2,
   0x4235, 0x5214, 0x6277, 0x7256, 0xb5ea, 0xa5cb, 0x95a8, 0x8589, 0xf56e, 0xe54f, 0xd52c, 0xc50d,
   0x34e2, 0x24c3, 0x14a0, 0x0481, 0x7466, 0x6447, 0x5424, 0x4405, 0xa7db, 0xb7fa, 0x8799, 0x97b8,
   0xe75f, 0xf77e, 0xc71d, 0xd73c, 0x26d3, 0x36f2, 0x0691, 0x16b0, 0x6657, 0x7676, 0x4615, 0x5634,
   0xd94c, 0xc96d, 0xf90e, 0xe92f, 0x99c8, 0x89e9, 0xb98a, 0xa9ab, 0x5844, 0x4865, 0x7806, 0x6827,
   0x18c0, 0x08e1, 0x3882, 0x28a3, 0xcb7d, 0xdb5c, 0xeb3f, 0xfb1e, 0x8bf9, 0x9bd8, 0xabbb, 0xbb9a,
   0x4a75, 0x5a54, 0x6a37, 0x7a16, 0x0af1, 0x1ad0, 0x2ab3, 0x3a92, 0xfd2e, 0xed0f, 0xdd6c, 0xcd4d,
   0xbdaa, 0xad8b, 0x9de8, 0x8dc9, 0x7c26, 0x6c07, 0x5c64, 0x4c45, 0x3ca2, 0x2c83, 0x1ce0, 0x0cc1,
   0xef1f, 0xff3e, 0xcf5d, 0xdf7c, 0xaf9b, 0xbfba, 0x8fd9, 0x9ff8, 0x6e17, 0x7e36, 0x4e55, 0x5e74,
   0x2e93, 0x3eb2, 0x0ed1, 0x1ef0]

/-- `BlufiCRC.calcCRC`. The `& 0xffff` after each operation is the width. -/
def calcCRC (crc : BitVec 16) (bytes : Bytes) : BitVec 16 :=
  ~~~ bytes.foldl (fun crc b => CRC_TB.getD ((crc >>> 8) ^^^ BitVec.ofNat 16 b.toNat).toNat 0 ^^^ (crc <<< 8)) (~~~ crc)

/-! ### The sender -/

/-- `BlufiAES(key, generateAESIV(seq))` and its two methods, under a key that may be missing. -/
structure Aes where
  encrypt : Option Bytes → Nat → Bytes → Except Raised Bytes
  decrypt : Option Bytes → Nat → Bytes → Except Raised Bytes

structure Client where
  mPackageLengthLimit : Int
  /-- What the connection reports less 4, where it does (not on Linux). -/
  mBlufiMTU : Int
  mSendSequence : Int
  mAESKey : Option Bytes

def DEFAULT_PACKAGE_LENGTH : Int := 20
def PACKAGE_HEADER_LENGTH : Int := 4
def MIN_PACKAGE_LENGTH : Int := 20

def setPostPackageLengthLimit (c : Client) (lengthLimit : Int) : Client :=
  { c with mPackageLengthLimit := if lengthLimit ≤ 0 then -1 else max (lengthLimit - 4) MIN_PACKAGE_LENGTH }

/-- `pkgLengthLimit` in `postContainData`. -/
def Client.pkgLengthLimit (c : Client) : Int :=
  if c.mPackageLengthLimit > 0 then c.mPackageLengthLimit
  else if c.mBlufiMTU > 0 then c.mBlufiMTU
  else DEFAULT_PACKAGE_LENGTH

/-- `generateSendSequence`. -/
def generateSendSequence (mSendSequence : Int) : Nat := ((mSendSequence + 1) % 256).toNat

/-- `bytes([n])`. -/
def byte (n : Nat) : Except Raised Bytes := if n < 256 then .ok [UInt8.ofNat n] else .error .valueError

/-- `struct.pack("<H", n)`. -/
def packH (n : Nat) : Except Raised Bytes := if n < 65536 then .ok (leBytes 2 n) else .error .structError

/-- What a message is sent with. -/
structure Post where
  encrypt : Bool
  checksum : Bool
  requireAck : Bool
  type : FrameType

/-- `struct.pack("<H", crc)` over the sequence number, the data length and the data. -/
def checksumBytes (sequence : Nat) (data : Bytes) : Bytes :=
  toLe 2 (calcCRC (calcCRC 0 [UInt8.ofNat sequence, UInt8.ofNat data.length]) data)

def encryptIf (aes : Aes) (encrypt : Bool) (key : Option Bytes) (seq : Nat) (data : Bytes) : Except Raised Bytes :=
  if encrypt then aes.encrypt key seq data else .ok data

/-- `getPostBytes`, for data that is not empty. -/
def getPostBytes (aes : Aes) (key : Option Bytes) (p : Post) (frag : Bool) (sequence : Nat) (data : Bytes) :
    Except Raised Bytes := do
  let type ← byte p.type.value
  let frameCtrl ← byte (getFrameCTRLValue p.encrypt p.checksum p.requireAck frag)
  let seq ← byte sequence
  let dataLength ← byte data.length
  let sent ← encryptIf aes p.encrypt key sequence data
  pure (type ++ frameCtrl ++ seq ++ dataLength ++ sent ++ if p.checksum then checksumBytes sequence data else [])

/-- What has become of a message: the frames written so far, the sequence number and how the call ended. -/
structure Posted where
  frames : List Bytes
  mSendSequence : Int
  result : Except Raised Bool

/-- What the next frame takes of the rest of the message, and what is left after it: a piece, and a remainder
of one or two bytes with it. -/
def cut (limit : Nat) (data : Bytes) : Bytes × Bytes :=
  let left := data.drop limit
  if 0 < left.length ∧ left.length ≤ 2 then (data.take limit ++ left.take limit, left.drop limit)
  else (data.take limit, left)

/-- The data of a frame. A fragment begins with the number of bytes that are still to come, its own included. -/
def frameData (content left : Bytes) : Except Raised Bytes :=
  if left = [] then .ok content
  else do
    let totalLen ← packH (content.length + left.length)
    pure (totalLen ++ content)

def frameOf (aes : Aes) (key : Option Bytes) (p : Post) (sequence : Nat) (content left : Bytes) :
    Except Raised Bytes := do
  let data ← frameData content left
  getPostBytes aes key p (left ≠ []) sequence data

theorem length_cut_lt {limit : Nat} {data : Bytes} (h : data.take limit ≠ []) :
    (cut limit data).2.length < data.length := by
  have hpos : 0 < (data.take limit).length := List.length_pos_iff.mpr h
  rw [List.length_take] at hpos
  unfold cut
  simp only
  split
  · simp only [List.length_drop]
    omega
  · simp only [List.length_drop]
    omega

/-- The loop of `postContainData`. `acked`: whether the acknowledgement of a fragment arrives. -/
def postLoop (aes : Aes) (acked : Nat → Bool) (key : Option Bytes) (p : Post) (limit : Nat) (data : Bytes)
    (mSendSequence : Int) : Posted :=
  if data.take limit = [] then ⟨[], mSendSequence, .ok true⟩
  else
    let sequence := generateSendSequence mSendSequence
    match frameOf aes key p sequence (cut limit data).1 (cut limit data).2 with
    | .error e => ⟨[], sequence, .error e⟩
    | .ok frame =>
      if (cut limit data).2 ≠ [] ∧ p.requireAck ∧ !acked sequence then ⟨[frame], sequence, .ok false⟩
      else
        let rest := postLoop aes acked key p limit (cut limit data).2 sequence
        ⟨frame :: rest.frames, rest.mSendSequence, rest.result⟩
  termination_by data.length
  decreasing_by exact length_cut_lt ‹_›

/-- `postDataLengthLimit`. -/
def Client.postDataLengthLimit (c : Client) (checksum : Bool) : Int :=
  c.pkgLengthLimit - PACKAGE_HEADER_LENGTH - 2 - if checksum then 2 else 0

/-- `postContainData`; `bytearray(n)` of a negative length raises. -/
def postContainData (aes : Aes) (acked : Nat → Bool) (c : Client) (p : Post) (data : Bytes) : Posted :=
  if c.postDataLengthLimit p.checksum < 0 then ⟨[], c.mSendSequence, .error .valueError⟩
  else postLoop aes acked c.mAESKey p (c.postDataLengthLimit p.checksum).toNat data c.mSendSequence

/-! ### The receiver -/

structure Peer where
  mReadSequence : Int
  mAESKey : Option Bytes
  rxBuf : Bytes
  rxPubKeyBuf : Bytes
  /-- The messages handed to `parseCtrlData` and `parseDataData` so far. -/
  delivered : List (FrameType × Bytes)

def SUBTYPE_NEG : Nat := 0x00
def SUBTYPE_VERSION : Nat := 0x10

/-- `parseDataData`. `parsePublicKey` derives the key from all it has been given, which may raise, and
`parseVersion` reads two bytes without a check. The other handlers return, whatever the data. -/
def parseDataData (deriveSharedKey : Bytes → Except Raised Bytes) (peer : Peer) (subType : Nat) (data : Bytes) :
    Peer × Except Raised Unit :=
  if subType = SUBTYPE_NEG then
    let rxPubKeyBuf := peer.rxPubKeyBuf ++ data
    match deriveSharedKey rxPubKeyBuf with
    | .ok key => ({ peer with rxPubKeyBuf, mAESKey := some key }, .ok ())
    | .error e => ({ peer with rxPubKeyBuf }, .error e)
  else if subType = SUBTYPE_VERSION then (peer, if data.length < 2 then .error .indexError else .ok ())
  else (peer, .ok ())

/-- The handler of a complete message; a frame type whose package value is neither has none. -/
def parseMessage (deriveSharedKey : Bytes → Except Raised Bytes) (peer : Peer) (typeValue : Nat) (data : Bytes) :
    Peer × Except Raised Unit :=
  if getPackageType typeValue = Package.ctrl.value then
    ({ peer with delivered := peer.delivered ++ [(⟨.ctrl, Fin.ofNat 64 (getSubType typeValue)⟩, data)] }, .ok ())
  else if getPackageType typeValue = Package.data.value then
    parseDataData deriveSharedKey
      { peer with delivered := peer.delivered ++ [(⟨.data, Fin.ofNat 64 (getSubType typeValue)⟩, data)] }
      (getSubType typeValue) data
  else (peer, .ok ())

/-- The end of `_parseNotificationLocked`: the data of a good frame. The buffer is reset after the handler has
returned. -/
def accept (deriveSharedKey : Bytes → Except Raised Bytes) (peer : Peer) (typeValue frameCtrl : Nat)
    (dataBytes : Bytes) : Peer × Except Raised Unit :=
  if hasFrag frameCtrl then ({ peer with rxBuf := peer.rxBuf ++ dataBytes.drop 2 }, .ok ())
  else
    let peer := { peer with rxBuf := peer.rxBuf ++ dataBytes }
    match parseMessage deriveSharedKey peer typeValue peer.rxBuf with
    | (peer, .ok ()) => ({ peer with rxBuf := [] }, .ok ())
    | (peer, .error e) => (peer, .error e)

def decryptIf (aes : Aes) (encrypted : Bool) (key : Option Bytes) (seq : Nat) (data : Bytes) : Except Raised Bytes :=
  if encrypted then aes.decrypt key seq data else .ok data

/-- `_parseNotificationLocked`. A sequence number that is not the expected one is only logged. -/
def parseNotificationLocked (aes : Aes) (deriveSharedKey : Bytes → Except Raised Bytes) (peer : Peer) :
    Bytes → Peer × Except Raised Unit
  | type :: frameCtrl :: seq :: dataLen :: tail =>
    let peer := { peer with mReadSequence := peer.mReadSequence + 1 }
    let dataBytes := tail.take dataLen.toNat
    match decryptIf aes (isEncrypted frameCtrl.toNat) peer.mAESKey seq.toNat dataBytes with
    | .error e => (peer, .error e)
    | .ok dataBytes =>
      let crc := calcCRC (calcCRC 0 [seq, dataLen]) dataBytes
      -- the last two bytes of the frame, whatever lies between the data and them
      let received := (type :: frameCtrl :: seq :: dataLen :: tail).reverse.take 2
      if isChecksum frameCtrl.toNat ∧ received ≠ (toLe 2 crc).reverse then (peer, .ok ())
      else accept deriveSharedKey peer type.toNat frameCtrl.toNat dataBytes
  | [_, _, _] => ({ peer with mReadSequence := peer.mReadSequence + 1 }, .error .indexError)
  | _ => (peer, .error .indexError)

/-- The frames of a message, one notification after the other. An exception ends its own callback only. -/
def feed (aes : Aes) (deriveSharedKey : Bytes → Except Raised Bytes) (peer : Peer) (frames : List Bytes) : Peer :=
  frames.foldl (fun peer frame => (parseNotificationLocked aes deriveSharedKey peer frame).1) peer

end Lager.Blufi
