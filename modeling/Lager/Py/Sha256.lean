import Lager.Py.Text
import Mathlib.Algebra.Group.Nat.Defs

/-!
# `hashlib.sha256(data).hexdigest()`

SHA-256 as FIPS 180-4 defines it, over byte lists. The store's theorems hold for any function in its place;
this is the one the programs use.
-/

namespace Lager.Py

namespace Sha256

def roundConstants : List UInt32 :=
  [0x428a2f98, 0x71374491, 0xb5c0fbcf, 0xe9b5dba5, 0x3956c25b, 0x59f111f1, 0x923f82a4, 0xab1c5ed5,
    0xd807aa98, 0x12835b01, 0x243185be, 0x550c7dc3, 0x72be5d74, 0x80deb1fe, 0x9bdc06a7, 0xc19bf174,
    0xe49b69c1, 0xefbe4786, 0x0fc19dc6, 0x240ca1cc, 0x2de92c6f, 0x4a7484aa, 0x5cb0a9dc, 0x76f988da,
    0x983e5152, 0xa831c66d, 0xb00327c8, 0xbf597fc7, 0xc6e00bf3, 0xd5a79147, 0x06ca6351, 0x14292967,
    0x27b70a85, 0x2e1b2138, 0x4d2c6dfc, 0x53380d13, 0x650a7354, 0x766a0abb, 0x81c2c92e, 0x92722c85,
    0xa2bfe8a1, 0xa81a664b, 0xc24b8b70, 0xc76c51a3, 0xd192e819, 0xd6990624, 0xf40e3585, 0x106aa070,
    0x19a4c116, 0x1e376c08, 0x2748774c, 0x34b0bcb5, 0x391c0cb3, 0x4ed8aa4a, 0x5b9cca4f, 0x682e6ff3,
    0x748f82ee, 0x78a5636f, 0x84c87814, 0x8cc70208, 0x90befffa, 0xa4506ceb, 0xbef9a3f7, 0xc67178f2]

def initialHash : List UInt32 :=
  [0x6a09e667, 0xbb67ae85, 0x3c6ef372, 0xa54ff53a, 0x510e527f, 0x9b05688c, 0x1f83d9ab, 0x5be0cd19]

def rotr (x n : UInt32) : UInt32 := (x >>> n) ||| (x <<< (32 - n))

/-- The message, a one bit, zeros, and the length in bits. -/
def pad (data : Bytes) : Bytes :=
  let zeros := (119 - data.length % 64) % 64
  let bits := data.length * 8
  data ++ 0x80 :: List.replicate zeros 0 ++
    (List.range 8).reverse.map fun i => (bits / 256 ^ i % 256).toUInt8

/-- Four bytes to a word, most significant first. -/
def words : Bytes → List UInt32
  | a :: b :: c :: d :: rest =>
    ((a.toUInt32 <<< 24) ||| (b.toUInt32 <<< 16) ||| (c.toUInt32 <<< 8) ||| d.toUInt32) :: words rest
  | _ => []

/-- `n` more words of the message schedule, kept newest first. -/
def schedule : Nat → List UInt32 → List UInt32
  | 0, w => w
  | n + 1, w =>
    let w₂ := w.getD 1 0
    let w₁₅ := w.getD 14 0
    let σ₀ := rotr w₁₅ 7 ^^^ rotr w₁₅ 18 ^^^ (w₁₅ >>> 3)
    let σ₁ := rotr w₂ 17 ^^^ rotr w₂ 19 ^^^ (w₂ >>> 10)
    schedule n ((w.getD 15 0 + σ₀ + w.getD 6 0 + σ₁) :: w)

/-- One round on the working variables `a` to `h`. -/
def round (v : List UInt32) (kw : UInt32 × UInt32) : List UInt32 :=
  match v with
  | [a, b, c, d, e, f, g, h] =>
    let t₁ := h + (rotr e 6 ^^^ rotr e 11 ^^^ rotr e 25) + ((e &&& f) ^^^ (~~~e &&& g)) + kw.1 + kw.2
    let t₂ := (rotr a 2 ^^^ rotr a 13 ^^^ rotr a 22) + ((a &&& b) ^^^ (a &&& c) ^^^ (b &&& c))
    [t₁ + t₂, a, b, c, d + t₁, e, f, g]
  | v => v

def compress (hash block : List UInt32) : List UInt32 :=
  let w := (schedule 48 block.reverse).reverse
  List.zipWith (· + ·) hash ((roundConstants.zip w).foldl round hash)

/-- The padded message, 16 words at a time; `n` is the number of blocks. -/
def blocks : Nat → List UInt32 → List UInt32 → List UInt32
  | 0, hash, _ => hash
  | n + 1, hash, ws => blocks n (compress hash (ws.take 16)) (ws.drop 16)

def hexDigit (n : Nat) : Char := "0123456789abcdef".toList.getD n '0'

def hexWord (x : UInt32) : List Char :=
  (List.range 8).reverse.map fun i => hexDigit (x.toNat / 16 ^ i % 16)

end Sha256

/-- `hashlib.sha256(data).hexdigest()`. -/
def sha256Hex (data : Bytes) : String :=
  let ws := Sha256.words (Sha256.pad data)
  String.ofList ((Sha256.blocks (ws.length / 16) Sha256.initialHash ws).flatMap Sha256.hexWord)

example : sha256Hex (encode "abc".toList) =
    "ba7816bf8f01cfea414140de5dae2223b00361a396177a9cb410ff61f20015ad" := by
  decide +kernel

end Lager.Py
