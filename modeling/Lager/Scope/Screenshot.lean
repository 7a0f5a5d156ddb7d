import Lager.Lib.Bytes
import Lager.Lib.Fold

/-!
# The scope's screenshot

`decode_bmp` of `rigol/frame.rs`, for 64-bit `usize`: an uncompressed BMP of 24 or 32 bits to luma and chroma. Every
offset is computed from what the header says, so arithmetic and indexing are checked operations here, and
`decode_bmp_reads` says that none of them fails and which bytes each pixel comes from.
-/

namespace Lager.Scope.Screenshot

open Lager.Lib

inductive BmpError where
  | notABmp (start : List UInt8)
  | headerCutShort
  | unread (bits compression : Nat)
  | noPixels (width height : Int)
  | cutShort (length needed : Nat)
  deriving DecidableEq

inductive Fault where
  | panic
  | refused (e : BmpError)
  deriving DecidableEq

/-! ### Checked operations -/

/-- A `usize` result. -/
def usize (n : Nat) : Except Fault Nat := if n < 2 ^ 64 then .ok n else .error .panic

/-- `buf[a..b]`. -/
def slice (buf : List UInt8) (a b : Nat) : Except Fault (List UInt8) :=
  if a ≤ b ∧ b ≤ buf.length then .ok (sub buf a (b - a)) else .error .panic

/-- `buf[i]`. -/
def index (buf : List UInt8) (i : Nat) : Except Fault UInt8 :=
  match buf[i]? with
  | some b => .ok b
  | none => .error .panic

/-- `buf.get(a..a + n)`. -/
def getRange (buf : List UInt8) (a n : Nat) : Option (List UInt8) :=
  if a + n ≤ buf.length then some (sub buf a n) else none

/-- `chunks_exact(k)`. -/
def chunksExact (k : Nat) (buf : List UInt8) : List (List UInt8) :=
  (List.range (buf.length / k)).map fun i => sub buf (i * k) k

/-! ### Decoding -/

/-- `v.round().clamp(0.0, 255.0) as u8`. -/
def toByte (v : Float32) : UInt8 :=
  let r := v.round
  (if r < 0 then (0 : Float32) else if r > 255 then 255 else r).toUInt8

/-- `rgb_to_ycc`: luma and the two chroma. -/
def rgbToYcc (r g b : UInt8) : List UInt8 :=
  let (r, g, b) := (Float32.ofNat r.toNat, Float32.ofNat g.toNat, Float32.ofNat b.toNat)
  let y := 0.299 * r + 0.587 * g + 0.114 * b
  let cb := 128.0 - 0.168736 * r - 0.331264 * g + 0.5 * b
  let cr := 128.0 + 0.5 * r - 0.418688 * g - 0.081312 * b
  [toByte y, toByte cb, toByte cr]

/-- `.context(short())?`. -/
def field (bytes : Option (List UInt8)) : Except Fault (List UInt8) :=
  match bytes with
  | some bytes => .ok bytes
  | none => .error (.refused .headerCutShort)

/-- What `decode_bmp` has of the header once it has checked it. -/
structure Header where
  pixelsAt : Nat
  width : Nat
  rows : Nat
  bottomUp : Bool
  bytesPerPixel : Nat

def readHeader (bmp : List UInt8) : Except Fault Header :=
  if getRange bmp 0 2 ≠ some [0x42, 0x4D] then .error (.refused (.notABmp (bmp.take 8)))
  else do
    let pixelsAt ← field (getRange bmp 10 4)
    let width ← field (getRange bmp 18 4)
    let height ← field (getRange bmp 22 4)
    let bits ← field (getRange bmp 28 2)
    let compression ← field (getRange bmp 30 4)
    let width := (ofLe 4 width).toInt
    let height := (ofLe 4 height).toInt
    if ¬(leNat bits = 24 ∧ leNat compression = 0 ∨
        leNat bits = 32 ∧ (leNat compression = 0 ∨ leNat compression = 3)) then
      .error (.refused (.unread (leNat bits) (leNat compression)))
    else if width ≤ 0 ∨ height = 0 then .error (.refused (.noPixels width height))
    else
      .ok { pixelsAt := leNat pixelsAt, width := width.toNat, rows := height.natAbs, bottomUp := decide (0 < height)
            bytesPerPixel := leNat bits / 8 }

/-- One pixel of a row. -/
def convertPixel (pixel : List UInt8) : Except Fault (List UInt8) := do
  let r ← index pixel 2
  let g ← index pixel 1
  let b ← index pixel 0
  .ok (rgbToYcc r g b)

/-- One round of the loop over the rows. -/
def decodeRow (bmp : List UInt8) (h : Header) (stride y : Nat) : Except Fault (List UInt8) := do
  let row := if h.bottomUp then h.rows - 1 - y else y
  let start ← usize (h.pixelsAt + (← usize (row * stride)))
  let bytes ← slice bmp start (← usize (start + (← usize (h.width * h.bytesPerPixel))))
  let pixels ← (chunksExact h.bytesPerPixel bytes).mapM convertPixel
  .ok pixels.flatten

/-- `decode_bmp`: the width, the height, and three bytes a pixel. -/
def decodeBmp (bmp : List UInt8) : Except Fault (Nat × Nat × List UInt8) := do
  let h ← readHeader bmp
  let rowBytes ← usize (h.width * h.bytesPerPixel)
  let stride ← usize ((rowBytes + 3) / 4 * 4)
  let needed ← usize (h.pixelsAt + (← usize (stride * h.rows)))
  if bmp.length < needed then .error (.refused (.cutShort bmp.length needed))
  else
    let _ ← usize ((← usize (h.width * h.rows)) * 3)
    let rows ← (List.range h.rows).mapM (decodeRow bmp h stride)
    .ok (h.width, h.rows, rows.flatten)

/-! ### What the header says -/

section Layout

variable (bmp : List UInt8)

/-- Where the pixels begin. -/
def dataOffset : Nat := leNat (sub bmp 10 4)

def imageWidth : Int := (ofLe 4 (sub bmp 18 4)).toInt

def imageHeight : Int := (ofLe 4 (sub bmp 22 4)).toInt

def bitsPerPixel : Nat := leNat (sub bmp 28 2)

/-- Rows are filled up to whole words of 32 bits. -/
def rowSize : Nat := (bitsPerPixel bmp * (imageWidth bmp).toNat + 31) / 32 * 4

/-- The row of the file that is row `y` from the top: rows run bottom up unless the height is negative. -/
def storedRow (y : Nat) : Nat := if 0 < imageHeight bmp then (imageHeight bmp).natAbs - 1 - y else y

/-- Where the pixel `x` from the left and `y` from the top is. -/
def pixelAddress (x y : Nat) : Nat :=
  dataOffset bmp + storedRow bmp y * rowSize bmp + x * (bitsPerPixel bmp / 8)

end Layout

/-! ### Nothing fails -/

section Decoding

variable {bmp : List UInt8} {h : Header}

theorem usize_ok {n : Nat} (hn : n < 2 ^ 64) : usize n = .ok n := if_pos hn

theorem field_ok {a n : Nat} {bytes : List UInt8} (hfield : field (getRange bmp a n) = .ok bytes) :
    bytes = sub bmp a n ∧ bytes.length = n := by
  unfold getRange at hfield
  split_ifs at hfield with hin
  · cases hfield
    exact ⟨rfl, length_sub hin⟩
  · cases hfield

theorem field_ne_panic (bytes : Option (List UInt8)) : field bytes ≠ .error .panic := by
  cases bytes <;> simp [field]

/-- The header of a BMP that is read. -/
structure Reads (bmp : List UInt8) (h : Header) : Prop where
  pixelsAt : h.pixelsAt = dataOffset bmp
  width : (h.width : Int) = imageWidth bmp
  rows : h.rows = (imageHeight bmp).natAbs
  bottomUp : h.bottomUp = decide (0 < imageHeight bmp)
  depth : h.bytesPerPixel = bitsPerPixel bmp / 8
  bits : bitsPerPixel bmp = 24 ∨ bitsPerPixel bmp = 32
  pixelsAt_lt : h.pixelsAt < 2 ^ 32
  width_pos : 0 < h.width
  width_lt : h.width < 2 ^ 31
  rows_pos : 0 < h.rows
  rows_le : h.rows ≤ 2 ^ 31

theorem reads_of_ok (hread : readHeader bmp = .ok h) : Reads bmp h := by
  unfold readHeader at hread
  split_ifs at hread with hmagic
  obtain ⟨pixelsAt, hpixelsAt, hread⟩ := bind_eq_ok hread
  obtain ⟨width, hwidth, hread⟩ := bind_eq_ok hread
  obtain ⟨height, hheight, hread⟩ := bind_eq_ok hread
  obtain ⟨bits, hbits, hread⟩ := bind_eq_ok hread
  obtain ⟨compression, -, hread⟩ := bind_eq_ok hread
  obtain ⟨rfl, hpixelsAt⟩ := field_ok hpixelsAt
  obtain ⟨rfl, -⟩ := field_ok hwidth
  obtain ⟨rfl, -⟩ := field_ok hheight
  obtain ⟨rfl, -⟩ := field_ok hbits
  dsimp only at hread
  split_ifs at hread with hdepth hsize
  rw [not_or] at hsize
  cases hread
  have hwidth : imageWidth bmp < 2 ^ 31 := BitVec.toInt_lt
  have hheight : imageHeight bmp < 2 ^ 31 := BitVec.toInt_lt
  have hheight' : -2 ^ 31 ≤ imageHeight bmp := BitVec.le_toInt _
  have hoffset := leNat_lt (sub bmp 10 4)
  rw [hpixelsAt] at hoffset
  have hpos : 0 < imageWidth bmp := Int.not_le.mp hsize.1
  have hne : imageHeight bmp ≠ 0 := hsize.2
  refine ⟨rfl, Int.toNat_of_nonneg (Int.le_of_lt hpos), rfl, rfl, rfl, ?_, hoffset, ?_, ?_, ?_, ?_⟩
  · rcases hdepth with h24 | h32
    · exact .inl h24.1
    · exact .inr h32.1
  · show 0 < (imageWidth bmp).toNat
    omega
  · show (imageWidth bmp).toNat < _
    omega
  · show 0 < (imageHeight bmp).natAbs
    omega
  · show (imageHeight bmp).natAbs ≤ _
    omega

theorem readHeader_ne_panic : readHeader bmp ≠ .error .panic := by
  unfold readHeader
  split_ifs with hmagic
  · simp
  · refine bind_ne_error (field_ne_panic _) fun pixelsAt _ => bind_ne_error (field_ne_panic _) fun width _ =>
      bind_ne_error (field_ne_panic _) fun height _ => bind_ne_error (field_ne_panic _) fun bits _ =>
      bind_ne_error (field_ne_panic _) fun compression _ => ?_
    dsimp only
    split_ifs <;> simp

/-- The bytes of a row, filled up to whole words, as the code computes them. -/
def Header.stride (h : Header) : Nat := (h.width * h.bytesPerPixel + 3) / 4 * 4

/-- The row of the file that a round of the loop reads. -/
def Header.row (h : Header) (y : Nat) : Nat := if h.bottomUp then h.rows - 1 - y else y

theorem Reads.depth_cases (hread : Reads bmp h) : h.bytesPerPixel = 3 ∨ h.bytesPerPixel = 4 := by
  rw [hread.depth]
  rcases hread.bits with hbits | hbits
  · rw [hbits]
    exact .inl rfl
  · rw [hbits]
    exact .inr rfl

theorem Reads.rowBytes_le (hread : Reads bmp h) :
    h.width * h.bytesPerPixel ≤ h.stride ∧ h.stride ≤ 2 ^ 33 - 4 := by
  have hwidth := hread.width_lt
  unfold Header.stride
  rcases hread.depth_cases with hdepth | hdepth
  · rw [hdepth]
    omega
  · rw [hdepth]
    omega

theorem Header.row_lt {y : Nat} (hy : y < h.rows) : h.row y < h.rows := by
  unfold Header.row
  split_ifs
  · omega
  · exact hy

/-- The sum of the size check stays a word. -/
theorem Reads.needed_lt (hread : Reads bmp h) : h.pixelsAt + h.stride * h.rows < 2 ^ 64 := by
  have hproduct : h.stride * h.rows ≤ (2 ^ 33 - 4) * 2 ^ 31 := Nat.mul_le_mul hread.rowBytes_le.2 hread.rows_le
  have hpixels := hread.pixelsAt_lt
  omega

/-- A stored row lies before the end that the size check asks for. -/
theorem Reads.row_end_le (hread : Reads bmp h) {y : Nat} (hy : y < h.rows) :
    h.pixelsAt + h.row y * h.stride + h.width * h.bytesPerPixel ≤ h.pixelsAt + h.stride * h.rows := by
  have hrow : (h.row y + 1) * h.stride ≤ h.rows * h.stride := Nat.mul_le_mul_right _ (Header.row_lt hy)
  have hbytes := hread.rowBytes_le.1
  rw [Nat.add_mul, Nat.one_mul, Nat.mul_comm h.rows] at hrow
  omega

/-- The conversion of the pixel whose first byte is at `a`. -/
def pixelAt (bmp : List UInt8) (a : Nat) : List UInt8 :=
  rgbToYcc (bmp.getD (a + 2) 0) (bmp.getD (a + 1) 0) (bmp.getD a 0)

theorem index_sub {a n i : Nat} (hi : i < n) (hin : a + n ≤ bmp.length) :
    index (sub bmp a n) i = .ok (bmp.getD (a + i) 0) := by
  have hlt : a + i < bmp.length := by omega
  rw [index, getElem?_sub hi, List.getElem?_eq_getElem hlt, List.getD_eq_getElem?_getD,
    List.getElem?_eq_getElem hlt, Option.getD_some]

theorem convertPixel_sub {a n : Nat} (hn : 3 ≤ n) (hin : a + n ≤ bmp.length) :
    convertPixel (sub bmp a n) = .ok (pixelAt bmp a) := by
  rw [convertPixel, index_sub (by omega) hin, index_sub (by omega) hin, index_sub (by omega) hin]
  rfl

theorem decodeRow_ok (hread : Reads bmp h) (hlength : h.pixelsAt + h.stride * h.rows ≤ bmp.length) {y : Nat}
    (hy : y < h.rows) : decodeRow bmp h h.stride y =
      .ok ((List.range h.width).flatMap fun x =>
        pixelAt bmp (h.pixelsAt + h.row y * h.stride + x * h.bytesPerPixel)) := by
  have hneeded := hread.needed_lt
  have hend := hread.row_end_le hy
  have hthree : 3 ≤ h.bytesPerPixel := by
    rcases hread.depth_cases with hdepth | hdepth <;> omega
  have hslice : slice bmp (h.pixelsAt + h.row y * h.stride)
      (h.pixelsAt + h.row y * h.stride + h.width * h.bytesPerPixel) =
        .ok (sub bmp (h.pixelsAt + h.row y * h.stride) (h.width * h.bytesPerPixel)) := by
    rw [slice, if_pos ⟨Nat.le_add_right _ _, by omega⟩, Nat.add_sub_cancel_left]
  have hchunks : chunksExact h.bytesPerPixel
      (sub bmp (h.pixelsAt + h.row y * h.stride) (h.width * h.bytesPerPixel)) =
        (List.range h.width).map fun x =>
          sub bmp (h.pixelsAt + h.row y * h.stride + x * h.bytesPerPixel) h.bytesPerPixel := by
    rw [chunksExact, length_sub (by omega), Nat.mul_div_cancel _ (by omega)]
    refine List.map_congr_left fun x hx => sub_sub _ _ ?_
    rw [← Nat.succ_mul]
    exact Nat.mul_le_mul_right _ (List.mem_range.mp hx)
  have hrow : (if h.bottomUp = true then h.rows - 1 - y else y) = h.row y := rfl
  unfold decodeRow
  dsimp only
  rw [hrow, usize_ok (by omega), ok_bind, usize_ok (by omega), ok_bind, usize_ok (by omega), ok_bind,
    usize_ok (by omega), ok_bind, hslice, ok_bind, hchunks]
  have hpixels : ((List.range h.width).map fun x =>
      sub bmp (h.pixelsAt + h.row y * h.stride + x * h.bytesPerPixel) h.bytesPerPixel).mapM convertPixel =
        .ok ((List.range h.width).map fun x =>
          pixelAt bmp (h.pixelsAt + h.row y * h.stride + x * h.bytesPerPixel)) := by
    refine mapM_map_eq_ok fun x hx => convertPixel_sub hthree ?_
    have hx' : (x + 1) * h.bytesPerPixel ≤ h.width * h.bytesPerPixel := Nat.mul_le_mul_right _ (List.mem_range.mp hx)
    rw [Nat.succ_mul] at hx'
    omega
  rw [hpixels, ok_bind, List.flatMap_def]

/-- The result for a header that has been read: an error of the size check, or every pixel in order. -/
theorem decodeBmp_of_reads (hheader : readHeader bmp = .ok h) :
    decodeBmp bmp = .error (.refused (.cutShort bmp.length (h.pixelsAt + h.stride * h.rows))) ∨
      h.pixelsAt + h.stride * h.rows ≤ bmp.length ∧ decodeBmp bmp = .ok (h.width, h.rows,
        (List.range h.rows).flatMap fun y => (List.range h.width).flatMap fun x =>
          pixelAt bmp (h.pixelsAt + h.row y * h.stride + x * h.bytesPerPixel)) := by
  have hread := reads_of_ok hheader
  have hneeded := hread.needed_lt
  have hbytes := hread.rowBytes_le
  have hstride : (h.width * h.bytesPerPixel + 3) / 4 * 4 = h.stride := rfl
  unfold decodeBmp
  rw [hheader, ok_bind, usize_ok (by omega), ok_bind, hstride, usize_ok (by omega), ok_bind, usize_ok (by omega),
    ok_bind, usize_ok hneeded, ok_bind]
  by_cases hlength : bmp.length < h.pixelsAt + h.stride * h.rows
  · exact .inl (if_pos hlength)
  · right
    have hthree : h.width * 3 ≤ h.stride := by
      refine Nat.le_trans (Nat.mul_le_mul_left _ ?_) hbytes.1
      rcases hread.depth_cases with hdepth | hdepth <;> omega
    have hcapacity : h.width * h.rows * 3 ≤ h.stride * h.rows := by
      rw [Nat.mul_right_comm]
      exact Nat.mul_le_mul_right _ hthree
    have hrows : (List.range h.rows).mapM (decodeRow bmp h h.stride) =
        .ok ((List.range h.rows).map fun y => (List.range h.width).flatMap fun x =>
          pixelAt bmp (h.pixelsAt + h.row y * h.stride + x * h.bytesPerPixel)) :=
      mapM_eq_ok fun y hy => decodeRow_ok hread (Nat.not_lt.mp hlength) (List.mem_range.mp hy)
    refine ⟨Nat.not_lt.mp hlength, ?_⟩
    rw [if_neg hlength, usize_ok (by omega), ok_bind, usize_ok (by omega), ok_bind, hrows, ok_bind,
      List.flatMap_def]

/-! ### Which bytes a pixel comes from -/

theorem Reads.stride_eq (hread : Reads bmp h) : h.stride = rowSize bmp := by
  have hwidth : (imageWidth bmp).toNat = h.width := by
    rw [← hread.width, Int.toNat_natCast]
  rw [Header.stride, rowSize, hwidth, hread.depth]
  rcases hread.bits with hbits | hbits
  · rw [hbits]
    omega
  · rw [hbits]
    omega

theorem Reads.row_eq (hread : Reads bmp h) (y : Nat) : h.row y = storedRow bmp y := by
  rw [Header.row, storedRow, hread.bottomUp, hread.rows]
  simp only [decide_eq_true_eq]

theorem Reads.pixel_end_le (hread : Reads bmp h) {x : Nat} (hx : x < h.width) :
    x * h.bytesPerPixel + 3 ≤ h.width * h.bytesPerPixel := by
  have hnext : (x + 1) * h.bytesPerPixel ≤ h.width * h.bytesPerPixel := Nat.mul_le_mul_right _ hx
  rw [Nat.succ_mul] at hnext
  rcases hread.depth_cases with hdepth | hdepth <;> omega

theorem getElem?_eq_getD {i : Nat} (hi : i < bmp.length) : bmp[i]? = some (bmp.getD i 0) := by
  rw [List.getD_eq_getElem?_getD, List.getElem?_eq_getElem hi, Option.getD_some]

theorem length_pixelAt (a : Nat) : (pixelAt bmp a).length = 3 := rfl

theorem length_row (n a k : Nat) :
    ((List.range n).flatMap fun x => pixelAt bmp (a + x * k)).length = 3 * n := by
  rw [length_flatMap_of_length fun x => length_pixelAt _, List.length_range]

end Decoding

/-- **Screenshot decoding.** For every byte string the decoder returns: no sum leaves a word and no index the
string. What it returns has three bytes for each pixel, row by row from the top, and those of the pixel `x` from
the left and `y` from the top are the conversion of the blue, green and red bytes that the header's offset, depth,
row size and orientation place there. -/
theorem decode_bmp_reads (bmp : List UInt8) :
    decodeBmp bmp ≠ .error .panic ∧
      ∀ w rows out, decodeBmp bmp = .ok (w, rows, out) →
        (w : Int) = imageWidth bmp ∧ rows = (imageHeight bmp).natAbs ∧
        (bitsPerPixel bmp = 24 ∨ bitsPerPixel bmp = 32) ∧ out.length = 3 * w * rows ∧
        ∀ x < w, ∀ y < rows, ∃ b g r,
          bmp[pixelAddress bmp x y]? = some b ∧ bmp[pixelAddress bmp x y + 1]? = some g ∧
          bmp[pixelAddress bmp x y + 2]? = some r ∧ sub out (3 * (y * w + x)) 3 = rgbToYcc r g b := by
  cases hheader : readHeader bmp with
  | error e =>
    have hdecode : decodeBmp bmp = .error e := by
      rw [decodeBmp, hheader]
      rfl
    rw [hdecode]
    refine ⟨fun hpanic => @readHeader_ne_panic bmp ?_, fun _ _ _ h => by cases h⟩
    rw [hheader, Except.error.inj hpanic]
  | ok h =>
    have hread := reads_of_ok hheader
    rcases decodeBmp_of_reads hheader with hshort | ⟨hlength, hok⟩
    · rw [hshort]
      exact ⟨by simp, fun _ _ _ h => by cases h⟩
    · rw [hok]
      refine ⟨by simp, fun w rows out hout => ?_⟩
      cases hout
      refine ⟨hread.width, hread.rows, hread.bits, ?_, fun x hx y hy => ?_⟩
      · rw [length_flatMap_of_length fun y => length_row _ _ _, List.length_range]
      · have hend := hread.row_end_le hy
        have hpixel := hread.pixel_end_le hx
        have haddress : pixelAddress bmp x y = h.pixelsAt + h.row y * h.stride + x * h.bytesPerPixel := by
          rw [pixelAddress, hread.pixelsAt, hread.row_eq, hread.stride_eq, hread.depth]
        rw [haddress]
        refine ⟨_, _, _, getElem?_eq_getD (by omega), getElem?_eq_getD (by omega), getElem?_eq_getD (by omega), ?_⟩
        exact sub_flatMap_flatMap (fun y x => length_pixelAt _) hx hy

/-- A BMP of one red pixel. -/
def onePixel : List UInt8 :=
  [0x42, 0x4D, 58, 0, 0, 0, 0, 0, 0, 0, 54, 0, 0, 0, 40, 0, 0, 0, 1, 0, 0, 0, 1, 0, 0, 0, 1, 0, 24, 0] ++
    List.replicate 24 0 ++ [0, 0, 255, 0]

example : decodeBmp onePixel = .ok (1, 1, rgbToYcc 255 0 0) := rfl

end Lager.Scope.Screenshot
