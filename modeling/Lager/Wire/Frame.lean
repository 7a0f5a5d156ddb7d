import Lager.Py.Json
import Lager.Py.Text

/-!
# The output wire format

The box writes a run's output as frames `<fileno> <length> <bytes>` and ends it with an exit marker whose
file number is a bare `-` (`emit` and `exit_marker` in `box/lager/exec/process.py`). The client reads the
frames back with `iter_streams` (`cli/core/matchers.py`), a state machine over the pieces that
`response.iter_content(chunk_size=1)` hands it.

The reader is modelled over pieces of any length, as its code compares whole pieces. That the pieces are
single bytes is what the HTTP library promises for `chunk_size=1`; `IterContent` carries that promise.
-/

namespace Lager.Wire

open Lager.Py

/-! ### The writer -/

/-- A frame as the reader yields it: `(fileno, data)`. -/
structure Frame where
  fileno : Int
  chunk : Bytes
  deriving DecidableEq, Repr

/-- `f'{fileno} {length} '.encode()`. -/
def header (fileno : Int) (length : Nat) : Bytes :=
  encode (textOfInt fileno ++ ' ' :: textOfNat length ++ [' '])

/-- What `emit` yields: the header, then the chunk unless it is empty. -/
def emit (fileno : Int) (chunk : Bytes) : List Bytes :=
  header fileno chunk.length :: if chunk = [] then [] else [chunk]

/-- The keepalive is an empty frame of file number 0. -/
def keepalive : List Bytes := emit 0 []

/-- The record that ends a job's output. -/
def exitMarker (returncode : Int) : Bytes :=
  let text := textOfInt returncode
  encode ('-' :: ' ' :: textOfNat text.length ++ ' ' :: text)

/-! ### The reader -/

/-- `int(data.decode())`. No length field or exit code comes near the 4300 digits at which `int` would
refuse a text, so the model has no such limit. -/
def intOfBytes (data : Bytes) : Except PyErr Int :=
  match decode data with
  | none => .error .unicodeDecodeError
  | some text =>
    match intOfText text with
    | none => .error .valueError
    | some n => .ok n

/-- The parser's state with the locals that are live in it. Every other local holds its reset value: `data`
and `length_str` are `b''` whenever `Content` and `Length` are entered. -/
inductive ParseState
  | start
  | firstSpace (fileno : Int)
  | length (fileno : Int) (lengthStr : Bytes)
  | content (fileno : Int) (announced : Int) (data : Bytes)
  deriving DecidableEq, Repr

/-- The file number a frame starts with: `-` is the exit record's. -/
def filenoOf (chunk : Bytes) : Except PyErr Int :=
  if chunk = encode ['-'] then .ok (-1) else intOfBytes chunk

/-- One turn of the loop of `iter_streams`: the next state and the frame yielded, if one is. -/
def ParseState.step (state : ParseState) (chunk : Bytes) : Except PyErr (ParseState × Option Frame) :=
  match state with
  | .start => (filenoOf chunk).map fun fileno => (.firstSpace fileno, none)
  | .firstSpace fileno => .ok (.length fileno [], none)
  | .length fileno lengthStr =>
    if chunk = encode [' '] then
      (intOfBytes lengthStr).map fun announced =>
        if announced = 0 then (.start, none) else (.content fileno announced [], none)
    else .ok (.length fileno (lengthStr ++ chunk), none)
  | .content fileno announced data =>
    if ((data ++ chunk).length : Int) = announced then .ok (.start, some ⟨fileno, data ++ chunk⟩)
    else .ok (.content fileno announced (data ++ chunk), none)

/-- What a reader yielded, and how it ended: the state at the end of the input, or what it raised. -/
structure Reading where
  frames : List Frame
  ended : Except PyErr ParseState

def Reading.prepend (fs : List Frame) (r : Reading) : Reading := { r with frames := fs ++ r.frames }

/-- The loop of `iter_streams` from a state on. -/
def feed (state : ParseState) : List Bytes → Reading
  | [] => ⟨[], .ok state⟩
  | chunk :: rest =>
    match state.step chunk with
    | .error e => ⟨[], .error e⟩
    | .ok (next, frame) => (feed next rest).prepend frame.toList

/-- `response.iter_content(chunk_size=1)`: the body that arrived from the network as `chunks`, handed on in
pieces of one byte. -/
structure IterContent where
  pieces : List Bytes → List Bytes
  length_eq_one : ∀ chunks, ∀ piece ∈ pieces chunks, piece.length = 1
  flatten_eq : ∀ chunks, (pieces chunks).flatten = chunks.flatten

def iterStreams (response : IterContent) (chunks : List Bytes) : Reading :=
  feed .start (response.pieces chunks)

/-- An `iter_content` that buffers the whole body. -/
def IterContent.buffered : IterContent where
  pieces chunks := chunks.flatten.map ([·])
  length_eq_one chunks piece h := by
    obtain ⟨b, -, rfl⟩ := List.mem_map.mp h
    rfl
  flatten_eq chunks := by rw [← List.flatMap_def]; simp

/-! ### Feeding byte by byte -/

/-- The reader fed with single bytes. -/
def feedBytes (state : ParseState) (bytes : Bytes) : Reading := feed state (bytes.map ([·]))

theorem eq_map_singleton {pieces : List Bytes} (h : ∀ piece ∈ pieces, piece.length = 1) :
    pieces = pieces.flatten.map ([·]) := by
  induction pieces with
  | nil => rfl
  | cons piece rest ih =>
    obtain ⟨b, rfl⟩ := List.length_eq_one_iff.mp (h piece List.mem_cons_self)
    rw [List.flatten_cons, List.singleton_append, List.map_cons,
      ← ih fun q hq => h q (List.mem_cons_of_mem _ hq)]

/-- **The split does not matter.** However the body arrives, the reader sees its bytes one by one. -/
theorem iterStreams_eq (response : IterContent) (chunks : List Bytes) :
    iterStreams response chunks = feedBytes .start chunks.flatten := by
  rw [iterStreams, feedBytes, eq_map_singleton (response.length_eq_one chunks), response.flatten_eq]

@[simp] theorem Reading.prepend_nil (r : Reading) : r.prepend [] = r := rfl

theorem Reading.prepend_prepend (r : Reading) (fs gs : List Frame) :
    (r.prepend gs).prepend fs = r.prepend (fs ++ gs) := by
  simp [Reading.prepend]

@[simp] theorem Reading.prepend_frames (r : Reading) (fs : List Frame) :
    (r.prepend fs).frames = fs ++ r.frames := rfl

@[simp] theorem Reading.prepend_ended (r : Reading) (fs : List Frame) : (r.prepend fs).ended = r.ended := rfl

@[simp] theorem feedBytes_nil (state : ParseState) : feedBytes state [] = ⟨[], .ok state⟩ := rfl

theorem feedBytes_cons {state next : ParseState} {b : UInt8} {frame : Option Frame}
    (h : state.step [b] = .ok (next, frame)) (rest : Bytes) :
    feedBytes state (b :: rest) = (feedBytes next rest).prepend frame.toList := by
  rw [feedBytes, List.map_cons, feed, h]
  rfl

/-- Reading on after a first part: from the state it ended in, or not at all after an exception. -/
def Reading.andThen (r : Reading) (bytes : Bytes) : Reading :=
  match r.ended with
  | .error _ => r
  | .ok state => (feedBytes state bytes).prepend r.frames

theorem Reading.andThen_ok {r : Reading} {state : ParseState} (h : r.ended = .ok state) (bytes : Bytes) :
    r.andThen bytes = (feedBytes state bytes).prepend r.frames := by
  rw [Reading.andThen, h]

theorem Reading.prepend_andThen (r : Reading) (fs : List Frame) (bytes : Bytes) :
    (r.prepend fs).andThen bytes = (r.andThen bytes).prepend fs := by
  obtain ⟨frames, _ | state⟩ := r
  · rfl
  · simp [Reading.andThen, Reading.prepend]

theorem feedBytes_append (state : ParseState) (a b : Bytes) :
    feedBytes state (a ++ b) = (feedBytes state a).andThen b := by
  induction a generalizing state with
  | nil => rfl
  | cons x a ih =>
    cases hstep : state.step [x] with
    | error e =>
      have herror : ∀ rest : Bytes, feedBytes state (x :: rest) = ⟨[], .error e⟩ := by
        intro rest
        rw [feedBytes, List.map_cons, feed, hstep]
      rw [List.cons_append, herror, herror]
      rfl
    | ok result =>
      rw [List.cons_append, feedBytes_cons hstep, feedBytes_cons hstep, ih, Reading.prepend_andThen]

/-- What was yielded stays yielded. -/
theorem Reading.frames_andThen_isPrefix (r : Reading) (bytes : Bytes) : r.frames <+: (r.andThen bytes).frames := by
  rw [Reading.andThen]
  split
  · exact List.prefix_refl _
  · exact List.prefix_append _ _

/-! ### One frame -/

theorem intOfBytes_textOfInt (n : Int) : intOfBytes (encode (textOfInt n)) = .ok n := by
  simp only [intOfBytes, decode_encode, intOfText_textOfInt]

theorem intOfBytes_textOfNat (n : Nat) : intOfBytes (encode (textOfNat n)) = .ok n := by
  have h := intOfBytes_textOfInt (n : Int)
  rwa [textOfInt, if_neg (by omega), Int.natAbs_natCast] at h

/-- The bytes of a number's text are digits, so none of them is the space that ends the field. -/
theorem space_notMem_textOfNat (n : Nat) : (32 : UInt8) ∉ encode (textOfNat n) := by
  intro h
  obtain ⟨c, hc, hb⟩ := List.mem_flatMap.mp h
  have hdigit := mem_textOfNat hc
  have hone : encode [c] = [c.toNat.toUInt8] := encode_ascii (by omega)
  have hbyte : (32 : UInt8) = c.toNat.toUInt8 := by
    rw [← List.mem_singleton, ← hone]
    simpa [encode] using hb
  have hval := congrArg UInt8.toNat hbyte
  rw [toNat_toUInt8 (by omega)] at hval
  have h32 : (32 : UInt8).toNat = 32 := rfl
  omega

/-- The length field is collected up to its space. -/
theorem feedBytes_length (fileno : Int) (field acc rest : Bytes) (h : (32 : UInt8) ∉ field) :
    feedBytes (.length fileno acc) (field ++ rest) = feedBytes (.length fileno (acc ++ field)) rest := by
  induction field generalizing acc with
  | nil => rw [List.append_nil, List.nil_append]
  | cons b field ih =>
    have hb : b ≠ 32 := fun hb => h (hb ▸ List.mem_cons_self)
    have hstep : (ParseState.length fileno acc).step [b] = .ok (.length fileno (acc ++ [b]), none) := by
      have hspace : ([b] : Bytes) ≠ encode [' '] := fun heq => hb (List.cons.inj heq).1
      simp only [ParseState.step, if_neg hspace]
    rw [List.cons_append, feedBytes_cons hstep, ih _ fun hmem => h (List.mem_cons_of_mem _ hmem),
      List.append_assoc, List.singleton_append]
    rfl

/-- The payload is collected until it has the announced length, whatever bytes it is made of. -/
theorem feedBytes_content (fileno : Int) (n : Nat) (data payload rest : Bytes) (hpayload : payload ≠ [])
    (hn : data.length + payload.length = n) :
    feedBytes (.content fileno n data) (payload ++ rest) =
      (feedBytes .start rest).prepend [⟨fileno, data ++ payload⟩] := by
  induction payload generalizing data with
  | nil => exact absurd rfl hpayload
  | cons b payload ih =>
    rcases eq_or_ne payload [] with rfl | hmore
    · have hstep : (ParseState.content fileno n data).step [b] =
          .ok (.start, some ⟨fileno, data ++ [b]⟩) := by
        have hlen : (((data ++ [b]).length : Nat) : Int) = n := by
          rw [← hn, List.length_append]
        simp only [ParseState.step, if_pos hlen]
      rw [List.cons_append, feedBytes_cons hstep]
      rfl
    · have hpos := List.length_pos_of_ne_nil hmore
      have hstep : (ParseState.content fileno n data).step [b] =
          .ok (.content fileno n (data ++ [b]), none) := by
        have hlen : (((data ++ [b]).length : Nat) : Int) ≠ n := by
          simp only [List.length_append, List.length_cons, List.length_nil] at hn ⊢
          omega
        simp only [ParseState.step, if_neg hlen]
      have hlen' : (data ++ [b]).length + payload.length = n := by
        simp only [List.length_append, List.length_cons, List.length_nil] at hn ⊢
        omega
      rw [List.cons_append, feedBytes_cons hstep, ih _ hmore hlen', List.append_assoc, List.singleton_append]
      rfl

/-- A frame as bytes, with the byte that stands for its file number. -/
def packet (mark : UInt8) (payload : Bytes) : Bytes :=
  mark :: 32 :: encode (textOfNat payload.length) ++ 32 :: payload

/-- What the reader makes of a frame: nothing of an empty one. -/
def frameOf (fileno : Int) (payload : Bytes) : List Frame :=
  if payload = [] then [] else [⟨fileno, payload⟩]

/-- **One frame is read back.** From the start state, the bytes of a frame yield that frame (an empty one
yields nothing) and leave the reader in the start state, for any payload. -/
theorem feedBytes_packet {mark : UInt8} {fileno : Int} (hmark : filenoOf [mark] = .ok fileno)
    (payload rest : Bytes) :
    feedBytes .start (packet mark payload ++ rest) =
      (feedBytes .start rest).prepend (frameOf fileno payload) := by
  have hstart : ParseState.start.step [mark] = .ok (.firstSpace fileno, none) := by
    simp only [ParseState.step, hmark]
    rfl
  have hspace : (ParseState.firstSpace fileno).step [32] = .ok (.length fileno [], none) := rfl
  have hlength : (ParseState.length fileno (encode (textOfNat payload.length))).step [32] =
      .ok (if payload = [] then .start else .content fileno payload.length [], none) := by
    have h32 : ([32] : Bytes) = encode [' '] := by decide
    simp only [ParseState.step, if_pos h32, intOfBytes_textOfNat, Except.map]
    rcases eq_or_ne payload [] with rfl | hne
    · rfl
    · have hpos := List.length_pos_of_ne_nil hne
      rw [if_neg hne, if_neg (by omega)]
  have hbytes : packet mark payload ++ rest =
      mark :: 32 :: (encode (textOfNat payload.length) ++ 32 :: (payload ++ rest)) := by
    simp [packet]
  rw [hbytes, feedBytes_cons hstart, feedBytes_cons hspace,
    feedBytes_length _ _ _ _ (space_notMem_textOfNat _), List.nil_append, feedBytes_cons hlength, frameOf]
  split_ifs with hempty
  · rw [hempty]
    rfl
  · rw [feedBytes_content _ _ _ _ _ hempty (by simp)]
    rfl

end Lager.Wire
