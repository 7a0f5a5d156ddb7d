import Lager.Wire.Frame

/-!
# The output channel

A script hands objects to its caller with `output` (`box/lager/core.py`), which writes each as `<encoder> <length> `
and its encoding. The client cuts the stream up again with `OutputHandler` (`cli/core/utils.py`), a parser that keeps
its place between the chunks it is given.

The parser is a loop that ends where it breaks. It does so when a header is not complete; where a payload is not, it
goes round without doing anything. `parse` runs the loop on fuel, and a call returns if some fuel is enough.
-/

namespace Lager.Wire

open Lager.Py

variable {ω : Type}

/-! ### The writer -/

/-- A Python object: bytes, or anything else. -/
inductive Obj (ω : Type)
  | bytes (data : Bytes)
  | other (value : ω)

inductive Format
  | pickle
  | json
  | yaml
  deriving DecidableEq

/-- The value of the format in `OutputEncoders`; `Raw` is 1. -/
def Format.number : Format → Int
  | .pickle => 2
  | .json => 3
  | .yaml => 4

/-- The encodings of the standard library and of PyYAML: what `output` writes with, and what the client reads with. -/
structure Codec (ω : Type) where
  dumps : Format → Obj ω → Except PyErr Bytes
  loads : Format → Bytes → Except PyErr (Obj ω)

inductive Call (ω : Type)
  /-- A bytes-like object, by its bytes and its `len()`: the number of its items, whatever their size. -/
  | raw (data : Bytes) (len : Nat)
  | dumped (format : Format) (obj : Obj ω)

/-- What a call of `output` writes, and the object it is for. -/
structure Message (ω : Type) where
  encoder : Int
  len : Nat
  payload : Bytes
  obj : Obj ω

def Message.head (m : Message ω) : Bytes := header m.encoder m.len

def Message.bytes (m : Message ω) : Bytes := m.head ++ m.payload

/-- `output`. -/
def output (codec : Codec ω) : Call ω → Except PyErr (Message ω)
  | .raw data len => .ok ⟨1, len, data, .bytes data⟩
  | .dumped format obj => (codec.dumps format obj).map fun encoded => ⟨format.number, encoded.length, encoded, obj⟩

/-- The bytes of the channel. -/
def channel (messages : List (Message ω)) : Bytes := messages.flatMap Message.bytes

/-! ### The reader -/

/-- `OutputHandler`. -/
structure Handler where
  encoder : Option Int
  len : Option Int
  buffer : Bytes
  deriving DecidableEq

def Handler.init : Handler := ⟨none, none, []⟩

/-- `buffer.split(b' ', 1)`, unless it is in one part. -/
def splitSpace (buffer : Bytes) : Option (Bytes × Bytes) :=
  match buffer.dropWhile (· ≠ 32) with
  | [] => none
  | _ :: rest => some (buffer.takeWhile (· ≠ 32), rest)

/-- `int(field, 10)` of bytes: what `int` makes of the text, but only ASCII has digits and white space there. The
limit on the number of digits is left out, as for `intOfBytes`. -/
def intOfField (field : Bytes) : Except PyErr Int :=
  if field.any (fun b => b ≥ 128 || (28 ≤ b && b ≤ 31)) then .error .valueError
  else match intOfText (field.map fun b => Char.ofNat b.toNat) with
    | some n => .ok n
    | none => .error .valueError

/-- The first test of the loop; `none` is its `break`. -/
def Handler.readEncoder (h : Handler) : Except PyErr (Option (Int × Handler)) :=
  match h.encoder with
  | some encoder => .ok (some (encoder, h))
  | none =>
    match splitSpace h.buffer with
    | none => .ok none
    | some (field, rest) =>
      (intOfField field).map fun encoder => some (encoder, { h with encoder := some encoder, buffer := rest })

def Handler.readLen (h : Handler) : Except PyErr (Option (Int × Handler)) :=
  match h.len with
  | some len => .ok (some (len, h))
  | none =>
    match splitSpace h.buffer with
    | none => .ok none
    | some (field, rest) => (intOfField field).map fun len => some (len, { h with len := some len, buffer := rest })

/-- `DECODERS[encoder](encoded)`. -/
def decoded (codec : Codec ω) (encoder : Int) (encoded : Bytes) : Except PyErr (Obj ω) :=
  if encoder = 1 then .ok (.bytes encoded)
  else if encoder = 2 then codec.loads .pickle encoded
  else if encoder = 3 then codec.loads .json encoded
  else if encoder = 4 then codec.loads .yaml encoded
  else .error (.keyError (String.ofList (textOfInt encoder)))

/-- Where the slices `buffer[:len]` and `buffer[len:]` cut; a negative `len` counts from the end. -/
def cutAt (buffer : Bytes) (len : Int) : Nat := if 0 ≤ len then len.toNat else buffer.length - len.natAbs

inductive Turn (ω : Type)
  /-- `break` -/
  | stop (h : Handler)
  /-- The loop goes round, after it has yielded an object or none. -/
  | again (h : Handler) (yielded : Option (Obj ω))

/-- Once through the loop. -/
def Handler.turn (codec : Codec ω) (h : Handler) : Except PyErr (Turn ω) :=
  match h.readEncoder with
  | .error e => .error e
  | .ok none => .ok (.stop h)
  | .ok (some (encoder, h)) =>
    match h.readLen with
    | .error e => .error e
    | .ok none => .ok (.stop h)
    | .ok (some (len, h)) =>
      if len ≤ h.buffer.length then
        (decoded codec encoder (h.buffer.take (cutAt h.buffer len))).map fun obj =>
          .again ⟨none, none, h.buffer.drop (cutAt h.buffer len)⟩ (some obj)
      else .ok (.again h none)

/-- What a call yielded, and how it ended. -/
structure Yielded (ω : Type) where
  objs : List (Obj ω)
  ended : Except PyErr Handler

/-- The loop, with fuel for so many turns; `none` if they are not enough. -/
def Handler.parse (codec : Codec ω) : Nat → Handler → Option (Yielded ω)
  | 0, _ => none
  | fuel + 1, h =>
    match h.turn codec with
    | .error e => some ⟨[], .error e⟩
    | .ok (.stop h) => some ⟨[], .ok h⟩
    | .ok (.again h yielded) => (h.parse codec fuel).map fun r => ⟨yielded.toList ++ r.objs, r.ended⟩

-- the equations of the loop, for all the lemmas about it
section
attribute [local simp] Handler.parse
end

def Handler.receive (codec : Codec ω) (fuel : Nat) (h : Handler) (chunk : Bytes) : Option (Yielded ω) :=
  Handler.parse codec fuel { h with buffer := h.buffer ++ chunk }

/-- The call returns, after it has yielded these. -/
def Receives (codec : Codec ω) (h : Handler) (chunk : Bytes) (objs : List (Obj ω)) (h' : Handler) : Prop :=
  ∃ fuel, h.receive codec fuel chunk = some ⟨objs, .ok h'⟩

/-- Every call returns, and together they yield these. -/
def Delivers (codec : Codec ω) : Handler → List Bytes → List (Obj ω) → Prop
  | _, [], objs => objs = []
  | h, chunk :: chunks, objs =>
    ∃ first rest h', objs = first ++ rest ∧ Receives codec h chunk first h' ∧ Delivers codec h' chunks rest

end Lager.Wire
