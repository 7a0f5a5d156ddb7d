import Lager.Wire.Frame
import Mathlib.Tactic.IntervalCases

/-!
# What is written is what is read

A run's output is a list of `emit` calls and keepalives with an exit marker at the end. `feedBytes_wire` is
the round trip on bytes: the reader yields the frames with a payload, in order, then the exit record, and
stands at its start state again. Through `iterStreams_eq` it holds for every split of the bytes on the
network. An `emit` of an empty chunk puts a header on the wire that the reader takes for a reset, so it
yields nothing.
-/

namespace Lager.Wire

open Lager.Py

/-! ### Output on the wire -/

/-- One thing a run puts on the wire before its exit marker. -/
inductive Sent
  | output (fileno : Int) (chunk : Bytes)
  | keepalive
  deriving DecidableEq, Repr

def Sent.bytes : Sent → Bytes
  | .output fileno chunk => (emit fileno chunk).flatten
  | .keepalive => Wire.keepalive.flatten

/-- The frame that was sent, if it is one of the run's output. -/
def Sent.frame? : Sent → Option Frame
  | .output fileno chunk => some ⟨fileno, chunk⟩
  | .keepalive => none

/-- A run's whole output. -/
def wire (sent : List Sent) (returncode : Int) : Bytes := sent.flatMap Sent.bytes ++ exitMarker returncode

/-- The exit record as the reader yields it. -/
def exitFrame (returncode : Int) : Frame := ⟨-1, encode (textOfInt returncode)⟩

/-- The frames of the output that carry a payload. -/
def payloads (sent : List Sent) : List Frame := (sent.filterMap Sent.frame?).filter (·.chunk ≠ [])

/-- The file numbers that take one character on the wire. -/
def Sent.OneDigit : Sent → Prop
  | .output fileno _ => 0 ≤ fileno ∧ fileno ≤ 9
  | .keepalive => True

instance : DecidablePred Sent.OneDigit
  | .output fileno _ => inferInstanceAs (Decidable (0 ≤ fileno ∧ fileno ≤ 9))
  | .keepalive => inferInstanceAs (Decidable True)

/-! ### Frames as packets -/

/-- The byte of a one-digit file number. -/
def digitMark (fileno : Int) : UInt8 := 48 + fileno.toNat.toUInt8

theorem encode_textOfInt_digit {fileno : Int} (h0 : 0 ≤ fileno) (h9 : fileno ≤ 9) :
    encode (textOfInt fileno) = [digitMark fileno] := by
  interval_cases fileno <;> decide

theorem filenoOf_digitMark {fileno : Int} (h0 : 0 ≤ fileno) (h9 : fileno ≤ 9) :
    filenoOf [digitMark fileno] = .ok fileno := by
  interval_cases fileno <;> rfl

theorem filenoOf_dash : filenoOf [45] = .ok (-1) := rfl

theorem emit_flatten (fileno : Int) (chunk : Bytes) :
    (emit fileno chunk).flatten =
      encode (textOfInt fileno) ++ 32 :: encode (textOfNat chunk.length) ++ 32 :: chunk := by
  have hspace : encode [' '] = [32] := by decide
  have hheader : header fileno chunk.length =
      encode (textOfInt fileno) ++ 32 :: encode (textOfNat chunk.length) ++ [32] := by
    rw [header, ← List.singleton_append, encode_append, encode_append, encode_append, hspace,
      List.singleton_append]
  rw [emit, List.flatten_cons, hheader]
  split_ifs with hempty
  · rw [hempty]
    simp
  · simp

theorem emit_eq_packet {fileno : Int} (h0 : 0 ≤ fileno) (h9 : fileno ≤ 9) (chunk : Bytes) :
    (emit fileno chunk).flatten = packet (digitMark fileno) chunk := by
  rw [emit_flatten, encode_textOfInt_digit h0 h9]
  rfl

theorem length_encode_ascii {text : List Char} (h : ∀ c ∈ text, c.toNat < 128) :
    (encode text).length = text.length := by
  induction text with
  | nil => rfl
  | cons c text ih =>
    have hrest := ih fun d hd => h d (List.mem_cons_of_mem _ hd)
    rw [← List.singleton_append, encode_append, encode_ascii (h c List.mem_cons_self), List.length_append,
      hrest, List.length_append]
    rfl

theorem exitMarker_eq_packet (returncode : Int) :
    exitMarker returncode = packet 45 (encode (textOfInt returncode)) := by
  have hascii : ∀ c ∈ textOfInt returncode, c.toNat < 128 := fun c hc => by
    have := mem_textOfInt hc
    omega
  have hlead : encode ['-', ' '] = [45, 32] := by decide
  have hspace : encode [' '] = [32] := by decide
  have hsplit : '-' :: ' ' :: textOfNat (textOfInt returncode).length ++ ' ' :: textOfInt returncode =
      ['-', ' '] ++ textOfNat (textOfInt returncode).length ++ ([' '] ++ textOfInt returncode) := rfl
  rw [exitMarker, hsplit, encode_append, encode_append, encode_append, hlead, hspace, packet,
    length_encode_ascii hascii]
  rfl

/-! ### The round trip -/

/-- A step of the round trip: one `emit` or keepalive is read back and the reader is at its start again. -/
theorem feedBytes_sent {s : Sent} (h : s.OneDigit) (rest : Bytes) :
    feedBytes .start (s.bytes ++ rest) = (feedBytes .start rest).prepend (payloads [s]) := by
  have hread : ∀ (fileno : Int) (chunk : Bytes), 0 ≤ fileno → fileno ≤ 9 →
      feedBytes .start ((emit fileno chunk).flatten ++ rest) =
        (feedBytes .start rest).prepend (frameOf fileno chunk) := by
    intro fileno chunk h0 h9
    rw [emit_eq_packet h0 h9, feedBytes_packet (filenoOf_digitMark h0 h9)]
  cases s with
  | output fileno chunk =>
    have hpay : payloads [.output fileno chunk] = frameOf fileno chunk := by
      by_cases hempty : chunk = [] <;> simp [payloads, Sent.frame?, frameOf, hempty]
    rw [hpay]
    exact hread fileno chunk h.1 h.2
  | keepalive => exact hread 0 [] (by decide) (by decide)

theorem payloads_cons (s : Sent) (sent : List Sent) : payloads (s :: sent) = payloads [s] ++ payloads sent := by
  rw [← List.singleton_append, payloads, payloads, payloads, List.filterMap_append, List.filter_append]

theorem feedBytes_sents {sent : List Sent} (h : ∀ s ∈ sent, s.OneDigit) (rest : Bytes) :
    feedBytes .start (sent.flatMap Sent.bytes ++ rest) =
      (feedBytes .start rest).prepend (payloads sent) := by
  induction sent with
  | nil => rfl
  | cons s sent ih =>
    rw [List.flatMap_cons, List.append_assoc, feedBytes_sent (h s List.mem_cons_self),
      ih fun t ht => h t (List.mem_cons_of_mem _ ht), Reading.prepend_prepend, payloads_cons s sent]

theorem feedBytes_exitMarker (returncode : Int) (rest : Bytes) :
    feedBytes .start (exitMarker returncode ++ rest) =
      (feedBytes .start rest).prepend [exitFrame returncode] := by
  have hne : encode (textOfInt returncode) ≠ [] := by
    intro hnil
    have hint := intOfBytes_textOfInt returncode
    rw [hnil] at hint
    cases hint
  rw [exitMarker_eq_packet, feedBytes_packet filenoOf_dash, frameOf, if_neg hne, exitFrame]

/-- **The round trip on bytes**: the frames with a payload in order, the exit record, and a reader that is
ready for another frame. -/
theorem feedBytes_wire {sent : List Sent} (h : ∀ s ∈ sent, s.OneDigit) (returncode : Int) :
    feedBytes .start (wire sent returncode) = ⟨payloads sent ++ [exitFrame returncode], .ok .start⟩ := by
  have hexit := feedBytes_exitMarker returncode []
  rw [List.append_nil] at hexit
  rw [wire, feedBytes_sents h, hexit]
  simp [Reading.prepend]

/-- **The wire protocol round trip.** Whatever a run emits on its three streams, with keepalives anywhere,
and however the network splits it: `iter_streams` yields exactly the frames with a payload, in the order
they were sent, then the exit record, from which the client reads the exit code. -/
theorem iterStreams_wire (response : IterContent) (sent : List Sent) (returncode : Int)
    (hfileno : ∀ fileno chunk, .output fileno chunk ∈ sent → 1 ≤ fileno ∧ fileno ≤ 3)
    (chunks : List Bytes) (hsplit : chunks.flatten = wire sent returncode) :
    (iterStreams response chunks).frames =
        (sent.filterMap Sent.frame?).filter (·.chunk ≠ []) ++ [exitFrame returncode] ∧
      (iterStreams response chunks).ended = .ok .start ∧
      intOfBytes (exitFrame returncode).chunk = .ok returncode := by
  have hdigit : ∀ s ∈ sent, s.OneDigit := by
    intro s hs
    cases s with
    | output fileno chunk =>
      have := hfileno fileno chunk hs
      exact ⟨by omega, by omega⟩
    | keepalive => trivial
  rw [iterStreams_eq, hsplit, feedBytes_wire hdigit]
  exact ⟨rfl, rfl, intOfBytes_textOfInt returncode⟩

/-- A payload that looks like an exit record, a keepalive and an empty frame, cut inside a header. -/
theorem iterStreams_wire_lookalike :
    (iterStreams .buffered
        [encode "1 5 - ".toList, encode "1 00 0 2 0 ".toList, encode "- 2 -9".toList]).frames =
      [⟨1, encode "- 1 0".toList⟩, ⟨-1, encode "-9".toList⟩] := by
  have hread := iterStreams_wire .buffered
    [.output 1 (encode "- 1 0".toList), .keepalive, .output 2 []] (-9)
    (by
      intro fileno chunk hmem
      rcases List.mem_cons.mp hmem with heq | hmem
      · cases heq
        decide
      · simp only [List.mem_cons, reduceCtorEq, Sent.output.injEq, List.not_mem_nil, or_false, false_or] at hmem
        rw [hmem.1]
        decide)
    [encode "1 5 - ".toList, encode "1 00 0 2 0 ".toList, encode "- 2 -9".toList] (by decide)
  exact hread.1

/-- An empty frame does not come out of the reader, so not every frame sent is yielded. -/
theorem iterStreams_drops_empty :
    ¬ ∀ (response : IterContent) (sent : List Sent) (returncode : Int)
        (_ : ∀ fileno chunk, .output fileno chunk ∈ sent → 1 ≤ fileno ∧ fileno ≤ 3)
        (chunks : List Bytes) (_ : chunks.flatten = wire sent returncode),
        (iterStreams response chunks).frames = sent.filterMap Sent.frame? ++ [exitFrame returncode] := by
  intro h
  have hread := h .buffered [.output 1 []] 0 (by simp) [wire [.output 1 []] 0] (by simp)
  exact absurd hread (by decide)

end Lager.Wire
