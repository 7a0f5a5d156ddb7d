import Lager.Py.Sha256
import Lager.Wire.RoundTrip

/-!
# The hash of a run's log

The box hashes a run's output while it streams it (`RunRecorder.log_frame`, called by
`stream_process_output` before each `emit`), and the client hashes what it decodes (`LogHasher`, the
`frame_observer` of `stream_python_output_v1`). Each side decides by itself which frames count and writes
them out again. `logBytes` is what both are meant to hash: the frames of file numbers 1 to 3 with a payload.

Hashing is incremental on both sides, so a hash object is the bytes it was updated with, and `sha256` is any
function of those bytes.
-/

namespace Lager.RunRecord

open Lager.Py Lager.Wire

/-! ### The recorder's log -/

/-- What the log file's `write` or `close` does: succeed, or raise. -/
inductive Disk
  | ok
  | fails
  deriving DecidableEq, Repr

/-- The log fields of a `RunRecorder`: `hashed` is what `_log_hash` was updated with and `logFile` the bytes
written to the open log file, `none` once it is closed and removed. -/
structure LogCapture where
  retain : Bool
  hashed : Bytes
  logSize : Nat
  logFile : Option Bytes
  finalized : Bool
  broken : Bool
  deriving DecidableEq, Repr

/-- The log fields as `__init__` leaves them; only a collected-mode box keeps the bytes. -/
def LogCapture.init (retain : Bool) : LogCapture where
  retain := retain
  hashed := []
  logSize := 0
  logFile := if retain then some [] else none
  finalized := false
  broken := false

/-- A frame as it is hashed. -/
def frameBytes (fileno : Int) (chunk : Bytes) : Bytes := header fileno chunk.length ++ chunk

/-- The file numbers of a run's output. -/
def isStream (fileno : Int) : Bool := fileno = 1 ∨ fileno = 2 ∨ fileno = 3

def LogCapture.logFrame (blobMax : Int) (disk : Disk) (r : LogCapture) (fileno : Int) (chunk : Bytes) :
    LogCapture :=
  if r.broken ∨ r.finalized ∨ chunk = [] ∨ ¬isStream fileno then r
  else
    let frame := frameBytes fileno chunk
    let r := { r with hashed := r.hashed ++ frame, logSize := r.logSize + frame.length }
    match r.logFile with
    | none => r
    | some written =>
      if (r.logSize : Int) ≤ blobMax then
        match disk with
        | .ok => { r with logFile := some (written ++ frame) }
        | .fails => { r with broken := true }
      else
        -- `_drop_log_bytes`: the file goes even when closing it raises
        match disk with
        | .ok => { r with logFile := none }
        | .fails => { r with logFile := none, broken := true }

/-- The `log` field of the final record. -/
structure LogEntry where
  sha256 : String
  size : Nat
  retained : Bool
  deriving DecidableEq, Repr

/-- `logExists` is whether the log file is still there when the run is finalized. -/
def LogCapture.entry (sha256 : Bytes → String) (blobMax : Int) (logExists : Bool) (r : LogCapture) :
    LogEntry where
  sha256 := sha256 r.hashed
  size := r.logSize
  retained := r.retain && !r.broken && decide ((r.logSize : Int) ≤ blobMax) && logExists

/-! ### The stream -/

/-- One turn of the loop of `stream_process_output`: a frame goes to the recorder and then on the wire, a
keepalive on the wire only. -/
def streamTurn (blobMax : Int) (s : LogCapture × Bytes) (turn : Sent × Disk) : LogCapture × Bytes :=
  match turn.1 with
  | .output fileno chunk => (s.1.logFrame blobMax turn.2 fileno chunk, s.2 ++ turn.1.bytes)
  | .keepalive => (s.1, s.2 ++ turn.1.bytes)

/-- The stream of a run that ends by itself: the log entry of its final record, and the bytes sent. -/
def streamProcessOutput (sha256 : Bytes → String) (blobMax : Int) (retain : Bool)
    (turns : List (Sent × Disk)) (returncode : Int) : LogEntry × Bytes :=
  let s := turns.foldl (streamTurn blobMax) (LogCapture.init retain, [])
  (s.1.entry sha256 blobMax s.1.logFile.isSome, s.2 ++ exitMarker returncode)

/-! ### The client's log -/

structure LogHasher where
  hashed : Bytes
  size : Nat
  deriving DecidableEq, Repr

def LogHasher.init : LogHasher := ⟨[], 0⟩

/-- `LogHasher.__call__`. -/
def LogHasher.call (h : LogHasher) (fileno : Int) (chunk : Bytes) : LogHasher :=
  if chunk = [] then h
  else
    let frame := frameBytes fileno chunk
    ⟨h.hashed ++ frame, h.size + frame.length⟩

/-- The observer of `stream_python_output_v1`: it is shown the frames of the three streams. -/
def LogHasher.observe (h : LogHasher) (frame : Frame) : LogHasher :=
  if isStream frame.fileno then h.call frame.fileno frame.chunk else h

/-- The client's hasher after it has read a whole response. -/
def clientLog (response : IterContent) (chunks : List Bytes) : LogHasher :=
  (iterStreams response chunks).frames.foldl LogHasher.observe .init

/-! ### What is hashed -/

/-- The frames that belong to the log. -/
def inLog (frame : Frame) : Bool := isStream frame.fileno ∧ frame.chunk ≠ []

/-- The log as a byte string. -/
def logBytes (frames : List Frame) : Bytes :=
  (frames.filter inLog).flatMap fun frame => frameBytes frame.fileno frame.chunk

theorem logBytes_append (fs gs : List Frame) : logBytes (fs ++ gs) = logBytes fs ++ logBytes gs := by
  simp [logBytes]

theorem logBytes_singleton (frame : Frame) :
    logBytes [frame] = if inLog frame then frameBytes frame.fileno frame.chunk else [] := by
  cases hin : inLog frame <;> simp [logBytes, hin]

/-- Leaving out the empty frames, as the reader does, leaves the log as it is. -/
theorem logBytes_payloads (sent : List Sent) : logBytes (payloads sent) = logBytes (sent.filterMap Sent.frame?) := by
  rw [logBytes, payloads, List.filter_filter, logBytes]
  congr 2
  funext frame
  simp [inLog]

theorem logBytes_exitFrame (returncode : Int) : logBytes [exitFrame returncode] = [] := by
  rw [logBytes_singleton]
  rfl

theorem LogHasher.observe_eq (h : LogHasher) (frame : Frame) :
    h.observe frame = ⟨h.hashed ++ logBytes [frame], h.size + (logBytes [frame]).length⟩ := by
  rw [logBytes_singleton, LogHasher.observe, LogHasher.call]
  by_cases hs : isStream frame.fileno = true <;> by_cases hc : frame.chunk = [] <;> simp [inLog, hs, hc]

/-- The client hashes the log of the frames it is shown. -/
theorem foldl_observe (frames : List Frame) (h : LogHasher) :
    frames.foldl LogHasher.observe h = ⟨h.hashed ++ logBytes frames, h.size + (logBytes frames).length⟩ := by
  induction frames generalizing h with
  | nil => simp [logBytes]
  | cons frame frames ih =>
    rw [List.foldl_cons, ih, LogHasher.observe_eq, ← List.singleton_append (l := frames), logBytes_append,
      List.append_assoc, List.length_append, Nat.add_assoc]

/-- A frame is hashed if it belongs to the log, and nothing about the recorder changes that matters to the
next one. -/
theorem logFrame_ok (blobMax : Int) {r : LogCapture} (hb : r.broken = false) (hf : r.finalized = false)
    (fileno : Int) (chunk : Bytes) :
    let r' := r.logFrame blobMax .ok fileno chunk
    r'.hashed = r.hashed ++ logBytes [⟨fileno, chunk⟩] ∧
      r'.logSize = r.logSize + (logBytes [⟨fileno, chunk⟩]).length ∧
      r'.broken = false ∧ r'.finalized = false := by
  rw [logBytes_singleton]
  intro r'
  by_cases hin : inLog ⟨fileno, chunk⟩ = true
  · have hguard : ¬(r.broken = true ∨ r.finalized = true ∨ chunk = [] ∨ ¬isStream fileno = true) := by
      simpa [inLog, hb, hf, and_comm] using hin
    have hr' : r'.hashed = r.hashed ++ frameBytes fileno chunk ∧
        r'.logSize = r.logSize + (frameBytes fileno chunk).length ∧
        r'.broken = false ∧ r'.finalized = false := by
      simp only [r', LogCapture.logFrame, if_neg hguard]
      cases r.logFile with
      | none => exact ⟨rfl, rfl, hb, hf⟩
      | some written =>
        dsimp only
        split_ifs <;> exact ⟨rfl, rfl, hb, hf⟩
    rwa [if_pos hin]
  · have hguard : r.broken = true ∨ r.finalized = true ∨ chunk = [] ∨ ¬isStream fileno = true := by
      by_cases hc : chunk = []
      · exact Or.inr (Or.inr (Or.inl hc))
      · exact Or.inr (Or.inr (Or.inr fun hs => hin (by simp [inLog, hs, hc])))
    have hsame : r' = r := if_pos hguard
    rw [hsame, if_neg hin]
    exact ⟨by simp, by simp, hb, hf⟩

/-- **The loop.** While no write fails, the recorder has hashed the log of what was sent, and the wire
carries what was sent. -/
theorem foldl_streamTurn (blobMax : Int) (turns : List (Sent × Disk)) (hdisk : ∀ t ∈ turns, t.2 = .ok)
    (r : LogCapture) (out : Bytes) (hb : r.broken = false) (hf : r.finalized = false) :
    let s := turns.foldl (streamTurn blobMax) (r, out)
    let frames := (turns.map Prod.fst).filterMap Sent.frame?
    s.1.hashed = r.hashed ++ logBytes frames ∧ s.1.logSize = r.logSize + (logBytes frames).length ∧
      s.2 = out ++ (turns.map Prod.fst).flatMap Sent.bytes := by
  induction turns generalizing r out with
  | nil => simp [logBytes]
  | cons t turns ih =>
    obtain ⟨sent, disk⟩ := t
    have hrest : ∀ t ∈ turns, t.2 = .ok := fun t ht => hdisk t (List.mem_cons_of_mem _ ht)
    have hok : disk = .ok := hdisk (sent, disk) List.mem_cons_self
    subst hok
    cases sent with
    | output fileno chunk =>
      obtain ⟨hhash, hsize, hb', hf'⟩ := logFrame_ok blobMax hb hf fileno chunk
      obtain ⟨ih₁, ih₂, ih₃⟩ :=
        ih hrest (r.logFrame blobMax .ok fileno chunk) (out ++ (Sent.output fileno chunk).bytes) hb' hf'
      have hframes : (((Sent.output fileno chunk, Disk.ok) :: turns).map Prod.fst).filterMap Sent.frame? =
          [⟨fileno, chunk⟩] ++ (turns.map Prod.fst).filterMap Sent.frame? := rfl
      dsimp only
      rw [hframes, logBytes_append, List.length_append, ← List.append_assoc, ← Nat.add_assoc, ← hhash, ← hsize]
      refine ⟨ih₁, ih₂, ?_⟩
      rw [List.map_cons, List.flatMap_cons, ← List.append_assoc]
      exact ih₃
    | keepalive =>
      obtain ⟨ih₁, ih₂, ih₃⟩ := ih hrest r (out ++ Sent.keepalive.bytes) hb hf
      refine ⟨ih₁, ih₂, ?_⟩
      rw [List.map_cons, List.flatMap_cons, ← List.append_assoc]
      exact ih₃

/-- **The log hash agrees.** For a run that emits anything on one-digit file numbers (the box uses 0 to 3),
with keepalives anywhere and no failed write to the log file, and for every split of the stream on the
network, the client ends up with the hash and the size that are in the final record. -/
theorem log_hash_agrees (sha256 : Bytes → String) (blobMax : Int) (retain : Bool)
    (turns : List (Sent × Disk)) (returncode : Int) (response : IterContent) (chunks : List Bytes)
    (hdigit : ∀ t ∈ turns, t.1.OneDigit) (hdisk : ∀ t ∈ turns, t.2 = .ok)
    (hsplit : chunks.flatten = (streamProcessOutput sha256 blobMax retain turns returncode).2) :
    (turns.foldl (streamTurn blobMax) (LogCapture.init retain, [])).1.hashed =
        (clientLog response chunks).hashed ∧
      (streamProcessOutput sha256 blobMax retain turns returncode).1.sha256 =
        sha256 (clientLog response chunks).hashed ∧
      (streamProcessOutput sha256 blobMax retain turns returncode).1.size =
        (clientLog response chunks).size := by
  obtain ⟨hhash, hsize, hwire⟩ :=
    foldl_streamTurn blobMax turns hdisk (LogCapture.init retain) [] rfl rfl
  have hdigit' : ∀ s ∈ turns.map Prod.fst, s.OneDigit := by
    intro s hs
    obtain ⟨t, ht, rfl⟩ := List.mem_map.mp hs
    exact hdigit t ht
  have hbytes : chunks.flatten = wire (turns.map Prod.fst) returncode := by
    rw [hsplit, streamProcessOutput, wire, hwire, List.nil_append]
  have hclient : clientLog response chunks =
      ⟨logBytes ((turns.map Prod.fst).filterMap Sent.frame?),
        (logBytes ((turns.map Prod.fst).filterMap Sent.frame?)).length⟩ := by
    rw [clientLog, iterStreams_eq, hbytes, feedBytes_wire hdigit', foldl_observe, logBytes_append,
      logBytes_exitFrame, List.append_nil, logBytes_payloads]
    simp [LogHasher.init]
  have hagree : (turns.foldl (streamTurn blobMax) (LogCapture.init retain, [])).1.hashed =
      (clientLog response chunks).hashed := by
    rw [hhash, hclient]
    rfl
  refine ⟨hagree, congrArg sha256 hagree, ?_⟩
  rw [hclient, streamProcessOutput, LogCapture.entry, hsize]
  exact Nat.zero_add _

/-- Output on all three streams, with an empty frame and a keepalive, received in two pieces. -/
theorem log_hash_agrees_three_streams :
    (streamProcessOutput sha256Hex 3 true
        [(.output 1 (encode "ab".toList), .ok), (.output 2 [], .ok), (.keepalive, .ok),
          (.output 3 (encode "1 0 ".toList), .ok), (.output 2 (encode "x".toList), .ok)] 0).1.size =
      (clientLog .buffered [encode "1 2 a".toList, encode "b2 0 0 0 3 4 1 0 2 1 x- 1 0".toList]).size :=
  (log_hash_agrees _ 3 true _ 0 .buffered _ (by decide) (by decide) (by decide)).2.2

/-- The two sides need not agree on every run. The reader takes one byte for the file number, so one of two
digits makes it raise, and the frames after it are hashed on the box only; and after a failed write the
recorder does nothing more, so the frames after it are hashed by the client only. -/
theorem log_hash_differs :
    (¬ ∀ (turns : List (Sent × Disk)) (blobMax : Int) (retain : Bool) (returncode : Int)
        (response : IterContent) (chunks : List Bytes),
        (∀ t ∈ turns, t.2 = .ok) →
        chunks.flatten = (streamProcessOutput (fun _ => "") blobMax retain turns returncode).2 →
        (turns.foldl (streamTurn blobMax) (LogCapture.init retain, [])).1.hashed =
          (clientLog response chunks).hashed) ∧
      ¬ ∀ (turns : List (Sent × Disk)) (blobMax : Int) (retain : Bool) (returncode : Int)
        (response : IterContent) (chunks : List Bytes),
        (∀ t ∈ turns, t.1.OneDigit) →
        chunks.flatten = (streamProcessOutput (fun _ => "") blobMax retain turns returncode).2 →
        (turns.foldl (streamTurn blobMax) (LogCapture.init retain, [])).1.hashed =
          (clientLog response chunks).hashed := by
  constructor
  · intro h
    have hagree := h [(.output 12 [65], .ok), (.output 1 [66], .ok)] 0 false 0 .buffered
      [(streamProcessOutput (fun _ => "") 0 false [(.output 12 [65], .ok), (.output 1 [66], .ok)] 0).2]
      (by decide) (by simp)
    exact absurd hagree (by decide)
  · intro h
    have hagree := h [(.output 1 [65], .fails), (.output 1 [66], .ok)] 100 true 0 .buffered
      [(streamProcessOutput (fun _ => "") 100 true [(.output 1 [65], .fails), (.output 1 [66], .ok)] 0).2]
      (by decide) (by simp)
    exact absurd hagree (by decide)

end Lager.RunRecord
