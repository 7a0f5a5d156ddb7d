import Lager.Exec.Drain
import Mathlib.Data.List.Infix

/-!
# Reattaching to a detached run

A detached run's thread writes its frames to `output.log`, ends the log with the exit marker and then sets a
terminal status in `meta.json` (`stream_process_output_to_file`; `finalize_meta` when the capture ended
early). `stream_log_file` tails the log: it hands on whatever bytes are there, looks at the status when there
are none, and sends a keepalive when the last one is long ago.

The bytes of the log become visible in pieces of any size, so the reader can find itself inside a frame when
it polls. `Reads` is the invariant: the decoder cannot tell the bytes handed on from the same stretch of the
log. A keepalive keeps it if the reader stands at the end of a frame, and that is the condition under which
reattaching gives the run's frames and its one exit record (`reattach_decodes`).
-/

namespace Lager.Exec

open Lager.Py Lager.Wire Lager.Lib

/-! ### What the run's thread writes -/

/-- `MAX_LOG_SIZE`. -/
def maxLogSize : Nat := 10 * 1024 * 1024

/-- `MAX_FAILURE_MESSAGE`. -/
def maxFailureMessage : Nat := 64 * 1024

inductive Status
  | starting
  | running
  | finished
  | failed
  deriving DecidableEq, Repr

/-- `status in TERMINAL_STATUSES`. -/
def Status.terminal : Status → Bool
  | .finished | .failed => true
  | .starting | .running => false

/-- The capture loop of `stream_process_output_to_file`: what it wrote to the log, and whether the log has
reached its cap. -/
structure LogWriter where
  sent : List Sent
  size : Nat
  capReached : Bool
  deriving DecidableEq, Repr

/-- One chunk read from one of the streams. The end of stdout or stderr is written as an empty frame. -/
def LogWriter.capture (w : LogWriter) (item : Stream × Bytes) : LogWriter :=
  let (stream, chunk) := item
  if (chunk = [] ∧ stream = .outputChannel) ∨ w.capReached then w
  else
    let size := w.size + (emit stream.fileno chunk).flatten.length
    ⟨w.sent ++ [.output stream.fileno chunk], size, decide (maxLogSize ≤ size)⟩

/-- How a detached job ended: its process did, after `reads` and with `remaining` in the output channel, or
the capture stopped early (also before the process was there) and `finalize_meta` reports it. -/
inductive Outcome
  | finished (reads : List (Stream × Bytes)) (remaining : Bytes) (returncode : Int)
  | failed (reads : List (Stream × Bytes)) (message : Bytes) (returncode : Int)
  deriving DecidableEq, Repr

/-- The message of `append_failure`. -/
def failureMessage (message : Bytes) : Bytes :=
  if maxFailureMessage < message.length then
    message.take maxFailureMessage ++ encode "\n[truncated]\n".toList
  else message

/-- The frames of the job's log before the exit marker. -/
def Outcome.sent : Outcome → List Sent
  | .finished reads remaining _ =>
    let w := reads.foldl LogWriter.capture ⟨[], 0, false⟩
    if w.capReached then w.sent else w.sent ++ [.output Stream.outputChannel.fileno remaining]
  | .failed reads message _ =>
    (reads.foldl LogWriter.capture ⟨[], 0, false⟩).sent ++ [.output Stream.stderr.fileno (failureMessage message)]

def Outcome.returncode : Outcome → Int
  | .finished _ _ returncode | .failed _ _ returncode => returncode

/-- The status the job's thread reports at the end. -/
def Outcome.status : Outcome → Status
  | .finished _ _ _ => .finished
  | .failed _ _ _ => .failed

/-- The whole log. -/
def Outcome.log (job : Outcome) : Bytes := wire job.sent job.returncode

/-! ### The reader -/

/-- Where `stream_log_file` stands: the next thing it does. -/
inductive TailPhase
  /-- `f.read(4096)` -/
  | reading
  /-- Nothing new: open and read `meta.json`. -/
  | checking
  /-- The status is terminal: `f.read()`. -/
  | lastRead
  /-- Still running: send a keepalive if one is due, and sleep. -/
  | waiting
  | done
  deriving DecidableEq, Repr

/-- `visible` bytes of the log are in the file, and the reader has read `pos` of them. -/
structure Tail where
  visible : Nat
  status : Status
  pos : Nat
  phase : TailPhase
  /-- The bytes handed to the client. -/
  out : Bytes
  deriving DecidableEq, Repr

def Tail.init : Tail := ⟨0, .starting, 0, .reading, []⟩

inductive TailEvent
  /-- The next `n` bytes of the log become visible. -/
  | append (n : Nat)
  | started
  /-- The log is complete and closed: the terminal status is written. -/
  | report
  | read (n : Nat)
  | readEmpty
  /-- An unreadable `meta.json` counts as a running job. -/
  | check (readable : Bool)
  | readRest
  | wait (keepaliveDue : Bool)
  deriving DecidableEq, Repr

def tailStep (job : Outcome) (s : Tail) : TailEvent → Option Tail
  | .append n =>
    if 0 < n ∧ s.visible + n ≤ job.log.length then some { s with visible := s.visible + n } else none
  | .started => if s.status = .starting then some { s with status := .running } else none
  | .report =>
    if s.visible = job.log.length ∧ ¬s.status.terminal then some { s with status := job.status } else none
  | .read n =>
    if s.phase = .reading ∧ 0 < n ∧ n ≤ 4096 ∧ s.pos + n ≤ s.visible then
      some { s with out := s.out ++ (job.log.drop s.pos).take n, pos := s.pos + n }
    else none
  | .readEmpty =>
    if s.phase = .reading ∧ s.pos = s.visible then some { s with phase := .checking } else none
  | .check readable =>
    if s.phase = .checking then
      some { s with phase := if readable ∧ s.status.terminal then .lastRead else .waiting }
    else none
  | .readRest =>
    if s.phase = .lastRead then
      some { s with
        out := s.out ++ (job.log.drop s.pos).take (s.visible - s.pos)
        pos := s.visible
        phase := .done }
    else none
  | .wait keepaliveDue =>
    if s.phase = .waiting then
      some { s with
        out := if keepaliveDue then s.out ++ keepalive.flatten else s.out
        phase := .reading }
    else none

/-! ### Positions -/

/-- What the reader has read is in the file, and a terminal status means that the log is complete. -/
structure Placed (job : Outcome) (s : Tail) : Prop where
  pos_le : s.pos ≤ s.visible
  visible_le : s.visible ≤ job.log.length
  complete : s.status.terminal → s.visible = job.log.length
  terminal : s.phase = .lastRead ∨ s.phase = .done → s.status.terminal
  done : s.phase = .done → s.pos = job.log.length

theorem placed_init (job : Outcome) : Placed job Tail.init :=
  ⟨le_rfl, Nat.zero_le _, by simp [Tail.init, Status.terminal], by decide, by simp [Tail.init]⟩

theorem status_terminal (job : Outcome) : job.status.terminal = true := by
  cases job <;> rfl

theorem step_placed {job : Outcome} {s t : Tail} {e : TailEvent} (hp : Placed job s)
    (h : tailStep job s e = some t) : Placed job t := by
  obtain ⟨hpos, hvis, hcomp, hterm, hdone⟩ := hp
  cases e with
  | append n =>
    obtain ⟨⟨hn, hle⟩, ⟨⟩⟩ := Option.ite_none_right_eq_some.mp h
    exact ⟨by dsimp only; omega, hle, fun ht => by have := hcomp ht; omega, hterm, hdone⟩
  | started =>
    obtain ⟨hstart, ⟨⟩⟩ := Option.ite_none_right_eq_some.mp h
    have hnot : ¬(s.phase = .lastRead ∨ s.phase = .done) := fun hph => by
      have := hterm hph
      rw [hstart] at this
      cases this
    exact ⟨hpos, hvis, by simp [Status.terminal], fun hph => absurd hph hnot, hdone⟩
  | report =>
    obtain ⟨⟨hall, -⟩, ⟨⟩⟩ := Option.ite_none_right_eq_some.mp h
    exact ⟨hpos, hvis, fun _ => hall, fun _ => status_terminal job, hdone⟩
  | read n =>
    obtain ⟨⟨hph, -, -, hle⟩, ⟨⟩⟩ := Option.ite_none_right_eq_some.mp h
    exact ⟨hle, hvis, hcomp, hterm, fun hd => by rw [hph] at hd; cases hd⟩
  | readEmpty =>
    obtain ⟨-, ⟨⟩⟩ := Option.ite_none_right_eq_some.mp h
    exact ⟨hpos, hvis, hcomp, by simp, by simp⟩
  | check readable =>
    obtain ⟨-, ⟨⟩⟩ := Option.ite_none_right_eq_some.mp h
    refine ⟨hpos, hvis, hcomp, ?_, ?_⟩
    · dsimp only
      split_ifs with hst
      · exact fun _ => hst.2
      · simp
    · dsimp only
      split_ifs <;> simp
  | readRest =>
    obtain ⟨hph, ⟨⟩⟩ := Option.ite_none_right_eq_some.mp h
    have hst := hterm (.inl hph)
    exact ⟨le_rfl, hvis, hcomp, fun _ => hst, fun _ => hcomp hst⟩
  | wait due =>
    obtain ⟨-, ⟨⟩⟩ := Option.ite_none_right_eq_some.mp h
    exact ⟨hpos, hvis, hcomp, by simp, by simp⟩

/-! ### What the decoder sees -/

/-- The decoder cannot tell what was handed on from the part of the log that was read. -/
def Reads (job : Outcome) (s : Tail) : Prop :=
  feedBytes .start s.out = feedBytes .start (job.log.take s.pos)

/-- The reader has read a number of whole frames, or the whole log. -/
def AtFrameEnd (job : Outcome) (s : Tail) : Prop :=
  (∃ front ∈ job.sent.inits, job.log.take s.pos = front.flatMap Sent.bytes) ∨ s.pos = job.log.length

/-- A keepalive is sent at the end of a frame only. -/
def KeepaliveAtFrameEnd (job : Outcome) (s : Tail) : TailEvent → Prop
  | .wait true => AtFrameEnd job s
  | _ => True

instance (job : Outcome) (s : Tail) : Decidable (AtFrameEnd job s) :=
  inferInstanceAs (Decidable (_ ∨ _))

instance (job : Outcome) (s : Tail) : DecidablePred (KeepaliveAtFrameEnd job s)
  | .wait true => inferInstanceAs (Decidable (AtFrameEnd job s))
  | .wait false | .append _ | .started | .report | .read _ | .readEmpty | .check _ | .readRest =>
    inferInstanceAs (Decidable True)

theorem capture_oneDigit {w : LogWriter} (h : ∀ x ∈ w.sent, x.OneDigit) (item : Stream × Bytes) :
    ∀ x ∈ (w.capture item).sent, x.OneDigit := by
  intro x hx
  simp only [LogWriter.capture] at hx
  split_ifs at hx
  · exact h x hx
  · rcases List.mem_append.mp hx with hx | hx
    · exact h x hx
    · rw [List.mem_singleton.mp hx]
      exact Stream.fileno_oneDigit _ _

theorem foldl_capture_oneDigit (reads : List (Stream × Bytes)) {w : LogWriter} (h : ∀ x ∈ w.sent, x.OneDigit) :
    ∀ x ∈ (reads.foldl LogWriter.capture w).sent, x.OneDigit := by
  induction reads generalizing w with
  | nil => exact h
  | cons item reads ih => exact ih (capture_oneDigit h item)

/-- A job's log has the file numbers of its streams, which take one digit. -/
theorem sent_oneDigit (job : Outcome) : ∀ x ∈ job.sent, x.OneDigit := by
  have hcapture : ∀ reads : List (Stream × Bytes),
      ∀ x ∈ (reads.foldl LogWriter.capture ⟨[], 0, false⟩).sent, x.OneDigit :=
    fun reads => foldl_capture_oneDigit reads (by simp)
  intro x hx
  cases job with
  | finished reads remaining returncode =>
    simp only [Outcome.sent] at hx
    split_ifs at hx
    · exact hcapture reads x hx
    · rcases List.mem_append.mp hx with hx | hx
      · exact hcapture reads x hx
      · rw [List.mem_singleton.mp hx]
        exact Stream.fileno_oneDigit _ _
  | failed reads message returncode =>
    rcases List.mem_append.mp hx with hx | hx
    · exact hcapture reads x hx
    · rw [List.mem_singleton.mp hx]
      exact Stream.fileno_oneDigit _ _

theorem feedBytes_log (job : Outcome) :
    feedBytes .start job.log = ⟨payloads job.sent ++ [exitFrame job.returncode], .ok .start⟩ :=
  feedBytes_wire (sent_oneDigit job) job.returncode

/-- Between frames the decoder stands at its start. -/
theorem ended_of_atFrameEnd {job : Outcome} {s : Tail} (h : AtFrameEnd job s) :
    (feedBytes .start (job.log.take s.pos)).ended = .ok .start := by
  rcases h with ⟨front, hfront, htake⟩ | hall
  · have hfeed := feedBytes_sents (fun x hx => sent_oneDigit job x (((List.mem_inits _ _).mp hfront).subset hx)) []
    rw [List.append_nil] at hfeed
    rw [htake, hfeed]
    rfl
  · rw [hall, List.take_length, feedBytes_log]

theorem feedBytes_keepalive : feedBytes .start keepalive.flatten = ⟨[], .ok .start⟩ := rfl

/-- Bytes of the log, read where the reader stands, are the next bytes the decoder expects. -/
theorem Reads.read {job : Outcome} {s : Tail} (h : Reads job s) (n : Nat) :
    feedBytes .start (s.out ++ (job.log.drop s.pos).take n) = feedBytes .start (job.log.take (s.pos + n)) := by
  rw [List.take_add, feedBytes_append, feedBytes_append, h]

theorem Reads.keepalive {job : Outcome} {s : Tail} (h : Reads job s) (hend : AtFrameEnd job s) :
    feedBytes .start (s.out ++ keepalive.flatten) = feedBytes .start (job.log.take s.pos) := by
  have hended := ended_of_atFrameEnd hend
  rw [feedBytes_append, h, Reading.andThen_ok hended, feedBytes_keepalive, Reading.prepend, List.append_nil]
  exact congrArg (Reading.mk _) hended.symm

/-- **A step of the reader** keeps the decoder in the dark about keepalives, if it stands at the end of a
frame when it sends one. -/
theorem step_reads {job : Outcome} {s t : Tail} {e : TailEvent} (hp : Placed job s) (hr : Reads job s)
    (hok : KeepaliveAtFrameEnd job s e) (h : tailStep job s e = some t) : Reads job t := by
  cases e with
  | read n =>
    obtain ⟨-, ⟨⟩⟩ := Option.ite_none_right_eq_some.mp h
    exact hr.read n
  | readRest =>
    obtain ⟨-, ⟨⟩⟩ := Option.ite_none_right_eq_some.mp h
    have hread := hr.read (s.visible - s.pos)
    rwa [Nat.add_sub_cancel' hp.pos_le] at hread
  | wait due =>
    obtain ⟨-, ⟨⟩⟩ := Option.ite_none_right_eq_some.mp h
    cases due with
    | false => exact hr
    | true => exact hr.keepalive hok
  | append n | started | report | readEmpty | check readable =>
    obtain ⟨-, ⟨⟩⟩ := Option.ite_none_right_eq_some.mp h
    exact hr

theorem run_reads {job : Outcome} {es : List TailEvent} {t : Tail}
    (hok : Along (tailStep job) (KeepaliveAtFrameEnd job) Tail.init es)
    (hrun : run (tailStep job) Tail.init es = some t) : Placed job t ∧ Reads job t :=
  run_invariant (fun s => Placed job s ∧ Reads job s)
    (fun _ _ _ hok hI hstep => ⟨step_placed hI.1 hstep, step_reads hI.1 hI.2 hok hstep⟩)
    hok ⟨placed_init job, rfl⟩ hrun

/-- **Reattaching.** In every run of a detached job and a reader in which keepalives are sent at the end of a
frame only, and for every split of the reader's bytes on the network: the client's decoder yields frames of
the log in order and none else, and when the reader stops it has yielded all of them and the one exit
record. -/
theorem reattach_decodes (job : Outcome) (es : List TailEvent) (t : Tail)
    (hrun : run (tailStep job) Tail.init es = some t)
    (hok : Along (tailStep job) (KeepaliveAtFrameEnd job) Tail.init es)
    (response : IterContent) (chunks : List Bytes) (hsplit : chunks.flatten = t.out) :
    (iterStreams response chunks).frames <+: payloads job.sent ++ [exitFrame job.returncode] ∧
      (t.phase = .done →
        (iterStreams response chunks).frames = payloads job.sent ++ [exitFrame job.returncode] ∧
        (iterStreams response chunks).ended = .ok .start) := by
  obtain ⟨hp, hr⟩ := run_reads hok hrun
  have hread : iterStreams response chunks = feedBytes .start (job.log.take t.pos) := by
    rw [iterStreams_eq, hsplit, hr]
  rw [hread]
  constructor
  · have hprefix := Reading.frames_andThen_isPrefix (feedBytes .start (job.log.take t.pos)) (job.log.drop t.pos)
    rwa [← feedBytes_append, List.take_append_drop, feedBytes_log] at hprefix
  · intro hdone
    rw [hp.done hdone, List.take_length, feedBytes_log]
    exact ⟨rfl, rfl⟩

/-- A job that prints `ab` and is tailed with a keepalive between two frames. -/
theorem reattach_decodes_between_frames :
    (iterStreams .buffered [encode "1 2 ab0 0 1 0 3 0 - 1 0".toList]).frames =
      [⟨1, encode "ab".toList⟩, exitFrame 0] := by
  have hdone := reattach_decodes (.finished [(.stdout, encode "ab".toList), (.stdout, [])] [] 0)
    [.started, .append 6, .read 6, .readEmpty, .check true, .wait true, .append 13, .report, .read 1,
      .read 12, .readEmpty, .check true, .readRest]
    ⟨19, .finished, 19, .done, encode "1 2 ab0 0 1 0 3 0 - 1 0".toList⟩
    (by decide) (by decide +kernel) .buffered [encode "1 2 ab0 0 1 0 3 0 - 1 0".toList] (by decide)
  exact (hdone.2 rfl).1

/-- A keepalive that falls between a frame's first bytes and the rest of them breaks the frame up. -/
theorem keepalive_inside_frame :
    ¬ ∀ (job : Outcome) (es : List TailEvent) (t : Tail) (response : IterContent) (chunks : List Bytes),
        run (tailStep job) Tail.init es = some t → chunks.flatten = t.out → t.phase = .done →
        (iterStreams response chunks).frames = payloads job.sent ++ [exitFrame job.returncode] := by
  intro h
  have hread := h (.finished [(.stdout, encode "ab".toList), (.stdout, [])] [] 0)
    [.started, .append 5, .read 5, .readEmpty, .check true, .wait true, .append 14, .report, .read 14,
      .readEmpty, .check true, .readRest]
    ⟨19, .finished, 19, .done, encode "1 2 a0 0 b1 0 3 0 - 1 0".toList⟩ .buffered
    [encode "1 2 a0 0 b1 0 3 0 - 1 0".toList] (by decide) (by decide) rfl
  exact absurd hread (by decide)

end Lager.Exec
