import Lager.Lib.Run
import Lager.Wire.RoundTrip
import Mathlib.Logic.Function.Basic

/-!
# Streaming a process: drain threads, a bounded queue and a consumer

`stream_process_output` starts one drain thread for each of the process's streams. The threads put
`(fileno, chunk)` on one queue of `_DRAIN_QUEUE_MAX` entries and a last `(fileno, None)` when their stream has
ended; the generator takes the entries off, sends the chunks, and counts the ends down in `pending_eofs`. It
sends the exit marker when the count is zero.

A `put` waits one second for room and then raises `Full`. What it was about to put is dropped, and that goes
for the end of a stream as for a chunk. The count of ends is exact up to these losses
(`run_pending`), so a run ends up waiting for a stream that has ended exactly when a sentinel was dropped
(`pending_zero_iff`). The chunks of a stream are never reordered (`step_ordered`).
-/

namespace Lager.Exec

open Lager.Py Lager.Wire Lager.Lib

/-- `_DRAIN_QUEUE_MAX`. -/
def drainQueueMax : Nat := 2048

/-! ### The state -/

inductive Stream
  | stdout
  | stderr
  | outputChannel
  deriving DecidableEq, Repr

def Stream.fileno : Stream → Int
  | .stdout => 1
  | .stderr => 2
  | .outputChannel => 3

theorem Stream.fileno_oneDigit (stream : Stream) (chunk : Bytes) :
    (Sent.output stream.fileno chunk).OneDigit := by
  cases stream
  · exact (by decide : (0 : Int) ≤ 1 ∧ (1 : Int) ≤ 9)
  · exact (by decide : (0 : Int) ≤ 2 ∧ (2 : Int) ≤ 9)
  · exact (by decide : (0 : Int) ≤ 3 ∧ (3 : Int) ≤ 9)

/-- Where a drain thread stands: the next thing it does. -/
inductive Phase
  | absent
  /-- `while not stop_event.is_set()` -/
  | top
  /-- `readable.read(1024)` -/
  | reading
  /-- `q.put((fileno, chunk), timeout=1.0)` -/
  | putting (chunk : Bytes)
  /-- The file had nothing new: `proc.poll()`. -/
  | polling
  /-- The process is gone: `readable.read()`. -/
  | readingTail
  | puttingTail (tail : Bytes)
  /-- In the `finally` clause: `q.put((fileno, None), timeout=1.0)`. -/
  | ending
  | finished
  deriving DecidableEq, Repr

/-- A drain thread and every chunk it has read so far. -/
structure Drain where
  phase : Phase
  read : List Bytes
  deriving DecidableEq, Repr

/-- Where the generator stands. -/
inductive Consumer
  /-- Starting the drain threads. -/
  | spawning (rest : List Stream)
  /-- `while pending_eofs > 0` -/
  | loop
  /-- A chunk was taken off the queue and `emit` has its header or payload to yield. -/
  | emitting (stream : Stream) (chunk : Bytes)
  /-- At the `yield` of a keepalive or of `IDLE_TICK`. -/
  | ticking
  /-- At the `yield` of the exit marker. -/
  | exiting
  | closed
  deriving DecidableEq, Repr

structure State where
  drains : Stream → Drain
  queue : List (Stream × Option Bytes)
  /-- `stop_event` -/
  stop : Bool
  /-- `pending_eofs` -/
  pending : Nat
  consumer : Consumer
  /-- What the client was sent before the exit marker. -/
  sent : List Sent
  exit : Option Int

/-- The generator's start: one drain for each stream the process has. -/
def init (stdout stderr outputChannel : Bool) : State where
  drains _ := ⟨.absent, []⟩
  queue := []
  stop := false
  pending := 0
  consumer := .spawning
    ((if stdout then [.stdout] else []) ++ (if stderr then [.stderr] else []) ++
      (if outputChannel then [.outputChannel] else []))
  sent := []
  exit := none

/-! ### One drain thread -/

/-- What a drain thread meets next. `read []` is a read that returns nothing, `raises` an exception from the
file or the process, `full` a `put` that ran out of time. -/
inductive Move
  | test
  | read (chunk : Bytes)
  | raises
  | poll (exited : Bool)
  | put
  | full
  deriving DecidableEq, Repr

/-- One move of `_drain_pipe_to_queue` (stdout, stderr) or `_drain_file_to_queue` (the output channel), with
what it puts on the queue. `room` says that the queue is not full. -/
def Drain.move (stream : Stream) (stop room : Bool) (d : Drain) (m : Move) :
    Option (Drain × Option (Option Bytes)) :=
  match d.phase, m with
  | .top, .test => some (⟨if stop then .ending else .reading, d.read⟩, none)
  | .reading, .read chunk =>
    if chunk = [] then
      match stream with
      | .outputChannel => some (⟨.polling, d.read⟩, none)
      | .stdout | .stderr => some (⟨.ending, d.read⟩, none)
    else if chunk.length ≤ 1024 then some (⟨.putting chunk, d.read ++ [chunk]⟩, none)
    else none
  | .putting chunk, .put => if room then some (⟨.top, d.read⟩, some (some chunk)) else none
  | .putting _, .full => if room then none else some (⟨.top, d.read⟩, none)
  | .polling, .poll exited => some (⟨if exited then .readingTail else .top, d.read⟩, none)
  | .readingTail, .read tail =>
    if tail = [] then some (⟨.ending, d.read⟩, none)
    else some (⟨.puttingTail tail, d.read ++ [tail]⟩, none)
  | .puttingTail tail, .put => if room then some (⟨.ending, d.read⟩, some (some tail)) else none
  | .puttingTail _, .full => if room then none else some (⟨.ending, d.read⟩, none)
  | .reading, .raises | .polling, .raises | .readingTail, .raises => some (⟨.ending, d.read⟩, none)
  | .ending, .put => if room then some (⟨.finished, d.read⟩, some none) else none
  | .ending, .full => if room then none else some (⟨.finished, d.read⟩, none)
  | _, _ => none

/-! ### The system -/

inductive Event
  /-- The generator starts the next drain thread, or goes to its loop. -/
  | spawn
  | spawnFails
  | drain (stream : Stream) (m : Move)
  | get
  /-- `q.get` found nothing for 0.1 s: `IDLE_TICK`, after a keepalive if one is due. -/
  | idle (keepaliveDue : Bool)
  /-- The client took the frame; a keepalive follows if one is due. -/
  | deliver (keepaliveDue : Bool)
  /-- All ends were counted: reap the process, finalize the record and send the exit marker. -/
  | reap (returncode : Int)
  | reapFails
  /-- The client took what was yielded. -/
  | resume
  /-- The client is gone: `GeneratorExit` at a `yield`. -/
  | disconnect
  deriving DecidableEq, Repr

/-- The generator's `finally` clause. -/
def State.close (s : State) : State := { s with consumer := .closed, stop := true }

def step (cap : Nat) (s : State) : Event → Option State
  | .spawn =>
    match s.consumer with
    | .spawning (stream :: rest) =>
      some { s with
        drains := Function.update s.drains stream ⟨.top, []⟩
        pending := s.pending + 1
        consumer := .spawning rest }
    | .spawning [] => some { s with consumer := .loop }
    | _ => none
  | .spawnFails =>
    match s.consumer with
    | .spawning (_ :: _) => some s.close
    | _ => none
  | .drain stream m =>
    ((s.drains stream).move stream s.stop (s.queue.length < cap) m).map fun (d, item) =>
      { s with
        drains := Function.update s.drains stream d
        queue := s.queue ++ (item.map (stream, ·)).toList }
  | .get =>
    match s.consumer, s.queue with
    | .loop, (stream, chunk) :: rest =>
      if 0 < s.pending then
        match chunk with
        | none => some { s with queue := rest, pending := s.pending - 1 }
        | some chunk => some { s with queue := rest, consumer := .emitting stream chunk }
      else none
    | _, _ => none
  | .idle keepaliveDue =>
    match s.consumer, s.queue with
    | .loop, [] =>
      if 0 < s.pending then
        some { s with sent := s.sent ++ (if keepaliveDue then [.keepalive] else []), consumer := .ticking }
      else none
    | _, _ => none
  | .deliver keepaliveDue =>
    match s.consumer with
    | .emitting stream chunk =>
      some { s with
        sent := s.sent ++ .output stream.fileno chunk :: (if keepaliveDue then [.keepalive] else [])
        consumer := if keepaliveDue then .ticking else .loop }
    | _ => none
  | .reap returncode =>
    match s.consumer with
    | .loop => if s.pending = 0 then some { s with consumer := .exiting, exit := some returncode } else none
    | _ => none
  | .reapFails =>
    match s.consumer with
    | .loop => if s.pending = 0 then some s.close else none
    | _ => none
  | .resume =>
    match s.consumer with
    | .ticking => some { s with consumer := .loop }
    | .exiting => some s.close
    | _ => none
  | .disconnect =>
    match s.consumer with
    | .emitting _ _ | .ticking | .exiting => some s.close
    | _ => none

/-! ### What a step does -/

/-- Whether the thread has still to put its sentinel. -/
def Phase.live : Phase → Nat
  | .absent | .finished => 0
  | _ => 1

/-- The chunk that was read and is not yet on the queue. -/
def Phase.inHand : Phase → List Bytes
  | .putting chunk | .puttingTail chunk => [chunk]
  | _ => []

/-- A drain thread's move goes on without touching the queue, reads a chunk, puts it, or puts its sentinel
or fails to. -/
theorem Drain.move_cases {stream : Stream} {stop room : Bool} {d d' : Drain} {m : Move}
    {item : Option (Option Bytes)} (h : d.move stream stop room m = some (d', item)) :
    (item = none ∧ d'.read = d.read ∧ d'.phase.inHand = [] ∧ d.phase.live = 1 ∧ d'.phase.live = 1 ∧
        ¬(d.phase = .ending ∧ m = .full)) ∨
      (∃ chunk, item = none ∧ d'.read = d.read ++ [chunk] ∧ d.phase.inHand = [] ∧
        d'.phase.inHand = [chunk] ∧ d.phase.live = 1 ∧ d'.phase.live = 1 ∧ m ≠ .full) ∨
      (∃ chunk, item = some (some chunk) ∧ d'.read = d.read ∧ d.phase.inHand = [chunk] ∧
        d'.phase.inHand = [] ∧ d.phase.live = 1 ∧ d'.phase.live = 1 ∧ m ≠ .full) ∨
      (d' = ⟨.finished, d.read⟩ ∧ d.phase = .ending ∧
        (item = some none ∧ m = .put ∨ item = none ∧ m = .full)) := by
  obtain ⟨phase, read⟩ := d
  cases phase <;> cases m <;> simp only [Drain.move, reduceCtorEq] at h
  case reading.read chunk => cases stream <;> grind [Phase.live, Phase.inHand]
  all_goals grind [Phase.live, Phase.inHand]

/-- Steps that leave the threads, the queue and the count alone. -/
def Quiet (s t : State) (e : Event) : Prop :=
  (∀ stream m, e ≠ .drain stream m) ∧ t.drains = s.drains ∧ t.queue = s.queue ∧ t.pending = s.pending ∧
    (∀ rest, t.consumer ≠ .spawning rest) ∧ (∀ stream chunk, t.consumer ≠ .emitting stream chunk) ∧
    (t.sent = s.sent ∨ t.sent = s.sent ++ [.keepalive])

theorem step_cases {cap : Nat} {s t : State} {e : Event} (h : step cap s e = some t) :
    (∃ stream rest, e = .spawn ∧ s.consumer = .spawning (stream :: rest) ∧
      t = { s with
        drains := Function.update s.drains stream ⟨.top, []⟩
        pending := s.pending + 1
        consumer := .spawning rest }) ∨
    (∃ stream m d item, e = .drain stream m ∧
      (s.drains stream).move stream s.stop (s.queue.length < cap) m = some (d, item) ∧
      t = { s with
        drains := Function.update s.drains stream d
        queue := s.queue ++ (item.map (stream, ·)).toList }) ∨
    (∃ stream rest, e = .get ∧ s.consumer = .loop ∧ s.queue = (stream, none) :: rest ∧ 0 < s.pending ∧
      t = { s with queue := rest, pending := s.pending - 1 }) ∨
    (∃ stream chunk rest, e = .get ∧ s.consumer = .loop ∧ s.queue = (stream, some chunk) :: rest ∧
      t = { s with queue := rest, consumer := .emitting stream chunk }) ∨
    (∃ stream chunk due, e = .deliver due ∧ s.consumer = .emitting stream chunk ∧
      t = { s with
        sent := s.sent ++ .output stream.fileno chunk :: (if due then [.keepalive] else [])
        consumer := if due then .ticking else .loop }) ∨
    Quiet s t e := by
  cases e with
  | spawn =>
    rcases hc : s.consumer with (_ | ⟨stream, rest⟩) | _ | _ | _ | _ | _ <;>
      simp only [step, hc, Option.some.injEq, reduceCtorEq] at h
    · subst h
      refine .inr (.inr (.inr (.inr (.inr ⟨by simp, rfl, rfl, rfl, by simp, by simp, .inl rfl⟩))))
    · exact .inl ⟨stream, rest, rfl, rfl, h.symm⟩
  | drain stream m =>
    simp only [step, Option.map_eq_some_iff, Prod.exists] at h
    obtain ⟨d, item, hmove, rfl⟩ := h
    exact .inr (.inl ⟨stream, m, d, item, rfl, hmove, rfl⟩)
  | get =>
    simp only [step] at h
    split at h
    · rename_i stream chunk rest hloop hqueue
      split_ifs at h with hpending
      split at h <;> cases h
      · exact .inr (.inr (.inl ⟨stream, rest, rfl, hloop, hqueue, hpending, rfl⟩))
      · exact .inr (.inr (.inr (.inl ⟨stream, _, rest, rfl, hloop, hqueue, rfl⟩)))
    · cases h
  | deliver due =>
    simp only [step] at h
    split at h
    · rename_i stream chunk hemit
      exact .inr (.inr (.inr (.inr (.inl ⟨stream, chunk, due, rfl, hemit, (Option.some.inj h).symm⟩))))
    · cases h
  | idle due =>
    refine .inr (.inr (.inr (.inr (.inr ?_))))
    simp only [step] at h
    split at h
    · split_ifs at h
      · cases h
        exact ⟨by simp, rfl, rfl, rfl, by simp, by simp, .inr rfl⟩
      · cases h
        exact ⟨by simp, rfl, rfl, rfl, by simp, by simp, .inl (List.append_nil _)⟩
    · cases h
  | _ =>
    refine .inr (.inr (.inr (.inr (.inr ?_))))
    simp only [step] at h
    repeat' split at h
    all_goals cases h
    all_goals exact ⟨by simp, rfl, rfl, rfl, by simp [State.close], by simp [State.close], .inl rfl⟩

/-! ### Starting the threads -/

/-- The streams whose drain is still to be started are distinct, and nothing was read from them. -/
def Fresh (s : State) : Prop :=
  ∀ rest, s.consumer = .spawning rest → rest.Nodup ∧ ∀ stream ∈ rest, s.drains stream = ⟨.absent, []⟩

theorem fresh_init (stdout stderr outputChannel : Bool) : Fresh (init stdout stderr outputChannel) := by
  rintro rest ⟨⟩
  exact ⟨by cases stdout <;> cases stderr <;> cases outputChannel <;> decide, fun _ _ => rfl⟩

theorem move_absent {stream : Stream} {stop room : Bool} {read : List Bytes} {m : Move} :
    Drain.move stream stop room ⟨.absent, read⟩ m = none := by
  cases m <;> rfl

theorem step_fresh {cap : Nat} {s t : State} {e : Event} (hf : Fresh s) (h : step cap s e = some t) :
    Fresh t := by
  rcases step_cases h with ⟨stream, rest, -, hc, rfl⟩ | ⟨stream, m, d, item, -, hmove, rfl⟩ |
    ⟨stream, rest, -, hc, -, -, rfl⟩ | ⟨stream, chunk, rest, -, -, -, rfl⟩ |
    ⟨stream, chunk, due, -, -, rfl⟩ | ⟨-, -, -, -, hspawning, -, -⟩
  · rintro rest' ⟨⟩
    obtain ⟨hnodup, habsent⟩ := hf _ hc
    obtain ⟨hnotMem, hnodup'⟩ := List.nodup_cons.mp hnodup
    refine ⟨hnodup', fun other hother => ?_⟩
    have hne : other ≠ stream := fun heq => hnotMem (heq ▸ hother)
    rw [← habsent other (List.mem_cons_of_mem _ hother)]
    exact Function.update_of_ne hne _ _
  · intro rest hc
    obtain ⟨hnodup, habsent⟩ := hf rest hc
    refine ⟨hnodup, fun other hother => ?_⟩
    have hne : other ≠ stream := by
      rintro rfl
      rw [habsent other hother, move_absent] at hmove
      cases hmove
    rw [← habsent other hother]
    exact Function.update_of_ne hne _ _
  · intro rest' hc'
    rw [hc] at hc'
    cases hc'
  · rintro rest' ⟨⟩
  · intro rest' hc'
    cases due <;> cases hc'
  · intro rest' hc'
    exact absurd hc' (hspawning rest')

/-! ### Counting the ends -/

/-- The drain threads that have still to put their sentinel. -/
def State.live (s : State) : Nat :=
  (s.drains .stdout).phase.live + (s.drains .stderr).phase.live + (s.drains .outputChannel).phase.live

/-- The sentinels on the queue. -/
def State.sentinels (s : State) : Nat := s.queue.countP (·.2.isNone)

/-- The step drops the end of a stream: the `put` of a sentinel ran out of time. -/
def DropsSentinel (s : State) : Event → Prop
  | .drain stream .full => (s.drains stream).phase = .ending
  | _ => False

instance (s : State) : DecidablePred (DropsSentinel s)
  | .drain stream .full => inferInstanceAs (Decidable ((s.drains stream).phase = .ending))
  | .drain _ .test | .drain _ (.read _) | .drain _ .raises | .drain _ (.poll _) | .drain _ .put
  | .spawn | .spawnFails | .get | .idle _ | .deliver _ | .reap _ | .reapFails | .resume | .disconnect =>
    inferInstanceAs (Decidable False)

theorem live_update (s : State) (stream : Stream) (d : Drain) (queue : List (Stream × Option Bytes))
    (pending : Nat) (consumer : Consumer) :
    ({ s with drains := Function.update s.drains stream d, queue, pending, consumer } : State).live +
      (s.drains stream).phase.live = s.live + d.phase.live := by
  cases stream <;> simp [State.live, Function.update] <;> omega

/-- What the count is ahead of the threads and the sentinels that could still bring it down. -/
def State.surplus (s : State) : Int := s.pending - (s.live + s.sentinels : Nat)

/-- **A step of the count.** Every end is counted once, unless its sentinel is dropped. -/
theorem step_surplus {cap : Nat} {s t : State} {e : Event} (hf : Fresh s) (h : step cap s e = some t) :
    t.surplus = s.surplus + (if DropsSentinel s e then 1 else 0 : Nat) := by
  rcases step_cases h with ⟨stream, rest, rfl, hc, rfl⟩ | ⟨stream, m, d, item, rfl, hmove, rfl⟩ |
    ⟨stream, rest, rfl, -, hq, hpos, rfl⟩ | ⟨stream, chunk, rest, rfl, -, hq, rfl⟩ |
    ⟨stream, chunk, due, rfl, -, rfl⟩ | ⟨he, hdrains, hqueue, hpending, -, -, -⟩
  · have hlive := live_update s stream ⟨.top, []⟩ s.queue (s.pending + 1) (.spawning rest)
    have habsent : (s.drains stream).phase.live = 0 := by
      rw [(hf _ hc).2 stream List.mem_cons_self]
      rfl
    have htop : Phase.top.live = 1 := rfl
    rw [if_neg (show ¬DropsSentinel s .spawn from id)]
    simp only [State.surplus, State.sentinels] at hlive ⊢
    omega
  · have hlive := live_update s stream d (s.queue ++ (item.map (stream, ·)).toList) s.pending s.consumer
    have hdrops : DropsSentinel s (.drain stream m) ↔ (s.drains stream).phase = .ending ∧ m = .full := by
      cases m <;> simp [DropsSentinel]
    have hsentinels : (s.queue ++ (item.map (stream, ·)).toList).countP (·.2.isNone) =
        s.queue.countP (·.2.isNone) + (if item = some none then 1 else 0) := by
      rcases item with _ | _ | chunk <;> simp [List.countP_append]
    simp only [State.surplus, State.sentinels, hdrops, hsentinels] at hlive ⊢
    rcases Drain.move_cases hmove with ⟨rfl, -, -, hl, hl', hno⟩ | ⟨chunk, rfl, -, -, -, hl, hl', hno⟩ |
      ⟨chunk, rfl, -, -, -, hl, hl', hno⟩ | ⟨rfl, hend, ⟨rfl, rfl⟩ | ⟨rfl, rfl⟩⟩
    · rw [if_neg (by simp), if_neg hno]
      omega
    · rw [if_neg (by simp), if_neg fun h => hno h.2]
      omega
    · rw [if_neg (by simp), if_neg fun h => hno h.2]
      omega
    · have hl : (s.drains stream).phase.live = 1 := by rw [hend]; rfl
      have hl' : Phase.finished.live = 0 := rfl
      rw [if_pos rfl, if_neg (by simp)]
      dsimp only at hlive
      omega
    · have hl : (s.drains stream).phase.live = 1 := by rw [hend]; rfl
      have hl' : Phase.finished.live = 0 := rfl
      rw [if_neg (by simp), if_pos ⟨hend, rfl⟩]
      dsimp only at hlive
      omega
  · have hlive : ({ s with queue := rest, pending := s.pending - 1 } : State).live = s.live := rfl
    have hsentinels : s.sentinels = rest.countP (·.2.isNone) + 1 := by
      rw [State.sentinels, hq]
      exact List.countP_cons_of_pos rfl
    have hrest : ({ s with queue := rest, pending := s.pending - 1 } : State).sentinels =
        rest.countP (·.2.isNone) := rfl
    rw [if_neg (show ¬DropsSentinel s .get from id), State.surplus, State.surplus, hlive, hsentinels, hrest]
    dsimp only
    omega
  · have hsentinels : s.sentinels = rest.countP (·.2.isNone) := by
      rw [State.sentinels, hq]
      exact List.countP_cons_of_neg (by simp)
    rw [if_neg (show ¬DropsSentinel s .get from id), State.surplus, State.surplus, hsentinels]
    exact (Int.add_zero _).symm
  · exact (Int.add_zero _).symm
  · have hdrops : ¬DropsSentinel s e := by
      cases e with
      | drain stream m => exact absurd rfl (he stream m)
      | _ => exact id
    rw [if_neg hdrops, State.surplus, State.surplus, State.live, State.sentinels, hdrains, hqueue, hpending]
    exact (Int.add_zero _).symm

/-- **The count over a run** is ahead by the number of sentinels dropped. -/
theorem run_pending {cap : Nat} {stdout stderr outputChannel : Bool} {es : List Event} {t : State}
    (hrun : run (step cap) (init stdout stderr outputChannel) es = some t) :
    t.pending = t.live + t.sentinels + tally (step cap) (fun s e => if DropsSentinel s e then 1 else 0)
      (init stdout stderr outputChannel) es := by
  have hcount : t.surplus = (init stdout stderr outputChannel).surplus +
      tally (step cap) (fun s e => if DropsSentinel s e then 1 else 0)
        (init stdout stderr outputChannel) es :=
    run_tally Fresh State.surplus (fun s e u hI hstep => ⟨step_fresh hI hstep, step_surplus hI hstep⟩)
      (fresh_init stdout stderr outputChannel) hrun
  have hinit : (init stdout stderr outputChannel).surplus = 0 := rfl
  rw [hinit, State.surplus] at hcount
  omega

/-! ### The order of a stream -/

/-- The payloads of a stream that the client was sent. -/
def State.delivered (s : State) (stream : Stream) : List Bytes :=
  ((s.sent.filterMap Sent.frame?).filter (·.fileno = stream.fileno)).map (·.chunk)

/-- The chunk of the stream that the generator is about to yield. -/
def Consumer.emittingOf (stream : Stream) : Consumer → List Bytes
  | .emitting other chunk => if other = stream then [chunk] else []
  | _ => []

/-- The chunks of the stream on the queue. -/
def queuedOf (stream : Stream) (queue : List (Stream × Option Bytes)) : List Bytes :=
  queue.filterMap fun (other, chunk) => if other = stream then chunk else none

/-- The chunks of a stream on their way to the client: delivered, being emitted, queued, in the thread's
hand. -/
def State.inTransit (s : State) (stream : Stream) : List Bytes :=
  s.delivered stream ++ s.consumer.emittingOf stream ++ queuedOf stream s.queue ++
    (s.drains stream).phase.inHand

/-- What is on its way is what was read, in the order it was read, with some chunks dropped. -/
def Ordered (s : State) : Prop := ∀ stream, (s.inTransit stream).Sublist (s.drains stream).read

theorem Stream.fileno_inj {a b : Stream} : a.fileno = b.fileno ↔ a = b := by
  cases a <;> cases b <;> decide

theorem emittingOf_eq_nil {c : Consumer} (h : ∀ stream chunk, c ≠ .emitting stream chunk) (stream : Stream) :
    c.emittingOf stream = [] := by
  cases c with
  | emitting other chunk => exact absurd rfl (h other chunk)
  | _ => rfl

theorem queuedOf_append (stream : Stream) (q r : List (Stream × Option Bytes)) :
    queuedOf stream (q ++ r) = queuedOf stream q ++ queuedOf stream r := by
  simp [queuedOf]

/-- A thread's move keeps its own stream in order, behind whatever is ahead of it. -/
theorem move_ordered {stream : Stream} {stop room : Bool} {d d' : Drain} {m : Move}
    {item : Option (Option Bytes)} (h : d.move stream stop room m = some (d', item)) {ahead : List Bytes}
    (hd : (ahead ++ d.phase.inHand).Sublist d.read) :
    (ahead ++ queuedOf stream (item.map (stream, ·)).toList ++ d'.phase.inHand).Sublist d'.read := by
  have hahead : ahead.Sublist d.read := (List.sublist_append_left _ _).trans hd
  rcases Drain.move_cases h with ⟨rfl, hread, hhand, -⟩ | ⟨chunk, rfl, hread, -, hhand', -⟩ |
    ⟨chunk, rfl, hread, hhand, hhand', -⟩ | ⟨rfl, -, ⟨rfl, -⟩ | ⟨rfl, -⟩⟩
  · rw [hread, hhand]
    simpa [queuedOf] using hahead
  · rw [hread, hhand']
    simpa [queuedOf] using hahead.append (List.Sublist.refl [chunk])
  · rw [hhand] at hd
    rw [hread, hhand']
    simpa [queuedOf] using hd
  · simpa [queuedOf, Phase.inHand] using hahead
  · simpa [queuedOf, Phase.inHand] using hahead

/-- **A step keeps the order.** Chunks join a stream at its end, move along, or drop out. -/
theorem step_ordered {cap : Nat} {s t : State} {e : Event} (hf : Fresh s) (ho : Ordered s)
    (h : step cap s e = some t) : Ordered t := by
  intro stream
  have hs := ho stream
  rcases step_cases h with ⟨other, rest, -, hc, rfl⟩ | ⟨other, m, d, item, -, hmove, rfl⟩ |
    ⟨other, rest, -, -, hq, -, rfl⟩ | ⟨other, chunk, rest, -, hc, hq, rfl⟩ |
    ⟨other, chunk, due, -, hc, rfl⟩ | ⟨-, hdrains, hqueue, -, -, hemit, hsent⟩
  · -- a thread is started on a stream from which nothing was read yet
    have habsent := (hf _ hc).2 other List.mem_cons_self
    by_cases hother : stream = other
    · subst hother
      simp only [State.inTransit, Function.update_self, habsent, hc] at hs ⊢
      exact hs
    · simp only [State.inTransit, Function.update_of_ne hother, hc] at hs ⊢
      exact hs
  · by_cases hother : stream = other
    · subst hother
      have hnext := move_ordered hmove hs
      simp only [State.inTransit, Function.update_self, queuedOf_append, ← List.append_assoc]
      exact hnext
    · have hqueued : queuedOf stream ((item.map (other, ·)).toList) = [] := by
        rcases item with _ | chunk <;> simp [queuedOf, Ne.symm hother]
      simp only [State.inTransit, Function.update_of_ne hother, queuedOf_append, hqueued,
        List.append_nil] at hs ⊢
      exact hs
  · have hqueued : queuedOf stream s.queue = queuedOf stream rest := by
      rw [hq]
      simp [queuedOf]
    rw [State.inTransit, hqueued] at hs
    exact hs
  · have hqueued : queuedOf stream s.queue =
        (Consumer.emitting other chunk).emittingOf stream ++ queuedOf stream rest := by
      rw [hq]
      by_cases hother : other = stream <;> simp [queuedOf, Consumer.emittingOf, hother]
    rw [State.inTransit, hqueued, hc] at hs
    simpa [State.inTransit, Consumer.emittingOf, State.delivered] using hs
  · have hdelivered : ({ s with sent := s.sent ++ .output other.fileno chunk ::
          (if due then [.keepalive] else []), consumer := if due then .ticking else .loop } : State).delivered
            stream = s.delivered stream ++ (Consumer.emitting other chunk).emittingOf stream := by
      by_cases hother : other = stream <;> cases due <;>
        simp [State.delivered, Consumer.emittingOf, Sent.frame?, Stream.fileno_inj, hother]
    have hemit : (if due then Consumer.ticking else Consumer.loop).emittingOf stream = [] := by
      cases due <;> rfl
    rw [State.inTransit, hc] at hs
    simp only [State.inTransit, hdelivered, hemit, List.append_nil]
    exact hs
  · have hdelivered : t.delivered stream = s.delivered stream := by
      rcases hsent with hsent | hsent <;> simp [State.delivered, hsent, Sent.frame?]
    rw [hdrains]
    refine List.Sublist.trans ?_ hs
    simp only [State.inTransit, hdelivered, emittingOf_eq_nil hemit, hqueue, hdrains, List.append_nil]
    exact List.Sublist.append_right (List.Sublist.append_right (List.sublist_append_left _ _) _) _

theorem run_ordered {cap : Nat} {stdout stderr outputChannel : Bool} {es : List Event} {t : State}
    (hrun : run (step cap) (init stdout stderr outputChannel) es = some t) : Ordered t := by
  have hinv : Fresh t ∧ Ordered t := by
    refine run_preserves (fun s => Fresh s ∧ Ordered s) (fun s e u hI hstep => ?_)
      ⟨fresh_init stdout stderr outputChannel, fun stream => ?_⟩ hrun
    · exact ⟨step_fresh hI.1 hstep, step_ordered hI.1 hI.2 hstep⟩
    · exact List.Sublist.refl []
  exact hinv.2

/-! ### The end of a stream -/

/-- Every drain thread that was started has finished. -/
def State.AllFinished (s : State) : Prop :=
  ∀ stream, (s.drains stream).phase = .absent ∨ (s.drains stream).phase = .finished

theorem live_eq_zero {s : State} (h : s.AllFinished) : s.live = 0 := by
  have hzero : ∀ stream, (s.drains stream).phase.live = 0 := by
    intro stream
    rcases h stream with habsent | hfinished
    · rw [habsent]
      rfl
    · rw [hfinished]
      rfl
  simp only [State.live, hzero]

/-- **The exit frame.** In every run, whatever the threads, the queue and the client do: once every drain
thread has finished and the queue is empty, no end is still waited for, and the generator can go on to the
exit marker, if and only if no `put` of a sentinel ran out of time. What a stream delivers is in every case
in the order in which it was read. -/
theorem pending_zero_iff (stdout stderr outputChannel : Bool) (es : List Event) (t : State)
    (hrun : run (step drainQueueMax) (init stdout stderr outputChannel) es = some t) :
    (t.AllFinished → t.queue = [] →
      (t.pending = 0 ↔
        Along (step drainQueueMax) (fun s e => ¬DropsSentinel s e) (init stdout stderr outputChannel) es)) ∧
      (t.pending = 0 → t.consumer = .loop →
        ∀ returncode, ∃ u, step drainQueueMax t (.reap returncode) = some u ∧ u.exit = some returncode) ∧
      ∀ stream, (t.delivered stream).Sublist (t.drains stream).read := by
  refine ⟨fun hfinished hempty => ?_, fun hzero hloop returncode => ?_, fun stream => ?_⟩
  · have hcount := run_pending hrun
    have hsentinels : t.sentinels = 0 := by rw [State.sentinels, hempty]; rfl
    rw [live_eq_zero hfinished, hsentinels, Nat.zero_add] at hcount
    rw [hcount, tally_eq_zero_iff hrun]
    simp
  · exact ⟨{ t with consumer := .exiting, exit := some returncode }, by simp only [step, hloop, if_pos hzero], rfl⟩
  · have hordered := run_ordered hrun stream
    rw [State.inTransit, List.append_assoc, List.append_assoc] at hordered
    exact (List.sublist_append_left _ _).trans hordered

/-- A chunk is read, queued and sent, then the end. -/
def helloRun : List Event :=
  [.spawn, .spawn, .drain .stdout .test, .drain .stdout (.read [104, 105]), .drain .stdout .put, .get,
    .deliver false, .drain .stdout .test, .drain .stdout (.read []), .drain .stdout .put, .get]

theorem pending_zero_iff_hello :
    (run (step drainQueueMax) (init true false false) helloRun).map (·.pending) = some 0 := by
  obtain ⟨t, ht⟩ : ∃ t, run (step drainQueueMax) (init true false false) helloRun = some t :=
    Option.isSome_iff_exists.mp (by decide)
  have hphases : (run (step drainQueueMax) (init true false false) helloRun).map (fun t =>
      (t.queue, (t.drains .stdout).phase, (t.drains .stderr).phase, (t.drains .outputChannel).phase)) =
        some ([], .finished, .absent, .absent) := by decide
  simp only [ht, Option.map_some, Option.some.injEq, Prod.mk.injEq] at hphases
  obtain ⟨hqueue, hout, herr, hchannel⟩ := hphases
  have hfinished : t.AllFinished := by
    rintro (_ | _ | _)
    · exact .inr hout
    · exact .inl herr
    · exact .inl hchannel
  have hzero := ((pending_zero_iff true false false helloRun t ht).1 hfinished hqueue).mpr (by decide)
  rw [ht, Option.map_some, hzero]

/-! ### A lost end

The process writes a queue full of chunks and exits while the client takes nothing for a second. The drain
thread's sentinel is dropped, and when the client has taken everything the generator waits for an end that
has already passed. -/

/-- `n` chunks of stdout were read and queued. -/
def filled (n : Nat) : State where
  drains := Function.update (fun _ => ⟨.absent, []⟩) .stdout ⟨.top, List.replicate n [65]⟩
  queue := List.replicate n (.stdout, some [65])
  stop := false
  pending := 1
  consumer := .loop
  sent := []
  exit := none

/-- The sentinel was dropped after `n + m` chunks, and `m` of them are sent. -/
def draining (n m : Nat) : State where
  drains := Function.update (fun _ => ⟨.absent, []⟩) .stdout ⟨.finished, List.replicate (n + m) [65]⟩
  queue := List.replicate n (.stdout, some [65])
  stop := false
  pending := 1
  consumer := .loop
  sent := List.replicate m (.output 1 [65])
  exit := none

theorem run_fill (n cap : Nat) (h : n ≤ cap) :
    ∃ es, run (step cap) (init true false false) es = some (filled n) := by
  induction n with
  | zero => exact ⟨[.spawn, .spawn], rfl⟩
  | succ n ih =>
    obtain ⟨es, hes⟩ := ih (by omega)
    refine ⟨es ++ [.drain .stdout .test, .drain .stdout (.read [65]), .drain .stdout .put], ?_⟩
    rw [run_append, hes, Option.bind_some]
    have hroom : n < cap := by omega
    simp [run, step, filled, Drain.move, hroom, List.replicate_succ']

theorem run_drain (n m cap : Nat) :
    ∃ es, run (step cap) (draining n m) es = some (draining 0 (n + m)) := by
  induction n generalizing m with
  | zero => exact ⟨[], by simp⟩
  | succ n ih =>
    obtain ⟨es, hes⟩ := ih (m + 1)
    have hnext : run (step cap) (draining (n + 1) m) [.get, .deliver false] =
        some (draining n (m + 1)) := by
      have hread : n + 1 + m = n + (m + 1) := by omega
      have hsent : List.replicate m (Sent.output 1 [65]) ++ [.output 1 [65]] =
          List.replicate (m + 1) (.output 1 [65]) := List.replicate_succ'.symm
      simp [run, step, draining, List.replicate_succ, hread, Stream.fileno, hsent]
    refine ⟨[.get, .deliver false] ++ es, ?_⟩
    rw [run_append, hnext, Option.bind_some, hes]
    congr 2
    omega

/-- Every thread is gone, the queue is empty, and one end is still waited for. -/
theorem sentinel_lost :
    ¬ ∀ (stdout stderr outputChannel : Bool) (es : List Event) (t : State),
        run (step drainQueueMax) (init stdout stderr outputChannel) es = some t →
        t.AllFinished → t.queue = [] → t.pending = 0 := by
  intro h
  obtain ⟨es, hes⟩ := run_fill drainQueueMax drainQueueMax le_rfl
  obtain ⟨fs, hfs⟩ := run_drain drainQueueMax 0 drainQueueMax
  have hlost : run (step drainQueueMax) (filled drainQueueMax)
      [.drain .stdout .test, .drain .stdout (.read []), .drain .stdout .full] =
        some (draining drainQueueMax 0) := by
    simp [run, step, filled, draining, Drain.move]
  have hrun : run (step drainQueueMax) (init true false false)
      (es ++ ([.drain .stdout .test, .drain .stdout (.read []), .drain .stdout .full] ++ fs)) =
        some (draining 0 (drainQueueMax + 0)) := by
    rw [run_append, hes, Option.bind_some, run_append, hlost, Option.bind_some, hfs]
  have hzero := h true false false _ _ hrun (by rintro (_ | _ | _) <;> decide) rfl
  exact absurd hzero (by decide)

end Lager.Exec
