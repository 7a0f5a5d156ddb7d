import Lager.Scope.Driver
import Lager.Lib.Cache
import Lager.Lib.Run

/-!
# The acquisition loop

`run` of `daemon/src/scope_thread.rs`: one loop that owns the scope, answers requests, takes captures and rolls.
`Loop` is the loop's state with the driver's, the shared `acquiring` flag, the requests that wait for a capture
and the states published so far. `turn` is one pass from the top of the loop to the next.

What the outside decides is in the `Input` of a turn: the message it finds and the clock at the points where the
code looks at it. How long the loop sleeps between turns makes no difference to what it does, and the times of
the next poll and of the next refresh are not kept: a turn may come at any time.
-/

namespace Lager.Scope

open Lager.Py (Json)
open Lager.Lib (CacheEvent)

/-- Pure functions the loop calls: of libraries, and the analysis of samples, which the loop hands on unread. -/
structure Lib where
  /-- `protocol::trigger::frame_is_triggered`. -/
  frameIsTriggered : CaptureFrame → ChannelId → Float → TriggerSlope → Bool
  /-- `protocol::measure_channel`. -/
  measureChannel : CaptureFrame → Nat → Option MeasurementSet
  /-- The length of `serde_json::to_vec`. -/
  jsonLength : Json → Nat
  /-- `Duration::from_secs_f64` in nanoseconds, and back. -/
  fromSecsF64 : Float → Nat
  asSecsF64 : Nat → Float

/-! ### Averaging -/

structure Averager where
  sums : List Float32
  taken : Nat
  shape : Option (List ChannelId × BitVec 32)

def Averager.empty : Averager := ⟨[], 0, none⟩

/-- `f32::from(i16)`. -/
def f32OfSample (s : BitVec 16) : Float32 := Float32.ofInt s.toInt

/-- `sum.round().clamp(-32767.0, 32767.0) as i16`. -/
def sampleOfF32 (x : Float32) : BitVec 16 :=
  let r := x.round
  (if r < -32767 then (-32767 : Float32) else if r > 32767 then 32767 else r).toInt16.toBitVec

def Averager.feed (a : Averager) (frame : CaptureFrame) (count : Nat) : CaptureFrame × Averager :=
  let shape := (frame.channels.map (·.channel), frame.samplesPerChannel)
  if a.shape ≠ some shape ∨ a.sums.length ≠ frame.samples.length then
    (frame, ⟨frame.samples.map f32OfSample, 1, some shape⟩)
  else
    let taken := min (a.taken + 1) (max count 1)
    let weight := 1 / Float32.ofNat taken
    let sums := List.zipWith (fun sum s => sum + (f32OfSample s - sum) * weight) a.sums frame.samples
    ({ frame with samples := sums.map sampleOfF32 }, ⟨sums, taken, a.shape⟩)

/-! ### The rolling screen -/

def ROLL_COLUMNS : Nat := 2000
def ROLL_HISTORY_NS : Float := 250000000
def ROLL_FRAME_INTERVAL : Nat := 8333333
def ROLL_THRESHOLD_S_PER_DIV : Float := 0.05
def NO_SAMPLE : BitVec 16 := 0x8000
def FLAG_TRIGGERED : BitVec 16 := 1
def FLAG_STREAMING : BitVec 16 := 2
def FLAG_ENVELOPE : BitVec 16 := 4

structure Roller where
  info : RollInfo
  timePerDiv : Float
  history : Nat
  rings : List (List (BitVec 16 × BitVec 16))
  fresh : Bool
  nextPublish : Option Nat

def Roller.new (info : RollInfo) (timePerDiv : Float) : Roller :=
  let forTime := if info.bucketNs > 0 then (ROLL_HISTORY_NS / info.bucketNs).ceil.toUInt64.toNat else 0
  { info, timePerDiv, history := min (max forTime (ROLL_COLUMNS / 4)) ROLL_COLUMNS,
    rings := info.channels.map fun _ => [], fresh := false, nextPublish := none }

/-- Append the pairs, keeping the newest. -/
def Roller.absorb (r : Roller) (sink : RollSink) : Roller :=
  let keep (ring : List (BitVec 16 × BitVec 16)) := ring.drop (ring.length - (ROLL_COLUMNS + r.history))
  let fed := List.zipWith (fun ring pairs => keep (ring ++ pairs)) r.rings sink
  { r with
    rings := fed ++ r.rings.drop fed.length
    fresh := r.fresh || (List.zipWith (fun _ pairs => pairs) r.rings sink).any (· ≠ []) }

def Roller.snapshot (r : Roller) (history : Bool) (monoNs : BitVec 64) (sampleIntervalNs : BitVec 64) :
    CaptureFrame :=
  let pairsPerChannel := ROLL_COLUMNS + if history then r.history else 0
  let perChannel := BitVec.ofNat 32 (pairsPerChannel * 2)
  { seq := 0, captureMonoNs := monoNs, sampleIntervalNs, preTriggerSamples := perChannel, postTriggerSamples := 0,
    samplesPerChannel := perChannel, resolutionBits := r.info.resolutionBits, overflowMask := 0,
    flags := FLAG_STREAMING ||| FLAG_ENVELOPE,
    screenSamples := if history then BitVec.ofNat 32 (ROLL_COLUMNS * 2) else 0,
    channels := r.info.channels,
    samples := r.rings.flatMap fun ring =>
      let kept := min ring.length pairsPerChannel
      List.replicate ((pairsPerChannel - kept) * 2) NO_SAMPLE ++
        (ring.drop (ring.length - kept)).flatMap fun pair => [pair.1, pair.2] }

def Roller.isDue (r : Roller) (now : Nat) : Bool :=
  match r.nextPublish with
  | some time => decide (time ≤ now)
  | none => true

/-- The screen after one published now is due. -/
def Roller.nextDue (r : Roller) (now : Nat) : Nat :=
  match r.nextPublish with
  | some time =>
    if now ≤ time + ROLL_FRAME_INTERVAL then time + ROLL_FRAME_INTERVAL else now + ROLL_FRAME_INTERVAL
  | none => now + ROLL_FRAME_INTERVAL

def Roller.screenTimePerDiv (r : Roller) : Float := r.info.bucketNs * Float.ofNat ROLL_COLUMNS / 1e9 / 10

/-- The bits of a float. -/
def bits (x : Float) : BitVec 64 := x.toBits.toBitVec

/-! ### The state of the loop -/

/-- A request for samples, held until there are some. -/
structure Waiting where
  request : ScopeRequest
  deadline : Nat

structure Loop (σ : Type) where
  scope : σ
  acquiring : Bool
  sequence : Nat
  capturedSinceArm : Bool
  lastFrame : Option CaptureFrame
  version : Nat
  display : Json
  acquisition : AcquisitionMode
  averageCount : Nat
  averager : Averager
  holdoff : Nat
  roll : RollMode
  roller : Option Roller
  armAt : Option Nat
  forced : Bool
  trigger : TriggerCache
  unitGone : Option String
  triggerFromDriver : Bool
  acquisitionInHardware : Bool
  holdoffInHardware : Bool
  answersFromInstrument : Bool
  refreshEvery : Bool
  waiting : List Waiting
  /-- Every state sent to the subscribers, the last one last. -/
  published : List ScopeState
  /-- What happened to the published capture: requests that invalidate it, captures, answers with samples of it. -/
  notes : List (CacheEvent CaptureFrame)
  /-- Each arm the loop has issued, with the held-back arm that was left scheduled by then. -/
  arms : List (Option Nat)

inductive Ended where
  | shutdown
  | unitGone (reason : String)

def DEFAULT_AVERAGE_COUNT : Nat := 16
def MAX_AVERAGE_COUNT : Nat := 1024
def MAX_HOLDOFF_S : Float := 10
def MAX_DISPLAY_BYTES : Nat := 64 * 1024
def MAX_WAITING : Nat := 64
def CAPTURE_WAIT : Nat := 8000000000

section

variable {σ : Type} (d : Driver σ) (lib : Lib)

namespace Loop

variable (w : Loop σ)

def note (n : CacheEvent CaptureFrame) : Loop σ := { w with notes := w.notes ++ [n] }

/-- An arm has been issued. -/
def issued : Loop σ := { w with arms := w.arms ++ [w.armAt] }

/-- `LoopState::failed`. -/
def failed (e : DriverError) : Loop σ × ScopeReply :=
  ({ w with unitGone := if e.gone then some e.message else w.unitGone }, .error (.driver e.message))

/-- `reply!`: go on with the state the driver call has left, or answer with its error. -/
def reply {α : Type} (r : Result α × σ) (ok : α → Loop σ → Loop σ × ScopeReply) : Loop σ × ScopeReply :=
  match r.1 with
  | .ok a => ok a { w with scope := r.2 }
  | .error e => failed { w with scope := r.2 } e

def refreshTrigger : Loop σ :=
  let g := d.getters w.scope
  { w with trigger :=
      { mode := g.getCaptureMode.getD w.trigger.mode
        source := g.getTriggerSource.getD w.trigger.source
        level := g.getTriggerLevel.getD w.trigger.level
        slope := g.getTriggerSlope.getD w.trigger.slope } }

end Loop

/-! ### The published state -/

def channelState (g : Getters) (channel : ChannelId) : Option ChannelState := do
  let enabled ← (g.isChannelEnabled channel).toOption
  let voltsPerDiv ← (g.getVoltsPerDiv channel).toOption
  pure { channel, enabled, voltsPerDiv, voltsOffset := (g.getVoltsOffset channel).getD 0,
         coupling := (g.getCoupling channel).getD .DC, attenuation := (g.getAttenuation channel).getD 1 }

/-- The channels by the first character of their labels. -/
def labels (g : Getters) : List ChannelId :=
  match g.capabilities with
  | .ok caps => caps.channelLabels.filterMap fun label => label.toList.head?.map .alphabetic
  | .error _ => []

def sampleInterval (g : Getters) : Float :=
  match g.getSampleRate with
  | .ok rate => if rate > 0 then 1e9 / rate else 0
  | .error _ => 0

/-- `build_state`. -/
def buildState (w : Loop σ) : ScopeState :=
  let g := d.getters w.scope
  { version := w.version
    acquiring := w.acquiring
    rolling := w.roller.isSome
    trigger := w.trigger
    holdoffS := lib.asSecsF64 w.holdoff
    positionPercent := g.getTriggerPosition.getD 50
    timePerDiv := match w.roller with
      | some roller => roller.screenTimePerDiv
      | none => g.getTimePerDiv.getD 0
    timeOffset := g.getTimeOffset.getD 0
    sampleIntervalNs := match w.roller with
      | some roller => roller.info.bucketNs / 2
      | none => sampleInterval g
    memoryDepth := g.currentMemoryDepth.getD 0
    roll := w.roll
    acquisition := w.acquisition
    averageCount := w.averageCount
    channels := (labels g).filterMap (channelState g)
    display := w.display
    liveViewProblem := g.liveViewProblem }

/-- `publish_state`. -/
def publishState (w : Loop σ) : Loop σ :=
  let w := { w with version := w.version + 1 }
  { w with published := w.published ++ [buildState d lib w] }

/-! ### Rolling -/

def stopRolling (w : Loop σ) : Loop σ :=
  if w.roller.isSome then { w with roller := none, scope := (d.stopRoll w.scope).2 } else w

/-- The time/div to roll at, if the scope should roll. -/
def rollTimePerDiv (w : Loop σ) : Option Float :=
  let g := d.getters w.scope
  if !w.acquiring || !g.supportsRoll then none
  else
    match g.requestedTimePerDiv with
    | .error _ => none
    | .ok timePerDiv =>
      let rolls : Bool := match w.roll with
        | .off => false
        | .on => true
        | .auto => w.trigger.mode == .auto && decide (timePerDiv ≥ ROLL_THRESHOLD_S_PER_DIV * 0.999)
      if rolls then some timePerDiv else none

/-- Arm a block where rolling is not wanted or was refused. -/
def armBlock (w : Loop σ) : Loop σ :=
  let r := d.startTriggeredCapture ((d.getters w.scope).getTriggerPosition.getD 50) w.scope
  match r.1 with
  | .ok _ => Loop.issued { w with scope := r.2 }
  | .error _ => { w with scope := r.2, acquiring := false }

/-- `RollPlan::bucket_ns` for a time/div. -/
def rollPlan (wanted : Float) : Float := wanted * 10 * 1e9 / Float.ofNat ROLL_COLUMNS

def startRolling (w : Loop σ) (wanted : Float) : Loop σ :=
  let w := stopRolling d w
  let r := d.startRoll (rollPlan wanted) w.scope
  match r.1 with
  | .ok info =>
    { w with scope := r.2, armAt := none, averager := .empty, roller := some (Roller.new info wanted) }
  | .error _ => armBlock d { w with scope := r.2 }

def leaveRolling (w : Loop σ) (wasRolling : Bool) : Loop σ :=
  let current := w.roller.isSome
  let w := stopRolling d w
  if w.acquiring && (current || wasRolling) then armBlock d w else w

/-- The roller already rolls at the time/div that is wanted. -/
def rollsAt (w : Loop σ) (wanted : Float) : Bool :=
  match w.roller with
  | some roller => decide ((wanted - roller.timePerDiv).abs ≤ wanted * 1e-9)
  | none => false

/-- `reconcile_roll`. -/
def reconcileRoll (w : Loop σ) (wasRolling : Bool) : Loop σ :=
  match rollTimePerDiv d w with
  | some wanted => if rollsAt w wanted then w else startRolling d w wanted
  | none => leaveRolling d w wasRolling

/-! ### Answering a request -/

def samplesNow (w : Loop σ) : Except ReplyError CaptureFrame :=
  match w.lastFrame with
  | some frame => .ok frame
  | none =>
    if w.roller.isSome then .error .noScreenYet
    else if w.acquiring then .error .noCaptureYet
    else .error .noCapture

/-- The measurements of a channel of the frame. -/
def measureFrame (frame : CaptureFrame) (channel : ChannelId) : Except ReplyError MeasurementSet :=
  match frame.channels.findIdx? (·.channel = channel) with
  | none => .error (.notEnabled channel)
  | some index =>
    match lib.measureChannel frame index with
    | none => .error (.noSamples channel)
    | some set => .ok set

/-- `measure_now`, with the frame it used. -/
def measureNow (w : Loop σ) (channel : ChannelId) : Except ReplyError (CaptureFrame × MeasurementSet) := do
  let frame ← samplesNow w
  let set ← measureFrame lib frame channel
  pure (frame, set)

/-- `Measure` and `MeasureAll`: the instrument's measurements, or those of the published capture. `pick` makes
the reply of a set. -/
def measure (w : Loop σ) (channel : ChannelId) (pick : MeasurementSet → Except ReplyError ScopeReply) :
    Loop σ × ScopeReply :=
  let r := d.measureAll channel w.scope
  let w := { w with scope := r.2 }
  match r.1 with
  | some (.ok set) =>
    match pick set with
    | .ok reply => (w, reply)
    | .error e => (w, .error e)
  | some (.error e) => (w, .error (.driver e.message))
  | none =>
    match measureNow lib w channel with
    | .error e => (w, .error e)
    | .ok (frame, set) =>
      match pick set with
      | .ok reply => (w.note (.served frame), reply)
      | .error e => (w, .error e)

def pickOne (which : Measurement) (set : MeasurementSet) : Except ReplyError ScopeReply :=
  match set which with
  | some value => .ok (.measurement value)
  | none => .error (.needsFullCycle which)

def getTriggeredData (w : Loop σ) : Loop σ × ScopeReply :=
  let r := d.readRecord w.scope
  let w := { w with scope := r.2 }
  match r.1 with
  | some (.ok frame) => (w, .capture { frame with seq := BitVec.ofNat 64 w.sequence })
  | some (.error e) => w.failed e
  | none =>
    match samplesNow w with
    | .ok frame => (w.note (.served frame), .capture frame)
    | .error e => (w, .error e)

def setAcquisition (w : Loop σ) (mode : AcquisitionMode) (count : Option Nat) : Loop σ × ScopeReply :=
  if count.any fun n => !(1 ≤ n && n ≤ MAX_AVERAGE_COUNT) then (w, .error (.averageOutOfRange (count.getD 0)))
  else
    let g := d.getters w.scope
    if mode = .peak ∧ !(Result.getD (g.capabilities.map (·.peakDetect)) false) then
      (w, .error (.noPeakDetect (Result.getD (g.capabilities.map (·.model)) "this scope") g.supportsRoll))
    else
      let averageCount := count.getD w.averageCount
      let r := d.setAcquisition mode averageCount w.scope
      let w := { w with scope := r.2 }
      match r.1 with
      | some (.error e) => w.failed e
      | applied =>
        ({ w with acquisitionInHardware := applied.isSome, acquisition := mode, averageCount, averager := .empty },
          .ok)

def setHoldoff (w : Loop σ) (seconds : Float) : Loop σ × ScopeReply :=
  if !seconds.isFinite || !(decide (0 ≤ seconds) && decide (seconds ≤ MAX_HOLDOFF_S)) then
    (w, .error (.holdoffOutOfRange seconds))
  else
    let r := d.setHoldoff seconds w.scope
    let w := { w with scope := r.2 }
    match r.1 with
    | some (.error e) => w.failed e
    | applied => ({ w with holdoffInHardware := applied.isSome, holdoff := lib.fromSecsF64 seconds }, .ok)

def setDisplay (w : Loop σ) (patch : Json) : Loop σ × ScopeReply :=
  let display := mergeDisplay w.display patch
  if lib.jsonLength display > MAX_DISPLAY_BYTES then (w, .error (.displayTooLarge (lib.jsonLength display)))
  else ({ w with display }, .ok)

def forceTrigger (w : Loop σ) : Loop σ × ScopeReply :=
  if w.roller.isSome then (w, .error .rollHasNoTrigger)
  else if !w.acquiring then (w, .error .stoppedNothingToForce)
  else
    let r := d.forceTrigger w.scope
    match r.1 with
    | .ok _ => (Loop.issued { w with scope := r.2, forced := true, armAt := none }, .ok)
    | .error e => Loop.failed { w with scope := r.2, forced := false } e

/-- The part of `handle` before its match. -/
def invalidate (w : Loop σ) (request : ScopeRequest) : Loop σ :=
  if invalidatesThePublishedCapture request then
    { w with
      capturedSinceArm := false
      lastFrame := none
      averager := .empty
      armAt := if touchesHardware request then none else w.armAt
      notes := w.notes ++ [.invalidated] }
  else w

/-- The match of `handle`. -/
def respond (w : Loop σ) : ScopeRequest → Loop σ × ScopeReply
  | .set s => w.reply (d.set s w.scope) fun _ w => (w, .ok)
  | .get q =>
    match (d.getters w.scope).answer q with
    | .ok reply => (w, reply)
    | .error e => w.failed e
  | .getTimePerDiv =>
    match w.roller with
    | some roller => (w, .float roller.screenTimePerDiv)
    | none =>
      match (d.getters w.scope).getTimePerDiv with
      | .ok t => (w, .float t)
      | .error e => w.failed e
  | .startAcquisition position =>
    w.reply (d.startTriggeredCapture position w.scope) fun _ w =>
      (Loop.issued { w with capturedSinceArm := false, lastFrame := none, acquiring := true }, .ok)
  | .stopAcquisition =>
    let w := { w with acquiring := false, armAt := none }
    w.reply (d.stopTriggeredCapture w.scope) fun _ w => (w, .ok)
  | .forceTrigger => forceTrigger d w
  | .isReady => (w, .bool w.capturedSinceArm)
  | .getTriggeredData => getTriggeredData d w
  | .measureOne channel which =>
    let r := d.measureOne channel which w.scope
    let w := { w with scope := r.2 }
    match r.1 with
    | some (.ok value) => (w, .measuredOne (some value))
    | some (.error e) => w.failed e
    | none => (w, .measuredOne none)
  | .measure channel which => measure d lib w channel (pickOne which)
  | .measureAll channel => measure d lib w channel fun set => .ok (.measurements set)
  | .getState => (w, .state (buildState d lib w))
  | .setDisplay patch => setDisplay lib w patch
  | .getDisplay => (w, .display w.display)
  | .setAcquisition mode count => setAcquisition d w mode count
  | .getAcquisition => (w, .acquisition w.acquisition w.averageCount)
  | .setHoldoff seconds => setHoldoff d lib w seconds
  | .getHoldoff => (w, .float (lib.asSecsF64 w.holdoff))
  | .setRoll mode =>
    if mode = .on ∧ !(d.getters w.scope).supportsRoll then (w, .error .noRollMode)
    else ({ w with roll := mode }, .ok)
  | .getRoll => (w, .roll w.roll w.roller.isSome)
  | .scpi command =>
    let r := d.scpi command w.scope
    let w := { w with scope := r.2 }
    match r.1 with
    | some (.ok t) => (w, .text t)
    | some (.error e) => w.failed e
    | none => (w, .error .noScpi)

def handle (w : Loop σ) (request : ScopeRequest) : Loop σ × ScopeReply := respond d lib (invalidate w request) request

/-- The backstop of `serve` for a refused setting. -/
def backstop (w : Loop σ) : Loop σ :=
  if w.roller.isNone && w.acquiring then
    let r := d.rearm w.scope
    match r.1 with
    | .ok _ => Loop.issued { w with armAt := none, scope := r.2 }
    | .error _ => { w with armAt := none, scope := r.2, acquiring := false }
  else w

def isForceTrigger : ScopeRequest → Bool
  | .forceTrigger => true
  | _ => false

/-- Streaming stops for a request that programs the device. -/
def pauseRoll (w : Loop σ) (request : ScopeRequest) : Loop σ := if touchesHardware request then stopRolling d w else w

/-- Streaming starts again, or stops, with whatever the request has left. -/
def resumeRoll (w : Loop σ) (request : ScopeRequest) (wasRolling : Bool) : Loop σ :=
  if touchesHardware request || changesState request then reconcileRoll d (w.refreshTrigger d) wasRolling else w

/-- The hardware refused a request that re-arms the unit. -/
def isRefused (request : ScopeRequest) (reply : ScopeReply) : Bool :=
  (touchesHardware request || isForceTrigger request) && reply.isError

/-- `serve`: the reply, and whether the state subscribers are shown may have changed. -/
def serve (w : Loop σ) (request : ScopeRequest) : Loop σ × ScopeReply × Bool :=
  let wasRolling := w.roller.isSome
  let (w, reply) := handle d lib (pauseRoll d w request) request
  let w := resumeRoll d w request wasRolling
  let refused := isRefused request reply
  (if refused then backstop d w else w, reply, changesState request || refused)

/-! ### Requests that wait for a capture -/

def waitsForACapture (w : Loop σ) (request : ScopeRequest) : Bool :=
  wantsSamples request && !w.answersFromInstrument && w.lastFrame.isNone && (w.acquiring || w.roller.isSome)

/-- `answer_waiting`. -/
def answerWaiting (w : Loop σ) : Loop σ :=
  w.waiting.foldl (fun w held => (serve d lib w held.request).1) { w with waiting := [] }

/-- `settle_waiting`. A request whose time is up without a capture is answered with an error. -/
def settleWaiting (w : Loop σ) (busy : Bool) (now : Nat) : Loop σ :=
  let captured := w.lastFrame.isSome
  let isDue (held : Waiting) := !busy || captured || decide (held.deadline ≤ now)
  let due := w.waiting.filter isDue
  let w := { w with waiting := w.waiting.filter fun held => !isDue held }
  if busy && !captured then w else due.foldl (fun w held => (serve d lib w held.request).1) w

/-! ### Captures -/

/-- `LoopState::process`. -/
def process (w : Loop σ) (frame : CaptureFrame) : Loop σ × CaptureFrame :=
  let sequence := w.sequence + 1
  let frame := { frame with seq := BitVec.ofNat 64 sequence }
  let judged := lib.frameIsTriggered frame w.trigger.source w.trigger.level w.trigger.slope
  let triggered := if w.triggerFromDriver then frame.flags &&& FLAG_TRIGGERED ≠ 0
    else if (w.trigger.mode = .normal ∨ w.trigger.mode = .single) ∧ !w.forced then true else judged
  let frame := { frame with
    flags := if triggered then frame.flags ||| FLAG_TRIGGERED else frame.flags &&& ~~~ FLAG_TRIGGERED }
  let w := { w with sequence, forced := false }
  if w.acquisition = .average ∧ w.averageCount > 1 ∧ !w.acquisitionInHardware then
    let (frame, averager) := w.averager.feed frame w.averageCount
    ({ w with averager }, frame)
  else (w, frame)

/-- The frame becomes the published capture. -/
def Loop.keep (w : Loop σ) (frame : CaptureFrame) : Loop σ :=
  { w with lastFrame := some frame, capturedSinceArm := true, notes := w.notes ++ [.stored frame] }

/-- `holdoff_deadline`. -/
def holdoffDeadline (readyAt : Nat) (frame : CaptureFrame) (holdoff : Nat) : Nat :=
  if holdoff = 0 then readyAt
  else
    let interval := Float.ofBits ⟨frame.sampleIntervalNs⟩
    let postNs := Float.ofNat frame.postTriggerSamples.toNat * interval
    let post := (if postNs > 0 then postNs else 0).toUInt64.toNat
    (if post ≤ readyAt then readyAt - post else readyAt) + holdoff

/-- The holdoff that the loop applies itself. -/
def Loop.loopHoldoff (w : Loop σ) : Nat := if w.holdoffInHardware then 0 else w.holdoff

/-- What the outside decides about a turn. -/
structure Input where
  message : Option ScopeRequest
  settleNow : Nat
  holdNow : Nat
  refreshDue : Bool
  rollNow : Nat
  monoNs : BitVec 64
  armNow : Nat
  readyAt : Nat
  dueNow : Nat

/-- `rearm` after a capture or a held-back arm. -/
def rearm (w : Loop σ) : Loop σ × Option Ended :=
  let r := d.rearm w.scope
  let w := { w with scope := r.2 }
  match r.1 with
  | .ok _ => (w.issued, none)
  | .error e =>
    if e.gone then (w, some (.unitGone e.message)) else (publishState d lib { w with acquiring := false }, none)

/-- A capture is published and the next block armed, unless the holdoff or a single shot says otherwise. -/
def afterCapture (w : Loop σ) (frame : CaptureFrame) (i : Input) : Loop σ × Option Ended :=
  let w := answerWaiting d lib (w.keep frame)
  if w.trigger.mode = .single then
    let w := { w with acquiring := false }
    let w := { w with scope := (d.stopTriggeredCapture w.scope).2 }
    (publishState d lib (w.refreshTrigger d), none)
  else
    let due := holdoffDeadline i.readyAt frame w.loopHoldoff
    if i.dueNow < due then ({ w with armAt := some due }, none) else rearm d lib w

/-- The read-out of a block that is ready. -/
def readOut (w : Loop σ) (i : Input) : Loop σ × Option Ended :=
  let r := d.getTriggeredData w.scope
  let w := { w with scope := r.2 }
  match r.1 with
  | .error e => (w, if e.gone then some (.unitGone e.message) else none)
  | .ok raw =>
    let (w, frame) := process lib w raw
    afterCapture d lib w frame i

/-- A turn of an acquisition of blocks. -/
def acquire (w : Loop σ) (i : Input) : Loop σ × Option Ended :=
  match w.armAt with
  | some due => if i.armNow < due then (w, none) else rearm d lib { w with armAt := none }
  | none =>
    let r := d.isReady w.scope
    let w := { w with scope := r.2 }
    match r.1 with
    | .ok true => readOut d lib w i
    | .ok false => (w, none)
    | .error e =>
      if e.gone then (w, some (.unitGone e.message)) else (publishState d lib { w with acquiring := false }, none)

/-- `roll_step`. -/
def rollStep (w : Loop σ) (roller : Roller) (i : Input) : Loop σ × Option DriverError :=
  let r := d.pollRoll w.scope
  let w := { w with scope := r.2 }
  match r.1 with
  | .error e => (w, some e)
  | .ok sink =>
    let roller := roller.absorb sink
    if !(roller.fresh && roller.isDue i.rollNow) then ({ w with roller := some roller }, none)
    else
      let screen := roller.snapshot false i.monoNs (bits (roller.info.bucketNs / 2))
      let w := { w with
        roller := some { roller with fresh := false, nextPublish := some (roller.nextDue i.rollNow) }
        sequence := w.sequence + 1 }
      (w.keep { screen with seq := BitVec.ofNat 64 w.sequence }, none)

/-- A turn of roll mode. -/
def rollTurn (w : Loop σ) (roller : Roller) (i : Input) : Loop σ × Option Ended :=
  let (w, e) := rollStep d w roller i
  match e with
  | some e =>
    if e.gone then (w, some (.unitGone e.message))
    else
      let w := stopRolling d w
      let w := publishState d lib { w with acquiring := false }
      (if w.lastFrame.isSome then answerWaiting d lib w else w, none)
  | none => (if w.lastFrame.isSome then answerWaiting d lib w else w, none)

/-- The read-back of a setting, for a unit with a front panel. -/
def refreshStep (w : Loop σ) (i : Input) : Loop σ × Option Ended :=
  if w.refreshEvery && i.refreshDue then
    let r := d.refreshSettings w.scope
    let w := { w with scope := r.2 }
    match r.1 with
    | some (.ok true) => (publishState d lib (w.refreshTrigger d), none)
    | some (.error e) => (w, if e.gone then some (.unitGone e.message) else none)
    | _ => (w, none)
  else (w, none)

/-! ### The loop -/

def isBusy (w : Loop σ) : Bool := w.acquiring || w.roller.isSome

/-- The state in which the loop waits for its next message, unless it ends first. -/
def waitState (w : Loop σ) (now : Nat) : Loop σ :=
  if w.waiting.isEmpty then w else settleWaiting d lib w (isBusy w) now

/-- A request from the queue is held, or answered at once. -/
def receive (w : Loop σ) (request : ScopeRequest) (now : Nat) : Loop σ × Option ScopeReply :=
  if w.waiting.length < MAX_WAITING && waitsForACapture w request then
    ({ w with waiting := w.waiting ++ [⟨request, now + CAPTURE_WAIT⟩] }, none)
  else
    let (w, reply, changed) := serve d lib w request
    (if changed then publishState d lib w else w, some reply)

/-- A turn without a message. -/
def poll (w : Loop σ) (i : Input) : Loop σ × Option Ended :=
  match refreshStep d lib w i with
  | (w, some ended) => (w, some ended)
  | (w, none) =>
    match w.roller with
    | some roller => rollTurn d lib w roller i
    | none => if w.acquiring then acquire d lib w i else (w, none)

/-- One pass through the loop, and whether it ends there; `none` where the loop blocks until a message comes. -/
def turn (w : Loop σ) (i : Input) : Option (Loop σ × Option Ended) :=
  match w.unitGone with
  | some reason => some ({ w with unitGone := none }, some (.unitGone reason))
  | none =>
    let busy := isBusy w
    let w := waitState d lib w i.settleNow
    match i.message with
    | some request => some ((receive d lib w request i.holdNow).1, none)
    | none => if busy || w.refreshEvery then some (poll d lib w i) else none

/-! ### The start of the loop -/

/-- The requests that put a unit back to the settings it had. -/
def restoreRequests (s : ScopeState) : List ScopeRequest :=
  (s.channels.flatMap fun c =>
    [.set (.attenuation c.channel c.attenuation), .set (.coupling c.channel c.coupling),
      .set (if c.enabled then .enableChannel c.channel else .disableChannel c.channel),
      .set (.voltsPerDiv c.channel c.voltsPerDiv)] ++
      if c.voltsOffset != 0 then [.set (.voltsOffset c.channel c.voltsOffset)] else []) ++
  (if s.timePerDiv > 0 then [.set (.timePerDiv s.timePerDiv)] else []) ++
  (if s.timeOffset != 0 then [.set (.timeOffset s.timeOffset)] else []) ++
  [.set (.triggerSource s.trigger.source), .set (.triggerSlope s.trigger.slope),
    .set (.triggerLevel s.trigger.level), .set (.captureMode s.trigger.mode), .setHoldoff s.holdoffS,
    .setAcquisition s.acquisition (some s.averageCount), .setRoll s.roll, .setDisplay s.display]

/-- `restore`, which stops when the unit goes. -/
def restore (w : Loop σ) (settings : ScopeState) : Loop σ :=
  (restoreRequests settings).foldl (fun w request => if w.unitGone.isSome then w else (serve d lib w request).1) w

/-- `LoopState::new`, with what `run` sets of it from the scope and from earlier openings. -/
def newLoop (scope : σ) (acquiring : Bool) (sequence version : Nat) (published : List ScopeState) : Loop σ :=
  let g := d.getters scope
  { scope, acquiring, sequence, capturedSinceArm := false, lastFrame := none, version, display := .obj [],
    acquisition := .normal, averageCount := DEFAULT_AVERAGE_COUNT, averager := .empty, holdoff := 0, roll := .auto,
    roller := none, armAt := none, forced := false,
    trigger := { mode := .auto, source := .alphabetic 'A', level := 0, slope := .rising },
    unitGone := none, triggerFromDriver := g.reportsTrigger, acquisitionInHardware := false,
    holdoffInHardware := false, answersFromInstrument := g.answersFromInstrument, refreshEvery := g.refreshes,
    waiting := [], published, notes := [], arms := [] }

/-- The lines of `run` before the loop. -/
def startLoop (scope : σ) (acquiring : Bool) (sequence version : Nat) (published : List ScopeState)
    (restoreFrom : Option ScopeState) : Loop σ :=
  let w := (newLoop d scope acquiring sequence version published).refreshTrigger d
  publishState d lib (restoreFrom.elim w (restore d lib w))

/-- The states of a run of the loop from `start`, and why it ended if it did. -/
inductive Reached (start : Loop σ) : Loop σ → Option Ended → Prop
  | start : Reached start start none
  | turn {w w' : Loop σ} {ended : Option Ended} {i : Input} (hreached : Reached start w none)
      (hturn : turn d lib w i = some (w', ended)) : Reached start w' ended

/-- A turn after which the loop goes on. -/
def goOn (w : Loop σ) (i : Input) : Option (Loop σ) :=
  match turn d lib w i with
  | some (w', none) => some w'
  | _ => none

theorem Reached.run {start w w' : Loop σ} {inputs : List Input} (h : Reached d lib start w none)
    (hrun : Lib.run (goOn d lib) w inputs = some w') : Reached d lib start w' none := by
  refine Lib.run_preserves (fun w => Reached d lib start w none) (fun w i w' h hstep => ?_) h hrun
  unfold goOn at hstep
  split at hstep
  · cases hstep
    exact h.turn ‹_›
  · cases hstep

end

end Lager.Scope
