import Lager.Scope.Lscp
import Lager.Py.Json

/-!
# What the scope thread talks to

`daemon/src/scope_thread.rs` and `daemon/src/oscilloscope/mod.rs`: the requests and replies of the hardware
thread, the published `ScopeState`, and the trait `Oscilloscope` as the thread uses it. A driver is a state and
what each method of the trait answers in it; a method that takes `&mut self`, or that reads the hardware, also
gives the state afterwards. The setters are one method with the setting as its argument, and so are the plain
getters that a request is answered with.

A driver call may also panic, which unwinds the thread; that is a step of the thread and not a result here.
-/

namespace Lager.Scope

open Lager.Py (Json Dict)

/-! ### Settings -/

inductive TriggerSlope where
  | rising
  | falling
  | either
  | neither
  deriving DecidableEq

inductive CaptureMode where
  | normal
  | single
  | auto
  deriving DecidableEq

inductive AcquisitionMode where
  | normal
  | average
  | peak
  deriving DecidableEq

inductive RollMode where
  | auto
  | on
  | off
  deriving DecidableEq

inductive Measurement where
  | vpp | vmax | vmin | vrms | vavg | period | frequency | dutyCyclePositive | dutyCycleNegative
  | pulseWidthPositive | pulseWidthNegative | riseTime | fallTime | overshoot
  deriving DecidableEq

abbrev MeasurementSet := Measurement → Option Float

/-- The fields of `ScopeCapabilities` that the thread reads. -/
structure ScopeCapabilities where
  model : String
  serial : String
  channelLabels : List String
  peakDetect : Bool

/-! ### Requests and replies -/

/-- The requests that only call a setter of the driver. -/
inductive Setting where
  | enableChannel (c : ChannelId)
  | disableChannel (c : ChannelId)
  | voltsPerDiv (c : ChannelId) (v : Float)
  | voltsOffset (c : ChannelId) (v : Float)
  | coupling (c : ChannelId) (k : Coupling)
  | attenuation (c : ChannelId) (a : Float)
  | timePerDiv (t : Float)
  | timeOffset (t : Float)
  | triggerLevel (l : Float)
  | triggerSource (c : ChannelId)
  | triggerSlope (s : TriggerSlope)
  | captureMode (m : CaptureMode)

/-- The requests that are answered by a getter of the driver. -/
inductive Query where
  | isChannelEnabled (c : ChannelId)
  | voltsPerDiv (c : ChannelId)
  | voltsOffset (c : ChannelId)
  | coupling (c : ChannelId)
  | attenuation (c : ChannelId)
  | timeOffset
  | triggerLevel
  | triggerSource
  | triggerSlope
  | captureMode
  | sampleRate
  | memoryDepth
  | bandwidth
  | channelCount
  | capabilities

inductive ScopeRequest where
  | set (s : Setting)
  | get (q : Query)
  | getTimePerDiv
  | startAcquisition (position : Float)
  | stopAcquisition
  | forceTrigger
  | isReady
  | getTriggeredData
  | measure (channel : ChannelId) (which : Measurement)
  | measureOne (channel : ChannelId) (which : Measurement)
  | measureAll (channel : ChannelId)
  | getState
  | setDisplay (patch : Json)
  | getDisplay
  | setAcquisition (mode : AcquisitionMode) (count : Option Nat)
  | getAcquisition
  | setHoldoff (seconds : Float)
  | getHoldoff
  | setRoll (mode : RollMode)
  | getRoll
  | scpi (command : String)

structure TriggerCache where
  mode : CaptureMode
  source : ChannelId
  level : Float
  slope : TriggerSlope

structure ChannelState where
  channel : ChannelId
  enabled : Bool
  voltsPerDiv : Float
  voltsOffset : Float
  coupling : Coupling
  attenuation : Float

/-- `ScopeState`; `trigger` has the mode, source, level and slope, which the source spreads over two fields. -/
structure ScopeState where
  version : Nat
  acquiring : Bool
  rolling : Bool
  trigger : TriggerCache
  holdoffS : Float
  positionPercent : Float
  timePerDiv : Float
  timeOffset : Float
  sampleIntervalNs : Float
  memoryDepth : Nat
  roll : RollMode
  acquisition : AcquisitionMode
  averageCount : Nat
  channels : List ChannelState
  display : Json
  liveViewProblem : Option String

/-- The errors of the thread itself, with what their texts say. -/
inductive ReplyError where
  | driver (message : String)
  | rollHasNoTrigger
  | stoppedNothingToForce
  | averageOutOfRange (count : Nat)
  | noPeakDetect (model : String) (canRoll : Bool)
  | holdoffOutOfRange (seconds : Float)
  | noRollMode
  | noScpi
  | displayTooLarge (size : Nat)
  | noScreenYet
  | noCaptureYet
  | noCapture
  | notEnabled (channel : ChannelId)
  | noSamples (channel : ChannelId)
  | needsFullCycle (which : Measurement)
  | noCaptureInTime

inductive ScopeReply where
  | ok
  | bool (b : Bool)
  | float (x : Float)
  | usize (n : Nat)
  | channel (c : ChannelId)
  | coupling (k : Coupling)
  | slope (s : TriggerSlope)
  | mode (m : CaptureMode)
  | capabilities (c : ScopeCapabilities)
  | capture (frame : CaptureFrame)
  | measurement (x : Float)
  | measurements (set : MeasurementSet)
  | measuredOne (value : Option (Option Float))
  | state (s : ScopeState)
  | display (value : Json)
  | acquisition (mode : AcquisitionMode) (count : Nat)
  | roll (mode : RollMode) (rolling : Bool)
  | text (t : Option String)
  | error (e : ReplyError)

def ScopeReply.isError : ScopeReply → Bool
  | .error _ => true
  | _ => false

/-! ### The driver -/

/-- An error of a driver call; `gone`: `unit_is_gone` says so of it. -/
structure DriverError where
  message : String
  gone : Bool

abbrev Result (α : Type) := Except DriverError α

/-- What the methods that take `&self` answer in one state of the driver. -/
structure Getters where
  isChannelEnabled : ChannelId → Result Bool
  getVoltsPerDiv : ChannelId → Result Float
  getVoltsOffset : ChannelId → Result Float
  getCoupling : ChannelId → Result Coupling
  getAttenuation : ChannelId → Result Float
  getTimePerDiv : Result Float
  getTimeOffset : Result Float
  getTriggerLevel : Result Float
  getTriggerSource : Result ChannelId
  getTriggerSlope : Result TriggerSlope
  getCaptureMode : Result CaptureMode
  getSampleRate : Result Float
  currentMemoryDepth : Result Nat
  getBandwidth : Result Float
  getChannelCount : Result Nat
  getTriggerPosition : Result Float
  capabilities : Result ScopeCapabilities
  requestedTimePerDiv : Result Float
  supportsRoll : Bool
  reportsTrigger : Bool
  answersFromInstrument : Bool
  refreshes : Bool
  liveViewProblem : Option String

structure RollInfo where
  bucketNs : Float
  channels : List ChannelFrame
  resolutionBits : UInt8

/-- The pairs of each streamed channel. -/
abbrev RollSink := List (List (BitVec 16 × BitVec 16))

/-- An implementation of `Oscilloscope`. -/
structure Driver (σ : Type) where
  getters : σ → Getters
  set : Setting → σ → Result Unit × σ
  startTriggeredCapture : Float → σ → Result Unit × σ
  stopTriggeredCapture : σ → Result Unit × σ
  releaseCapture : σ → Result Unit × σ
  acquiringAfterOpen : σ → Result Bool × σ
  isReady : σ → Result Bool × σ
  getTriggeredData : σ → Result CaptureFrame × σ
  forceTrigger : σ → Result Unit × σ
  rearm : σ → Result Unit × σ
  refreshSettings : σ → Option (Result Bool) × σ
  startRoll : Float → σ → Result RollInfo × σ
  pollRoll : σ → Result RollSink × σ
  stopRoll : σ → Result Unit × σ
  measureAll : ChannelId → σ → Option (Result MeasurementSet) × σ
  measureOne : ChannelId → Measurement → σ → Option (Result (Option Float)) × σ
  readRecord : σ → Option (Result CaptureFrame) × σ
  setAcquisition : AcquisitionMode → Nat → σ → Option (Result Unit) × σ
  setHoldoff : Float → σ → Option (Result Unit) × σ
  scpi : String → σ → Option (Result (Option String)) × σ

/-- What a unit is doing for an acquisition of blocks: nothing, holding a block that has been read, or armed. -/
inductive ArmState where
  | off
  | spent
  | armed
  deriving DecidableEq

/-- `reply_value!` of each getter. -/
def Getters.answer (g : Getters) : Query → Result ScopeReply
  | .isChannelEnabled c => (g.isChannelEnabled c).map .bool
  | .voltsPerDiv c => (g.getVoltsPerDiv c).map .float
  | .voltsOffset c => (g.getVoltsOffset c).map .float
  | .coupling c => (g.getCoupling c).map .coupling
  | .attenuation c => (g.getAttenuation c).map .float
  | .timeOffset => g.getTimeOffset.map .float
  | .triggerLevel => g.getTriggerLevel.map .float
  | .triggerSource => g.getTriggerSource.map .channel
  | .triggerSlope => g.getTriggerSlope.map .slope
  | .captureMode => g.getCaptureMode.map .mode
  | .sampleRate => g.getSampleRate.map .float
  | .memoryDepth => g.currentMemoryDepth.map .usize
  | .bandwidth => g.getBandwidth.map .float
  | .channelCount => g.getChannelCount.map .usize
  | .capabilities => g.capabilities.map .capabilities

/-- `unwrap_or`. -/
def Result.getD {α : Type} (r : Result α) (a : α) : α := r.toOption.getD a

/-! ### Classes of requests -/

def invalidatesThePublishedCapture : ScopeRequest → Bool
  | .set _ | .startAcquisition _ | .setAcquisition _ _ | .setRoll _ | .scpi _ => true
  | _ => false

/-- The request programs the device, which roll mode has to stop streaming for. -/
def touchesHardware : ScopeRequest → Bool
  | .setAcquisition _ _ | .setRoll _ => false
  | .stopAcquisition => true
  | .forceTrigger => false
  | other => invalidatesThePublishedCapture other

/-- Answering the request changes what `GetState` would say. -/
def changesState (request : ScopeRequest) : Bool :=
  invalidatesThePublishedCapture request ||
    match request with
    | .stopAcquisition | .setHoldoff _ | .setDisplay _ => true
    | _ => false

/-- The requests that are answered from a capture. -/
def wantsSamples : ScopeRequest → Bool
  | .getTriggeredData | .measure _ _ | .measureAll _ => true
  | _ => false

/-- `merge_display`: a patch object sets its keys and removes those it has as null; anything else replaces. -/
def mergeDisplay (display patch : Json) : Json :=
  match display, patch with
  | .obj current, .obj changes =>
    .obj (changes.foldl (fun d (key, value) =>
      if value = .null then Dict.pop d key else Dict.set d key value) current)
  | _, replacement => replacement

end Lager.Scope
