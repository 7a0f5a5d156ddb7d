import Lager.Lib.Triple
import Lager.Pico.Settings

/-!
# The PicoScope 2000 driver

`pico/ps2000.rs`: the driver's state and the functions that change it, as programs that the device can stop. A
`Device` says which of the calls of one operation are accepted and what `ps2000_get_timebase` answers; reading a
block out is left out, which changes nothing here.
-/

namespace Lager.Pico.Ps2000

open Lager.Lib
open Lager.Scope (ChannelId Coupling TriggerSlope CaptureMode)

def NANOSECONDS_PER_SECOND : ℚ := 1000000000
def MIN_MEMORY_DEPTH : Nat := 8000
def TOTAL_NUM_TIME_DIVISIONS : ℚ := 10
def DEFAULT_ATTENUATION : ℚ := 10
def DEFAULT_TRIGGER_POSITION : ℚ := 50

structure DeviceSpecs where
  channels : Nat
  sampleRate : ℚ
  memoryDepth : Nat
  deriving DecidableEq

def DEVICE_SPECS : List (String × DeviceSpecs) :=
  [("2204A", ⟨2, 100000000, 8000⟩),
   ("2205A", ⟨2, 200000000, 16000⟩),
   ("2205A MSO", ⟨2, 500000000, 48000⟩),
   ("2405A", ⟨4, 500000000, 48000⟩),
   ("2206B", ⟨2, 500000000, 32000000⟩),
   ("2206B MSO", ⟨2, 1000000000, 32000000⟩),
   ("2406B", ⟨4, 1000000000, 32000000⟩),
   ("2207B", ⟨2, 1000000000, 64000000⟩),
   ("2207B MSO", ⟨2, 1000000000, 64000000⟩),
   ("2407B", ⟨4, 1000000000, 64000000⟩),
   ("2208B", ⟨2, 1000000000, 128000000⟩),
   ("2208B MSO", ⟨2, 1000000000, 128000000⟩),
   ("2408B", ⟨4, 1000000000, 128000000⟩)]

/-! ### Ranges -/

/-- `enPS2000Range`. -/
inductive Range where
  | mV10 | mV20 | mV50 | mV100 | mV200 | mV500 | V1 | V2 | V5 | V10 | V20 | V50 | maxRanges
  deriving DecidableEq

def rawRangeToVolts : Range → ℚ
  | .mV10 => 1 / 100
  | .mV20 => 2 / 100
  | .mV50 => 5 / 100
  | .mV100 => 1 / 10
  | .mV200 => 2 / 10
  | .mV500 => 5 / 10
  | .V1 => 1
  | .V2 => 2
  | .V5 => 5
  | .V10 => 10
  | .V20 => 20
  | .V50 => 50
  | .maxRanges => 50

def voltsPerDivToRange (voltsPerDiv attenuation : ℚ) : Range :=
  let totalRange := voltsPerDiv * 8 / attenuation
  if totalRange ≤ 2 / 100 then .mV10
  else if totalRange ≤ 4 / 100 then .mV20
  else if totalRange ≤ 1 / 10 then .mV50
  else if totalRange ≤ 2 / 10 then .mV100
  else if totalRange ≤ 4 / 10 then .mV200
  else if totalRange ≤ 1 then .mV500
  else if totalRange ≤ 2 then .V1
  else if totalRange ≤ 4 then .V2
  else if totalRange ≤ 10 then .V5
  else if totalRange ≤ 20 then .V10
  else if totalRange ≤ 40 then .V20
  else if totalRange ≤ 100 then .V50
  else .maxRanges

/-- The full scale of a channel, at the input. -/
def rangeVolts (c : ChannelSettings) : ℚ := rawRangeToVolts (voltsPerDivToRange c.voltsPerDiv c.attenuation)

theorem rangeVolts_pos (c : ChannelSettings) : 0 < rangeVolts c := by
  have hpos : ∀ r, 0 < rawRangeToVolts r := by
    intro r
    cases r <;> decide +kernel
  exact hpos _

def toInputVolts (probeVolts attenuation : ℚ) : ℚ :=
  if attenuation ≤ 0 then probeVolts else probeVolts / attenuation

def toProbeVolts (inputVolts attenuation : ℚ) : ℚ :=
  if attenuation ≤ 0 then inputVolts else inputVolts * attenuation

/-- `range.copysign(level)`. -/
def copysign (range level : ℚ) : ℚ := if level < 0 then -|range| else |range|

def clampTriggerLevelToRange (settings : OscilloscopeSettings) : OscilloscopeSettings :=
  match settings.find settings.trigger.triggerSource with
  | none => settings
  | some channel =>
    let range := rangeVolts channel
    let level := settings.trigger.triggerLevel
    if range < |level| then
      { settings with trigger := { settings.trigger with triggerLevel := copysign range level } }
    else settings

/-- Samples before and after the trigger, for a trigger so many percent into a block. -/
def triggerPositionSplit (memoryDepth : Nat) (percent : ℚ) : Nat × Nat :=
  let clampedPercent := max 0 (min percent 100)
  let pre := ⌊memoryDepth * clampedPercent / 100⌋.toNat
  let post := memoryDepth - pre
  let (pre, post) := if pre = 0 then (1, memoryDepth - 1) else (pre, post)
  if post = 0 then (memoryDepth - 1, 1) else (pre, post)

/-! ### The device and the driver -/

/-- `enPS2000ThresholdDirection`, of the ones used. -/
inductive Direction where
  | advRising
  | advFalling
  | risingOrFalling
  | advNone
  deriving DecidableEq

inductive Call where
  | setChannel (channel : Nat) (enabled dc : Bool) (range : Range)
  | triggerConditions (source : Option Nat)
  | triggerDirections (source : Nat) (direction : Direction)
  | triggerProperties (threshold : ℤ) (hysteresis channel autoTriggerMs : Nat)
  | triggerDelay (delay : ℤ) (preTriggerDelay : ℚ)
  | runBlock (samples timebase : Nat)
  | runStreaming (intervalUs aggregate : Nat)
  | stop
  deriving DecidableEq

abbrev Error := PicoError Call

/-- A timebase that the device offers: its index, its interval, and the unit it suggests for the times. -/
structure Timebase where
  timebase : Nat
  intervalNs : ℚ
  units : ℤ
  deriving DecidableEq

/-- How the device meets one operation of the driver: the n-th call, and in the n-th search, what it says of a timebase
at a number of samples. -/
structure Device where
  accepts : Nat → Bool
  timebases : Nat
  getTimebase : Nat → Nat → Nat → Option (ℤ × ℤ)

structure PicoScope2000 where
  settings : OscilloscopeSettings
  isCapturing : Bool
  preTriggerSamples : Nat
  postTriggerSamples : Nat
  current : Timebase
  memoryDepth : Nat
  isNewChannelEnabledDisabled : Bool
  memoryDepthNotUpdate : Bool
  needsFullArm : Bool
  isStreaming : Bool
  watch : Watch
  deriving DecidableEq

abbrev Act (α : Type) := Prog PicoScope2000 Error α

def PicoScope2000.setTrigger (s : PicoScope2000) (change : TriggerSettings → TriggerSettings) : PicoScope2000 :=
  { s with settings := { s.settings with trigger := change s.settings.trigger } }

def channelIdToRawValue : ChannelId → Nat
  | .alphabetic c => if c = 'B' then 1 else if c = 'C' then 2 else if c = 'D' then 3 else 0
  | .numeric _ => 0

def getTriggerDirectionValue : TriggerSlope → Direction
  | .rising => .advRising
  | .falling => .advFalling
  | .either => .risingOrFalling
  | .neither => .advNone

def getAutoTriggerMs (mode : CaptureMode) (desired : Nat) : Nat :=
  match mode with
  | .auto => desired
  | .single => 0
  | .normal => 0

def TRIGGER_HYSTERESIS_COUNTS : Nat := 32767 / 64

/-- The timebase whose interval is closest to the desired one, and the first of those that are as close. -/
def closest (desired : ℚ) (answer : Nat → Option (ℤ × ℤ)) (timebases : Nat) : Option Timebase :=
  (List.range timebases).foldl (fun best index =>
    match answer index with
    | none => best
    | some (interval, units) =>
      match best with
      | some b =>
        if |(interval : ℚ) - desired| < |b.intervalNs - desired| then some ⟨index, interval, units⟩ else some b
      | none => some ⟨index, interval, units⟩) none

variable (d : Device)

/-- A call that returns 0 where the device refuses it. -/
def call (c : Call) : Act Unit := do
  let s ← get
  modify fun s => { s with watch := { s.watch with calls := s.watch.calls + 1 } }
  when (d.accepts s.watch.calls = false) (throw (.refused c))

/-- Stop the hardware and leave the capture mode alone. -/
def halt : Act Unit := do
  call d .stop
  modify fun s => { s with isCapturing := false, isStreaming := false }

def doUpdateChannel : Act Unit := do
  let s ← get
  s.settings.channels.forM fun c =>
    call d (.setChannel (channelIdToRawValue c.channelId) c.enabled (c.coupling = .DC)
      (voltsPerDivToRange c.voltsPerDiv c.attenuation))

def voltageToAdcCounts (settings : OscilloscopeSettings) (voltage : ℚ) (channel : ChannelId) : Except Error ℤ :=
  match settings.find channel with
  | none => .error .channelNotFound
  | some c =>
    let range := rangeVolts c
    if range < voltage then .error (.voltageOutOfRange voltage range) else .ok (asI16 (voltage / range * 32767))

/-- `trigger_conditions`: the source, unless the slope switches the trigger off. -/
def triggerConditions (source : ChannelId) (slope : TriggerSlope) : Except Error (Option Nat) :=
  if slope = .neither then .ok none
  else
    match source with
    | .alphabetic c =>
      if 'A' ≤ c ∧ c ≤ 'D' then .ok (some (channelIdToRawValue source)) else .error (.noTriggerSource source)
    | .numeric _ => .error (.noTriggerSource source)

def doUpdateTrigger : Act Unit := do
  let s ← get
  let trigger := s.settings.trigger
  let level ← (voltageToAdcCounts s.settings trigger.triggerLevel trigger.triggerSource : Except Error ℤ)
  let delay := if -32768 ≤ trigger.delay ∧ trigger.delay ≤ 32767 then roundAway trigger.delay else 0
  let blockSeconds := s.memoryDepth * s.current.intervalNs / NANOSECONDS_PER_SECOND
  let autoTriggerMs := getAutoTriggerMs trigger.captureMode (autoTriggerTimeoutMs blockSeconds)
  match ← (triggerConditions trigger.triggerSource trigger.triggerSlope : Except Error (Option Nat)) with
  | none => call d (.triggerConditions none)
  | some source =>
    call d (.triggerConditions (some source))
    call d (.triggerDirections source (getTriggerDirectionValue trigger.triggerSlope))
    call d (.triggerProperties level TRIGGER_HYSTERESIS_COUNTS source autoTriggerMs)
    call d (.triggerDelay delay
      (-100 * (s.preTriggerSamples / (s.preTriggerSamples + s.postTriggerSamples : ℚ))))

def PicoScope2000.applyTriggerPosition (s : PicoScope2000) : PicoScope2000 :=
  let split := triggerPositionSplit s.memoryDepth s.settings.trigger.triggerPosition
  { s with preTriggerSamples := split.1, postTriggerSamples := split.2 }

def desiredTimerIntervalNs (memoryDepth : Nat) (timePerDiv : ℚ) : ℚ :=
  timePerDiv * TOTAL_NUM_TIME_DIVISIONS * NANOSECONDS_PER_SECOND / memoryDepth

/-- What the search number `search` finds. -/
def timebaseFor (search memoryDepth : Nat) (timePerDiv : ℚ) : Option Timebase :=
  closest (desiredTimerIntervalNs memoryDepth timePerDiv) (d.getTimebase search · memoryDepth) d.timebases

def setScopeTimePerDiv (timePerDiv : ℚ) (memoryDepth : Nat) : Act Unit := do
  modify fun s => { s with settings := { s.settings with timePerDiv } }
  let s ← get
  modify fun s => { s with watch := { s.watch with searches := s.watch.searches + 1 } }
  match timebaseFor d s.watch.searches memoryDepth timePerDiv with
  | some found => modify fun s => { s with current := found }
  | none => throw .noTimebase

/-- The depth that `update_memory_depth` works out. -/
def memoryDepthFor (settings : OscilloscopeSettings) : Nat :=
  let depth := settings.memoryDepth.getD MIN_MEMORY_DEPTH
  let numChannels := max settings.enabled.length 1
  if numChannels = 1 then depth else depth / numChannels - 1000

def updateMemoryDepth : Act Unit := do
  let s ← get
  let memoryDepth := memoryDepthFor s.settings
  setScopeTimePerDiv d s.settings.timePerDiv memoryDepth
  modify fun s => { s with memoryDepth := memoryDepth }.applyTriggerPosition

def doMemoryDepthUpdate : Act Unit := do
  let s ← get
  when s.isNewChannelEnabledDisabled do
    let tried ← attempt (updateMemoryDepth d)
    modify fun s => { s with
      memoryDepthNotUpdate := s.memoryDepthNotUpdate || !tried.isOk
      isNewChannelEnabledDisabled := false }

/-- The second try of `run_block` at a depth that could not be set. -/
def retryMemoryDepth : Act Unit := do
  let s ← get
  when s.memoryDepthNotUpdate do
    halt d
    let tried ← attempt (updateMemoryDepth d)
    modify fun s => { s with memoryDepthNotUpdate := !tried.isOk }

def haltIfRunning : Act Unit := do
  let s ← get
  when (s.isCapturing ∨ s.isStreaming) do
    let _ ← attempt (halt d)

def runBlock (percent : ℚ) : Act Unit := do
  modify fun s => (s.setTrigger fun t => { t with triggerPosition := percent }).applyTriggerPosition
  haltIfRunning d
  doUpdateChannel d
  doUpdateTrigger d
  doMemoryDepthUpdate d
  retryMemoryDepth d
  let s ← get
  call d (.runBlock s.memoryDepth s.current.timebase)
  modify fun s => { s with isCapturing := true, needsFullArm := false }

/-- `start_triggered_capture` at the position held. -/
def rearmHere : Act Unit := do
  let s ← get
  runBlock d s.settings.trigger.triggerPosition

/-! ### Changing a setting -/

/-- Push the stored settings to the hardware, re-arming if it was capturing. -/
def reprogram : Act Unit := do
  let s ← get
  when s.isCapturing do
    halt d
    doUpdateChannel d
    modify fun s => { s with isCapturing := true }
  doUpdateTrigger d
  when s.isCapturing do
    doMemoryDepthUpdate d
    rearmHere d

/-- Put the hardware back on the settings held. -/
def restoreHardware (wasCapturing : Bool) : Act Unit := do
  let _ ← attempt (call d .stop)
  modify fun s => { s with isCapturing := false }
  doUpdateChannel d
  doUpdateTrigger d
  when wasCapturing (rearmHere d)

/-- The changed settings, with the level inside the range, and the hardware programmed with them. -/
def applyChange (change : OscilloscopeSettings → Except Error OscilloscopeSettings) : Act Unit := do
  let s ← get
  let settings ← (change s.settings : Except Error OscilloscopeSettings)
  modify fun s => { s with settings := clampTriggerLevelToRange settings }
  reprogram d

/-- Change the settings and apply them to the hardware, all or nothing. -/
def changeSettings (change : OscilloscopeSettings → Except Error OscilloscopeSettings) : Act Unit := do
  let previous ← get
  match ← attempt (applyChange d change) with
  | .ok () => pure ()
  | .error error =>
    modify fun s => { s with settings := previous.settings }
    let recovery ← attempt (restoreHardware d previous.isCapturing)
    modify fun s => { s with watch := { s.watch with warned := !recovery.isOk } }
    throw error

/-- Probe attenuation of whichever channel the trigger watches, and 1 where there is none. -/
def triggerSourceAttenuation (settings : OscilloscopeSettings) : ℚ :=
  match settings.find settings.trigger.triggerSource with
  | some c => if 0 < c.attenuation then c.attenuation else 1
  | none => 1

def getScopeTriggerLevel (settings : OscilloscopeSettings) : ℚ :=
  toProbeVolts settings.trigger.triggerLevel (triggerSourceAttenuation settings)

/-- The reach of the trigger at the probe: the source channel's range there. -/
def reach (c : ChannelSettings) : ℚ := toProbeVolts (rangeVolts c) c.attenuation

def enableDisableScopeChannel (channel : ChannelId) (enabled : Bool) : Act Unit := do
  modify fun s => { s with isNewChannelEnabledDisabled := true }
  changeSettings d fun settings => channelSettingsMut settings channel fun c => { c with enabled }

/-- A level that the signal could never cross is refused before anything is touched. -/
def refuseBeyondReach (settings : OscilloscopeSettings) (level : ℚ) : Except Error Unit :=
  match settings.find settings.trigger.triggerSource with
  | some c =>
    if reach c < |level| then
      .error (.beyondRange level settings.trigger.triggerSource (reach c) c.voltsPerDiv)
    else .ok ()
  | none => .ok ()

def setScopeTriggerLevel (level : ℚ) : Act Unit := do
  let s ← get
  (refuseBeyondReach s.settings level : Except Error Unit)
  let atInput := toInputVolts level (triggerSourceAttenuation s.settings)
  changeSettings d fun settings => .ok { settings with trigger := { settings.trigger with triggerLevel := atInput } }

/-- The stored level is converted with the probe of the trigger's source, so that it stays where it is at the tip. -/
def attenuate (channel : ChannelId) (attenuation previous : ℚ) (settings : OscilloscopeSettings) :
    Except Error OscilloscopeSettings := do
  let settings ← channelSettingsMut settings channel fun c => { c with attenuation }
  if channel = settings.trigger.triggerSource then
    let atProbe := toProbeVolts settings.trigger.triggerLevel previous
    return { settings with
      trigger := { settings.trigger with triggerLevel := toInputVolts atProbe attenuation } }
  else
    return settings

def setScopeAttenuation (channel : ChannelId) (attenuation : ℚ) : Act Unit := do
  when (attenuation ≤ 0) do
    throw (.notPositive attenuation)
  let s ← get
  changeSettings d (attenuate channel attenuation (triggerSourceAttenuation s.settings))

def setVoltsPerDiv (channel : ChannelId) (voltsPerDiv : ℚ) : Act Unit := do
  when (¬channel ∈ [ChannelId.alphabetic 'A', .alphabetic 'B', .alphabetic 'C', .alphabetic 'D']) do
    throw (.invalidChannel channel)
  changeSettings d fun settings => channelSettingsMut settings channel fun c => { c with voltsPerDiv }

/-- This series has no offset: zero is accepted, and nothing else. -/
def setVoltsOffset (channel : ChannelId) (offset : ℚ) : Act Unit := do
  when (offset ≠ 0) do
    throw (.noAnalogOffset offset)
  let s ← get
  match s.settings.find channel with
  | none => throw .channelNotFound
  | some _ =>
    modify fun s => { s with
      settings := { s.settings with channels := changeFirst channel (fun c => { c with voltsOffset := 0 }) s.settings.channels } }

def setCoupling (channel : ChannelId) (coupling : Coupling) : Act Unit := do
  when (coupling = .GND) do
    throw .noGroundCoupling
  changeSettings d fun settings => channelSettingsMut settings channel fun c => { c with coupling }

def changeTrigger (change : TriggerSettings → TriggerSettings) : Act Unit :=
  changeSettings d fun settings => .ok { settings with trigger := change settings.trigger }

def setScopeTriggerSource (source : ChannelId) : Act Unit := changeTrigger d fun t => { t with triggerSource := source }

def setTriggerDirection (slope : TriggerSlope) : Act Unit := changeTrigger d fun t => { t with triggerSlope := slope }

def setScopeCaptureMode (mode : CaptureMode) : Act Unit := changeTrigger d fun t => { t with captureMode := mode }

def setTimePerDiv (timePerDiv : ℚ) : Act Unit := do
  let s ← get
  setScopeTimePerDiv d timePerDiv s.memoryDepth
  when s.isCapturing do
    halt d
    doUpdateChannel d
    modify fun s => { s with isCapturing := true }
    doUpdateTrigger d
    rearmHere d

/-- The setters, as the trait has them. -/
def set : Setter → Act Unit
  | .enableChannel c => enableDisableScopeChannel d c true
  | .disableChannel c => enableDisableScopeChannel d c false
  | .voltsPerDiv c v => setVoltsPerDiv d c v
  | .voltsOffset c v => setVoltsOffset c v
  | .coupling c k => setCoupling d c k
  | .attenuation c a => setScopeAttenuation d c a
  | .timePerDiv t => setTimePerDiv d t
  | .timeOffset t => modify fun s => { s with settings := { s.settings with timeOffset := t } }
  | .triggerLevel l => setScopeTriggerLevel d l
  | .triggerSource c => setScopeTriggerSource d c
  | .triggerSlope k => setTriggerDirection d k
  | .captureMode m => setScopeCaptureMode d m

/-! ### Capturing -/

/-- A stop that ends the capture; a single-shot is over with it. -/
def stopTriggering : Act Unit := do
  halt d
  modify fun s =>
    if s.settings.trigger.captureMode = .single then s.setTrigger fun t => { t with captureMode := .normal } else s

def forceTrigger : Act Unit := do
  let s ← get
  setScopeCaptureMode d .auto
  let result ← attempt (rearmHere d)
  modify fun t => { t.setTrigger fun k => { k with captureMode := s.settings.trigger.captureMode } with needsFullArm := true }
  match result with
  | .ok () => pure ()
  | .error e => throw e

def rearm : Act Unit := do
  let s ← get
  if s.needsFullArm ∨ ¬s.isCapturing then rearmHere d
  else
    match ← attempt (call d (.runBlock s.memoryDepth s.current.timebase)) with
    | .ok () => pure ()
    | .error _ => rearmHere d

/-- `roll_streaming_plan`: the interval in microseconds and the samples in a pair. -/
def rollStreamingPlan (bucketNs : ℚ) : Nat × Nat :=
  let bucketUs := max (bucketNs / 1000) 1
  let intervalUs := max ⌊bucketUs / 1000⌋.toNat 1
  (intervalUs, max (roundAway (bucketUs / intervalUs)).toNat 1)

def startRoll (bucketNs : ℚ) : Act Unit := do
  haltIfRunning d
  doUpdateChannel d
  let _ ← attempt (call d (.triggerConditions none))
  let plan := rollStreamingPlan bucketNs
  match ← attempt (call d (.runStreaming plan.1 plan.2)) with
  | .error e =>
    modify fun s => { s with needsFullArm := true }
    throw e
  | .ok () => modify fun s => { s with isStreaming := true, needsFullArm := true }

def stopRoll : Act Unit := do
  let s ← get
  when s.isStreaming do
    let result ← attempt (call d .stop)
    modify fun s => { s with isStreaming := false, isCapturing := false, needsFullArm := true }
    match result with
    | .ok () => pure ()
    | .error e => throw e

/-! ### Runs -/

inductive Op where
  | set (setter : Setter)
  | startTriggeredCapture (percent : ℚ)
  | stopTriggeredCapture
  | forceTrigger
  | rearm
  | startRoll (bucketNs : ℚ)
  | stopRoll

def Op.act : Op → Act Unit
  | .set setter => Ps2000.set d setter
  | .startTriggeredCapture percent => runBlock d percent
  | .stopTriggeredCapture => stopTriggering d
  | .forceTrigger => Ps2000.forceTrigger d
  | .rearm => Ps2000.rearm d
  | .startRoll bucketNs => Ps2000.startRoll d bucketNs
  | .stopRoll => Ps2000.stopRoll d

/-- An operation, and how the device meets it. -/
structure Event where
  op : Op
  device : Device

/-- The driver at the start of an operation. -/
def PicoScope2000.unwatched (s : PicoScope2000) : PicoScope2000 := { s with watch := .start }

/-- What the operation answers, and the driver after it. -/
def outcome (s : PicoScope2000) (e : Event) : Except Error Unit × PicoScope2000 :=
  exec (e.op.act e.device) s.unwatched

def step (s : PicoScope2000) (e : Event) : Option PicoScope2000 := some (outcome s e).2

def initialSettings (specs : DeviceSpecs) : OscilloscopeSettings where
  channels := (['A', 'B', 'C', 'D'].take specs.channels).map fun c =>
    { channelId := .alphabetic c
      voltsPerDiv := 1
      voltsOffset := 0
      coupling := .DC
      attenuation := DEFAULT_ATTENUATION
      enabled := false }
  timePerDiv := 1 / 1000
  timeOffset := 0
  sampleRate := some specs.sampleRate
  memoryDepth := some specs.memoryDepth
  trigger :=
    { triggerLevel := 0
      triggerSource := .alphabetic 'A'
      triggerSlope := .rising
      captureMode := .auto
      delay := 0
      triggerPosition := DEFAULT_TRIGGER_POSITION }

/-- `set_up`: a unit just opened, with the timebase that its search has found. -/
def setUp (specs : DeviceSpecs) (found : Timebase) : PicoScope2000 where
  settings := initialSettings specs
  isCapturing := false
  preTriggerSamples := MIN_MEMORY_DEPTH / 2
  postTriggerSamples := MIN_MEMORY_DEPTH / 2
  current := found
  memoryDepth := MIN_MEMORY_DEPTH
  isNewChannelEnabledDisabled := false
  memoryDepthNotUpdate := false
  needsFullArm := true
  isStreaming := false
  watch := .start

end Lager.Pico.Ps2000
