import Lager.Lib.Triple
import Lager.Pico.Settings
import Lager.Pico.Timebase

/-!
# The driver of the modern PicoScopes

`pico/modern_scope.rs`: the driver's state and the functions that change it or read a block out, as programs that the
device can stop. The driver hands the device buffers that it owns, so a buffer has an identity here, and `Hardware` is
what the device remembers: how each channel was programmed, the buffer each was last given, and what a frame of the
block last armed would say of itself.
-/

namespace Lager.Pico.Modern

open Lager.Lib
open Lager.Scope (ChannelId Coupling TriggerSlope CaptureMode)

def VERTICAL_DIVISIONS : ℚ := 8
def DEFAULT_CAPTURE_SAMPLES : Nat := 2000

/-- `f64::MIN_POSITIVE`. -/
def MIN_POSITIVE : ℚ := 1 / 2 ^ 1022

/-! ### Ranges -/

inductive DriverFamily where
  | ps2000a
  | ps3000a
  | ps4000a
  | ps5000a
  deriving DecidableEq

inductive Range where
  | mV10 | mV20 | mV50 | mV100 | mV200 | mV500 | V1 | V2 | V5 | V10 | V20 | V50
  deriving DecidableEq

def Range.ALL : List Range := [.mV10, .mV20, .mV50, .mV100, .mV200, .mV500, .V1, .V2, .V5, .V10, .V20, .V50]

def Range.code : Range → Nat
  | .mV10 => 0
  | .mV20 => 1
  | .mV50 => 2
  | .mV100 => 3
  | .mV200 => 4
  | .mV500 => 5
  | .V1 => 6
  | .V2 => 7
  | .V5 => 8
  | .V10 => 9
  | .V20 => 10
  | .V50 => 11

def Range.fullScaleVolts : Range → ℚ
  | .mV10 => 1 / 100
  | .mV20 => 2 / 100
  | .mV50 => 5 / 100
  | .mV100 => 1 / 10
  | .mV200 => 2 / 10
  | .mV500 => 5 / 10
  | .V1 => 1
  | .V2 => 2
  | .V5 => 5
  | .V10 => 10
  | .V20 => 20
  | .V50 => 50

/-- The smallest and largest ranges that a family accepts. -/
def Range.limits : DriverFamily → Range × Range
  | .ps2000a => (.mV20, .V20)
  | .ps3000a => (.mV50, .V20)
  | .ps4000a => (.mV10, .V50)
  | .ps5000a => (.mV10, .V20)

def Range.supported (family : DriverFamily) : List Range :=
  Range.ALL.filter fun r => (limits family).1.code ≤ r.code ∧ r.code ≤ (limits family).2.code

def Range.smallestContainingFor (family : DriverFamily) (volts : ℚ) : Range :=
  ((supported family).find? fun r => |volts| ≤ r.fullScaleVolts).getD (limits family).2

/-! ### The device -/

/-- One of the driver's sample buffers: two with the same number are the same memory. -/
structure Buffer where
  id : Nat
  len : Nat
  deriving DecidableEq

/-- The calls, with their arguments. -/
inductive Call where
  | setChannel (channel : Nat) (enabled : Bool) (coupling : Coupling) (range : Range) (offset : ℚ)
  | setSimpleTrigger (enabled : Bool) (source : Nat) (threshold : ℤ) (direction : TriggerSlope) (autoTriggerMs : Nat)
  | setDataBuffer (channel : Nat) (buffer : Buffer)
  | runBlock (pre post timebase : Nat)
  | getValues (samples : Nat)
  | stop
  deriving DecidableEq

abbrev Error := PicoError Call

/-- A channel's descriptor in a frame. -/
structure ChannelFrame where
  channel : ChannelId
  rangeCode : Nat
  coupling : Coupling
  scaleVPerCount : ℚ
  offsetV : ℚ
  deriving DecidableEq

/-- What a frame says of how it was captured. -/
structure Description where
  channels : List ChannelFrame
  sampleIntervalNs : ℚ
  deriving DecidableEq

structure Hardware where
  enabled : Nat → Bool
  registered : Nat → Option Buffer
  armed : Option Description

def Hardware.take (hw : Hardware) : Call → Hardware
  | .setChannel channel enabled _ _ _ =>
    { hw with enabled := fun i => if i = channel then enabled else hw.enabled i }
  | .setDataBuffer channel buffer =>
    { hw with registered := fun i => if i = channel then some buffer else hw.registered i }
  | _ => hw

/-- How the device meets one operation of the driver: the n-th call, and in the n-th search, what it says of a timebase
at a number of samples; and how many samples a read gives, with the channels that overflowed. -/
structure Device where
  accepts : Nat → Bool
  getTimebase : Nat → Nat → Nat → Option TimebaseInfo
  samples : Nat
  overflowed : Nat → Bool

/-- The unit: what the driver knows of it and never changes; its variant gives the number of channels. -/
structure Model where
  family : DriverFamily
  analogChannels : Nat
  maxAdcCount : Nat
  fromVariant : analogChannels ∈ [2, 4, 8]

/-! ### The driver -/

structure PicoScopeModern where
  settings : OscilloscopeSettings
  buffers : List Buffer
  buffersRegistered : Bool
  blockPending : Bool
  timebase : Nat
  intervalSeconds : ℚ
  samplesPerCapture : Nat
  preTriggerSamples : Nat
  isCapturing : Bool
  dirty : Bool
  /-- The next buffer to be allocated. -/
  nextBuffer : Nat
  hardware : Hardware
  /-- The configuration has been applied since a block was last armed. -/
  reconfigured : Bool
  watch : Watch

abbrev Act (α : Type) := Prog PicoScopeModern Error α

/-- `(c.to_ascii_uppercase() as u8).wrapping_sub(b'A')`, or the number less one. -/
def hardwareIndex : ChannelId → Nat
  | .alphabetic c => (c.toUpper.toNat + 191) % 256
  | .numeric n => n.toNat - 1

def channelIndex (u : Model) (id : ChannelId) : Except Error Nat :=
  match id with
  | .alphabetic _ =>
    if hardwareIndex id < u.analogChannels then .ok (hardwareIndex id) else .error (.invalidChannel id)
  | .numeric n =>
    if 1 ≤ n.toNat ∧ n.toNat ≤ u.analogChannels then .ok (n.toNat - 1) else .error (.invalidChannel id)

def settingsFor (settings : OscilloscopeSettings) (id : ChannelId) : Except Error ChannelSettings :=
  match settings.find id with
  | some c => .ok c
  | none => .error (.notOnThisScope id)

def rangeFor (u : Model) (c : ChannelSettings) : Range :=
  let atInput := c.voltsPerDiv / max c.attenuation MIN_POSITIVE
  Range.smallestContainingFor u.family (atInput * VERTICAL_DIVISIONS / 2)

/-- A level beyond full scale saturates. -/
def voltsToCounts (u : Model) (volts : ℚ) (c : ChannelSettings) : ℤ :=
  let fullScale := (rangeFor u c).fullScaleVolts * max c.attenuation MIN_POSITIVE
  if fullScale ≤ 0 then 0 else asI16 (volts / fullScale * u.maxAdcCount)

/-- `Coupling::try_from`. -/
def tryCoupling : Coupling → Except Error Coupling
  | .GND => .error .noGroundCoupling
  | k => .ok k

variable (u : Model) (d : Device)

def call (c : Call) : Act Unit := do
  let s ← get
  modify fun s => { s with watch := { s.watch with calls := s.watch.calls + 1 } }
  when (d.accepts s.watch.calls = false) (throw (.refused c))
  modify fun s => { s with hardware := s.hardware.take c }

def setChannel (c : ChannelSettings) : Act Unit := do
  let index := hardwareIndex c.channelId
  when (index < u.analogChannels) do
    let coupling ← (tryCoupling c.coupling : Except Error Coupling)
    call d (.setChannel index c.enabled coupling (rangeFor u c) (c.voltsOffset / max c.attenuation MIN_POSITIVE))

def selectTimebase : Act Unit := do
  let s ← get
  modify fun s => { s with watch := { s.watch with searches := s.watch.searches + 1 } }
  match Pico.selectTimebase (d.getTimebase s.watch.searches) s.settings.timePerDiv s.settings.trigger.triggerPosition
      s.samplesPerCapture with
  | some found => modify fun s => { s with
      samplesPerCapture := found.samplesPerCapture
      timebase := found.timebase
      intervalSeconds := found.intervalSeconds
      preTriggerSamples := found.preTriggerSamples
      settings := { s.settings with sampleRate := some found.sampleRate } }
  | none => throw .noTimebase

def applyTrigger : Act Unit := do
  let s ← get
  let trigger := s.settings.trigger
  let source ← (channelIndex u trigger.triggerSource : Except Error Nat)
  let channel ← (settingsFor s.settings trigger.triggerSource : Except Error ChannelSettings)
  -- the offset is added before the comparator sees the signal
  let threshold := voltsToCounts u (trigger.triggerLevel + channel.voltsOffset) channel
  let autoTriggerMs :=
    match trigger.captureMode with
    | .auto => autoTriggerTimeoutMs (s.intervalSeconds * s.samplesPerCapture)
    | .normal | .single => 0
  call d (.setSimpleTrigger (trigger.triggerSlope ≠ .neither) source threshold trigger.triggerSlope autoTriggerMs)

/-- `vec![vec![0i16; samples]; count]`: buffers that are nowhere else. -/
def PicoScopeModern.allocateBuffers (s : PicoScopeModern) : PicoScopeModern :=
  let count := s.settings.enabled.length
  { s with
    buffers := (List.range count).map fun slot => ⟨s.nextBuffer + slot, s.samplesPerCapture⟩
    nextBuffer := s.nextBuffer + count }

/-- Push channel and trigger settings to the device, and pick a timebase. -/
def applyConfiguration : Act Unit := do
  modify fun s => { s with dirty := true, buffersRegistered := false, reconfigured := true }
  let s ← get
  s.settings.channels.forM (setChannel u d)
  modify fun s => { s with samplesPerCapture := DEFAULT_CAPTURE_SAMPLES }
  selectTimebase d
  applyTrigger u d
  modify fun s => { s.allocateBuffers with dirty := false }

def ensureApplied : Act Unit := do
  let s ← get
  when s.dirty (applyConfiguration u d)

/-- Stop the unit, abandoning any block in flight. -/
def halt : Act Unit := do
  modify fun s => { s with isCapturing := false, blockPending := false }
  call d .stop

/-- What a frame of one channel says, at the present settings. -/
def describeChannel (c : ChannelSettings) : ChannelFrame where
  channel := c.channelId
  rangeCode := (rangeFor u c).code
  coupling := c.coupling
  scaleVPerCount := (rangeFor u c).fullScaleVolts * max c.attenuation MIN_POSITIVE / u.maxAdcCount
  offsetV := -c.voltsOffset

def PicoScopeModern.describe (s : PicoScopeModern) : Description where
  channels := s.settings.enabled.map (describeChannel u)
  sampleIntervalNs := s.intervalSeconds * 1000000000

/-- Hand the device the buffer of each enabled channel; there are as many. -/
def registerBuffers : Act Unit := do
  let s ← get
  (s.settings.enabled.zip s.buffers).forM fun (c, buffer) => call d (.setDataBuffer (hardwareIndex c.channelId) buffer)
  modify fun s => { s with buffersRegistered := true }

/-- Arm one block capture. -/
def arm : Act Unit := do
  let s ← get
  when s.blockPending (halt d)
  ensureApplied u d
  registerBuffers d
  let s ← get
  call d (.runBlock s.preTriggerSamples (s.samplesPerCapture - s.preTriggerSamples) s.timebase)
  modify fun s => { s with
    isCapturing := true
    blockPending := true
    reconfigured := false
    hardware := { s.hardware with armed := some (s.describe u) } }

/-! ### Changing a setting -/

inductive Reprogram where
  | everything
  | trigger
  deriving DecidableEq

def applyChange (reprogram : Reprogram) (change : OscilloscopeSettings → Except Error OscilloscopeSettings) :
    Act Unit := do
  let s ← get
  let settings ← (change s.settings : Except Error OscilloscopeSettings)
  modify fun s => { s with settings }
  match reprogram with
  | .everything => applyConfiguration u d
  | .trigger => applyTrigger u d

/-- The previous settings go back on the device, or there is a warning. -/
def putBack (previous : OscilloscopeSettings) : Act Unit := do
  modify fun s => { s with settings := previous }
  let restored ← attempt (applyConfiguration u d)
  modify fun s => { s with watch := { s.watch with warned := !restored.isOk } }

/-- Change the settings and the hardware with them, all or nothing. -/
def changeSettings (reprogram : Reprogram) (change : OscilloscopeSettings → Except Error OscilloscopeSettings) :
    Act Unit := do
  let previous ← get
  when previous.isCapturing (halt d)
  match ← attempt (applyChange u d reprogram change) with
  | .ok () => when previous.isCapturing (arm u d)
  | .error e =>
    putBack u d previous.settings
    let rearmed ← attempt (when previous.isCapturing (arm u d))
    modify fun s => { s with watch := { s.watch with warned := s.watch.warned || !rearmed.isOk } }
    throw e

def changeChannel (id : ChannelId) (change : ChannelSettings → ChannelSettings) : Act Unit :=
  changeSettings u d .everything fun settings => channelSettingsMut settings id change

def changeTrigger (change : TriggerSettings → TriggerSettings) : Act Unit :=
  changeSettings u d .trigger fun settings => .ok { settings with trigger := change settings.trigger }

def enableDisableChannel (channel : ChannelId) (enabled : Bool) : Act Unit := do
  let _ ← (channelIndex u channel : Except Error Nat)
  changeChannel u d channel fun c => { c with enabled }

def positive (value : ℚ) : Act Unit := when (value ≤ 0) (throw (.notPositive value))

def setVoltsPerDiv (channel : ChannelId) (voltsPerDiv : ℚ) : Act Unit := do
  positive voltsPerDiv
  changeChannel u d channel fun c => { c with voltsPerDiv }

def setAttenuation (channel : ChannelId) (attenuation : ℚ) : Act Unit := do
  positive attenuation
  changeChannel u d channel fun c => { c with attenuation }

def setCoupling (channel : ChannelId) (coupling : Coupling) : Act Unit := do
  let _ ← (tryCoupling coupling : Except Error Coupling)
  changeChannel u d channel fun c => { c with coupling }

def setTimePerDiv (timePerDiv : ℚ) : Act Unit := do
  positive timePerDiv
  changeSettings u d .everything fun settings => .ok { settings with timePerDiv }

def setTriggerSource (source : ChannelId) : Act Unit := do
  let _ ← (channelIndex u source : Except Error Nat)
  changeTrigger u d fun t => { t with triggerSource := source }

/-- The setters, as the trait has them. -/
def set : Setter → Act Unit
  | .enableChannel c => enableDisableChannel u d c true
  | .disableChannel c => enableDisableChannel u d c false
  | .voltsPerDiv c v => setVoltsPerDiv u d c v
  | .voltsOffset c v => changeChannel u d c fun c => { c with voltsOffset := v }
  | .coupling c k => setCoupling u d c k
  | .attenuation c a => setAttenuation u d c a
  | .timePerDiv t => setTimePerDiv u d t
  | .timeOffset t => modify fun s => { s with settings := { s.settings with timeOffset := t } }
  | .triggerLevel l => changeTrigger u d fun t => { t with triggerLevel := l }
  | .triggerSource c => setTriggerSource u d c
  | .triggerSlope k => changeTrigger u d fun t => { t with triggerSlope := k }
  | .captureMode m => changeTrigger u d fun t => { t with captureMode := m }

/-! ### Capturing -/

def startTriggeredCapture (percent : ℚ) : Act Unit := do
  modify fun s =>
    let triggerPosition := max 0 (min percent 100)
    { s with
      settings := { s.settings with trigger := { s.settings.trigger with triggerPosition } }
      preTriggerSamples := Pico.preTriggerSamples s.samplesPerCapture triggerPosition }
  arm u d

def rearm : Act Unit := do
  let s ← get
  startTriggeredCapture u d s.settings.trigger.triggerPosition

def armInAuto : Act Unit := do
  applyTrigger u d
  arm u d

/-- Re-arm in auto mode, which captures whether or not the condition is met. -/
def forceTrigger : Act Unit := do
  let s ← get
  when s.blockPending (halt d)
  modify fun s => { s with settings := { s.settings with trigger := { s.settings.trigger with captureMode := .auto } } }
  let result ← attempt (armInAuto u d)
  modify fun t => { t with
    settings := { t.settings with trigger := { t.settings.trigger with captureMode := s.settings.trigger.captureMode } }
    dirty := true }
  match result with
  | .ok () => pure ()
  | .error e => throw e

/-- A frame, with its samples as the parts of buffers that they are copied from. -/
structure Frame where
  description : Description
  preTriggerSamples : Nat
  postTriggerSamples : Nat
  samplesPerChannel : Nat
  overflowMask : Nat
  samples : List (Buffer × Nat)

/-- The enabled channels, where there is a block to read at the present settings. -/
def readable (s : PicoScopeModern) : Except Error (List ChannelSettings) :=
  if s.settings.enabled = [] then .error .noChannelEnabled
  else if s.buffersRegistered then .ok s.settings.enabled
  else .error .settingsChanged

def getTriggeredData : Act Frame := do
  let s ← get
  let enabled ← (readable s : Except Error (List ChannelSettings))
  call d (.getValues s.samplesPerCapture)
  modify fun s => { s with blockPending := false }
  -- the device's count over the request, and no more than a buffer holds
  let held := ((s.buffers.map (·.len)).min?).getD 0
  let returned := min (min d.samples s.samplesPerCapture) held
  let pre := min s.preTriggerSamples returned
  return {
    description := s.describe u
    preTriggerSamples := pre
    postTriggerSamples := returned - pre
    samplesPerChannel := returned
    overflowMask := (enabled.zipIdx.map fun (c, slot) => if d.overflowed (hardwareIndex c.channelId) then 2 ^ slot else 0).sum
    samples := (s.buffers.take enabled.length).map fun buffer => (buffer, returned) }

/-! ### Runs -/

inductive Op where
  | set (setter : Setter)
  | startTriggeredCapture (percent : ℚ)
  | stopTriggeredCapture
  | rearm
  | forceTrigger
  | getTriggeredData

def Op.act : Op → Act (Option Frame)
  | .set setter => do
    Modern.set u d setter
    return none
  | .startTriggeredCapture percent => do
    Modern.startTriggeredCapture u d percent
    return none
  | .stopTriggeredCapture => do
    halt d
    return none
  | .rearm => do
    Modern.rearm u d
    return none
  | .forceTrigger => do
    Modern.forceTrigger u d
    return none
  | .getTriggeredData => do
    let frame ← Modern.getTriggeredData u d
    return some frame

/-- An operation, and how the device meets it. -/
structure Event where
  op : Op
  device : Device

def PicoScopeModern.unwatched (s : PicoScopeModern) : PicoScopeModern := { s with watch := .start }

/-- What the operation answers, and the driver after it. -/
def outcome (s : PicoScopeModern) (e : Event) : Except Error (Option Frame) × PicoScopeModern :=
  exec (e.op.act u e.device) s.unwatched

def step (s : PicoScopeModern) (e : Event) : Option PicoScopeModern := some (outcome u s e).2

/-- A channel as it starts: only the first is on. -/
def initialChannel (i : Nat) : ChannelSettings where
  channelId := .alphabetic (Char.ofNat (65 + i))
  voltsPerDiv := 1
  voltsOffset := 0
  coupling := .DC
  attenuation := 1
  enabled := i = 0

def initialSettings : OscilloscopeSettings where
  channels := (List.range u.analogChannels).map initialChannel
  timePerDiv := 1 / 1000
  timeOffset := 0
  sampleRate := none
  memoryDepth := some DEFAULT_CAPTURE_SAMPLES
  trigger :=
    { triggerLevel := 0
      triggerSource := .alphabetic 'A'
      triggerSlope := .rising
      captureMode := .auto
      delay := 0
      triggerPosition := 50 }

/-- The driver of a unit that is open, before its configuration is applied. -/
def adopted : PicoScopeModern where
  settings := initialSettings u
  buffers := []
  buffersRegistered := false
  blockPending := false
  timebase := 0
  intervalSeconds := 0
  samplesPerCapture := DEFAULT_CAPTURE_SAMPLES
  preTriggerSamples := DEFAULT_CAPTURE_SAMPLES / 2
  isCapturing := false
  dirty := true
  nextBuffer := 0
  hardware := ⟨fun _ => false, fun _ => none, none⟩
  reconfigured := true
  watch := .start

/-- `adopt`: the unit can be used once its configuration has been applied. -/
def Adopts (s : PicoScopeModern) : Prop := exec (applyConfiguration u d) (adopted u) = (.ok (), s)

end Lager.Pico.Modern
