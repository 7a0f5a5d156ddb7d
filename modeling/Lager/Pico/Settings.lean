import Lager.Scope.Driver
import Mathlib.Data.Rat.Floor

/-!
# What both PicoScope drivers hold

The settings of `oscilloscope/mod.rs`, the setters of the trait, and the arithmetic that `pico/ps2000.rs` and
`pico/modern_scope.rs` have in common. Voltages and times are exact rationals.
-/

namespace Lager.Pico

open Lager.Scope (ChannelId Coupling TriggerSlope CaptureMode)

structure ChannelSettings where
  channelId : ChannelId
  voltsPerDiv : ℚ
  voltsOffset : ℚ
  coupling : Coupling
  attenuation : ℚ
  enabled : Bool
  deriving DecidableEq

structure TriggerSettings where
  triggerLevel : ℚ
  triggerSource : ChannelId
  triggerSlope : TriggerSlope
  captureMode : CaptureMode
  delay : ℚ
  triggerPosition : ℚ
  deriving DecidableEq

structure OscilloscopeSettings where
  channels : List ChannelSettings
  timePerDiv : ℚ
  timeOffset : ℚ
  sampleRate : Option ℚ
  memoryDepth : Option Nat
  trigger : TriggerSettings
  deriving DecidableEq

/-- The setters of the trait, with their argument. -/
inductive Setter where
  | enableChannel (c : ChannelId)
  | disableChannel (c : ChannelId)
  | voltsPerDiv (c : ChannelId) (v : ℚ)
  | voltsOffset (c : ChannelId) (v : ℚ)
  | coupling (c : ChannelId) (k : Coupling)
  | attenuation (c : ChannelId) (a : ℚ)
  | timePerDiv (t : ℚ)
  | timeOffset (t : ℚ)
  | triggerLevel (l : ℚ)
  | triggerSource (c : ChannelId)
  | triggerSlope (s : TriggerSlope)
  | captureMode (m : CaptureMode)
  deriving DecidableEq

/-- The errors of the drivers; `refused` is a call that the device has not accepted. -/
inductive PicoError (κ : Type) where
  | notOnThisScope (channel : ChannelId)
  | channelNotFound
  | invalidChannel (channel : ChannelId)
  | noTriggerSource (channel : ChannelId)
  | voltageOutOfRange (voltage range : ℚ)
  | beyondRange (level : ℚ) (source : ChannelId) (reach voltsPerDiv : ℚ)
  | notPositive (value : ℚ)
  | noAnalogOffset (offset : ℚ)
  | noGroundCoupling
  | noTimebase
  | noChannelEnabled
  | settingsChanged
  | rollNotSupported
  | refused (call : κ)
  deriving DecidableEq

/-- The calls and the searches for a timebase that an operation has made so far, and whether it has warned that the
settings could not be put back. -/
structure Watch where
  calls : Nat
  searches : Nat
  warned : Bool
  deriving DecidableEq

def Watch.start : Watch := ⟨0, 0, false⟩

/-! ### Channels -/

/-- `channels.iter().find(|c| c.channel_id == id)`. -/
def OscilloscopeSettings.find (settings : OscilloscopeSettings) (id : ChannelId) : Option ChannelSettings :=
  settings.channels.find? fun c => c.channelId = id

/-- `channels.iter().filter(|c| c.enabled)`. -/
def OscilloscopeSettings.enabled (settings : OscilloscopeSettings) : List ChannelSettings :=
  settings.channels.filter (·.enabled)

def changeFirst (id : ChannelId) (change : ChannelSettings → ChannelSettings) :
    List ChannelSettings → List ChannelSettings
  | [] => []
  | c :: rest => if c.channelId = id then change c :: rest else c :: changeFirst id change rest

/-- `channel_settings_mut(settings, id)?`, and an assignment to a field of what it gives. -/
def channelSettingsMut {κ : Type} (settings : OscilloscopeSettings) (id : ChannelId)
    (change : ChannelSettings → ChannelSettings) : Except (PicoError κ) OscilloscopeSettings :=
  if (settings.find id).isSome then .ok { settings with channels := changeFirst id change settings.channels }
  else .error (.notOnThisScope id)

theorem find_changeFirst {change : ChannelSettings → ChannelSettings} (hid : ∀ c, (change c).channelId = c.channelId)
    (id other : ChannelId) (l : List ChannelSettings) :
    (changeFirst id change l).find? (fun c => c.channelId = other) =
      if other = id then (l.find? fun c => c.channelId = other).map change
      else l.find? fun c => c.channelId = other := by
  induction l with
  | nil => simp [changeFirst]
  | cons c rest ih =>
    unfold changeFirst
    by_cases hc : c.channelId = id
    · rw [if_pos hc, List.find?_cons, List.find?_cons, hid c]
      by_cases hother : other = id
      · simp [hother, hc]
      · simp [hother, hc, Ne.symm hother]
    · rw [if_neg hc, List.find?_cons, List.find?_cons, ih]
      by_cases hother : c.channelId = other
      · subst hother
        simp [hc]
      · simp [hother]

theorem channelSettingsMut_eq_ok {κ : Type} {settings settings' : OscilloscopeSettings} {id : ChannelId}
    {change : ChannelSettings → ChannelSettings} :
    (channelSettingsMut settings id change : Except (PicoError κ) _) = .ok settings' ↔
      (settings.find id).isSome ∧ settings' = { settings with channels := changeFirst id change settings.channels } := by
  unfold channelSettingsMut
  by_cases h : (settings.find id).isSome
  · rw [if_pos h]
    exact ⟨fun heq => ⟨h, (Except.ok.inj heq).symm⟩, fun heq => congrArg Except.ok heq.2.symm⟩
  · rw [if_neg h]
    exact ⟨nofun, fun heq => absurd heq.1 h⟩

theorem changeFirst_ids {change : ChannelSettings → ChannelSettings} (hid : ∀ c, (change c).channelId = c.channelId)
    (id : ChannelId) (l : List ChannelSettings) :
    (changeFirst id change l).map (·.channelId) = l.map (·.channelId) := by
  induction l with
  | nil => rfl
  | cons c rest ih =>
    unfold changeFirst
    by_cases hc : c.channelId = id
    · rw [if_pos hc, List.map_cons, List.map_cons, hid c]
    · rw [if_neg hc, List.map_cons, List.map_cons, ih]

/-! ### Arithmetic -/

/-- `x as i16`: towards zero, and no further than the type goes. -/
def asI16 (x : ℚ) : ℤ := max (-32768) (min 32767 (if 0 ≤ x then ⌊x⌋ else ⌈x⌉))

/-- `f64::round`. -/
def roundAway (x : ℚ) : ℤ := if 0 ≤ x then ⌊x + 1 / 2⌋ else ⌈x - 1 / 2⌉

def autoTriggerTimeoutMs (blockSeconds : ℚ) : Nat :=
  let blockMs := max (blockSeconds * 1000) 0
  max 40 (min 500 ⌈2 * blockMs + 20⌉.toNat)

end Lager.Pico
