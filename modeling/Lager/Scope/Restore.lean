import Lager.Scope.Config
import Mathlib.Logic.Function.Basic

/-!
# A unit that went and came back

`restore` of `daemon/src/scope_thread.rs` sends a reopened unit the settings of the last published state. On some
units a setter changes more than its own reading: the probe ratio rescales the volts per division, and a level has to
stay on the screen (`Setting.apply`). Whatever such a setter changes is sent after it, so on a unit that accepts every
setting (`Obedient`) all that is sent is what the unit then reports (`restored_entry`, `restored_unit`). The settings
of the loop itself are accepted because they were accepted before (`Config.Sound`).
-/

namespace Lager.Scope

open Lager.Py (Json)

variable {σ : Type}

/-! ### Units that do as they are told -/

/-- What a driver reports of the settings that a client can set on it. -/
structure Readings where
  isChannelEnabled : ChannelId → Result Bool
  getVoltsPerDiv : ChannelId → Result Float
  getVoltsOffset : ChannelId → Result Float
  getCoupling : ChannelId → Result Coupling
  getAttenuation : ChannelId → Result Float
  getTimePerDiv : Result Float
  getTimeOffset : Result Float
  getTriggerLevel : Result Float
  getTriggerSource : Result ChannelId
  getTriggerSlope : Result TriggerSlope
  getCaptureMode : Result CaptureMode

def Getters.readings (g : Getters) : Readings :=
  ⟨g.isChannelEnabled, g.getVoltsPerDiv, g.getVoltsOffset, g.getCoupling, g.getAttenuation, g.getTimePerDiv,
    g.getTimeOffset, g.getTriggerLevel, g.getTriggerSource, g.getTriggerSlope, g.getCaptureMode⟩

/-- What a unit reports after a setter of something else has changed it. -/
structure Disturbed where
  voltsPerDiv : Result Float
  voltsOffset : Result Float
  timeOffset : Result Float
  triggerLevel : Result Float

/-- The getter of the setting reports it. A probe ratio or a range changes what is measured in volts of the channel,
and the trigger level, which the trigger's source changes too; a time/div moves the time offset. -/
def Setting.apply (side : Disturbed) (g : Readings) : Setting → Readings
  | .enableChannel c => { g with isChannelEnabled := Function.update g.isChannelEnabled c (.ok true) }
  | .disableChannel c => { g with isChannelEnabled := Function.update g.isChannelEnabled c (.ok false) }
  | .voltsPerDiv c v =>
    { g with getVoltsPerDiv := Function.update g.getVoltsPerDiv c (.ok v)
             getVoltsOffset := Function.update g.getVoltsOffset c side.voltsOffset
             getTriggerLevel := side.triggerLevel }
  | .voltsOffset c v =>
    { g with getVoltsOffset := Function.update g.getVoltsOffset c (.ok v), getTriggerLevel := side.triggerLevel }
  | .coupling c k => { g with getCoupling := Function.update g.getCoupling c (.ok k) }
  | .attenuation c a =>
    { g with getAttenuation := Function.update g.getAttenuation c (.ok a)
             getVoltsPerDiv := Function.update g.getVoltsPerDiv c side.voltsPerDiv
             getVoltsOffset := Function.update g.getVoltsOffset c side.voltsOffset
             getTriggerLevel := side.triggerLevel }
  | .timePerDiv t => { g with getTimePerDiv := .ok t, getTimeOffset := side.timeOffset }
  | .timeOffset t => { g with getTimeOffset := .ok t }
  | .triggerLevel l => { g with getTriggerLevel := .ok l }
  | .triggerSource c => { g with getTriggerSource := .ok c, getTriggerLevel := side.triggerLevel }
  | .triggerSlope s => { g with getTriggerSlope := .ok s }
  | .captureMode mode => { g with getCaptureMode := .ok mode }

/-- The settings, one after the other, can take a unit from the first readings to the second. -/
def Leaves : List Setting → Readings → Readings → Prop
  | [], g, g' => g' = g
  | x :: xs, g, g' => ∃ side, Leaves xs (x.apply side g) g'

/-- The driver accepts every setting, and each setter changes only what it may. -/
structure Obedient (d : Driver σ) : Prop where
  accepts : ∀ x s, (d.set x s).1 = .ok ()
  reports : ∀ x s, ∃ side, (d.getters (d.set x s).2).readings = x.apply side (d.getters s).readings
  acquisition : ∀ mode count s, (∀ e, (d.setAcquisition mode count s).1 ≠ some (.error e)) ∧
    (d.getters (d.setAcquisition mode count s).2).readings = (d.getters s).readings
  holdoff : ∀ seconds s, (∀ e, (d.setHoldoff seconds s).1 ≠ some (.error e)) ∧
    (d.getters (d.setHoldoff seconds s).2).readings = (d.getters s).readings

/-! ### The settings that are sent -/

/-- Switching a channel on or off. -/
def switch (e : ChannelState) : Setting :=
  if e.enabled then .enableChannel e.channel else .disableChannel e.channel

def channelSettings (e : ChannelState) : List Setting :=
  [Setting.attenuation e.channel e.attenuation, .coupling e.channel e.coupling, switch e,
    .voltsPerDiv e.channel e.voltsPerDiv] ++
    if e.voltsOffset != 0 then [Setting.voltsOffset e.channel e.voltsOffset] else []

/-- The settings among the requests. -/
def restoreSettings (s : ScopeState) : List Setting :=
  s.channels.flatMap channelSettings ++ (if s.timePerDiv > 0 then [Setting.timePerDiv s.timePerDiv] else []) ++
    (if s.timeOffset != 0 then [Setting.timeOffset s.timeOffset] else []) ++
    [Setting.triggerSource s.trigger.source, .triggerSlope s.trigger.slope, .triggerLevel s.trigger.level,
      .captureMode s.trigger.mode]

theorem restoreRequests_eq (s : ScopeState) :
    restoreRequests s = (restoreSettings s).map .set ++
      [ScopeRequest.setHoldoff s.holdoffS, .setAcquisition s.acquisition (some s.averageCount), .setRoll s.roll,
        .setDisplay s.display] := by
  have hchannel (e : ChannelState) : (channelSettings e).map ScopeRequest.set =
      [ScopeRequest.set (.attenuation e.channel e.attenuation), .set (.coupling e.channel e.coupling),
        .set (if e.enabled then .enableChannel e.channel else .disableChannel e.channel),
        .set (.voltsPerDiv e.channel e.voltsPerDiv)] ++
        if e.voltsOffset != 0 then [ScopeRequest.set (.voltsOffset e.channel e.voltsOffset)] else [] := by
    unfold channelSettings
    split <;> rfl
  simp only [restoreRequests, restoreSettings, List.map_append, List.map_flatMap, hchannel, apply_ite (List.map _),
    List.map_cons, List.map_nil, List.append_assoc, List.cons_append, List.nil_append]

/-! ### What they leave -/

theorem leaves_append {xs ys : List Setting} {g g' : Readings} :
    Leaves (xs ++ ys) g g' ↔ ∃ g₁, Leaves xs g g₁ ∧ Leaves ys g₁ g' := by
  induction xs generalizing g with
  | nil => simp [Leaves]
  | cons x xs ih =>
    simp only [List.cons_append, Leaves, ih]
    constructor
    · rintro ⟨side, g₁, hxs, hys⟩
      exact ⟨g₁, ⟨side, hxs⟩, hys⟩
    · rintro ⟨g₁, ⟨side, hxs⟩, hys⟩
      exact ⟨side, g₁, hxs, hys⟩

/-- What every one of the settings keeps. -/
theorem Leaves.kept {P : Readings → Prop} {xs : List Setting}
    (hkeeps : ∀ x ∈ xs, ∀ side g, P g → P (x.apply side g)) {g g' : Readings} (h : Leaves xs g g') (hg : P g) : P g' := by
  induction xs generalizing g with
  | nil =>
    rw [show g' = g from h]
    exact hg
  | cons x xs ih =>
    obtain ⟨side, hrest⟩ := h
    exact ih (fun y hy => hkeeps y (List.mem_cons_of_mem x hy)) hrest (hkeeps x List.mem_cons_self side g hg)

/-- The unit reports the settings of the channel, but for an offset that is not sent. -/
structure Entry (e : ChannelState) (g : Readings) : Prop where
  enabled : g.isChannelEnabled e.channel = .ok e.enabled
  voltsPerDiv : g.getVoltsPerDiv e.channel = .ok e.voltsPerDiv
  coupling : g.getCoupling e.channel = .ok e.coupling
  attenuation : g.getAttenuation e.channel = .ok e.attenuation
  voltsOffset : (e.voltsOffset != 0) = true → g.getVoltsOffset e.channel = .ok e.voltsOffset

/-- The channel that is set. -/
def Setting.channel? : Setting → Option ChannelId
  | .enableChannel c | .disableChannel c | .voltsPerDiv c _ | .voltsOffset c _ | .coupling c _ | .attenuation c _ =>
    some c
  | _ => none

theorem channel_of_mem {e : ChannelState} {x : Setting} (hx : x ∈ channelSettings e) : x.channel? = some e.channel := by
  unfold channelSettings switch at hx
  split_ifs at hx <;> simp at hx <;> rcases hx with rfl | rfl | rfl | rfl | rfl <;> rfl

theorem Entry.kept {e : ChannelState} {x : Setting} (hx : x.channel? ≠ some e.channel) {side : Disturbed}
    {g : Readings} (h : Entry e g) : Entry e (x.apply side g) := by
  have hne {c : ChannelId} (hc : x.channel? = some c) : e.channel ≠ c := by
    rintro rfl
    exact hx hc
  cases x with
  | enableChannel c | disableChannel c =>
    exact { h with enabled := (Function.update_of_ne (hne rfl) _ _).trans h.enabled }
  | voltsPerDiv c v =>
    exact { h with
      voltsPerDiv := (Function.update_of_ne (hne rfl) _ _).trans h.voltsPerDiv
      voltsOffset := fun hsent => (Function.update_of_ne (hne rfl) _ _).trans (h.voltsOffset hsent) }
  | voltsOffset c v =>
    exact { h with voltsOffset := fun hsent => (Function.update_of_ne (hne rfl) _ _).trans (h.voltsOffset hsent) }
  | coupling c k => exact { h with coupling := (Function.update_of_ne (hne rfl) _ _).trans h.coupling }
  | attenuation c a =>
    exact { h with
      attenuation := (Function.update_of_ne (hne rfl) _ _).trans h.attenuation
      voltsPerDiv := (Function.update_of_ne (hne rfl) _ _).trans h.voltsPerDiv
      voltsOffset := fun hsent => (Function.update_of_ne (hne rfl) _ _).trans (h.voltsOffset hsent) }
  | timePerDiv t | timeOffset t | triggerLevel l | triggerSource c | triggerSlope s | captureMode mode =>
    exact ⟨h.enabled, h.voltsPerDiv, h.coupling, h.attenuation, h.voltsOffset⟩

/-- The probe ratio goes before the volts, and they before the offset. -/
theorem entry_of_leaves {e : ChannelState} {g g' : Readings} (h : Leaves (channelSettings e) g g') : Entry e g' := by
  obtain ⟨g₁, hfour, hoffset⟩ := leaves_append.mp h
  obtain ⟨s₁, s₂, s₃, s₄, rfl⟩ := hfour
  have henabled {g : Readings} {side : Disturbed} :
      ((switch e).apply side g).isChannelEnabled e.channel = .ok e.enabled := by
    unfold switch
    split_ifs with hswitch
    · rw [hswitch]
      exact Function.update_self _ _ _
    · rw [Bool.not_eq_true] at hswitch
      rw [hswitch]
      exact Function.update_self _ _ _
  have hcoupling {g : Readings} {side : Disturbed} : ((switch e).apply side g).getCoupling = g.getCoupling := by
    unfold switch
    split_ifs <;> rfl
  have hattenuation {g : Readings} {side : Disturbed} :
      ((switch e).apply side g).getAttenuation = g.getAttenuation := by
    unfold switch
    split_ifs <;> rfl
  split_ifs at hoffset with hsent
  · obtain ⟨s₅, rfl⟩ := hoffset
    exact {
      enabled := henabled
      voltsPerDiv := Function.update_self _ _ _
      coupling := (congrFun hcoupling _).trans (Function.update_self _ _ _)
      attenuation := (congrFun hattenuation _).trans (Function.update_self _ _ _)
      voltsOffset := fun _ => Function.update_self _ _ _ }
  · rw [show g' = _ from hoffset]
    exact {
      enabled := henabled
      voltsPerDiv := Function.update_self _ _ _
      coupling := (congrFun hcoupling _).trans (Function.update_self _ _ _)
      attenuation := (congrFun hattenuation _).trans (Function.update_self _ _ _)
      voltsOffset := fun hne => absurd hne hsent }

theorem restored_entry {s : ScopeState} (hdistinct : (s.channels.map (·.channel)).Nodup) {g g' : Readings}
    (h : Leaves (restoreSettings s) g g') {e : ChannelState} (he : e ∈ s.channels) : Entry e g' := by
  obtain ⟨before, after, hchannels⟩ := List.append_of_mem he
  rw [hchannels, List.map_append, List.map_cons, List.nodup_append] at hdistinct
  have hafter : ∀ e' ∈ after, e'.channel ≠ e.channel := by
    intro e' he' heq
    exact (List.nodup_cons.mp hdistinct.2.1).1 (heq ▸ List.mem_map_of_mem he')
  unfold restoreSettings at h
  rw [hchannels, List.flatMap_append, List.flatMap_cons, List.append_assoc, List.append_assoc, List.append_assoc,
    List.append_assoc] at h
  obtain ⟨g₁, -, h⟩ := leaves_append.mp h
  obtain ⟨g₂, hown, hrest⟩ := leaves_append.mp h
  refine Leaves.kept (fun x hx side g => Entry.kept ?_) hrest (entry_of_leaves hown)
  rcases List.mem_append.mp hx with hx | hx
  · obtain ⟨e', he', hx⟩ := List.mem_flatMap.mp hx
    rw [channel_of_mem hx]
    exact fun heq => hafter e' he' (Option.some.inj heq)
  · have hnone : x.channel? = none := by
      split_ifs at hx <;> simp at hx
      all_goals rcases hx with rfl | rfl | rfl | rfl | rfl | rfl <;> rfl
    rw [hnone]
    exact fun heq => by cases heq

/-- The unit reports the settings of the whole unit, but for those that are not sent. -/
structure Sent (s : ScopeState) (g : Readings) : Prop where
  source : g.getTriggerSource = .ok s.trigger.source
  slope : g.getTriggerSlope = .ok s.trigger.slope
  level : g.getTriggerLevel = .ok s.trigger.level
  mode : g.getCaptureMode = .ok s.trigger.mode
  timePerDiv : s.timePerDiv > 0 → g.getTimePerDiv = .ok s.timePerDiv
  timeOffset : (s.timeOffset != 0) = true → g.getTimeOffset = .ok s.timeOffset

theorem restored_unit {s : ScopeState} {g g' : Readings} (h : Leaves (restoreSettings s) g g') : Sent s g' := by
  obtain ⟨g₃, h, htrigger⟩ := leaves_append.mp h
  obtain ⟨g₂, h, hoffset⟩ := leaves_append.mp h
  obtain ⟨g₁, -, htime⟩ := leaves_append.mp h
  obtain ⟨s₁, s₂, s₃, s₄, rfl⟩ := htrigger
  refine ⟨rfl, rfl, rfl, rfl, fun hpos => ?_, fun hne => ?_⟩
  · rw [if_pos hpos] at htime
    obtain ⟨side, rfl⟩ := htime
    split_ifs at hoffset
    · obtain ⟨side', rfl⟩ := hoffset
      rfl
    · rw [show g₃ = _ from hoffset]
      rfl
  · rw [if_pos hne] at hoffset
    obtain ⟨side, rfl⟩ := hoffset
    rfl

/-! ### A loop that does nothing else -/

/-- There is no acquisition and no streaming, and the unit is there. -/
structure Loop.Idle (w : Loop σ) : Prop where
  acquiring : w.acquiring = false
  roller : w.roller = none
  unitGone : w.unitGone = none

/-- An idle loop with the settings, on a unit with the readings. -/
structure Loop.Holds (d : Driver σ) (r : Readings) (c : Config) (w : Loop σ) : Prop where
  idle : w.Idle
  readings : (d.getters w.scope).readings = r
  config : w.config = c

section

variable {d : Driver σ} {lib : Lib} {w w₁ : Loop σ} {r : Readings} {c : Config}

theorem stopRolling_idle (h : w.Idle) : stopRolling d w = w := by
  unfold stopRolling
  rw [h.roller]
  rfl

theorem pauseRoll_idle (h : w.Idle) (request : ScopeRequest) : pauseRoll d w request = w := by
  unfold pauseRoll
  rw [stopRolling_idle h]
  exact ite_self w

theorem reconcileRoll_idle (h : w.Idle) : reconcileRoll d w false = w := by
  have hnone : rollTimePerDiv d w = none := by
    unfold rollTimePerDiv
    rw [h.acquiring]
    rfl
  unfold reconcileRoll leaveRolling
  rw [hnone]
  dsimp only
  rw [stopRolling_idle h, h.acquiring]
  rfl

theorem backstop_idle (h : w.Idle) : backstop d w = w := by
  unfold backstop
  rw [h.acquiring, Bool.and_false]
  rfl

theorem resumeRoll_holds (h : w.Holds d r c) (request : ScopeRequest) : (resumeRoll d w request false).Holds d r c := by
  have hrefreshed : (w.refreshTrigger d).Holds d r c :=
    ⟨⟨h.idle.acquiring, h.idle.roller, h.idle.unitGone⟩, h.readings, h.config⟩
  unfold resumeRoll
  split
  · rw [reconcileRoll_idle hrefreshed.idle]
    exact hrefreshed
  · exact h

/-- On an idle loop `serve` is the request itself, if it leaves the loop idle. -/
theorem serve_holds {request : ScopeRequest} {answer : ScopeReply} (hw : w.Idle)
    (hhandle : handle d lib w request = (w₁, answer)) (h : w₁.Holds d r c) : (serve d lib w request).1.Holds d r c := by
  have hresumed := resumeRoll_holds h request
  unfold serve
  rw [pauseRoll_idle hw, hhandle, hw.roller]
  dsimp only [Option.isSome_none]
  split
  · rw [backstop_idle hresumed.idle]
    exact hresumed
  · exact hresumed

theorem invalidate_holds (h : w.Holds d r c) (request : ScopeRequest) : (invalidate w request).Holds d r c := by
  unfold invalidate
  split
  · exact ⟨⟨h.idle.acquiring, h.idle.roller, h.idle.unitGone⟩, h.readings, h.config⟩
  · exact h

variable (lib)

theorem set_holds (hob : Obedient d) (h : w.Holds d r c) (x : Setting) :
    ∃ side, (serve d lib w (.set x)).1.Holds d (x.apply side r) c := by
  have hw' := invalidate_holds h (.set x)
  let w' : Loop σ := invalidate w (.set x)
  have hhandle : handle d lib w (.set x) = ({ w' with scope := (d.set x w'.scope).2 }, .ok) := by
    show w'.reply (d.set x w'.scope) (fun _ w => (w, .ok)) = _
    unfold Loop.reply
    rw [hob.accepts]
  obtain ⟨side, hreports⟩ := hob.reports x w'.scope
  refine ⟨side, serve_holds h.idle hhandle
    ⟨⟨hw'.idle.acquiring, hw'.idle.roller, hw'.idle.unitGone⟩, ?_, hw'.config⟩⟩
  rw [hreports, hw'.readings]

theorem holdoff_holds (hob : Obedient d) (h : w.Holds d r c) {seconds : Float} (hfits : holdoffFits seconds = true) :
    (serve d lib w (.setHoldoff seconds)).1.Holds d r { c with holdoff := lib.fromSecsF64 seconds } := by
  have hw' := invalidate_holds h (.setHoldoff seconds)
  let w' : Loop σ := invalidate w (.setHoldoff seconds)
  have hrange : (!seconds.isFinite || !(decide (0 ≤ seconds) && decide (seconds ≤ MAX_HOLDOFF_S))) = false := by
    rw [← Bool.not_and, Bool.not_eq_false']
    exact hfits
  obtain ⟨haccepts, hreadings⟩ := hob.holdoff seconds w'.scope
  have hhandle : ∃ inHardware, handle d lib w (.setHoldoff seconds) =
      ({ w' with scope := (d.setHoldoff seconds w'.scope).2, holdoffInHardware := inHardware,
                 holdoff := lib.fromSecsF64 seconds }, .ok) := by
    show ∃ inHardware, setHoldoff d lib w' seconds = _
    unfold setHoldoff
    rw [hrange]
    dsimp only
    rw [if_neg Bool.false_ne_true]
    split
    · rename_i e he
      exact absurd he (haccepts e)
    · exact ⟨_, rfl⟩
  obtain ⟨inHardware, hhandle⟩ := hhandle
  refine serve_holds h.idle hhandle ⟨⟨hw'.idle.acquiring, hw'.idle.roller, hw'.idle.unitGone⟩, ?_, ?_⟩
  · rw [hreadings, hw'.readings]
  · rw [← hw'.config]
    rfl

theorem acquisition_holds {m : UnitModel} (hd : OfModel d m) (hob : Obedient d) (h : w.Holds d r c)
    {mode : AcquisitionMode} {count : Nat} (hpeak : mode = .peak → m.peakDetect = true)
    (hcount : 1 ≤ count ∧ count ≤ MAX_AVERAGE_COUNT) :
    (serve d lib w (.setAcquisition mode (some count))).1.Holds d r
      { c with acquisition := mode, averageCount := count } := by
  have hw' := invalidate_holds h (.setAcquisition mode (some count))
  let w' : Loop σ := invalidate w (.setAcquisition mode (some count))
  have hrange : ((some count).any fun n => !(decide (1 ≤ n) && decide (n ≤ MAX_AVERAGE_COUNT))) = false := by
    simp [hcount.1, hcount.2]
  have hdetects : ¬(mode = .peak ∧ !(Result.getD ((d.getters w'.scope).capabilities.map (·.peakDetect)) false)) := by
    rintro ⟨hmode, hnone⟩
    have hmodel := hd.peakDetect w'.scope
    rw [hpeak hmode] at hmodel
    rw [show Result.getD ((d.getters w'.scope).capabilities.map (·.peakDetect)) false = true from hmodel] at hnone
    cases hnone
  obtain ⟨haccepts, hreadings⟩ := hob.acquisition mode count w'.scope
  have hhandle : ∃ inHardware, handle d lib w (.setAcquisition mode (some count)) =
      ({ w' with scope := (d.setAcquisition mode count w'.scope).2, acquisitionInHardware := inHardware,
                 acquisition := mode, averageCount := count, averager := .empty }, .ok) := by
    show ∃ inHardware, setAcquisition d w' mode (some count) = _
    unfold setAcquisition
    rw [hrange, if_neg Bool.false_ne_true]
    dsimp only
    rw [if_neg hdetects]
    split
    · rename_i e he
      exact absurd he (haccepts e)
    · exact ⟨_, rfl⟩
  obtain ⟨inHardware, hhandle⟩ := hhandle
  refine serve_holds h.idle hhandle ⟨⟨hw'.idle.acquiring, hw'.idle.roller, hw'.idle.unitGone⟩, ?_, ?_⟩
  · rw [hreadings, hw'.readings]
  · rw [← hw'.config]
    rfl

theorem roll_holds {m : UnitModel} (hd : OfModel d m) (h : w.Holds d r c) {mode : RollMode}
    (hrolls : mode = .on → m.supportsRoll = true) :
    (serve d lib w (.setRoll mode)).1.Holds d r { c with roll := mode } := by
  have hw' := invalidate_holds h (.setRoll mode)
  let w' : Loop σ := invalidate w (.setRoll mode)
  have hsupported : ¬(mode = .on ∧ !(d.getters w'.scope).supportsRoll) := by
    rintro ⟨hmode, hnone⟩
    rw [hd.supportsRoll, hrolls hmode] at hnone
    cases hnone
  have hhandle : handle d lib w (.setRoll mode) = ({ w' with roll := mode }, .ok) := if_neg hsupported
  refine serve_holds h.idle hhandle ⟨⟨hw'.idle.acquiring, hw'.idle.roller, hw'.idle.unitGone⟩, hw'.readings, ?_⟩
  rw [← hw'.config]
  rfl

/-- The merged display settings, or those there were where the merged are too large. -/
def displayAfter (lib : Lib) (display patch : Json) : Json :=
  if lib.jsonLength (mergeDisplay display patch) > MAX_DISPLAY_BYTES then display else mergeDisplay display patch

theorem display_holds (h : w.Holds d r c) (patch : Json) :
    (serve d lib w (.setDisplay patch)).1.Holds d r { c with display := displayAfter lib c.display patch } := by
  have hw' := invalidate_holds h (.setDisplay patch)
  let w' : Loop σ := invalidate w (.setDisplay patch)
  have hdisplay : c.display = w'.display := congrArg Config.display hw'.config.symm
  rw [hdisplay]
  unfold displayAfter
  split_ifs with hlarge
  · have hhandle : handle d lib w (.setDisplay patch) =
        (w', .error (.displayTooLarge (lib.jsonLength (mergeDisplay w'.display patch)))) := if_pos hlarge
    refine serve_holds h.idle hhandle ⟨hw'.idle, hw'.readings, ?_⟩
    rw [← hdisplay]
    exact hw'.config
  · have hhandle : handle d lib w (.setDisplay patch) =
        ({ w' with display := mergeDisplay w'.display patch }, .ok) := if_neg hlarge
    refine serve_holds h.idle hhandle
      ⟨⟨hw'.idle.acquiring, hw'.idle.roller, hw'.idle.unitGone⟩, hw'.readings, ?_⟩
    rw [← hw'.config]
    rfl

theorem refreshTrigger_sent {s : ScopeState} (h : Sent s (d.getters w.scope).readings) :
    (w.refreshTrigger d).trigger = s.trigger := by
  unfold Loop.refreshTrigger
  dsimp only
  rw [show (d.getters w.scope).getCaptureMode = _ from h.mode,
    show (d.getters w.scope).getTriggerSource = _ from h.source,
    show (d.getters w.scope).getTriggerLevel = _ from h.level,
    show (d.getters w.scope).getTriggerSlope = _ from h.slope]
  rfl

/-- Setting the display is followed by a reading of the trigger. -/
theorem display_trigger (h : w.Holds d r c) {s : ScopeState} (hsent : Sent s r) (patch : Json) :
    (serve d lib w (.setDisplay patch)).1.trigger = s.trigger := by
  have hw' := invalidate_holds h (.setDisplay patch)
  have hset : ∃ display answer, handle d lib w (.setDisplay patch) =
      ({ invalidate w (.setDisplay patch) with display }, answer) := by
    show ∃ display answer, setDisplay lib (invalidate w (.setDisplay patch)) patch = _
    unfold setDisplay
    dsimp only
    split
    · exact ⟨(invalidate w (.setDisplay patch)).display, _, rfl⟩
    · exact ⟨_, _, rfl⟩
  obtain ⟨display, answer, hhandle⟩ := hset
  let w₁ : Loop σ := { invalidate w (.setDisplay patch) with display }
  have hw₁ : (w₁.refreshTrigger d).Idle := ⟨hw'.idle.acquiring, hw'.idle.roller, hw'.idle.unitGone⟩
  have hread : (d.getters w₁.scope).readings = r := hw'.readings
  have hrefreshed : (w₁.refreshTrigger d).trigger = s.trigger := by
    apply refreshTrigger_sent
    rw [hread]
    exact hsent
  have hresumed : resumeRoll d w₁ (.setDisplay patch) false = w₁.refreshTrigger d := reconcileRoll_idle hw₁
  unfold serve
  rw [pauseRoll_idle h.idle, hhandle, h.idle.roller]
  show (resumeRoll d w₁ (.setDisplay patch) false).trigger = s.trigger
  rw [hresumed]
  exact hrefreshed

end

/-! ### All the requests -/

section

variable {d : Driver σ} (lib : Lib) {m : UnitModel} {w : Loop σ} {r : Readings} {c : Config}

/-- What is left of the requests on an idle loop. -/
def serveAll (d : Driver σ) (lib : Lib) (w : Loop σ) (requests : List ScopeRequest) : Loop σ :=
  requests.foldl (fun w request => if w.unitGone.isSome then w else (serve d lib w request).1) w

theorem serveAll_cons (h : w.Idle) (request : ScopeRequest) (rest : List ScopeRequest) :
    serveAll d lib w (request :: rest) = serveAll d lib (serve d lib w request).1 rest := by
  unfold serveAll
  rw [List.foldl_cons, h.unitGone]
  rfl

theorem settings_hold (hob : Obedient d) (xs : List Setting) (h : w.Holds d r c) :
    ∃ r', Leaves xs r r' ∧ (serveAll d lib w (xs.map .set)).Holds d r' c := by
  induction xs generalizing w r with
  | nil => exact ⟨r, rfl, h⟩
  | cons x xs ih =>
    obtain ⟨side, hx⟩ := set_holds lib hob h x
    obtain ⟨r', hleaves, hxs⟩ := ih hx
    rw [List.map_cons, serveAll_cons lib h.idle]
    exact ⟨r', ⟨side, hleaves⟩, hxs⟩

/-- The settings of the loop after those of the state. -/
def configOf (lib : Lib) (display : Json) (s : ScopeState) : Config :=
  ⟨displayAfter lib display s.display, s.acquisition, s.averageCount, lib.fromSecsF64 s.holdoffS, s.roll⟩

/-- What the loop asks of the settings it has set. -/
structure Accepted (m : UnitModel) (s : ScopeState) : Prop where
  holdoff : holdoffFits s.holdoffS = true
  peak : s.acquisition = .peak → m.peakDetect = true
  count : 1 ≤ s.averageCount ∧ s.averageCount ≤ MAX_AVERAGE_COUNT
  roll : s.roll = .on → m.supportsRoll = true

theorem restore_holds (hd : OfModel d m) (hob : Obedient d) (h : w.Holds d r c) {s : ScopeState} (hs : Accepted m s) :
    ∃ r', Leaves (restoreSettings s) r r' ∧ (restore d lib w s).Holds d r' (configOf lib c.display s) ∧
      (restore d lib w s).trigger = s.trigger := by
  obtain ⟨r', hleaves, hsettings⟩ := settings_hold lib hob (restoreSettings s) h
  have hholdoff := holdoff_holds lib hob hsettings hs.holdoff
  have hacquisition := acquisition_holds lib hd hob hholdoff hs.peak hs.count
  have hroll := roll_holds lib hd hacquisition hs.roll
  have hrestore : restore d lib w s = (serve d lib (serve d lib (serve d lib (serve d lib
      (serveAll d lib w ((restoreSettings s).map .set)) (.setHoldoff s.holdoffS)).1
      (.setAcquisition s.acquisition (some s.averageCount))).1 (.setRoll s.roll)).1 (.setDisplay s.display)).1 := by
    show serveAll d lib w (restoreRequests s) = _
    rw [restoreRequests_eq]
    unfold serveAll
    rw [List.foldl_append]
    show serveAll d lib (serveAll d lib w ((restoreSettings s).map .set)) _ = _
    rw [serveAll_cons lib hsettings.idle, serveAll_cons lib hholdoff.idle, serveAll_cons lib hacquisition.idle,
      serveAll_cons lib hroll.idle]
    rfl
  rw [hrestore]
  exact ⟨r', hleaves, display_holds lib hroll s.display, display_trigger lib hroll (restored_unit hleaves) s.display⟩

end

end Lager.Scope
