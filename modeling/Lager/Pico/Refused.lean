import Lager.Lib.Run
import Lager.Pico.TriggerLevel

/-!
# A setting that the PicoScope 2000 refuses

`change_settings` puts the settings back, and with them the hardware; what it works out on the way (the memory depth,
the timebase, the split at the trigger) it does not put back. `refused_unchanged` says for which setters and states
that is enough: those in which nothing of it is worked out again.
-/

namespace Lager.Pico.Ps2000

open Lager.Lib
open Lager.Scope (ChannelId Coupling TriggerSlope CaptureMode)

/-! ### The setters as changes of the settings -/

/-- The channel that a setter names. -/
def channelOf : Setter → Option ChannelId
  | .enableChannel c | .disableChannel c | .voltsPerDiv c _ | .voltsOffset c _ | .coupling c _ | .attenuation c _
  | .triggerSource c => some c
  | _ => none

def OnScope (settings : OscilloscopeSettings) (setter : Setter) : Prop :=
  ∀ c, channelOf setter = some c → (settings.find c).isSome

def switch (id : ChannelId) (enabled : Bool) (settings : OscilloscopeSettings) : OscilloscopeSettings :=
  { settings with channels := changeFirst id (fun c => { c with enabled }) settings.channels }

/-- The settings with the setter's channel on or off: what a memory depth depends on. -/
def switched : Setter → OscilloscopeSettings → OscilloscopeSettings
  | .enableChannel c, settings => switch c true settings
  | .disableChannel c, settings => switch c false settings
  | _, settings => settings

def slopeAfter : Setter → TriggerSlope → TriggerSlope
  | .triggerSlope k, _ => k
  | _, k => k

/-- What a setter's change leaves of the settings that the driver works something out from. -/
structure Follows (setter : Setter) (s t : OscilloscopeSettings) : Prop where
  ids : t.channels.map (·.channelId) = s.channels.map (·.channelId)
  position : t.trigger.triggerPosition = s.trigger.triggerPosition
  timePerDiv : t.timePerDiv = s.timePerDiv
  slope : t.trigger.triggerSlope = slopeAfter setter s.trigger.triggerSlope
  depth : memoryDepthFor t = memoryDepthFor (switched setter s)

structure Changes (setter : Setter) (change : OscilloscopeSettings → Except Error OscilloscopeSettings) : Prop where
  follows : ∀ s t, change s = .ok t → Follows setter s t
  valid : ∀ s, OnScope s setter → (held s).Sourced → ∃ t, change s = .ok t ∧ (held t).Sourced
  onScope : ∀ s t, change s = .ok t → (held t).Sourced → OnScope s setter

theorem sourced_changeFirst {change : ChannelSettings → ChannelSettings} (hid : ∀ c, (change c).channelId = c.channelId)
    (id : ChannelId) {h : Held} (hs : h.Sourced) (level : ℚ) :
    Held.Sourced ⟨changeFirst id change h.channels, level, h.source⟩ := by
  unfold Held.Sourced Held.find at *
  rw [find_changeFirst hid]
  split_ifs
  · rw [Option.isSome_map]
    exact hs
  · exact hs

/-- A change of one channel that does not switch it leaves as many enabled. -/
theorem enabled_changeFirst {change : ChannelSettings → ChannelSettings} (hon : ∀ c, (change c).enabled = c.enabled)
    (id : ChannelId) (l : List ChannelSettings) :
    ((changeFirst id change l).filter (·.enabled)).length = (l.filter (·.enabled)).length := by
  induction l with
  | nil => rfl
  | cons c l ih =>
    unfold changeFirst
    split_ifs
    · rw [List.filter_cons, List.filter_cons, hon]
      split_ifs
      · rfl
      · rfl
    · rw [List.filter_cons, List.filter_cons]
      split_ifs
      · rw [List.length_cons, List.length_cons, ih]
      · exact ih

theorem memoryDepthFor_congr {s t : OscilloscopeSettings} (hdepth : t.memoryDepth = s.memoryDepth)
    (hon : t.enabled.length = s.enabled.length) : memoryDepthFor t = memoryDepthFor s := by
  unfold memoryDepthFor
  rw [hdepth, hon]

theorem changes_channel {setter : Setter} {id : ChannelId} (hsetter : channelOf setter = some id)
    (hslope : ∀ k, slopeAfter setter k = k) {change : ChannelSettings → ChannelSettings}
    (hid : ∀ c, (change c).channelId = c.channelId)
    (hdepth : ∀ s : OscilloscopeSettings,
      memoryDepthFor { s with channels := changeFirst id change s.channels } = memoryDepthFor (switched setter s)) :
    Changes setter fun settings => channelSettingsMut settings id change := by
  refine ⟨fun s t hok => ?_, fun s hon hs => ?_, fun s t hok _ c hc => ?_⟩
  · obtain ⟨-, rfl⟩ := channelSettingsMut_eq_ok.mp hok
    exact ⟨changeFirst_ids hid id s.channels, rfl, rfl, (hslope _).symm, hdepth s⟩
  · exact ⟨_, channelSettingsMut_eq_ok.mpr ⟨hon id hsetter, rfl⟩, sourced_changeFirst hid id hs _⟩
  · cases hsetter.symm.trans hc
    exact (channelSettingsMut_eq_ok.mp hok).1

theorem changes_trigger {setter : Setter} (hswitched : ∀ s, switched setter s = s)
    {change : TriggerSettings → TriggerSettings} (hposition : ∀ t, (change t).triggerPosition = t.triggerPosition)
    (hslope : ∀ t, (change t).triggerSlope = slopeAfter setter t.triggerSlope)
    (hvalid : ∀ s, OnScope s setter → (held s).Sourced → (held { s with trigger := change s.trigger }).Sourced)
    (honScope : ∀ s, (held { s with trigger := change s.trigger }).Sourced → OnScope s setter) :
    Changes setter fun settings => .ok { settings with trigger := change settings.trigger } := by
  refine ⟨fun s t hok => ?_, fun s hon hs => ⟨_, rfl, hvalid s hon hs⟩, fun s t hok ht => ?_⟩
  · cases hok
    refine ⟨rfl, hposition _, rfl, hslope _, ?_⟩
    rw [hswitched]
    rfl
  · cases hok
    exact honScope s ht

theorem attenuate_eq_ok {channel : ChannelId} {attenuation previous : ℚ} {s t : OscilloscopeSettings}
    (h : attenuate channel attenuation previous s = .ok t) :
    (s.find channel).isSome ∧ ∃ level,
      t = { s with
        channels := changeFirst channel (fun c => { c with attenuation }) s.channels
        trigger := { s.trigger with triggerLevel := level } } := by
  obtain ⟨settings, hset, hrest⟩ := bind_eq_ok h
  obtain ⟨hfound, rfl⟩ := channelSettingsMut_eq_ok.mp hset
  dsimp only at hrest
  split_ifs at hrest
  · cases hrest
    exact ⟨hfound, _, rfl⟩
  · cases hrest
    exact ⟨hfound, s.trigger.triggerLevel, rfl⟩

theorem changes_attenuation (channel : ChannelId) (attenuation previous : ℚ) :
    Changes (.attenuation channel attenuation) (attenuate channel attenuation previous) := by
  let change : ChannelSettings → ChannelSettings := fun c => { c with attenuation }
  have hid : ∀ c, (change c).channelId = c.channelId := fun _ => rfl
  refine ⟨fun s t hok => ?_, fun s hon hs => ?_, fun s t hok _ c hc => ?_⟩
  rotate_right
  · cases hc
    exact (attenuate_eq_ok hok).1
  · obtain ⟨-, level, rfl⟩ := attenuate_eq_ok hok
    refine ⟨changeFirst_ids hid channel s.channels, rfl, rfl, rfl, memoryDepthFor_congr rfl ?_⟩
    exact @enabled_changeFirst change (fun _ => rfl) channel s.channels
  · have hset : (channelSettingsMut s channel change : Except Error _) =
        .ok { s with channels := changeFirst channel change s.channels } :=
      channelSettingsMut_eq_ok.mpr ⟨hon channel rfl, rfl⟩
    have hsome : ∃ t, attenuate channel attenuation previous s = .ok t := by
      unfold attenuate
      rw [hset]
      dsimp only [bind, Except.bind]
      split_ifs
      · exact ⟨_, rfl⟩
      · exact ⟨_, rfl⟩
    obtain ⟨t, ht⟩ := hsome
    refine ⟨t, ht, ?_⟩
    obtain ⟨-, level, rfl⟩ := attenuate_eq_ok ht
    exact sourced_changeFirst hid channel hs level

/-! ### The checks before anything is touched -/

/-- The setter is turned down by its own check. -/
def Refuses (settings : OscilloscopeSettings) : Setter → Prop
  | .voltsPerDiv c _ => ¬c ∈ [ChannelId.alphabetic 'A', .alphabetic 'B', .alphabetic 'C', .alphabetic 'D']
  | .coupling _ k => k = .GND
  | .attenuation _ a => a ≤ 0
  | .triggerLevel l => refuseBeyondReach settings l ≠ .ok ()
  | _ => False

/-- The device has no part in the setter. -/
def Local : Setter → Prop
  | .voltsOffset _ _ | .timeOffset _ => True
  | _ => False

/-- Turning a channel on or off, which makes the memory depth due. -/
def switches : Setter → Bool
  | .enableChannel _ | .disableChannel _ => true
  | _ => false

theorem triple_when_of {P E : PicoScope2000 → Prop} {Q : Unit → PicoScope2000 → Prop} {c : Prop} [Decidable c] (hc : c)
    {e : Error} {f : Unit → Act Unit} (h : ∀ s, P s → E s) : Triple P (when c (throw e) >>= f) Q E :=
  triple_bind (Q := fun _ _ => False) (triple_when (fun _ => triple_throw h) fun hn => absurd hc hn)
    fun _ _ hfalse => hfalse.elim

theorem set_refuses (d : Device) {setter : Setter} {s : PicoScope2000} (h : Refuses s.settings setter) :
    Triple (· = s) (set d setter) (fun _ _ => False) (· = s) := by
  cases setter with
  | voltsPerDiv c v =>
    refine triple_when_of ?_ fun _ hs => hs
    exact h
  | coupling c k =>
    refine triple_when_of ?_ fun _ hs => hs
    exact h
  | attenuation c a =>
    refine triple_when_of ?_ fun _ hs => hs
    exact h
  | triggerLevel l =>
    refine triple_get_bind ?_
    rintro t rfl
    refine triple_bind (Q := fun _ _ => False) (triple_lift ?_ fun _ _ _ hs => hs) fun _ _ hfalse => hfalse.elim
    exact fun _ hok => absurd hok h
  | _ => exact h.elim

/-- **Setter rule.** A setter but that of the time/div is turned down before anything is touched, or changes a setting
that the device has no part in, or is a change of the settings. -/
theorem set_rule (d : Device) {P E : PicoScope2000 → Prop} {Q : PicoScope2000 → Prop} (setter : Setter)
    (hdiv : ∀ t, setter ≠ .timePerDiv t) (hrefuse : ∀ s, P s → E s)
    (hdue : switches setter = true → ∀ s, P s → P { s with isNewChannelEnabledDisabled := true })
    (hlocal : ∀ s settings, P s → settings.channels.map (·.channelId) = s.settings.channels.map (·.channelId) →
      settings.trigger = s.settings.trigger → Q { s with settings })
    (hchange : ∀ change, ¬Local setter → Changes setter change → Triple P (changeSettings d change) (fun _ => Q) E) :
    Triple P (set d setter) (fun _ => Q) E := by
  have hcheck : ∀ (c : Prop) [Decidable c] (e : Error), Triple P (when c (throw e)) (fun _ => P) E :=
    fun c _ e => triple_when (fun _ => triple_throw hrefuse) fun _ _ hs => hs
  cases setter with
  | enableChannel c =>
    refine triple_bind (triple_modify (Q := fun _ => P) (hdue rfl)) fun _ => hchange _ id ?_
    exact @changes_channel (.enableChannel c) c rfl (fun _ => rfl) (fun c => { c with enabled := true }) (fun _ => rfl)
      fun _ => rfl
  | disableChannel c =>
    refine triple_bind (triple_modify (Q := fun _ => P) (hdue rfl)) fun _ => hchange _ id ?_
    exact @changes_channel (.disableChannel c) c rfl (fun _ => rfl) (fun c => { c with enabled := false }) (fun _ => rfl)
      fun _ => rfl
  | voltsPerDiv c v =>
    refine triple_bind (hcheck _ _) fun _ => hchange _ id ?_
    exact @changes_channel (.voltsPerDiv c v) c rfl (fun _ => rfl) (fun c => { c with voltsPerDiv := v }) (fun _ => rfl)
      fun s => memoryDepthFor_congr rfl (@enabled_changeFirst (fun c => { c with voltsPerDiv := v }) (fun _ => rfl) c _)
  | voltsOffset c v =>
    refine triple_bind (hcheck _ _) fun _ => triple_get_bind fun s hs => ?_
    split
    · exact triple_throw fun t ht => ht ▸ hrefuse s hs
    · apply triple_modify
      rintro t rfl
      exact hlocal t _ hs (@changeFirst_ids (fun c => { c with voltsOffset := 0 }) (fun _ => rfl) c _) rfl
  | coupling c k =>
    refine triple_bind (hcheck _ _) fun _ => hchange _ id ?_
    exact @changes_channel (.coupling c k) c rfl (fun _ => rfl) (fun c => { c with coupling := k }) (fun _ => rfl)
      fun s => memoryDepthFor_congr rfl (@enabled_changeFirst (fun c => { c with coupling := k }) (fun _ => rfl) c _)
  | attenuation c a =>
    refine triple_bind (hcheck _ _) fun _ => triple_get_bind fun s hs => ?_
    exact (hchange _ id (changes_attenuation c a _)).imp (fun t ht => ht ▸ hs) (fun _ _ ht => ht) fun _ ht => ht
  | timePerDiv t => exact absurd rfl (hdiv t)
  | timeOffset t => exact triple_modify fun s hs => hlocal s _ hs rfl rfl
  | triggerLevel l =>
    refine triple_get_bind fun s hs => ?_
    refine triple_bind (triple_lift (Q := fun _ t => t = s) (fun _ _ t ht => ht) fun _ _ t ht => ht ▸ hrefuse s hs)
      fun _ => ?_
    refine (hchange _ id ?_).imp (fun t ht => ht ▸ hs) (fun _ _ ht => ht) fun _ ht => ht
    exact @changes_trigger (.triggerLevel l) (fun _ => rfl) (fun t => { t with triggerLevel := _ }) (fun _ => rfl)
      (fun _ => rfl) (fun _ _ hsource => hsource) fun _ _ _ => nofun
  | triggerSource c =>
    refine hchange _ id ?_
    exact @changes_trigger (.triggerSource c) (fun _ => rfl) (fun t => { t with triggerSource := c }) (fun _ => rfl)
      (fun _ => rfl) (fun _ hon _ => hon c rfl) fun s hs id hid => Option.some.inj hid ▸ hs
  | triggerSlope k =>
    refine hchange _ id ?_
    exact @changes_trigger (.triggerSlope k) (fun _ => rfl) (fun t => { t with triggerSlope := k }) (fun _ => rfl)
      (fun _ => rfl) (fun _ _ hsource => hsource) fun _ _ _ => nofun
  | captureMode m =>
    refine hchange _ id ?_
    exact @changes_trigger (.captureMode m) (fun _ => rfl) (fun t => { t with captureMode := m }) (fun _ => rfl)
      (fun _ => rfl) (fun _ _ hsource => hsource) fun _ _ _ => nofun

/-! ### What the driver works out -/

/-- What the driver works out of the settings: the depth, the timebase, and the samples around the trigger. -/
structure Worked where
  memoryDepth : Nat
  current : Timebase
  split : Nat × Nat

def PicoScope2000.worked (s : PicoScope2000) : Worked :=
  ⟨s.memoryDepth, s.current, s.preTriggerSamples, s.postTriggerSamples⟩

/-- A depth is to be worked out when a block is next armed. -/
def PicoScope2000.due (s : PicoScope2000) : Prop := s.isNewChannelEnabledDisabled = true ∨ s.memoryDepthNotUpdate = true

/-- Working the depth out for these settings finds what there is. -/
def Harmless (d : Device) (w : Worked) (k : OscilloscopeSettings) : Prop :=
  ∀ n found, timebaseFor d n (memoryDepthFor k) k.timePerDiv = some found →
    memoryDepthFor k = w.memoryDepth ∧ found = w.current

def Splits (k : OscilloscopeSettings) (w : Worked) : Prop :=
  w.split = triggerPositionSplit w.memoryDepth k.trigger.triggerPosition

/-- The settings and what was worked out of them stay, and no depth is due but where `due` says so. -/
structure Stays (k : OscilloscopeSettings) (w : Worked) (due : Prop) (s : PicoScope2000) : Prop where
  settings : s.settings = k
  worked : s.worked = w
  due : s.due → due

structure Fixed where
  settings : OscilloscopeSettings
  worked : Worked
  due : Prop

def PicoScope2000.fixed (s : PicoScope2000) : Fixed := ⟨s.settings, s.worked, s.due⟩

theorem apart_fixed : Apart PicoScope2000.fixed := ⟨fun _ _ => rfl, fun _ _ _ => rfl⟩

section Stays

variable (d : Device) {k : OscilloscopeSettings} {w : Worked} {due : Prop}

theorem stays_of_keeps {α : Type} {x : Act α} (hx : Keeps PicoScope2000.fixed x) :
    Triple (Stays k w due) x (fun _ => Stays k w due) (Stays k w due) := by
  refine (hx.triple fun f => f.settings = k ∧ f.worked = w ∧ (f.due → due)).imp ?_ ?_ ?_
  · exact fun s hs => ⟨hs.settings, hs.worked, hs.due⟩
  · exact fun _ s hs => ⟨hs.1, hs.2.1, hs.2.2⟩
  · exact fun s hs => ⟨hs.1, hs.2.1, hs.2.2⟩

/-- Settings and what was worked out stay where the search finds what there is; a failed one changes nothing. -/
theorem stays_updateMemoryDepth (hharmless : Harmless d w k) (hsplits : Splits k w) (hdue : due) :
    Triple (Stays k w due) (updateMemoryDepth d) (fun _ => Stays k w due) (Stays k w due) := by
  unfold updateMemoryDepth
  apply triple_get_bind
  intro s hs
  refine triple_bind (Q := fun _ t => Stays k w due t ∧ memoryDepthFor k = w.memoryDepth) ?_ fun _ => ?_
  · unfold setScopeTimePerDiv
    refine triple_bind (triple_modify (Q := fun _ => Stays k w due) ?_) fun _ => ?_
    · rintro t rfl
      exact ⟨hs.settings, hs.worked, fun _ => hdue⟩
    apply triple_get_bind
    intro t ht
    refine triple_bind (triple_modify (Q := fun _ => Stays k w due) ?_) fun _ => ?_
    · rintro t rfl
      exact ⟨ht.settings, ht.worked, fun _ => hdue⟩
    split
    · rename_i found hfound
      rw [hs.settings] at hfound
      obtain ⟨hdepth, hcurrent⟩ := hharmless _ _ hfound
      refine triple_modify fun t ht => ⟨⟨ht.settings, ?_, fun _ => hdue⟩, hdepth⟩
      have hworked := ht.worked
      unfold PicoScope2000.worked at hworked ⊢
      rw [hcurrent, ← hworked]
    · exact triple_throw fun t ht => ht
  · refine triple_modify ?_
    rintro t ⟨ht, hdepth⟩
    refine ⟨ht.settings, ?_, fun _ => hdue⟩
    -- the depth is the one there was, and so is the split of it
    obtain ⟨hsettings, hworked, -⟩ := ht
    subst hsettings hworked
    unfold PicoScope2000.worked PicoScope2000.applyTriggerPosition
    rw [hs.settings, hdepth]
    exact congrArg (Worked.mk _ _) hsplits.symm

theorem stays_doMemoryDepthUpdate (hharmless : due → Harmless d w k) (hsplits : Splits k w) :
    Triple (Stays k w due) (doMemoryDepthUpdate d) (fun _ => Stays k w due) (Stays k w due) := by
  unfold doMemoryDepthUpdate
  apply triple_get_bind
  intro s hs
  refine triple_when (fun hflag => ?_) fun _ t ht => ht ▸ hs
  have hdue : due := hs.due (Or.inl hflag)
  refine triple_bind ((triple_attempt (stays_updateMemoryDepth d (hharmless hdue) hsplits hdue)).imp
    (fun t ht => ht ▸ hs) (fun _ _ ht => ht) fun _ ht => ht) fun tried => ?_
  refine triple_modify fun t ht => ?_
  have hstays : Stays k w due t := by
    cases tried with
    | ok a => exact ht
    | error e => exact ht
  exact ⟨hstays.settings, hstays.worked, fun _ => hdue⟩

theorem stays_retryMemoryDepth (hharmless : due → Harmless d w k) (hsplits : Splits k w) :
    Triple (Stays k w due) (retryMemoryDepth d) (fun _ => Stays k w due) (Stays k w due) := by
  unfold retryMemoryDepth
  apply triple_get_bind
  intro s hs
  refine triple_when (fun hflag => ?_) fun _ t ht => ht ▸ hs
  have hdue : due := hs.due (Or.inr hflag)
  refine triple_bind ((stays_of_keeps (keeps_halt d apart_fixed)).imp (fun t ht => ht ▸ hs) (fun _ _ ht => ht)
    fun _ ht => ht) fun _ => ?_
  refine triple_bind (triple_attempt (stays_updateMemoryDepth d (hharmless hdue) hsplits hdue)) fun tried => ?_
  refine triple_modify fun t ht => ?_
  have hstays : Stays k w due t := by
    cases tried with
    | ok a => exact ht
    | error e => exact ht
  exact ⟨hstays.settings, hstays.worked, fun _ => hdue⟩

/-- Arming a block where it was, at the trigger position held. -/
theorem stays_rearmHere (hharmless : due → Harmless d w k) (hsplits : Splits k w) :
    Triple (Stays k w due) (rearmHere d) (fun _ s => Stays k w due s ∧ s.isCapturing = true) (Stays k w due) := by
  unfold rearmHere
  apply triple_get_bind
  intro s hs
  unfold runBlock
  refine triple_bind (triple_modify (Q := fun _ => Stays k w due) ?_) fun _ => ?_
  · rintro t rfl
    obtain ⟨hsettings, hworked, hdue⟩ := hs
    subst hsettings hworked
    exact ⟨rfl, congrArg (Worked.mk _ _) hsplits.symm, hdue⟩
  refine triple_bind (stays_of_keeps (keeps_haltIfRunning d apart_fixed)) fun _ => ?_
  refine triple_bind (stays_of_keeps (keeps_doUpdateChannel d apart_fixed.watch)) fun _ => ?_
  refine triple_bind (stays_of_keeps (keeps_doUpdateTrigger d apart_fixed.watch)) fun _ => ?_
  refine triple_bind (stays_doMemoryDepthUpdate d hharmless hsplits) fun _ => ?_
  refine triple_bind (stays_retryMemoryDepth d hharmless hsplits) fun _ => ?_
  apply triple_get_bind
  intro t ht
  refine triple_bind ((stays_of_keeps (keeps_call d apart_fixed.watch _)).imp (fun u hu => hu ▸ ht) (fun _ _ hu => hu)
    fun _ hu => hu) fun _ => ?_
  exact triple_modify fun u hu => ⟨⟨hu.settings, hu.worked, hu.due⟩, rfl⟩

/-- The hardware put back on the settings held. -/
theorem stays_restoreHardware (wasCapturing : Bool) (hharmless : wasCapturing = true → due → Harmless d w k)
    (hsplits : Splits k w) :
    Triple (Stays k w due) (restoreHardware d wasCapturing)
      (fun _ s => s.settings = k ∧ s.worked = w ∧ s.isCapturing = wasCapturing) (fun _ => True) := by
  let stopped : PicoScope2000 → Prop := fun s => Stays k w due s ∧ s.isCapturing = false
  have hkept : ∀ x : Act Unit, Keeps (fun s : PicoScope2000 => (s.fixed, s.isCapturing)) x →
      Triple stopped x (fun _ => stopped) (fun _ => True) := by
    intro x hx
    refine (hx.triple fun f => (f.1.settings = k ∧ f.1.worked = w ∧ (f.1.due → due)) ∧ f.2 = false).imp ?_ ?_ ?_
    · exact fun s hs => ⟨⟨hs.1.settings, hs.1.worked, hs.1.due⟩, hs.2⟩
    · exact fun _ s hs => ⟨⟨hs.1.1, hs.1.2.1, hs.1.2.2⟩, hs.2⟩
    · exact fun _ _ => trivial
  unfold restoreHardware
  refine triple_bind (triple_attempt (stays_of_keeps (keeps_call d apart_fixed.watch _))) fun tried => ?_
  refine triple_bind (triple_modify (Q := fun _ => stopped) ?_) fun _ => ?_
  · intro s hs
    have hstays : Stays k w due s := by
      cases tried with
      | ok a => exact hs
      | error e => exact hs
    exact ⟨⟨hstays.settings, hstays.worked, hstays.due⟩, rfl⟩
  refine triple_bind (hkept _ (keeps_doUpdateChannel d fun _ _ => rfl)) fun _ => ?_
  refine triple_bind (hkept _ (keeps_doUpdateTrigger d fun _ _ => rfl)) fun _ => ?_
  refine triple_when (fun hcapturing => ?_) fun hidle s hs => ?_
  · refine (stays_rearmHere d (hharmless hcapturing) hsplits).imp (fun s hs => hs.1) ?_ fun _ _ => trivial
    exact fun _ s hs => ⟨hs.1.settings, hs.1.worked, hs.2.trans hcapturing.symm⟩
  · exact ⟨hs.1.settings, hs.1.worked, hs.2.trans (Bool.eq_false_iff.mpr hidle).symm⟩

end Stays

/-! ### A refused change of the settings -/

/-- What a refused setter is to leave as it was. -/
structure View where
  settings : OscilloscopeSettings
  worked : Worked
  armed : Bool

def PicoScope2000.view (s : PicoScope2000) : View := ⟨s.settings, s.worked, s.isCapturing⟩

section Change

variable (d : Device) {due : Prop}

/-- Where a change that fails has worked nothing out, and putting the hardware back does not either, all is as it was. -/
theorem changeSettings_unchanged {change : OscilloscopeSettings → Except Error OscilloscopeSettings} {s : PicoScope2000}
    (hsplits : Splits s.settings s.worked) (hharmless : s.isCapturing = true → due → Harmless d s.worked s.settings)
    (happly : Triple (· = s) (applyChange d change) (fun _ _ => True) fun t => t.worked = s.worked ∧ (t.due → due)) :
    Triple (· = s) (changeSettings d change) (fun _ _ => True) fun t => t.watch.warned = false → t.view = s.view := by
  unfold changeSettings
  apply triple_get_bind
  rintro s' rfl
  refine triple_bind (triple_attempt happly) fun tried => ?_
  cases tried with
  | ok a => exact triple_pure fun _ _ => trivial
  | error e =>
    refine triple_bind (triple_modify (Q := fun _ => Stays s'.settings s'.worked due) ?_) fun _ => ?_
    · rintro t ⟨hworked, hdue⟩
      exact ⟨rfl, hworked, hdue⟩
    refine triple_bind (triple_attempt (stays_restoreHardware d _ hharmless hsplits)) fun recovery => ?_
    refine triple_bind (triple_modify
      (Q := fun _ t => t.watch.warned = false → t.view = s'.view) ?_) fun _ => triple_throw fun _ ht => ht
    intro t ht hwarned
    cases recovery with
    | error e => cases hwarned
    | ok a =>
      obtain ⟨hsettings, hworked, hcapturing⟩ := ht
      show View.mk t.settings t.worked t.isCapturing = s'.view
      rw [hsettings, hworked, hcapturing]
      rfl

/-- What is programmed for a change: the trigger, around a capture that is stopped and armed again. -/
theorem applyChange_rule {change : OscilloscopeSettings → Except Error OscilloscopeSettings} {s : PicoScope2000}
    {Q : Unit → PicoScope2000 → Prop} {E : PicoScope2000 → Prop}
    (hfails : ∀ e, change s.settings = .error e → E s)
    (hprogram : ∀ t, change s.settings = .ok t →
      Triple (· = { s with settings := clampTriggerLevelToRange t }) (reprogram d) Q E) :
    Triple (· = s) (applyChange d change) Q E := by
  unfold applyChange
  apply triple_get_bind
  rintro s' rfl
  refine triple_bind (Q := fun t s => change s'.settings = .ok t ∧ s = s') (triple_lift ?_ ?_) ?_
  · exact fun t hok u hu => ⟨hok, hu⟩
  · exact fun e herr u hu => hu ▸ hfails e herr
  · intro t
    apply triple_start
    rintro u ⟨hok, rfl⟩
    refine triple_bind (triple_modify fun v hv => ?_) fun _ => hprogram t hok
    rw [hv]

theorem stays_reprogram {k : OscilloscopeSettings} {w : Worked} (capturing : Bool)
    (hharmless : capturing = true → due → Harmless d w k) (hsplits : Splits k w) :
    Triple (fun s => Stays k w due s ∧ s.isCapturing = capturing) (reprogram d) (fun _ _ => True) (Stays k w due) := by
  unfold reprogram
  apply triple_get_bind
  rintro s ⟨hs, rfl⟩
  refine triple_bind ((stays_of_keeps (keeps_haltAndUpdate d apart_fixed).when).imp (fun t ht => ht ▸ hs)
    (fun _ _ ht => ht) fun _ ht => ht) fun _ => ?_
  refine triple_bind (stays_of_keeps (keeps_doUpdateTrigger d apart_fixed.watch)) fun _ => ?_
  refine triple_when (fun hcapturing => ?_) fun _ _ _ => trivial
  refine triple_bind (stays_doMemoryDepthUpdate d (hharmless hcapturing) hsplits) fun _ => ?_
  exact (stays_rearmHere d (hharmless hcapturing) hsplits).imp (fun _ ht => ht) (fun _ _ _ => trivial) fun _ ht => ht

end Change

/-! ### Which call is refused -/

/-- The trigger can be programmed: its source is one of the inputs, and its level is in range of it. -/
structure Fit (k : OscilloscopeSettings) : Prop where
  level : ∃ c, k.find k.trigger.triggerSource = some c ∧ k.trigger.triggerLevel ≤ rangeVolts c
  source : ∃ l, k.trigger.triggerSource = .alphabetic l ∧ 'A' ≤ l ∧ l ≤ 'D'

/-- The calls that program the trigger. -/
def triggerCalls : TriggerSlope → Nat
  | .neither => 1
  | _ => 4

/-- The calls of a change before it comes to the memory depth: the stop, the channels and the trigger. -/
def early (channels : Nat) (slope : TriggerSlope) : Nat := 1 + channels + triggerCalls slope

def earlyCalls (k : OscilloscopeSettings) : Nat := early k.channels.length k.trigger.triggerSlope

section Calls

variable (d : Device) {k : OscilloscopeSettings}

theorem doUpdateChannel_rule {I : Nat → PicoScope2000 → Prop} {E : PicoScope2000 → Prop}
    (hsettings : ∀ s, I 0 s → s.settings = k)
    (hcall : ∀ i < k.channels.length, ∀ c, Triple (I i) (call d c) (fun _ => I (i + 1)) E) :
    Triple (I 0) (doUpdateChannel d) (fun _ => I k.channels.length) E := by
  unfold doUpdateChannel
  apply triple_get_bind
  intro s hs
  rw [hsettings s hs]
  refine (triple_forM_done (I := fun done => I done.length) fun done c rest hsplit => ?_).imp (fun t ht => ht ▸ hs)
    (fun _ _ ht => ht) fun _ ht => ht
  rw [List.length_append]
  refine hcall done.length ?_ _
  rw [hsplit, List.length_append, List.length_cons]
  omega

theorem doUpdateTrigger_rule {I : Nat → PicoScope2000 → Prop} {E : PicoScope2000 → Prop} (hfit : Fit k)
    (hsettings : ∀ s, I 0 s → s.settings = k)
    (hcall : ∀ i < triggerCalls k.trigger.triggerSlope, ∀ c, Triple (I i) (call d c) (fun _ => I (i + 1)) E) :
    Triple (I 0) (doUpdateTrigger d) (fun _ => I (triggerCalls k.trigger.triggerSlope)) E := by
  obtain ⟨c, hfind, hlevel⟩ := hfit.level
  obtain ⟨l, hsource, hletter⟩ := hfit.source
  have hcounts : ∃ counts, voltageToAdcCounts k k.trigger.triggerLevel k.trigger.triggerSource = .ok counts := by
    unfold voltageToAdcCounts
    simp only [hfind, if_neg (not_lt.mpr hlevel)]
    exact ⟨_, rfl⟩
  obtain ⟨counts, hcounts⟩ := hcounts
  unfold doUpdateTrigger
  apply triple_get_bind
  intro s hs
  obtain rfl := hsettings s hs
  refine triple_bind (Q := fun _ => I 0) (triple_lift (fun _ _ t ht => ht ▸ hs) ?_) fun _ => ?_
  · intro e he
    cases hcounts.symm.trans he
  by_cases hslope : s.settings.trigger.triggerSlope = .neither
  · have hconditions : triggerConditions s.settings.trigger.triggerSource s.settings.trigger.triggerSlope = .ok none :=
      if_pos hslope
    refine triple_bind (Q := fun r s => r = none ∧ I 0 s) (triple_lift ?_ ?_) ?_
    · intro r hr t ht
      cases hconditions.symm.trans hr
      exact ⟨rfl, ht⟩
    · intro e he
      cases hconditions.symm.trans he
    · rintro r t ⟨rfl, ht⟩
      rw [hslope] at hcall ⊢
      exact hcall 0 (by decide) _ t ht
  · have hconditions : triggerConditions s.settings.trigger.triggerSource s.settings.trigger.triggerSlope =
        .ok (some (channelIdToRawValue s.settings.trigger.triggerSource)) := by
      unfold triggerConditions
      rw [if_neg hslope, hsource]
      exact if_pos hletter
    have hfour : triggerCalls s.settings.trigger.triggerSlope = 4 := by
      cases hk : s.settings.trigger.triggerSlope with
      | neither => exact absurd hk hslope
      | _ => rfl
    rw [hfour] at hcall ⊢
    refine triple_bind (Q := fun r t => r = some (channelIdToRawValue s.settings.trigger.triggerSource) ∧ I 0 t)
      (triple_lift ?_ ?_) ?_
    · intro r hr t ht
      cases hconditions.symm.trans hr
      exact ⟨rfl, ht⟩
    · intro e he
      cases hconditions.symm.trans he
    · rintro r t ⟨rfl, ht⟩
      refine triple_bind (hcall 0 (by decide) _) (fun _ => ?_) t ht
      refine triple_bind (hcall 1 (by decide) _) fun _ => ?_
      exact triple_bind (hcall 2 (by decide) _) fun _ => hcall 3 (by decide) _

/-- The calls so far, every one of them accepted, and nothing worked out by them. -/
structure Counted (k : OscilloscopeSettings) (w : Worked) (isCapturing : Bool) (n : Nat) (s : PicoScope2000) :
    Prop where
  settings : s.settings = k
  worked : s.worked = w
  capturing : s.isCapturing = isCapturing
  calls : s.watch.calls = n
  accepted : ∀ j < n, d.accepts j = true

/-- One of the first calls was refused, and nothing was worked out. -/
def RefusedBefore (k : OscilloscopeSettings) (w : Worked) (bound : Nat) (s : PicoScope2000) : Prop :=
  s.settings = k ∧ s.worked = w ∧ ∃ j < bound, d.accepts j = false

variable {d} {w : Worked} {capturing : Bool}

theorem counted_call {n bound : Nat} (hn : n < bound) (c : Call) :
    Triple (Counted d k w capturing n) (call d c) (fun _ => Counted d k w capturing (n + 1)) (RefusedBefore d k w bound) := by
  unfold call
  apply triple_get_bind
  intro s hs
  refine triple_bind (triple_modify (Q := fun _ t =>
    t.settings = k ∧ t.worked = w ∧ t.isCapturing = capturing ∧ t.watch.calls = n + 1) ?_) fun _ => ?_
  · rintro t rfl
    exact ⟨hs.settings, hs.worked, hs.capturing, congrArg (· + 1) hs.calls⟩
  rw [hs.calls]
  apply triple_when
  · intro hrefused
    exact triple_throw fun t ht => ⟨ht.1, ht.2.1, n, hn, hrefused⟩
  · rintro haccepted t ⟨hsettings, hworked, hcapturing, hcalls⟩
    refine ⟨hsettings, hworked, hcapturing, hcalls, fun j hj => ?_⟩
    rcases Nat.lt_succ_iff_lt_or_eq.mp hj with hlt | rfl
    · exact hs.accepted j hlt
    · exact Bool.not_eq_false _ ▸ haccepted

theorem counted_halt {bound : Nat} (hbound : 0 < bound) :
    Triple (Counted d k w true 0) (halt d) (fun _ => Counted d k w false 1) (RefusedBefore d k w bound) := by
  unfold halt
  refine triple_bind (counted_call hbound _) fun _ => triple_modify fun s hs => ?_
  exact ⟨hs.settings, hs.worked, rfl, hs.calls, hs.accepted⟩

theorem counted_doUpdateChannel {bound : Nat} (hbound : 1 + k.channels.length ≤ bound) :
    Triple (Counted d k w false 1) (doUpdateChannel d) (fun _ => Counted d k w false (1 + k.channels.length))
      (RefusedBefore d k w bound) :=
  doUpdateChannel_rule d (I := fun i => Counted d k w false (1 + i)) (fun _ hs => hs.settings)
    fun i hi c => counted_call (by omega) c

theorem Counted.armed {s : PicoScope2000} {n : Nat} (hs : Counted d k w capturing n s) :
    Counted d k w true n { s with isCapturing := true } := ⟨hs.settings, hs.worked, rfl, hs.calls, hs.accepted⟩

theorem counted_doUpdateTrigger (hfit : Fit k) :
    Triple (Counted d k w true (1 + k.channels.length)) (doUpdateTrigger d)
      (fun _ => Counted d k w true (earlyCalls k)) (RefusedBefore d k w (earlyCalls k)) :=
  doUpdateTrigger_rule d hfit (I := fun i => Counted d k w true (1 + k.channels.length + i))
    (fun _ hs => hs.settings) fun i hi c => counted_call (Nat.add_lt_add_left hi _) c

theorem length_le_early : 1 + k.channels.length ≤ earlyCalls k := Nat.le_add_right _ _

theorem early_pos : 0 < earlyCalls k := Nat.lt_of_lt_of_le (Nat.lt_add_right _ Nat.one_pos) length_le_early

/-- Reprogramming while a block is armed: one of the first calls is refused, or what comes after them decides. -/
theorem counted_reprogram {Q : Unit → PicoScope2000 → Prop} {E : PicoScope2000 → Prop} (hfit : Fit k)
    (hrefused : ∀ s, RefusedBefore d k w (earlyCalls k) s → E s)
    (hlast : Triple (Counted d k w true (earlyCalls k)) (do
      doMemoryDepthUpdate d
      rearmHere d) Q E) : Triple (Counted d k w true 0) (reprogram d) Q E := by
  unfold reprogram
  apply triple_get_bind
  intro s hs
  refine triple_bind (Q := fun _ => Counted d k w true (1 + k.channels.length)) ?_ fun _ => ?_
  · refine triple_when (fun _ => ?_) fun hidle => absurd hs.capturing hidle
    refine triple_bind ((counted_halt early_pos).imp (fun t ht => ht ▸ hs) (fun _ _ ht => ht) hrefused) fun _ => ?_
    refine triple_bind ((counted_doUpdateChannel length_le_early).imp (fun _ ht => ht) (fun _ _ ht => ht) hrefused)
      fun _ => ?_
    exact triple_modify fun t ht => ht.armed
  refine triple_bind ((counted_doUpdateTrigger hfit).imp (fun _ ht => ht) (fun _ _ ht => ht) hrefused) fun _ => ?_
  exact triple_when (fun _ => hlast) fun hidle => absurd hs.capturing hidle

/-- A refusal before the memory depth is come to. -/
theorem reprogram_refusedBefore (hfit : Fit k) (hrefused : ∃ j < earlyCalls k, d.accepts j = false) :
    Triple (Counted d k w true 0) (reprogram d) (fun _ _ => True) fun s => s.worked = w := by
  refine counted_reprogram hfit (fun s hs => hs.2.1) fun s hs => ?_
  obtain ⟨j, hj, hfalse⟩ := hrefused
  cases (hs.accepted j hj).symm.trans hfalse

/-- Every call is accepted but the stop before a block is armed, which may be refused. -/
def Obliges (d : Device) (stop : Nat) : Prop := ∀ j, j ≠ stop → d.accepts j = true

/-- Past the stop. -/
def Late (k : OscilloscopeSettings) (stop : Nat) (s : PicoScope2000) : Prop := s.settings = k ∧ stop < s.watch.calls

/-- Before the stop. -/
def Stopping (k : OscilloscopeSettings) (stop : Nat) (s : PicoScope2000) : Prop :=
  s.settings = k ∧ s.watch.calls = stop ∧ s.isCapturing = true

variable {stop : Nat}

theorem late_call (hobliges : Obliges d stop) (c : Call) :
    Triple (Late k stop) (call d c) (fun _ => Late k stop) (fun _ => False) := by
  unfold call
  apply triple_get_bind
  rintro s ⟨hsettings, hlate⟩
  refine triple_bind (triple_modify (Q := fun _ => Late k stop) ?_) fun _ => ?_
  · rintro t rfl
    exact ⟨hsettings, Nat.lt_succ_of_lt hlate⟩
  refine triple_when (fun hrefused => ?_) fun _ _ ht => ht
  cases (hobliges s.watch.calls hlate.ne').symm.trans hrefused

theorem late_halt (hobliges : Obliges d stop) :
    Triple (Late k stop) (halt d) (fun _ => Late k stop) (fun _ => False) :=
  triple_bind (late_call hobliges _) fun _ => triple_modify fun _ hs => hs

theorem late_doUpdateChannel (hobliges : Obliges d stop) :
    Triple (Late k stop) (doUpdateChannel d) (fun _ => Late k stop) (fun _ => False) :=
  doUpdateChannel_rule d (I := fun _ => Late k stop) (fun _ hs => hs.1) fun _ _ c => late_call hobliges c

theorem late_doUpdateTrigger (hobliges : Obliges d stop) (hfit : Fit k) :
    Triple (Late k stop) (doUpdateTrigger d) (fun _ => Late k stop) (fun _ => False) :=
  doUpdateTrigger_rule d hfit (I := fun _ => Late k stop) (fun _ hs => hs.1) fun _ _ c => late_call hobliges c

/-- Working the depth out makes no call, and searches at the time/div that there is. -/
theorem updateMemoryDepth_calls (R : Nat → Bool → Prop) :
    Triple (fun s => s.settings = k ∧ R s.watch.calls s.isCapturing) (attempt (updateMemoryDepth d))
      (fun _ s => s.settings = k ∧ R s.watch.calls s.isCapturing) (fun _ => False) := by
  let kept : PicoScope2000 → Prop := fun s => s.settings = k ∧ R s.watch.calls s.isCapturing
  have hkept : Triple kept (updateMemoryDepth d) (fun _ => kept) kept := by
    unfold updateMemoryDepth setScopeTimePerDiv
    apply triple_get_bind
    rintro s ⟨rfl, hs⟩
    refine triple_bind (Q := fun _ => kept) ?_ fun _ => triple_modify fun t ht => ht
    refine triple_bind (triple_modify (Q := fun _ => kept) ?_) fun _ => ?_
    · rintro t rfl
      exact ⟨rfl, hs⟩
    apply triple_get_bind
    intro t ht
    refine triple_bind (triple_modify (Q := fun _ => kept) fun u hu => hu ▸ ht) fun _ => ?_
    split
    · exact triple_modify fun u hu => hu
    · exact triple_throw fun u hu => hu
  refine (triple_attempt hkept).imp (fun _ hs => hs) ?_ fun _ hs => hs
  intro tried s hs
  cases tried with
  | ok a => exact hs
  | error e => exact hs

theorem doMemoryDepthUpdate_calls (R : Nat → Bool → Prop) :
    Triple (fun s => s.settings = k ∧ R s.watch.calls s.isCapturing) (doMemoryDepthUpdate d)
      (fun _ s => s.settings = k ∧ R s.watch.calls s.isCapturing) (fun _ => False) := by
  unfold doMemoryDepthUpdate
  apply triple_get_bind
  intro s hs
  refine triple_when (fun _ => ?_) fun _ t ht => ht ▸ hs
  refine triple_bind ((updateMemoryDepth_calls R).imp (fun t ht => ht ▸ hs) (fun _ _ ht => ht) fun _ ht => ht) fun _ => ?_
  exact triple_modify fun _ ht => ht

theorem late_retryMemoryDepth (hobliges : Obliges d stop) :
    Triple (Late k stop) (retryMemoryDepth d) (fun _ => Late k stop) (fun _ => False) := by
  unfold retryMemoryDepth
  apply triple_get_bind
  intro s hs
  refine triple_when (fun _ => ?_) fun _ t ht => ht ▸ hs
  refine triple_bind ((late_halt hobliges).imp (fun t ht => ht ▸ hs) (fun _ _ ht => ht) fun _ ht => ht) fun _ => ?_
  exact triple_bind (updateMemoryDepth_calls fun calls _ => stop < calls) fun _ => triple_modify fun _ ht => ht

/-- The stop before a block is armed, accepted or not. -/
theorem stopping_haltIfRunning :
    Triple (Stopping k stop) (haltIfRunning d) (fun _ => Late k stop) (fun _ => False) := by
  have hhalt : Triple (Stopping k stop) (halt d) (fun _ => Late k stop) (Late k stop) := by
    unfold halt call
    refine triple_bind (Q := fun _ => Late k stop) ?_ fun _ => triple_modify fun _ hs => hs
    apply triple_get_bind
    rintro s ⟨hsettings, hcalls, -⟩
    refine triple_bind (triple_modify (Q := fun _ => Late k stop) ?_) fun _ => ?_
    · rintro t rfl
      exact ⟨hsettings, Nat.lt_succ_of_le hcalls.ge⟩
    exact triple_when (fun _ => triple_throw fun _ ht => ht) fun _ _ ht => ht
  unfold haltIfRunning
  apply triple_get_bind
  intro s hs
  refine triple_when (fun _ => ?_) fun hidle => absurd (Or.inl hs.2.2) hidle
  refine triple_bind ((triple_attempt hhalt).imp (fun t ht => ht ▸ hs) (fun _ _ ht => ht) fun _ ht => ht) fun tried => ?_
  refine triple_pure fun t ht => ?_
  cases tried with
  | ok a => exact ht
  | error e => exact ht

/-- Nothing keeps a block from being armed where every call is accepted. -/
theorem stopping_rearmHere (hobliges : Obliges d stop) (hfit : Fit k) :
    Triple (Stopping k stop) (rearmHere d) (fun _ _ => True) (fun _ => False) := by
  unfold rearmHere
  apply triple_get_bind
  intro s hs
  unfold runBlock
  refine triple_bind (triple_modify (Q := fun _ => Stopping k stop) ?_) fun _ => ?_
  · rintro t rfl
    exact hs
  refine triple_bind stopping_haltIfRunning fun _ => ?_
  refine triple_bind (late_doUpdateChannel hobliges) fun _ => ?_
  refine triple_bind (late_doUpdateTrigger hobliges hfit) fun _ => ?_
  refine triple_bind (doMemoryDepthUpdate_calls fun calls _ => stop < calls) fun _ => ?_
  refine triple_bind (late_retryMemoryDepth hobliges) fun _ => ?_
  apply triple_get_bind
  intro t ht
  refine triple_bind ((late_call hobliges _).imp (fun u hu => hu ▸ ht) (fun _ _ hu => hu) fun _ hu => hu) fun _ => ?_
  exact triple_modify fun _ _ => trivial

theorem Counted.stopping {s : PicoScope2000} (hs : Counted d k w true stop s) : Stopping k stop s :=
  ⟨hs.settings, hs.calls, hs.capturing⟩

/-- Nothing is refused. -/
theorem reprogram_obliged (hfit : Fit k) (hobliges : Obliges d (earlyCalls k)) :
    Triple (Counted d k w true 0) (reprogram d) (fun _ _ => True) (fun _ => False) := by
  refine counted_reprogram hfit ?_ ?_
  · rintro s ⟨-, -, j, hj, hrefused⟩
    cases (hobliges j hj.ne).symm.trans hrefused
  · refine triple_bind ((doMemoryDepthUpdate_calls (k := k) fun calls capturing =>
      calls = earlyCalls k ∧ capturing = true).imp (fun s hs => hs.stopping) (fun _ _ hs => hs) fun _ hs => hs) fun _ => ?_
    exact stopping_rearmHere hobliges hfit

theorem setTimePerDiv_obliged {timePerDiv : ℚ} {s : PicoScope2000} (hstart : s.watch = .start) (hfit : Fit s.settings)
    (hfound : (timebaseFor d 0 s.memoryDepth timePerDiv).isSome)
    (hobliges : s.isCapturing = true → Obliges d (earlyCalls s.settings)) :
    Triple (· = s) (setTimePerDiv d timePerDiv) (fun _ _ => True) (fun _ => False) := by
  obtain ⟨found, hfound⟩ := Option.isSome_iff_exists.mp hfound
  let k : OscilloscopeSettings := { s.settings with timePerDiv }
  unfold setTimePerDiv
  apply triple_get_bind
  rintro s' rfl
  refine triple_bind (Q := fun _ t => Counted d k t.worked s'.isCapturing 0 t) ?_ fun _ => ?_
  · unfold setScopeTimePerDiv
    refine triple_bind (triple_modify (Q := fun _ t => t = { s' with settings := k }) ?_) fun _ => ?_
    · rintro t rfl
      rfl
    apply triple_get_bind
    rintro t rfl
    have hsearches : s'.watch.searches = 0 := by
      rw [hstart]
      rfl
    refine triple_bind (triple_modify (Q := fun _ t =>
      t.settings = k ∧ t.isCapturing = s'.isCapturing ∧ t.watch.calls = 0) ?_) fun _ => ?_
    · rintro t rfl
      exact ⟨rfl, rfl, congrArg Watch.calls hstart⟩
    simp only [hsearches, hfound]
    exact triple_modify fun t ht => ⟨ht.1, rfl, ht.2.1, ht.2.2, nofun⟩
  · refine triple_when (fun hcapturing => ?_) fun _ _ _ => trivial
    apply triple_start
    intro t ht
    rw [hcapturing] at ht
    have hcalls := hobliges hcapturing
    have hearly : earlyCalls s'.settings = earlyCalls k := rfl
    have hnone : ∀ u, RefusedBefore d k t.worked (earlyCalls k) u → False := by
      rintro u ⟨-, -, j, hj, hrefused⟩
      cases (hcalls j (hearly ▸ hj.ne)).symm.trans hrefused
    refine triple_bind ((counted_halt early_pos).imp (fun u hu => hu ▸ ht) (fun _ _ hu => hu) hnone) fun _ => ?_
    refine triple_bind ((counted_doUpdateChannel length_le_early).imp (fun _ hu => hu) (fun _ _ hu => hu) hnone)
      fun _ => ?_
    refine triple_bind (triple_modify (Q := fun _ => Counted d k t.worked true (1 + k.channels.length))
      fun u hu => hu.armed) fun _ => ?_
    have hfits : Fit k := ⟨hfit.level, hfit.source⟩
    refine triple_bind ((counted_doUpdateTrigger hfits).imp (fun _ hu => hu) (fun _ _ hu => hu) hnone) fun _ => ?_
    exact (stopping_rearmHere hcalls hfits).imp (fun _ hu => hu.stopping) (fun _ _ hu => hu) fun _ hu => hu

end Calls

/-- Without a channel to take the level from, the trigger is not programmed, and the depth is not come to. -/
theorem reprogram_unsourced (d : Device) {k : OscilloscopeSettings} {w : Worked} (due : Prop) (h : ¬(held k).Sourced) :
    Triple (Stays k w due) (reprogram d) (fun _ _ => False) (Stays k w due) := by
  have htrigger : Triple (Stays k w due) (doUpdateTrigger d) (fun _ _ => False) (Stays k w due) := by
    unfold doUpdateTrigger
    apply triple_get_bind
    intro s hs
    refine triple_bind (Q := fun _ _ => False) (triple_lift ?_ ?_) fun _ _ hfalse => hfalse.elim
    · have hnone : s.settings.find s.settings.trigger.triggerSource = none := by
        rw [hs.settings]
        exact Option.not_isSome_iff_eq_none.mp h
      intro level hok
      simp only [voltageToAdcCounts, hnone, reduceCtorEq] at hok
    · exact fun _ _ t ht => ht ▸ hs
  unfold reprogram
  apply triple_get_bind
  intro s hs
  refine triple_bind ((stays_of_keeps (keeps_haltAndUpdate d apart_fixed).when).imp (fun t ht => ht ▸ hs)
    (fun _ _ ht => ht) fun _ ht => ht) fun _ => ?_
  exact triple_bind htrigger fun _ _ hfalse => hfalse.elim

/-! ### States of a run -/

/-- The channels are inputs of the device. -/
def Lettered (settings : OscilloscopeSettings) : Prop :=
  ∀ id ∈ settings.channels.map (·.channelId), ∃ l, id = .alphabetic l ∧ 'A' ≤ l ∧ l ≤ 'D'

structure PicoScope2000.Sound (s : PicoScope2000) : Prop where
  placed : s.held.Placed
  lettered : Lettered s.settings
  splits : Splits s.settings s.worked

theorem clamp_eq (settings : OscilloscopeSettings) : ∃ level,
    clampTriggerLevelToRange settings = { settings with trigger := { settings.trigger with triggerLevel := level } } := by
  unfold clampTriggerLevelToRange
  split
  · exact ⟨settings.trigger.triggerLevel, rfl⟩
  · dsimp only
    split_ifs
    · exact ⟨_, rfl⟩
    · exact ⟨settings.trigger.triggerLevel, rfl⟩

theorem fit_of_find {settings : OscilloscopeSettings} {c : ChannelSettings} (hlettered : Lettered settings)
    (hfind : settings.find settings.trigger.triggerSource = some c)
    (hlevel : |settings.trigger.triggerLevel| ≤ rangeVolts c) : Fit settings := by
  refine ⟨⟨c, hfind, (le_abs_self _).trans hlevel⟩, hlettered _ ?_⟩
  have hsource := List.find?_some (show (settings.channels.find? _) = some c from hfind)
  exact of_decide_eq_true hsource ▸ List.mem_map_of_mem (List.mem_of_find?_eq_some hfind)

theorem PicoScope2000.Sound.fit {s : PicoScope2000} (hs : s.Sound) : Fit s.settings := by
  obtain ⟨c, hfind⟩ := Option.isSome_iff_exists.mp hs.placed.sourced
  exact fit_of_find hs.lettered hfind (hs.placed.inside c hfind)

theorem fit_clamp {settings : OscilloscopeSettings} (hlettered : Lettered settings) (hsourced : (held settings).Sourced) :
    Fit (clampTriggerLevelToRange settings) := by
  obtain ⟨c, hfind⟩ := Option.isSome_iff_exists.mp hsourced
  have hlevel := congrArg Held.level (held_clamp hfind)
  obtain ⟨level, heq⟩ := clamp_eq settings
  rw [heq] at hlevel ⊢
  refine fit_of_find (c := c) hlettered hfind ?_
  show |level| ≤ rangeVolts c
  rw [show level = _ from hlevel]
  exact abs_nearest_le (rangeVolts_pos c).le _

theorem Follows.clamp {setter : Setter} {s t : OscilloscopeSettings} (h : Follows setter s t) :
    Follows setter s (clampTriggerLevelToRange t) := by
  obtain ⟨level, heq⟩ := clamp_eq t
  rw [heq]
  exact ⟨h.ids, h.position, h.timePerDiv, h.slope, h.depth⟩

/-- The setter's calls up to the memory depth. -/
def callsBefore (settings : OscilloscopeSettings) (setter : Setter) : Nat :=
  early settings.channels.length (slopeAfter setter settings.trigger.triggerSlope)

theorem Follows.earlyCalls_eq {setter : Setter} {s t : OscilloscopeSettings} (h : Follows setter s t) :
    earlyCalls t = callsBefore s setter := by
  have hlength := congrArg List.length h.ids
  rw [List.length_map, List.length_map] at hlength
  unfold earlyCalls callsBefore
  rw [hlength, h.slope]

theorem Follows.harmless {setter : Setter} {s t : OscilloscopeSettings} (h : Follows setter s t) {d : Device}
    {w : Worked} (hharmless : Harmless d w (switched setter s)) : Harmless d w t := by
  have htime : (switched setter s).timePerDiv = s.timePerDiv := by
    cases setter with
    | _ => rfl
  unfold Harmless at hharmless ⊢
  rw [htime] at hharmless
  rw [h.depth, h.timePerDiv]
  exact hharmless

theorem Follows.splits {setter : Setter} {s t : OscilloscopeSettings} (h : Follows setter s t) {w : Worked}
    (hsplits : Splits s w) : Splits t w := by
  unfold Splits at hsplits ⊢
  rw [h.position]
  exact hsplits

section Runs

variable (d : Device) {p : ℚ}

/-- The samples around the trigger are what the depth and the position give. -/
def Split (p : ℚ) (s : PicoScope2000) : Prop := s.settings.trigger.triggerPosition = p ∧ Splits s.settings s.worked

structure Placing where
  position : ℚ
  memoryDepth : Nat
  split : Nat × Nat

def PicoScope2000.placing (s : PicoScope2000) : Placing :=
  ⟨s.settings.trigger.triggerPosition, s.memoryDepth, s.preTriggerSamples, s.postTriggerSamples⟩

theorem apart_placing : Apart PicoScope2000.placing := ⟨fun _ _ => rfl, fun _ _ _ => rfl⟩

theorem split_of_keeps {α : Type} {x : Act α} (hx : Keeps PicoScope2000.placing x) :
    Triple (Split p) x (fun _ => Split p) (Split p) :=
  hx.triple fun q => q.position = p ∧ q.split = triggerPositionSplit q.memoryDepth q.position

theorem split_of_attempt {α : Type} {x : Act α} (hx : Triple (Split p) x (fun _ => Split p) (Split p))
    {E : PicoScope2000 → Prop} : Triple (Split p) (attempt x) (fun _ => Split p) E := by
  refine (triple_attempt hx).imp (fun _ hs => hs) (fun tried s hs => ?_) fun _ hs => hs
  cases tried with
  | ok a => exact hs
  | error e => exact hs

theorem split_updateMemoryDepth : Triple (Split p) (updateMemoryDepth d) (fun _ => Split p) (Split p) := by
  unfold updateMemoryDepth
  apply triple_get_bind
  intro s hs
  refine triple_bind ((split_of_keeps (keeps_setScopeTimePerDiv d apart_placing.watch (fun _ _ => rfl) (fun _ _ => rfl)
    _ _)).imp (fun t ht => ht ▸ hs) (fun _ _ ht => ht) fun _ ht => ht) fun _ => ?_
  exact triple_modify fun t ht => ⟨ht.1, rfl⟩

theorem split_doMemoryDepthUpdate : Triple (Split p) (doMemoryDepthUpdate d) (fun _ => Split p) (Split p) := by
  unfold doMemoryDepthUpdate
  apply triple_get_bind
  intro s hs
  refine triple_when (fun _ => ?_) fun _ t ht => ht ▸ hs
  refine triple_bind ((split_of_attempt (split_updateMemoryDepth d)).imp (fun t ht => ht ▸ hs) (fun _ _ ht => ht)
    fun _ ht => ht) fun _ => ?_
  exact triple_modify fun t ht => ht

theorem split_retryMemoryDepth : Triple (Split p) (retryMemoryDepth d) (fun _ => Split p) (Split p) := by
  unfold retryMemoryDepth
  apply triple_get_bind
  intro s hs
  refine triple_when (fun _ => ?_) fun _ t ht => ht ▸ hs
  refine triple_bind ((split_of_keeps (keeps_halt d apart_placing)).imp (fun t ht => ht ▸ hs) (fun _ _ ht => ht)
    fun _ ht => ht) fun _ => ?_
  exact triple_bind (split_of_attempt (split_updateMemoryDepth d)) fun _ => triple_modify fun t ht => ht

/-- Arming a block splits it at the position asked for. -/
theorem split_runBlock : Triple (fun _ => True) (runBlock d p) (fun _ => Split p) (Split p) := by
  unfold runBlock
  refine triple_bind (triple_modify (Q := fun _ => Split p) fun _ _ => ⟨rfl, rfl⟩) fun _ => ?_
  refine triple_bind (split_of_keeps (keeps_haltIfRunning d apart_placing)) fun _ => ?_
  refine triple_bind (split_of_keeps (keeps_doUpdateChannel d apart_placing.watch)) fun _ => ?_
  refine triple_bind (split_of_keeps (keeps_doUpdateTrigger d apart_placing.watch)) fun _ => ?_
  refine triple_bind (split_doMemoryDepthUpdate d) fun _ => ?_
  refine triple_bind (split_retryMemoryDepth d) fun _ => ?_
  apply triple_get_bind
  intro s hs
  refine triple_bind ((split_of_keeps (keeps_call d apart_placing.watch _)).imp (fun t ht => ht ▸ hs) (fun _ _ ht => ht)
    fun _ ht => ht) fun _ => ?_
  exact triple_modify fun t ht => ht

theorem split_rearmHere : Triple (Split p) (rearmHere d) (fun _ => Split p) (Split p) := by
  unfold rearmHere
  apply triple_get_bind
  rintro s ⟨rfl, -⟩
  exact (split_runBlock d).imp (fun _ _ => trivial) (fun _ _ ht => ht) fun _ ht => ht

theorem split_reprogram : Triple (Split p) (reprogram d) (fun _ => Split p) (Split p) := by
  unfold reprogram
  apply triple_get_bind
  intro s hs
  refine triple_bind ((split_of_keeps (keeps_haltAndUpdate d apart_placing).when).imp (fun t ht => ht ▸ hs)
    (fun _ _ ht => ht) fun _ ht => ht) fun _ => ?_
  refine triple_bind (split_of_keeps (keeps_doUpdateTrigger d apart_placing.watch)) fun _ => ?_
  refine triple_when (fun _ => ?_) fun _ _ ht => ht
  exact triple_bind (split_doMemoryDepthUpdate d) fun _ => split_rearmHere d

theorem split_restoreHardware (wasCapturing : Bool) :
    Triple (Split p) (restoreHardware d wasCapturing) (fun _ => Split p) (Split p) := by
  unfold restoreHardware
  refine triple_bind (split_of_keeps (keeps_call d apart_placing.watch _).attempt) fun _ => ?_
  refine triple_bind (triple_modify (Q := fun _ => Split p) fun _ ht => ht) fun _ => ?_
  refine triple_bind (split_of_keeps (keeps_doUpdateChannel d apart_placing.watch)) fun _ => ?_
  refine triple_bind (split_of_keeps (keeps_doUpdateTrigger d apart_placing.watch)) fun _ => ?_
  exact triple_when (fun _ => split_rearmHere d) fun _ _ ht => ht

theorem split_changeSettings {setter : Setter} {change : OscilloscopeSettings → Except Error OscilloscopeSettings}
    (hchange : Changes setter change) :
    Triple (Split p) (changeSettings d change) (fun _ => Split p) (Split p) := by
  unfold changeSettings
  apply triple_get_bind
  intro s hs
  have happly : Triple (· = s) (applyChange d change) (fun _ => Split p) (Split p) := by
    refine applyChange_rule d (fun _ _ => hs) fun t hok => ?_
    have hfollows := (hchange.follows _ t hok).clamp
    refine (split_reprogram d).imp ?_ (fun _ _ ht => ht) fun _ ht => ht
    rintro u rfl
    exact ⟨hfollows.position.trans hs.1, hfollows.splits hs.2⟩
  refine triple_bind (triple_attempt happly) fun tried => ?_
  cases tried with
  | ok a => exact triple_pure fun _ ht => ht
  | error e =>
    refine triple_bind (triple_modify (Q := fun _ => Split p) ?_) fun _ => ?_
    · -- the position did not change, so that the split fits the settings put back as well
      rintro t ⟨hposition, hsplits⟩
      refine ⟨hs.1, ?_⟩
      unfold Splits at hsplits ⊢
      rw [hs.1, ← hposition]
      exact hsplits
    refine triple_bind (split_of_attempt (split_restoreHardware d _)) fun recovery => ?_
    refine triple_bind (triple_modify (Q := fun _ => Split p) fun _ ht => ht) fun _ => ?_
    exact triple_throw fun _ ht => ht

theorem split_setTimePerDiv (timePerDiv : ℚ) :
    Triple (Split p) (setTimePerDiv d timePerDiv) (fun _ => Split p) (Split p) := by
  unfold setTimePerDiv
  apply triple_get_bind
  intro s hs
  refine triple_bind ((split_of_keeps (keeps_setScopeTimePerDiv d apart_placing.watch (fun _ _ => rfl) (fun _ _ => rfl)
    _ _)).imp (fun t ht => ht ▸ hs) (fun _ _ ht => ht) fun _ ht => ht) fun _ => ?_
  refine triple_when (fun _ => ?_) fun _ _ ht => ht
  refine triple_bind (split_of_keeps (keeps_halt d apart_placing)) fun _ => ?_
  refine triple_bind (split_of_keeps (keeps_doUpdateChannel d apart_placing.watch)) fun _ => ?_
  refine triple_bind (triple_modify (Q := fun _ => Split p) fun _ ht => ht) fun _ => ?_
  refine triple_bind (split_of_keeps (keeps_doUpdateTrigger d apart_placing.watch)) fun _ => ?_
  exact split_rearmHere d

theorem split_set (setter : Setter) : Triple (Split p) (set d setter) (fun _ => Split p) (Split p) := by
  by_cases hdiv : ∃ t, setter = .timePerDiv t
  · obtain ⟨t, rfl⟩ := hdiv
    exact split_setTimePerDiv d t
  · refine set_rule d setter (fun t ht => hdiv ⟨t, ht⟩) (fun _ hs => hs) (fun _ _ hs => hs) ?_
      fun _ _ hchange => split_changeSettings d hchange
    intro s settings hs _ htrigger
    unfold Split Splits at hs ⊢
    rw [htrigger]
    exact hs

end Runs

/-! ### When a refused setter changes nothing -/

/-- While a block is armed: the depth is not come to, or it comes out as it is; or a call before it is refused; or no
call is. -/
def RollsBack (d : Device) (s : PicoScope2000) (setter : Setter) : Prop :=
  (switches setter = true ∨ s.due →
      Harmless d s.worked s.settings ∧ Harmless d s.worked (switched setter s.settings)) ∨
    (Harmless d s.worked s.settings ∧
      (OnScope s.settings setter → ∃ j < callsBefore s.settings setter, d.accepts j = false)) ∨
    (OnScope s.settings setter ∧ Obliges d (callsBefore s.settings setter))

/-- The time/div finds a timebase and nothing is refused, or it is the one there is and finds none. -/
def TakesTimePerDiv (d : Device) (s : PicoScope2000) (timePerDiv : ℚ) : Prop :=
  if (timebaseFor d 0 s.memoryDepth timePerDiv).isSome then
    s.isCapturing = true → Obliges d (earlyCalls s.settings)
  else timePerDiv = s.settings.timePerDiv

def Meets (s : PicoScope2000) (e : Event) : Prop :=
  match e.op with
  | .set (.timePerDiv t) => TakesTimePerDiv e.device s t
  | .set setter =>
    Refuses s.settings setter ∨ Local setter ∨ (s.isCapturing = true → RollsBack e.device s setter)
  | _ => True

/-- A setter that raises, and does not warn that the hardware could not be put back, has changed nothing. -/
def Unchanged (s : PicoScope2000) (e : Event) : Prop :=
  ∀ setter err t, e.op = .set setter → outcome s e = (.error err, t) → t.watch.warned = false → t.view = s.view

theorem unchanged_change (d : Device) {setter : Setter} {change : OscilloscopeSettings → Except Error OscilloscopeSettings}
    (hchange : Changes setter change) {s : PicoScope2000} (hs : s.Sound) (hcalls : s.watch.calls = 0)
    (hmeets : s.isCapturing = true → RollsBack d s setter) :
    Triple (· = s) (changeSettings d change) (fun _ _ => True) fun t => t.watch.warned = false → t.view = s.view := by
  -- what is due at the start may come due again while the hardware is put back
  have hset : ∀ t (due : Prop), (s.due → due) →
      Stays (clampTriggerLevelToRange t) s.worked due { s with settings := clampTriggerLevelToRange t } :=
    fun t due hdue => ⟨rfl, rfl, hdue⟩
  by_cases hcapturing : s.isCapturing = true
  · have hcounted : ∀ t, Counted d (clampTriggerLevelToRange t) s.worked true 0
        { s with settings := clampTriggerLevelToRange t } := fun t => ⟨rfl, rfl, hcapturing, hcalls, nofun⟩
    rcases hmeets hcapturing with hcalm | ⟨hharmless, hearly⟩ | ⟨hon, hobliges⟩
    · -- the depth comes out as it is
      refine @changeSettings_unchanged d s.due _ _ hs.splits (fun _ hdue => (hcalm (Or.inr hdue)).1) ?_
      refine applyChange_rule d (fun _ _ => ⟨rfl, id⟩) fun t hok => ?_
      have hfollows := (hchange.follows _ t hok).clamp
      have hharmless : s.due → Harmless d s.worked (clampTriggerLevelToRange t) :=
        fun hdue => hfollows.harmless (hcalm (Or.inr hdue)).2
      refine (stays_reprogram d true (fun _ => hharmless) (hfollows.splits hs.splits)).imp ?_ (fun _ _ ht => ht) ?_
      · rintro u rfl
        exact ⟨hset t _ id, hcapturing⟩
      · exact fun u hu => ⟨hu.worked, hu.due⟩
    · -- the depth is not come to
      refine @changeSettings_unchanged d True _ _ hs.splits (fun _ _ => hharmless) ?_
      refine applyChange_rule d (fun _ _ => ⟨rfl, fun _ => trivial⟩) fun t hok => ?_
      have hfollows := hchange.follows _ t hok
      by_cases hsourced : (held t).Sourced
      · have hlettered : Lettered t := by
          unfold Lettered
          rw [hfollows.ids]
          exact hs.lettered
        have hrefused : ∃ j < earlyCalls (clampTriggerLevelToRange t), d.accepts j = false := by
          rw [hfollows.clamp.earlyCalls_eq]
          exact hearly (hchange.onScope _ t hok hsourced)
        refine (reprogram_refusedBefore (w := s.worked) (fit_clamp hlettered hsourced) hrefused).imp ?_ (fun _ _ ht => ht) ?_
        · exact fun u hu => hu ▸ hcounted t
        · exact fun u hu => ⟨hu, fun _ => trivial⟩
      · refine (reprogram_unsourced (w := s.worked) d True fun h => hsourced (clamp_sourced h)).imp ?_ (fun _ _ hfalse => hfalse.elim) ?_
        · exact fun u hu => hu ▸ hset t True fun _ => trivial
        · exact fun u hu => ⟨hu.worked, hu.due⟩
    · -- nothing is refused
      obtain ⟨t, hok, hsourced⟩ := hchange.valid _ hon hs.placed.sourced
      have hfollows := hchange.follows _ t hok
      refine @changeSettings_unchanged d False _ _ hs.splits (fun _ => nofun) ?_
      refine applyChange_rule d (fun e he => ?_) fun t' hok' => ?_
      · cases hok.symm.trans he
      · cases hok.symm.trans hok'
        have hlettered : Lettered t := by
          unfold Lettered
          rw [hfollows.ids]
          exact hs.lettered
        rw [← hfollows.clamp.earlyCalls_eq] at hobliges
        refine (reprogram_obliged (w := s.worked) (fit_clamp hlettered hsourced) hobliges).imp ?_ (fun _ _ ht => ht)
          fun _ hfalse => hfalse.elim
        exact fun u hu => hu ▸ hcounted t
  · -- no block is armed, and none will be
    refine @changeSettings_unchanged d s.due _ _ hs.splits (fun h => absurd h hcapturing) ?_
    refine applyChange_rule d (fun _ _ => ⟨rfl, id⟩) fun t hok => ?_
    have hsplits := (hchange.follows _ t hok).clamp.splits hs.splits
    have hidle : false = true → s.due → Harmless d s.worked (clampTriggerLevelToRange t) := nofun
    refine (stays_reprogram d false hidle hsplits).imp ?_ (fun _ _ ht => ht) ?_
    · rintro u rfl
      exact ⟨hset t _ id, Bool.eq_false_iff.mpr hcapturing⟩
    · exact fun u hu => ⟨hu.worked, hu.due⟩

theorem setTimePerDiv_unchanged (d : Device) {s : PicoScope2000} {timePerDiv : ℚ} (hs : s.Sound) (hstart : s.watch = .start)
    (hmeets : TakesTimePerDiv d s timePerDiv) :
    Triple (· = s) (setTimePerDiv d timePerDiv) (fun _ _ => True) fun t => t.view = s.view := by
  unfold TakesTimePerDiv at hmeets
  by_cases hfound : (timebaseFor d 0 s.memoryDepth timePerDiv).isSome
  · rw [if_pos hfound] at hmeets
    exact (setTimePerDiv_obliged hstart hs.fit hfound hmeets).imp (fun _ ht => ht) (fun _ _ ht => ht)
      fun _ hfalse => hfalse.elim
  · rw [if_neg hfound] at hmeets
    subst hmeets
    unfold setTimePerDiv
    apply triple_get_bind
    rintro s' rfl
    refine triple_bind (Q := fun _ _ => False) ?_ fun _ _ hfalse => hfalse.elim
    unfold setScopeTimePerDiv
    refine triple_bind (triple_modify (Q := fun _ t => t = s') ?_) fun _ => ?_
    · rintro t rfl
      rfl
    apply triple_get_bind
    rintro t rfl
    refine triple_bind (triple_modify (Q := fun _ u => u.view = t.view) ?_) fun _ => ?_
    · rintro u rfl
      rfl
    have hnone : timebaseFor d Watch.start.searches t.memoryDepth t.settings.timePerDiv = none :=
      Option.not_isSome_iff_eq_none.mp hfound
    rw [hstart, hnone]
    exact triple_throw fun u hu => hu

theorem PicoScope2000.Sound.of_view {s t : PicoScope2000} (hs : s.Sound) (hview : t.view = s.view) : t.Sound := by
  have hsettings : t.settings = s.settings := congrArg View.settings hview
  have hworked : t.worked = s.worked := congrArg View.worked hview
  refine ⟨?_, ?_, ?_⟩
  · unfold PicoScope2000.held
    rw [hsettings]
    exact hs.placed
  · rw [hsettings]
    exact hs.lettered
  · rw [hsettings, hworked]
    exact hs.splits

theorem RollsBack.of_view {d : Device} {s t : PicoScope2000} {setter : Setter} (h : RollsBack d s setter)
    (hview : t.view = s.view) (hdue : switches setter = true ∨ t.due → switches setter = true ∨ s.due) :
    RollsBack d t setter := by
  have hsettings : t.settings = s.settings := congrArg View.settings hview
  have hworked : t.worked = s.worked := congrArg View.worked hview
  unfold RollsBack
  rw [hsettings, hworked]
  exact h.imp_left fun hcalm hd => hcalm (hdue hd)

/-- A refused setter changes nothing where it meets its condition. -/
theorem set_unchanged (d : Device) {setter : Setter} {s : PicoScope2000} (hs : s.Sound) (hstart : s.watch = .start)
    (hmeets : Meets s ⟨.set setter, d⟩) :
    Triple (· = s) (set d setter) (fun _ _ => True) fun t => t.watch.warned = false → t.view = s.view := by
  by_cases hdiv : ∃ t, setter = .timePerDiv t
  · obtain ⟨t, rfl⟩ := hdiv
    exact (setTimePerDiv_unchanged d hs hstart hmeets).imp (fun _ ht => ht) (fun _ _ ht => ht) fun _ ht _ => ht
  · have hmeets' : Refuses s.settings setter ∨ Local setter ∨ (s.isCapturing = true → RollsBack d s setter) := by
      cases setter with
      | timePerDiv t => exact absurd ⟨t, rfl⟩ hdiv
      | _ => exact hmeets
    rcases hmeets' with hrefuses | hrest
    · exact (set_refuses d hrefuses).imp (fun _ ht => ht) (fun _ _ hfalse => hfalse.elim) fun t ht _ => ht ▸ rfl
    · let ready : PicoScope2000 → Prop := fun t =>
        t.view = s.view ∧ t.watch = .start ∧ (t.due → switches setter = true ∨ s.due)
      let unchanged : PicoScope2000 → Prop := fun t => t.watch.warned = false → t.view = s.view
      refine (set_rule d (P := ready) (E := unchanged) (Q := fun _ => True) setter (fun t ht => hdiv ⟨t, ht⟩)
        (fun t ht _ => ht.1) ?_ (fun _ _ _ _ _ => trivial) ?_).imp ?_ (fun _ _ ht => ht) fun _ ht => ht
      · exact fun hswitch t ht => ⟨ht.1, ht.2.1, fun _ => Or.inl hswitch⟩
      · intro change hlocal hchange
        apply triple_start
        rintro t ⟨hview, hwatch, hdue⟩
        refine (unchanged_change d hchange (hs.of_view hview) (congrArg Watch.calls hwatch) ?_).imp (fun _ hu => hu)
          (fun _ _ hu => hu) fun u hu hwarned => (hu hwarned).trans hview
        intro hcapturing
        have hsame : t.isCapturing = s.isCapturing := congrArg View.armed hview
        exact (hrest.resolve_left hlocal (hsame ▸ hcapturing)).of_view hview fun h => h.elim Or.inl hdue
      · rintro t rfl
        exact ⟨rfl, hstart, Or.inr⟩

end Lager.Pico.Ps2000
