import Lager.Lib.Nearest
import Lager.Lib.Run
import Lager.Pico.Ps2000

/-!
# Where the trigger level stays

The level is stored at the input of the trigger's source and shown at its probe. `Held` is the part of the settings
that decides it. Programming the device keeps that part, so what an operation does to the level is what its setter and
`clamp_trigger_level_to_range` do (`changeSettings_held`).
-/

namespace Lager.Pico.Ps2000

open Lager.Lib
open Lager.Scope (ChannelId Coupling TriggerSlope CaptureMode)

structure Held where
  channels : List ChannelSettings
  level : ℚ
  source : ChannelId

def held (settings : OscilloscopeSettings) : Held :=
  ⟨settings.channels, settings.trigger.triggerLevel, settings.trigger.triggerSource⟩

def PicoScope2000.held (s : PicoScope2000) : Held := Ps2000.held s.settings

/-! ### Programming the device keeps what is held -/

/-- A part of the state that neither a call nor starting and stopping the hardware has to do with. -/
structure Apart {γ : Type} (f : PicoScope2000 → γ) : Prop where
  watch : ∀ s watch, f { s with watch } = f s
  running : ∀ s isCapturing isStreaming, f { s with isCapturing, isStreaming } = f s

theorem apart_held : Apart PicoScope2000.held := ⟨fun _ _ => rfl, fun _ _ _ => rfl⟩

section Keeps

variable (d : Device) {γ : Type} {f : PicoScope2000 → γ}

theorem keeps_call (hwatch : ∀ s watch, f { s with watch } = f s) (c : Call) : Keeps f (call d c) := by
  unfold call
  apply keeps_get.bind
  intro s
  refine Keeps.bind (keeps_modify fun _ => hwatch _ _) fun _ => ?_
  exact (keeps_throw _).when

theorem keeps_halt (hf : Apart f) : Keeps f (halt d) :=
  (keeps_call d hf.watch _).bind fun _ => keeps_modify fun _ => hf.running _ _ _

theorem keeps_doUpdateChannel (hwatch : ∀ s watch, f { s with watch } = f s) : Keeps f (doUpdateChannel d) :=
  keeps_get.bind fun _ => keeps_forM fun _ _ => keeps_call d hwatch _

theorem keeps_doUpdateTrigger (hwatch : ∀ s watch, f { s with watch } = f s) : Keeps f (doUpdateTrigger d) := by
  unfold doUpdateTrigger
  apply keeps_get.bind
  intro s
  apply (keeps_lift _).bind
  intro level
  apply (keeps_lift _).bind
  intro conditions
  cases conditions with
  | none => exact keeps_call d hwatch _
  | some source =>
    apply (keeps_call d hwatch _).bind
    intro
    apply (keeps_call d hwatch _).bind
    intro
    exact (keeps_call d hwatch _).bind fun _ => keeps_call d hwatch _

theorem keeps_haltIfRunning (hf : Apart f) : Keeps f (haltIfRunning d) := by
  unfold haltIfRunning
  apply keeps_get.bind
  intro s
  apply Keeps.when
  exact (keeps_halt d hf).attempt.bind fun _ => keeps_pure ()

/-- A setter's halt, and the channels programmed again. -/
theorem keeps_haltAndUpdate (hf : Apart f) : Keeps f (do
    halt d
    doUpdateChannel d
    modify fun s => { s with isCapturing := true }) := by
  apply (keeps_halt d hf).bind
  intro
  exact (keeps_doUpdateChannel d hf.watch).bind fun _ => keeps_modify fun _ => hf.running _ _ _

theorem keeps_setScopeTimePerDiv (hwatch : ∀ s watch, f { s with watch } = f s)
    (htime : ∀ s timePerDiv, f { s with settings := { s.settings with timePerDiv } } = f s)
    (hcurrent : ∀ s current, f { s with current } = f s) (timePerDiv : ℚ) (memoryDepth : Nat) :
    Keeps f (setScopeTimePerDiv d timePerDiv memoryDepth) := by
  unfold setScopeTimePerDiv
  refine Keeps.bind (keeps_modify fun s => htime s timePerDiv) ?_
  intro
  apply keeps_get.bind
  intro s
  refine Keeps.bind (keeps_modify fun _ => hwatch _ _) ?_
  intro
  split
  · exact keeps_modify fun s => hcurrent s _
  · exact keeps_throw _

theorem keeps_updateMemoryDepth : Keeps PicoScope2000.held (updateMemoryDepth d) := by
  unfold updateMemoryDepth
  apply keeps_get.bind
  intro s
  apply (keeps_setScopeTimePerDiv d apart_held.watch (fun _ _ => rfl) (fun _ _ => rfl) _ _).bind
  exact fun _ => keeps_modify fun _ => rfl

theorem keeps_doMemoryDepthUpdate : Keeps PicoScope2000.held (doMemoryDepthUpdate d) := by
  unfold doMemoryDepthUpdate
  apply keeps_get.bind
  intro s
  apply Keeps.when
  exact (keeps_updateMemoryDepth d).attempt.bind fun _ => keeps_modify fun _ => rfl

theorem keeps_retryMemoryDepth : Keeps PicoScope2000.held (retryMemoryDepth d) := by
  unfold retryMemoryDepth
  apply keeps_get.bind
  intro s
  apply Keeps.when
  apply (keeps_halt d apart_held).bind
  intro
  exact (keeps_updateMemoryDepth d).attempt.bind fun _ => keeps_modify fun _ => rfl

theorem keeps_runBlock (percent : ℚ) : Keeps PicoScope2000.held (runBlock d percent) := by
  unfold runBlock
  refine Keeps.bind (keeps_modify fun _ => rfl) ?_
  intro
  apply (keeps_haltIfRunning d apart_held).bind
  intro
  apply (keeps_doUpdateChannel d apart_held.watch).bind
  intro
  apply (keeps_doUpdateTrigger d apart_held.watch).bind
  intro
  apply (keeps_doMemoryDepthUpdate d).bind
  intro
  apply (keeps_retryMemoryDepth d).bind
  intro
  apply keeps_get.bind
  intro s
  apply (keeps_call d apart_held.watch _).bind
  exact fun _ => keeps_modify fun _ => rfl

theorem keeps_rearmHere : Keeps PicoScope2000.held (rearmHere d) := keeps_get.bind fun _ => keeps_runBlock d _

theorem keeps_setTimePerDiv (timePerDiv : ℚ) : Keeps PicoScope2000.held (setTimePerDiv d timePerDiv) := by
  unfold setTimePerDiv
  apply keeps_get.bind
  intro s
  apply (keeps_setScopeTimePerDiv d apart_held.watch (fun _ _ => rfl) (fun _ _ => rfl) _ _).bind
  intro
  apply Keeps.when
  apply (keeps_halt d apart_held).bind
  intro
  apply (keeps_doUpdateChannel d apart_held.watch).bind
  intro
  refine Keeps.bind (keeps_modify fun _ => rfl) ?_
  intro
  exact (keeps_doUpdateTrigger d apart_held.watch).bind fun _ => keeps_rearmHere d

theorem keeps_restoreHardware (wasCapturing : Bool) : Keeps PicoScope2000.held (restoreHardware d wasCapturing) := by
  unfold restoreHardware
  apply (keeps_call d apart_held.watch _).attempt.bind
  intro
  refine Keeps.bind (keeps_modify fun _ => rfl) ?_
  intro
  apply (keeps_doUpdateChannel d apart_held.watch).bind
  intro
  apply (keeps_doUpdateTrigger d apart_held.watch).bind
  intro
  exact (keeps_rearmHere d).when

end Keeps

/-! ### A change of the settings -/

def Held.find (h : Held) (id : ChannelId) : Option ChannelSettings := h.channels.find? fun c => c.channelId = id

/-- The trigger's source is a channel of the scope. -/
def Held.Sourced (h : Held) : Prop := (h.find h.source).isSome

section Change

variable (d : Device)

theorem doUpdateTrigger_sourced (h : Held) :
    Triple (fun s => s.held = h) (doUpdateTrigger d) (fun _ s => s.held = h ∧ h.Sourced) (fun s => s.held = h) := by
  apply triple_start
  intro s hs
  by_cases hsource : h.Sourced
  · refine ((keeps_doUpdateTrigger d apart_held.watch).triple (· = h)).imp ?_ ?_ ?_
    · intro t ht
      exact ht ▸ hs
    · exact fun _ t ht => ⟨ht, hsource⟩
    · exact fun t ht => ht
  · -- no channel to convert the level by
    have hnone : s.settings.find s.settings.trigger.triggerSource = none := by
      subst hs
      exact Option.not_isSome_iff_eq_none.mp hsource
    unfold doUpdateTrigger
    apply triple_get_bind
    rintro t rfl
    refine triple_bind (triple_lift (Q := fun _ _ => False) ?_ ?_) fun _ _ hfalse => hfalse.elim
    · intro level hok
      simp only [voltageToAdcCounts, hnone, reduceCtorEq] at hok
    · rintro e - t rfl
      exact hs

theorem reprogram_sourced (h : Held) :
    Triple (fun s => s.held = h) (reprogram d) (fun _ s => s.held = h ∧ h.Sourced) (fun s => s.held = h) := by
  unfold reprogram
  apply triple_get_bind
  intro s hs
  have hfirst : Keeps PicoScope2000.held (when s.isCapturing do
      halt d
      doUpdateChannel d
      modify fun s => { s with isCapturing := true }) := (keeps_haltAndUpdate d apart_held).when
  have hlast : Keeps PicoScope2000.held (when s.isCapturing do
      doMemoryDepthUpdate d
      rearmHere d) :=
    Keeps.when ((keeps_doMemoryDepthUpdate d).bind fun _ => keeps_rearmHere d)
  refine triple_bind ((hfirst.triple (· = h)).imp (fun t ht => ht ▸ hs) (fun _ _ ht => ht) fun _ ht => ht) fun _ => ?_
  refine triple_bind (doUpdateTrigger_sourced d h) fun _ => ?_
  exact (hlast.triple fun k => k = h ∧ h.Sourced).imp (fun _ ht => ht) (fun _ _ ht => ht) fun _ ht => ht.1

theorem applyChange_held (change : OscilloscopeSettings → Except Error OscilloscopeSettings) (s : PicoScope2000) :
    Triple (· = s) (applyChange d change)
      (fun _ t => ∃ changed, change s.settings = .ok changed ∧
        t.held = held (clampTriggerLevelToRange changed) ∧ t.held.Sourced)
      (fun _ => True) := by
  unfold applyChange
  apply triple_get_bind
  rintro s' rfl
  refine triple_bind (Q := fun changed _ => change s'.settings = .ok changed) ?_ ?_
  · exact triple_lift (fun changed hok _ _ => hok) fun _ _ _ _ => trivial
  · intro changed
    apply triple_start
    intro t hok
    refine triple_bind (triple_modify
      (Q := fun _ t => t.held = held (clampTriggerLevelToRange changed)) fun _ _ => rfl) fun _ => ?_
    refine (reprogram_sourced d _).imp (fun _ ht => ht) ?_ fun _ _ => trivial
    rintro - t ⟨ht, hsource⟩
    exact ⟨changed, hok, ht, ht ▸ hsource⟩

/-- What a change leaves held: the changed settings with the level moved inside the range, or what was held before. -/
theorem changeSettings_held (change : OscilloscopeSettings → Except Error OscilloscopeSettings) (s : PicoScope2000) :
    Triple (· = s) (changeSettings d change)
      (fun _ t => ∃ changed, change s.settings = .ok changed ∧
        t.held = held (clampTriggerLevelToRange changed) ∧ t.held.Sourced)
      (fun t => t.held = s.held) := by
  unfold changeSettings
  apply triple_get_bind
  rintro s' rfl
  refine triple_bind (triple_attempt (applyChange_held d change s')) fun tried => ?_
  cases tried with
  | ok a => exact triple_pure fun _ ht => ht
  | error e =>
    refine triple_bind (triple_modify (Q := fun _ t => t.held = s'.held) fun _ _ => rfl) fun _ => ?_
    refine triple_bind (((keeps_restoreHardware d _).attempt.triple (· = s'.held)).imp
      (fun _ ht => ht) (fun _ _ ht => ht) fun _ ht => ht) fun recovery => ?_
    refine triple_bind (triple_modify (Q := fun _ t => t.held = s'.held) fun _ ht => ht) fun _ => ?_
    exact triple_throw fun _ ht => ht

end Change

/-! ### The level at the probe -/

/-- The probe of the trigger's source. -/
def Held.probe (h : Held) : ℚ :=
  match h.find h.source with
  | some c => if 0 < c.attenuation then c.attenuation else 1
  | none => 1

/-- What `get_trigger_level` answers. -/
def Held.shown (h : Held) : ℚ := toProbeVolts h.level h.probe

/-- The range of the source channel, at its probe. -/
def Held.reach (h : Held) : ℚ :=
  match h.find h.source with
  | some c => Ps2000.reach c
  | none => 0

theorem shown_held (settings : OscilloscopeSettings) : (held settings).shown = getScopeTriggerLevel settings := rfl

/-- The level is inside the range of the source, and every probe divides. -/
structure Held.Placed (h : Held) : Prop where
  sourced : h.Sourced
  inside : ∀ c, h.find h.source = some c → |h.level| ≤ rangeVolts c
  positive : ∀ c ∈ h.channels, 0 < c.attenuation

/-- The level shown has moved to the nearest value within reach. -/
structure Held.Moves (h k : Held) : Prop where
  placed : k.Placed
  shown : k.shown = nearest k.reach h.shown

theorem Held.find_mem {h : Held} {id : ChannelId} {c : ChannelSettings} (hfind : h.find id = some c) :
    c ∈ h.channels := List.mem_of_find?_eq_some hfind

theorem Held.probe_eq {h : Held} {c : ChannelSettings} (hfind : h.find h.source = some c) (hpos : 0 < c.attenuation) :
    h.probe = c.attenuation := by
  unfold Held.probe
  rw [hfind]
  exact if_pos hpos

theorem Held.shown_eq {h : Held} {c : ChannelSettings} (hfind : h.find h.source = some c) (hpos : 0 < c.attenuation) :
    h.shown = h.level * c.attenuation := by
  unfold Held.shown toProbeVolts
  rw [Held.probe_eq hfind hpos, if_neg (not_le.mpr hpos)]

theorem Held.reach_eq {h : Held} {c : ChannelSettings} (hfind : h.find h.source = some c) (hpos : 0 < c.attenuation) :
    h.reach = rangeVolts c * c.attenuation := by
  unfold Held.reach Ps2000.reach toProbeVolts
  rw [hfind]
  simp only [if_neg (not_le.mpr hpos)]

theorem Held.reach_pos {h : Held} (hsourced : h.Sourced) (hpos : ∀ c ∈ h.channels, 0 < c.attenuation) :
    0 < h.reach := by
  obtain ⟨c, hfind⟩ := Option.isSome_iff_exists.mp hsourced
  have hc := hpos c (Held.find_mem hfind)
  rw [Held.reach_eq hfind hc]
  exact mul_pos (rangeVolts_pos c) hc

theorem Held.Placed.shown_le {h : Held} (hp : h.Placed) : |h.shown| ≤ h.reach := by
  obtain ⟨c, hfind⟩ := Option.isSome_iff_exists.mp hp.sourced
  have hc := hp.positive c (Held.find_mem hfind)
  rw [Held.shown_eq hfind hc, Held.reach_eq hfind hc, abs_mul, abs_of_pos hc]
  exact mul_le_mul_of_nonneg_right (hp.inside c hfind) hc.le

theorem Held.Placed.moves {h : Held} (hp : h.Placed) : h.Moves h := ⟨hp, (nearest_of_le hp.shown_le).symm⟩

theorem copysign_eq_nearest {range level : ℚ} (hpos : 0 < range) (h : range < |level|) :
    copysign range level = nearest range level := by
  unfold copysign nearest
  rw [abs_of_pos hpos, if_pos h]

theorem held_clamp {settings : OscilloscopeSettings} {c : ChannelSettings}
    (hfind : settings.find settings.trigger.triggerSource = some c) :
    held (clampTriggerLevelToRange settings) =
      { held settings with level := nearest (rangeVolts c) settings.trigger.triggerLevel } := by
  unfold clampTriggerLevelToRange
  simp only [hfind]
  by_cases hfar : rangeVolts c < |settings.trigger.triggerLevel|
  · rw [if_pos hfar, ← copysign_eq_nearest (rangeVolts_pos c) hfar]
    rfl
  · rw [if_neg hfar, nearest_of_le (not_lt.mp hfar)]
    rfl

theorem clamp_keeps (settings : OscilloscopeSettings) :
    ∃ level, held (clampTriggerLevelToRange settings) = { held settings with level } := by
  cases hfind : settings.find settings.trigger.triggerSource with
  | none =>
    unfold clampTriggerLevelToRange
    rw [hfind]
    exact ⟨_, rfl⟩
  | some c => exact ⟨_, held_clamp hfind⟩

theorem clamp_sourced {settings : OscilloscopeSettings} (h : (held (clampTriggerLevelToRange settings)).Sourced) :
    (held settings).Sourced := by
  obtain ⟨level, heq⟩ := clamp_keeps settings
  rw [heq] at h
  exact h

theorem clamp_reach (settings : OscilloscopeSettings) :
    (held (clampTriggerLevelToRange settings)).reach = (held settings).reach := by
  obtain ⟨level, heq⟩ := clamp_keeps settings
  rw [heq]
  rfl

/-- The clamp moves the level shown to the nearest value within reach. -/
theorem clamp_moves {settings : OscilloscopeSettings}
    (hsourced : (held (clampTriggerLevelToRange settings)).Sourced)
    (hpos : ∀ c ∈ settings.channels, 0 < c.attenuation) {h : Held} (hshown : (held settings).shown = h.shown) :
    h.Moves (held (clampTriggerLevelToRange settings)) := by
  obtain ⟨c, hfind⟩ := Option.isSome_iff_exists.mp (clamp_sourced hsourced)
  have hc : 0 < c.attenuation := hpos c (List.mem_of_find?_eq_some hfind)
  rw [held_clamp hfind] at hsourced ⊢
  have hlevel := Held.shown_eq (h := held settings) hfind hc
  refine ⟨⟨hsourced, fun c' hc' => ?_, hpos⟩, ?_⟩
  · cases hfind.symm.trans hc'
    exact abs_nearest_le (rangeVolts_pos c).le _
  · let k : Held := { held settings with level := nearest (rangeVolts c) settings.trigger.triggerLevel }
    rw [Held.shown_eq (h := k) hfind hc, Held.reach_eq (h := k) hfind hc, ← hshown, hlevel]
    exact (nearest_mul hc _ _).symm

/-! ### The setters -/

theorem forall_changeFirst {change : ChannelSettings → ChannelSettings} {P : ChannelSettings → Prop}
    (hP : ∀ c, P c → P (change c)) (id : ChannelId) {l : List ChannelSettings} (hl : ∀ c ∈ l, P c) :
    ∀ c ∈ changeFirst id change l, P c := by
  induction l with
  | nil => exact nofun
  | cons c l ih =>
    unfold changeFirst
    have htail := ih fun c' hc' => hl c' (List.mem_cons_of_mem c hc')
    split
    · exact List.forall_mem_cons.mpr ⟨hP c (hl c List.mem_cons_self), fun c' hc' => hl c' (List.mem_cons_of_mem c hc')⟩
    · exact List.forall_mem_cons.mpr ⟨hl c List.mem_cons_self, htail⟩

theorem probe_changeFirst {change : ChannelSettings → ChannelSettings} (hid : ∀ c, (change c).channelId = c.channelId)
    (hatt : ∀ c, (change c).attenuation = c.attenuation) (id : ChannelId) (h : Held) :
    Held.probe { h with channels := changeFirst id change h.channels } = h.probe := by
  unfold Held.probe Held.find
  rw [find_changeFirst hid]
  split_ifs
  · cases hfind : h.channels.find? fun c => c.channelId = h.source with
    | none => rfl
    | some c => simp only [Option.map_some, hatt]
  · rfl

variable (d : Device)

/-- A change of a channel that is not one of its probe. -/
theorem changeChannel_moves (change : ChannelSettings → ChannelSettings) (hid : ∀ c, (change c).channelId = c.channelId)
    (hatt : ∀ c, (change c).attenuation = c.attenuation) (id : ChannelId) {h : Held} (hp : h.Placed) :
    Triple (fun s => s.held = h) (changeSettings d fun settings => channelSettingsMut settings id change)
      (fun _ t => h.Moves t.held) (fun t => h.Moves t.held) := by
  apply triple_start
  rintro s rfl
  refine (changeSettings_held d _ s).imp (fun _ ht => ht) ?_ fun t ht => ht ▸ hp.moves
  rintro - t ⟨changed, hok, ht, hsourced⟩
  obtain ⟨-, rfl⟩ := channelSettingsMut_eq_ok.mp hok
  rw [ht] at hsourced ⊢
  refine clamp_moves hsourced ?_ ?_
  · exact forall_changeFirst (fun c hc => (hatt c).symm ▸ hc) id hp.positive
  · exact congrArg (toProbeVolts _) (probe_changeFirst hid hatt id s.held)

/-- A change of the trigger that leaves its level and its source. -/
theorem changeTrigger_moves (change : TriggerSettings → TriggerSettings)
    (hlevel : ∀ t, (change t).triggerLevel = t.triggerLevel) (hsource : ∀ t, (change t).triggerSource = t.triggerSource)
    {h : Held} (hp : h.Placed) :
    Triple (fun s => s.held = h) (changeTrigger d change) (fun _ t => h.Moves t.held) (fun t => h.Moves t.held) := by
  apply triple_start
  rintro s rfl
  refine (changeSettings_held d _ s).imp (fun _ ht => ht) ?_ fun t ht => ht ▸ hp.moves
  rintro - t ⟨changed, hok, ht, hsourced⟩
  cases hok
  rw [ht] at hsourced ⊢
  refine clamp_moves hsourced hp.positive ?_
  have hheld : held { s.settings with trigger := change s.settings.trigger } = s.held := by
    unfold PicoScope2000.held held
    rw [hlevel, hsource]
  rw [hheld]

theorem toProbeVolts_toInputVolts {a : ℚ} (ha : 0 < a) (x : ℚ) : toProbeVolts (toInputVolts x a) a = x := by
  unfold toProbeVolts toInputVolts
  rw [if_neg (not_le.mpr ha), if_neg (not_le.mpr ha), div_mul_cancel₀ x ha.ne']

theorem probe_attenuated {a : ℚ} (ha : 0 < a) {h : Held} (hsourced : h.Sourced) (level : ℚ) :
    Held.probe ⟨changeFirst h.source (fun c => { c with attenuation := a }) h.channels, level, h.source⟩ = a := by
  obtain ⟨c, hc⟩ := Option.isSome_iff_exists.mp hsourced
  refine Held.probe_eq (c := { c with attenuation := a }) ?_ ha
  unfold Held.find
  rw [@find_changeFirst (fun c => { c with attenuation := a }) fun _ => rfl, if_pos rfl]
  exact congrArg (Option.map fun c : ChannelSettings => { c with attenuation := a }) hc

theorem setScopeAttenuation_moves (channel : ChannelId) (attenuation : ℚ) {h : Held} (hp : h.Placed) :
    Triple (fun s => s.held = h) (setScopeAttenuation d channel attenuation)
      (fun _ t => h.Moves t.held) (fun t => h.Moves t.held) := by
  unfold setScopeAttenuation
  refine triple_bind (Q := fun _ s => s.held = h ∧ 0 < attenuation) ?_ fun _ => ?_
  · apply triple_when
    · exact fun _ => triple_throw fun s hs => hs ▸ hp.moves
    · exact fun hpos s hs => ⟨hs, not_le.mp hpos⟩
  apply triple_get_bind
  rintro s ⟨rfl, ha⟩
  refine (changeSettings_held d _ s).imp (fun _ ht => ht) ?_ fun t ht => ht ▸ hp.moves
  rintro - t ⟨changed, hok, ht, hsourced⟩
  rw [ht] at hsourced ⊢
  obtain ⟨settings, hset, hrest⟩ := bind_eq_ok hok
  obtain ⟨hfound, rfl⟩ := channelSettingsMut_eq_ok.mp hset
  have hpositive : ∀ c ∈ changeFirst channel (fun c => { c with attenuation }) s.settings.channels, 0 < c.attenuation :=
    forall_changeFirst (fun _ _ => ha) channel hp.positive
  by_cases hchannel : channel = s.settings.trigger.triggerSource
  · -- the level is converted by both probes, so that it stays where it is at the tip
    subst hchannel
    rw [if_pos rfl] at hrest
    cases hrest
    refine clamp_moves hsourced hpositive ?_
    have hprobe := probe_attenuated ha hp.sourced (toInputVolts s.held.shown attenuation)
    exact (congrArg (toProbeVolts _) hprobe).trans (toProbeVolts_toInputVolts ha _)
  · rw [if_neg hchannel] at hrest
    cases hrest
    refine clamp_moves hsourced hpositive (congrArg (toProbeVolts _) ?_)
    unfold Held.probe Held.find held
    rw [@find_changeFirst (fun c => { c with attenuation }) (fun _ => rfl), if_neg (Ne.symm hchannel)]
    rfl

/-- The present source and the new one have the same probe, or there is no level to convert. -/
def Held.SameProbe (h : Held) (source : ChannelId) : Prop :=
  h.level = 0 ∨ ∀ c, h.find source = some c → c.attenuation = h.probe

theorem setScopeTriggerSource_moves (source : ChannelId) {h : Held} (hp : h.Placed) (hsame : h.SameProbe source) :
    Triple (fun s => s.held = h) (setScopeTriggerSource d source)
      (fun _ t => h.Moves t.held) (fun t => h.Moves t.held) := by
  apply triple_start
  rintro s rfl
  refine (changeSettings_held d _ s).imp (fun _ ht => ht) ?_ fun t ht => ht ▸ hp.moves
  rintro - t ⟨changed, hok, ht, hsourced⟩
  cases hok
  rw [ht] at hsourced ⊢
  refine clamp_moves hsourced hp.positive ?_
  let k : Held := ⟨s.settings.channels, s.settings.trigger.triggerLevel, source⟩
  show k.shown = s.held.shown
  unfold Held.shown
  rcases hsame with hzero | hsame
  · have hlevel : k.level = 0 := hzero
    rw [hlevel, hzero]
    simp [toProbeVolts]
  · obtain ⟨c, hc⟩ := Option.isSome_iff_exists.mp (clamp_sourced hsourced)
    have hpos : 0 < c.attenuation := hp.positive c (Held.find_mem (h := k) hc)
    have hprobe : k.probe = c.attenuation := Held.probe_eq hc hpos
    rw [hprobe, hsame c hc]
    rfl

theorem setScopeTriggerLevel_moves (level : ℚ) {h : Held} (hp : h.Placed) :
    Triple (fun s => s.held = h) (setScopeTriggerLevel d level)
      (fun _ t => t.held.Placed ∧ t.held.shown = level) (fun t => h.Moves t.held) := by
  unfold setScopeTriggerLevel
  apply triple_get_bind
  rintro s rfl
  obtain ⟨c, hfind⟩ := Option.isSome_iff_exists.mp hp.sourced
  have hpos : 0 < c.attenuation := hp.positive c (Held.find_mem hfind)
  have hfind' : s.settings.find s.settings.trigger.triggerSource = some c := hfind
  refine triple_bind (Q := fun _ t => t = s ∧ |level| ≤ reach c) ?_ fun _ => ?_
  · apply triple_lift
    · rintro ⟨⟩ hok t rfl
      unfold refuseBeyondReach at hok
      rw [hfind'] at hok
      by_cases hfar : reach c < |level|
      · simp only [if_pos hfar, reduceCtorEq] at hok
      · exact ⟨rfl, not_lt.mp hfar⟩
    · rintro e - t rfl
      exact hp.moves
  apply triple_start
  rintro s' ⟨rfl, hreach⟩
  refine (changeSettings_held d _ s').imp (fun _ ht => ht) ?_ fun t ht => ht ▸ hp.moves
  rintro - t ⟨changed, hok, ht, hsourced⟩
  cases hok
  rw [ht] at hsourced ⊢
  let k : Held := ⟨s'.settings.channels, toInputVolts level s'.held.probe, s'.settings.trigger.triggerSource⟩
  have hk : k.shown = level := by
    unfold Held.shown
    rw [Held.probe_eq (h := k) hfind hpos]
    show toProbeVolts (toInputVolts level s'.held.probe) c.attenuation = level
    rw [Held.probe_eq hfind hpos]
    exact toProbeVolts_toInputVolts hpos level
  have hmoves : k.Moves _ := clamp_moves hsourced hp.positive (h := k) rfl
  refine ⟨hmoves.placed, hmoves.shown.trans ?_⟩
  rw [hk, clamp_reach]
  apply nearest_of_le
  have hsource : k.find k.source = some c := hfind
  have hrange : k.reach = reach c := by
    unfold Held.reach
    rw [hsource]
  exact hreach.trans_eq hrange.symm

theorem moves_of_keeps {x : Act Unit} (hx : Keeps PicoScope2000.held x) {h : Held} (hp : h.Placed) :
    Triple (fun s => s.held = h) x (fun _ t => h.Moves t.held) (fun t => h.Moves t.held) :=
  (hx.triple (· = h)).imp (fun _ hs => hs) (fun _ _ ht => ht ▸ hp.moves) fun _ ht => ht ▸ hp.moves

theorem offset_moves (id : ChannelId) {h : Held} (hp : h.Placed) :
    h.Moves { h with channels := changeFirst id (fun c => { c with voltsOffset := 0 }) h.channels } := by
  let change : ChannelSettings → ChannelSettings := fun c => { c with voltsOffset := 0 }
  let k : Held := { h with channels := changeFirst id change h.channels }
  have hpositive : ∀ c ∈ k.channels, 0 < c.attenuation := @forall_changeFirst change _ (fun c hc => hc) id _ hp.positive
  obtain ⟨c, hfind⟩ := Option.isSome_iff_exists.mp hp.sourced
  have hc : 0 < c.attenuation := hp.positive c (Held.find_mem hfind)
  have hk : ∃ c', k.find k.source = some c' ∧ c'.attenuation = c.attenuation ∧ rangeVolts c' = rangeVolts c := by
    have hfind' : k.find k.source = if h.source = id then (h.find h.source).map change else h.find h.source :=
      @find_changeFirst change (fun _ => rfl) id h.source h.channels
    rw [hfind', hfind]
    split_ifs
    · exact ⟨change c, rfl, rfl, rfl⟩
    · exact ⟨c, rfl, rfl, rfl⟩
  obtain ⟨c', hfind', hatt, hrange⟩ := hk
  have hc' : 0 < c'.attenuation := hatt ▸ hc
  refine ⟨⟨Option.isSome_iff_exists.mpr ⟨c', hfind'⟩, fun c₀ hc₀ => ?_, hpositive⟩, ?_⟩
  · cases hfind'.symm.trans hc₀
    rw [hrange]
    exact hp.inside c hfind
  · have hshown : k.shown = h.shown := by
      rw [Held.shown_eq hfind' hc', Held.shown_eq hfind hc, hatt]
    have hreach : k.reach = h.reach := by
      rw [Held.reach_eq hfind' hc', Held.reach_eq hfind hc, hatt, hrange]
    show k.shown = nearest k.reach h.shown
    rw [hshown, hreach, nearest_of_le hp.shown_le]

/-- The level that a setter asks for. -/
def asked : Setter → Option ℚ
  | .triggerLevel level => some level
  | _ => none

/-- What an accepted operation does to the level shown, with the level it asks for. -/
def Held.Answers (h : Held) : Option ℚ → Held → Prop
  | some level, k => k.Placed ∧ k.shown = level
  | none, k => h.Moves k

/-- A setter moves the source only to a channel with the same probe. -/
def Held.Converts (h : Held) : Setter → Prop
  | .triggerSource source => h.SameProbe source
  | _ => True

/-- Refused, a setter leaves the level where it is. -/
theorem set_level (setter : Setter) {h : Held} (hp : h.Placed) (hconv : h.Converts setter) :
    Triple (fun s => s.held = h) (set d setter) (fun _ t => h.Answers (asked setter) t.held) (fun t => h.Moves t.held) := by
  have hrefuse : ∀ (c : Prop) [Decidable c] (e : Error),
      Triple (fun s : PicoScope2000 => s.held = h) (when c (throw e)) (fun _ s => s.held = h) (fun t => h.Moves t.held) :=
    fun c _ e => triple_when (fun _ => triple_throw fun s hs => hs ▸ hp.moves) fun _ s hs => hs
  have henable : ∀ c enabled, Triple (fun s => s.held = h) (enableDisableScopeChannel d c enabled)
      (fun _ t => h.Moves t.held) (fun t => h.Moves t.held) := by
    intro c enabled
    refine triple_bind (triple_modify (Q := fun _ s => s.held = h) fun _ hs => hs) fun _ => ?_
    exact changeChannel_moves d (fun c => { c with enabled }) (fun _ => rfl) (fun _ => rfl) c hp
  cases setter with
  | enableChannel c => exact henable c true
  | disableChannel c => exact henable c false
  | voltsPerDiv c v =>
    refine triple_bind (hrefuse _ _) fun _ => ?_
    exact changeChannel_moves d (fun c => { c with voltsPerDiv := v }) (fun _ => rfl) (fun _ => rfl) c hp
  | voltsOffset c v =>
    refine triple_bind (hrefuse _ _) fun _ => triple_get_bind ?_
    rintro s rfl
    split
    · exact triple_throw fun t ht => ht ▸ hp.moves
    · apply triple_modify
      rintro t rfl
      exact offset_moves c hp
  | coupling c k =>
    refine triple_bind (hrefuse _ _) fun _ => ?_
    exact changeChannel_moves d (fun c => { c with coupling := k }) (fun _ => rfl) (fun _ => rfl) c hp
  | attenuation c a => exact setScopeAttenuation_moves d c a hp
  | timePerDiv t => exact moves_of_keeps (keeps_setTimePerDiv d t) hp
  | timeOffset t => exact triple_modify fun s hs => hs ▸ hp.moves
  | triggerLevel l => exact setScopeTriggerLevel_moves d l hp
  | triggerSource c => exact setScopeTriggerSource_moves d c hp hconv
  | triggerSlope k => exact changeTrigger_moves d (fun t => { t with triggerSlope := k }) (fun _ => rfl) (fun _ => rfl) hp
  | captureMode m => exact changeTrigger_moves d (fun t => { t with captureMode := m }) (fun _ => rfl) (fun _ => rfl) hp

/-! ### Runs -/

def Op.asked : Op → Option ℚ
  | .set setter => Ps2000.asked setter
  | _ => none

def Held.ConvertsOp (h : Held) : Op → Prop
  | .set setter => h.Converts setter
  | _ => True

theorem keeps_stopTriggering : Keeps PicoScope2000.held (stopTriggering d) := by
  unfold stopTriggering
  apply (keeps_halt d apart_held).bind
  intro
  apply keeps_modify
  intro s
  split <;> rfl

theorem keeps_rearm : Keeps PicoScope2000.held (rearm d) := by
  unfold rearm
  apply keeps_get.bind
  intro s
  split
  · exact keeps_rearmHere d
  · apply (keeps_call d apart_held.watch _).attempt.bind
    intro result
    cases result with
    | ok a => exact keeps_pure ()
    | error e => exact keeps_rearmHere d

theorem keeps_startRoll (bucketNs : ℚ) : Keeps PicoScope2000.held (startRoll d bucketNs) := by
  unfold startRoll
  apply (keeps_haltIfRunning d apart_held).bind
  intro
  apply (keeps_doUpdateChannel d apart_held.watch).bind
  intro
  apply (keeps_call d apart_held.watch _).attempt.bind
  intro
  apply (keeps_call d apart_held.watch _).attempt.bind
  intro result
  cases result with
  | ok a => exact keeps_modify fun _ => rfl
  | error e =>
    refine Keeps.bind (keeps_modify fun _ => rfl) ?_
    exact fun _ => keeps_throw _

theorem keeps_stopRoll : Keeps PicoScope2000.held (stopRoll d) := by
  unfold stopRoll
  apply keeps_get.bind
  intro s
  apply Keeps.when
  apply (keeps_call d apart_held.watch _).attempt.bind
  intro result
  refine Keeps.bind (keeps_modify fun _ => rfl) ?_
  intro
  cases result with
  | ok a => exact keeps_pure ()
  | error e => exact keeps_throw _

theorem forceTrigger_moves {h : Held} (hp : h.Placed) :
    Triple (fun s => s.held = h) (forceTrigger d) (fun _ t => h.Moves t.held) (fun t => h.Moves t.held) := by
  unfold forceTrigger
  apply triple_get_bind
  rintro s rfl
  refine triple_bind ((changeTrigger_moves d (fun t => { t with captureMode := .auto }) (fun _ => rfl) (fun _ => rfl)
    hp).imp (fun t ht => ht ▸ rfl) (fun _ _ ht => ht) fun _ ht => ht) fun _ => ?_
  refine triple_bind (((keeps_rearmHere d).attempt.triple fun k => s.held.Moves k).imp
    (fun _ ht => ht) (fun _ _ ht => ht) fun _ ht => ht) fun result => ?_
  refine triple_bind (triple_modify (Q := fun _ t => s.held.Moves t.held) fun _ ht => ht) fun _ => ?_
  cases result with
  | ok a => exact triple_pure fun _ ht => ht
  | error e => exact triple_throw fun _ ht => ht

theorem act_level (op : Op) {h : Held} (hp : h.Placed) (hconv : h.ConvertsOp op) :
    Triple (fun s => s.held = h) (op.act d) (fun _ t => h.Answers op.asked t.held) (fun t => h.Moves t.held) := by
  cases op with
  | set setter => exact set_level d setter hp hconv
  | startTriggeredCapture percent => exact moves_of_keeps (keeps_runBlock d percent) hp
  | stopTriggeredCapture => exact moves_of_keeps (keeps_stopTriggering d) hp
  | forceTrigger => exact forceTrigger_moves d hp
  | rearm => exact moves_of_keeps (keeps_rearm d) hp
  | startRoll bucketNs => exact moves_of_keeps (keeps_startRoll d bucketNs) hp
  | stopRoll => exact moves_of_keeps (keeps_stopRoll d) hp

/-- The driver with what was last asked of its level, and the reach of the source after each operation since. -/
structure Asked where
  scope : PicoScope2000
  level : ℚ
  reaches : List ℚ

def Asked.step (a : Asked) (e : Event) : Option Asked :=
  let after := outcome a.scope e
  some (match e.op.asked, after.1 with
    | some level, .ok () => ⟨after.2, level, [after.2.held.reach]⟩
    | _, _ => ⟨after.2, a.level, a.reaches ++ [after.2.held.reach]⟩)

/-- A unit just opened shows a level of zero. -/
def Asked.opened (specs : DeviceSpecs) (found : Timebase) : Asked :=
  ⟨setUp specs found, 0, [(setUp specs found).held.reach]⟩

/-- The level is what was asked for, or the end on its side of the narrowest range in force since. -/
def Nearest (reaches : List ℚ) (asked level : ℚ) : Prop :=
  ((∀ r ∈ reaches, |asked| ≤ r) ∧ level = asked) ∨
    ∃ r ∈ reaches, (∀ r' ∈ reaches, r ≤ r') ∧ r < |asked| ∧ level = copysign r asked

structure Asked.Settled (a : Asked) : Prop where
  placed : a.scope.held.Placed
  positive : ∀ r ∈ a.reaches, 0 < r
  shown : a.scope.held.shown = settle a.reaches a.level

theorem Asked.Settled.nearest {a : Asked} (h : a.Settled) : Nearest a.reaches a.level a.scope.held.shown := by
  rw [h.shown]
  rcases settle_cases h.positive a.level with ⟨hall, heq⟩ | ⟨r, hmem, hleast, hlt, heq⟩
  · exact Or.inl ⟨hall, heq⟩
  · refine Or.inr ⟨r, hmem, hleast, hlt, ?_⟩
    rw [heq, copysign_eq_nearest (h.positive r hmem) hlt]

theorem Asked.Settled.moves {a : Asked} (h : a.Settled) {s : PicoScope2000} (hm : a.scope.held.Moves s.held) :
    Asked.Settled ⟨s, a.level, a.reaches ++ [s.held.reach]⟩ := by
  have hreach : 0 < s.held.reach := Held.reach_pos hm.placed.sourced hm.placed.positive
  refine ⟨hm.placed, fun r hr => ?_, ?_⟩
  · rcases List.mem_append.mp hr with hr | hr
    · exact h.positive r hr
    · exact List.mem_singleton.mp hr ▸ hreach
  · rw [settle_append, ← h.shown]
    exact hm.shown

theorem Asked.settled_step {a b : Asked} {e : Event} (hconv : a.scope.held.ConvertsOp e.op) (h : a.Settled)
    (hstep : a.step e = some b) : b.Settled := by
  have hact : Outcome _ _ (outcome a.scope e) := act_level e.device e.op h.placed hconv a.scope.unwatched rfl
  unfold Asked.step at hstep
  generalize outcome a.scope e = after at hact hstep
  obtain ⟨r, s⟩ := after
  cases r with
  | error err =>
    cases hasked : e.op.asked with
    | none =>
      rw [hasked] at hstep
      cases hstep
      exact h.moves hact
    | some level =>
      rw [hasked] at hstep
      cases hstep
      exact h.moves hact
  | ok u =>
    cases hasked : e.op.asked with
    | none =>
      rw [hasked] at hstep hact
      cases hstep
      exact h.moves hact
    | some level =>
      rw [hasked] at hstep hact
      cases hstep
      obtain ⟨hplaced, hshown⟩ := hact
      refine ⟨hplaced, fun r hr => ?_, ?_⟩
      · exact List.mem_singleton.mp hr ▸ Held.reach_pos hplaced.sourced hplaced.positive
      · show s.held.shown = nearest s.held.reach level
        rw [← hshown, nearest_of_le hplaced.shown_le]

theorem setUp_placed {specs : DeviceSpecs} (hspecs : 1 ≤ specs.channels) (found : Timebase) :
    (setUp specs found).held.Placed := by
  obtain ⟨n, hn⟩ := Nat.exists_eq_add_of_le' hspecs
  have hchannels : (setUp specs found).held.channels = (['A', 'B', 'C', 'D'].take (n + 1)).map fun c =>
      { channelId := .alphabetic c, voltsPerDiv := 1, voltsOffset := 0, coupling := .DC,
        attenuation := DEFAULT_ATTENUATION, enabled := false } := by
    rw [← hn]
    rfl
  refine ⟨?_, fun c _ => ?_, fun c hc => ?_⟩
  · unfold Held.Sourced Held.find
    rw [hchannels, List.take_succ_cons, List.map_cons, List.find?_cons]
    rfl
  · show |(0 : ℚ)| ≤ rangeVolts c
    rw [abs_zero]
    exact (rangeVolts_pos c).le
  · rw [hchannels] at hc
    obtain ⟨l, -, rfl⟩ := List.mem_map.mp hc
    show 0 < DEFAULT_ATTENUATION
    unfold DEFAULT_ATTENUATION
    norm_num

theorem Asked.opened_settled {specs : DeviceSpecs} (hspecs : 1 ≤ specs.channels) (found : Timebase) :
    (Asked.opened specs found).Settled := by
  have hp := setUp_placed hspecs found
  refine ⟨hp, fun r hr => ?_, ?_⟩
  · exact List.mem_singleton.mp hr ▸ Held.reach_pos hp.sourced hp.positive
  · have hzero : (setUp specs found).held.shown = 0 := by
      show toProbeVolts 0 _ = 0
      simp [toProbeVolts]
    show (setUp specs found).held.shown = nearest (setUp specs found).held.reach 0
    rw [← hzero, nearest_of_le hp.shown_le]

theorem specs_channels : ∀ specs ∈ DEVICE_SPECS, 1 ≤ specs.2.channels := by decide

/-- **The trigger level.** While the source changes only between channels with the same probe, the level shown is the
last that was accepted, or the nearest end of the narrowest range that was in force since. -/
theorem level_stays {specs : String × DeviceSpecs} (hspecs : specs ∈ DEVICE_SPECS) (found : Timebase) {es : List Event}
    {a : Asked} (hal : Along Asked.step (fun a e => a.scope.held.ConvertsOp e.op) (Asked.opened specs.2 found) es)
    (hrun : run Asked.step (Asked.opened specs.2 found) es = some a) :
    Nearest a.reaches a.level (getScopeTriggerLevel a.scope.settings) := by
  have hsettled : a.Settled := by
    refine run_invariant Asked.Settled (fun s e t hconv hs hstep => ?_) hal ?_ hrun
    · exact Asked.settled_step hconv hs hstep
    · exact Asked.opened_settled (specs_channels specs hspecs) found
  exact hsettled.nearest

/-- A device that accepts every call. -/
def obliging : Device := ⟨fun _ => true, 1, fun _ _ _ => some (10, 2)⟩

def opened2204A : Asked := Asked.opened ⟨2, 100000000, 8000⟩ ⟨3, 80, 2⟩

/-- Four volts asked for, and a range of half a volt since. -/
theorem level_follows_range : ∃ a,
    run Asked.step opened2204A
        [⟨.set (.triggerLevel 4), obliging⟩, ⟨.set (.voltsPerDiv (.alphabetic 'A') (1 / 10)), obliging⟩] = some a ∧
      (a.reaches = [5, 1 / 2] ∧ a.level = 4) ∧ Nearest a.reaches a.level (getScopeTriggerLevel a.scope.settings) := by
  have hfacts : (run Asked.step opened2204A
      [⟨.set (.triggerLevel 4), obliging⟩, ⟨.set (.voltsPerDiv (.alphabetic 'A') (1 / 10)), obliging⟩]).map
      (fun a => (a.reaches, a.level)) = some ([5, 1 / 2], 4) := by decide +kernel
  obtain ⟨a, hrun, heq⟩ := Option.map_eq_some_iff.mp hfacts
  refine ⟨a, hrun, Prod.mk.inj heq, level_stays (List.mem_cons_self (a := ("2204A", _))) _ ?_ hrun⟩
  exact ⟨trivial, fun _ _ => ⟨trivial, fun _ _ => trivial⟩⟩

/-- A range widened again leaves the level at the end of the narrow one; and a source with another probe shows another
level than the one asked for, well inside its range. -/
theorem level_not_kept :
    (∃ a, run Asked.step opened2204A
          [⟨.set (.triggerLevel 4), obliging⟩, ⟨.set (.voltsPerDiv (.alphabetic 'A') (1 / 10)), obliging⟩,
            ⟨.set (.voltsPerDiv (.alphabetic 'A') 1), obliging⟩] = some a ∧
        |a.level| ≤ a.scope.held.reach ∧ getScopeTriggerLevel a.scope.settings ≠ a.level) ∧
      ∃ a, run Asked.step opened2204A
          [⟨.set (.attenuation (.alphabetic 'B') 1), obliging⟩, ⟨.set (.triggerLevel 4), obliging⟩,
            ⟨.set (.triggerSource (.alphabetic 'B')), obliging⟩] = some a ∧
        |a.level| ≤ a.scope.held.reach ∧ getScopeTriggerLevel a.scope.settings ≠ a.level := by
  have hwidened : (run Asked.step opened2204A
      [⟨.set (.triggerLevel 4), obliging⟩, ⟨.set (.voltsPerDiv (.alphabetic 'A') (1 / 10)), obliging⟩,
        ⟨.set (.voltsPerDiv (.alphabetic 'A') 1), obliging⟩]).map
      (fun a => decide (|a.level| ≤ a.scope.held.reach ∧ getScopeTriggerLevel a.scope.settings ≠ a.level)) =
        some true := by decide +kernel
  have hswitched : (run Asked.step opened2204A
      [⟨.set (.attenuation (.alphabetic 'B') 1), obliging⟩, ⟨.set (.triggerLevel 4), obliging⟩,
        ⟨.set (.triggerSource (.alphabetic 'B')), obliging⟩]).map
      (fun a => decide (|a.level| ≤ a.scope.held.reach ∧ getScopeTriggerLevel a.scope.settings ≠ a.level)) =
        some true := by decide +kernel
  obtain ⟨a, hrun, hfact⟩ := Option.map_eq_some_iff.mp hwidened
  obtain ⟨b, hrun', hfact'⟩ := Option.map_eq_some_iff.mp hswitched
  exact ⟨⟨a, hrun, of_decide_eq_true hfact⟩, b, hrun', of_decide_eq_true hfact'⟩

end Lager.Pico.Ps2000
