import Lager.Scope.Restore
import Lager.Scope.Thread

/-!
# What subscribers are shown of a unit that came back

A thread that has lost a unit keeps the last state it published of it, and puts the settings of that state back when
it opens a unit with the same serial (`restore`). What the thread then publishes first has them again (`Restored`).
-/

namespace Lager.Scope

open Lager.Py (Json)

variable {σ : Type} {d : Driver σ} {lib : Lib} {m : UnitModel}

/-! ### One opening -/

/-- The state `t` has every setting of `s` that is sent to a unit. -/
structure Restored (lib : Lib) (s t : ScopeState) : Prop where
  channels : ∀ e ∈ s.channels, ∃ offset, { e with voltsOffset := offset } ∈ t.channels ∧
    ((e.voltsOffset != 0) = true → offset = e.voltsOffset)
  trigger : t.trigger = s.trigger
  timePerDiv : s.timePerDiv > 0 → t.timePerDiv = s.timePerDiv
  timeOffset : (s.timeOffset != 0) = true → t.timeOffset = s.timeOffset
  holdoffS : t.holdoffS = s.holdoffS
  acquisition : t.acquisition = s.acquisition
  averageCount : t.averageCount = s.averageCount
  roll : t.roll = s.roll
  display : t.display = displayAfter lib (.obj []) s.display
  idle : t.acquiring = false ∧ t.rolling = false

theorem channelState_channel {g : Getters} {c : ChannelId} {e : ChannelState} (h : channelState g c = some e) :
    e.channel = c := by
  unfold channelState at h
  obtain ⟨enabled, -, h⟩ := Option.bind_eq_some_iff.mp h
  obtain ⟨voltsPerDiv, -, h⟩ := Option.bind_eq_some_iff.mp h
  rw [← Option.some.inj h]

theorem mem_channels {w : Loop σ} (hd : OfModel d m) {e : ChannelState} :
    e ∈ (buildState d lib w).channels ↔ e.channel ∈ m.labels ∧ channelState (d.getters w.scope) e.channel = some e := by
  show e ∈ (labels (d.getters w.scope)).filterMap (channelState (d.getters w.scope)) ↔ _
  rw [List.mem_filterMap, hd.labels]
  constructor
  · rintro ⟨c, hc, he⟩
    rw [channelState_channel he]
    exact ⟨hc, he⟩
  · rintro ⟨hc, he⟩
    exact ⟨e.channel, hc, he⟩

/-- A state has one entry for each channel. -/
theorem channels_distinct {w : Loop σ} (hd : OfModel d m) :
    ((buildState d lib w).channels.map (·.channel)).Nodup := by
  have hsublist (cs : List ChannelId) :
      ((cs.filterMap (channelState (d.getters w.scope))).map (·.channel)).Sublist cs := by
    induction cs with
    | nil => exact .slnil
    | cons c cs ih =>
      rw [List.filterMap_cons]
      cases he : channelState (d.getters w.scope) c with
      | none => exact ih.cons c
      | some e =>
        rw [List.map_cons, channelState_channel he]
        exact ih.cons_cons c
  refine (hsublist (labels (d.getters w.scope))).nodup ?_
  rw [hd.labels]
  exact m.distinct

theorem Config.Sound.accepted {w : Loop σ} (h : w.config.Sound lib m) : Accepted m (buildState d lib w) where
  holdoff := h.holdoff_fits
  peak := h.peak
  count := h.count
  roll := h.roll

/-- On a unit that reports the settings of the channel, the state has the entry again, but for an offset that is not
sent. -/
theorem channel_restored {w w' : Loop σ} (hd : OfModel d m) {e : ChannelState}
    (he : e ∈ (buildState d lib w).channels) (h : Entry e (d.getters w'.scope).readings) :
    ∃ offset, { e with voltsOffset := offset } ∈ (buildState d lib w').channels ∧
      ((e.voltsOffset != 0) = true → offset = e.voltsOffset) := by
  let g := d.getters w'.scope
  refine ⟨(g.getVoltsOffset e.channel).getD 0, (mem_channels hd).mpr ⟨((mem_channels hd).mp he).1, ?_⟩, ?_⟩
  · show channelState g e.channel = _
    unfold channelState
    rw [show g.isChannelEnabled e.channel = _ from h.enabled, show g.getVoltsPerDiv e.channel = _ from h.voltsPerDiv,
      show g.getCoupling e.channel = _ from h.coupling, show g.getAttenuation e.channel = _ from h.attenuation]
    rfl
  · intro hsent
    rw [show g.getVoltsOffset e.channel = _ from h.voltsOffset hsent]
    rfl

theorem restored_startLoop (hd : OfModel d m) (hob : Obedient d) {w : Loop σ}
    (hw : w.config.Sound lib m) (scope : σ) (sequence version : Nat) (published : List ScopeState) :
    ∃ t, (startLoop d lib scope false sequence version published (some (buildState d lib w))).published =
      published ++ [t] ∧ Restored lib (buildState d lib w) t := by
  let s := buildState d lib w
  let entered := (newLoop d scope false sequence version published).refreshTrigger d
  let back := restore d lib entered s
  have hentered : entered.Holds d (d.getters scope).readings ⟨.obj [], .normal, DEFAULT_AVERAGE_COUNT, 0, .auto⟩ :=
    ⟨⟨rfl, rfl, rfl⟩, rfl, rfl⟩
  obtain ⟨r, hleaves, hback, htrigger⟩ := restore_holds lib hd hob hentered (hw.accepted (d := d))
  have hsent : Sent s (d.getters back.scope).readings := by
    rw [hback.readings]
    exact restored_unit hleaves
  have hentry : ∀ e ∈ s.channels, Entry e (d.getters back.scope).readings := by
    intro e he
    rw [hback.readings]
    exact restored_entry (channels_distinct hd) hleaves he
  have hconfig : back.config = configOf lib (.obj []) s := hback.config
  have hpublished : back.published = published := congrArg Log.published (restore_log d lib entered s)
  refine ⟨buildState d lib { back with version := back.version + 1 }, congrArg (· ++ [_]) hpublished, ?_⟩
  exact {
    channels := fun e he => channel_restored hd he (hentry e he)
    trigger := htrigger
    timePerDiv := fun hpos => by
      unfold buildState
      dsimp only
      rw [hback.idle.roller, show (d.getters back.scope).getTimePerDiv = _ from hsent.timePerDiv hpos]
      rfl
    timeOffset := fun hne => by
      unfold buildState
      dsimp only
      rw [show (d.getters back.scope).getTimeOffset = _ from hsent.timeOffset hne]
      rfl
    holdoffS := by
      show lib.asSecsF64 back.config.holdoff = s.holdoffS
      rw [hconfig]
      exact hw.holdoff_again
    acquisition := congrArg Config.acquisition hconfig
    averageCount := congrArg Config.averageCount hconfig
    roll := congrArg Config.roll hconfig
    display := congrArg Config.display hconfig
    idle := ⟨hback.idle.acquiring, by
      show back.roller.isSome = false
      rw [hback.idle.roller]
      rfl⟩ }

/-! ### The thread -/

namespace Thread

/-- The state is the last one before the one that says the unit has gone. -/
def LastOf (was : ScopeState) (published : List ScopeState) : Prop :=
  was.channels ≠ [] ∧ ∃ before reason, published = before ++ [was, goneState reason (before ++ [was])]

/-- Every published state is one that the loop accepts again, and what is kept of a lost unit is its last state. -/
def Keeps (d : Driver σ) (lib : Lib) (m : UnitModel) : Thread σ → Prop
  | opening lost _ published => (∀ s ∈ published, Taken d lib m s) ∧ ∀ was ∈ lost, LastOf was.2 published
  | running _ w => w.Sound d lib m
  | closing _ _ _ published => ∀ s ∈ published, Taken d lib m s
  | stopped published => ∀ s ∈ published, Taken d lib m s

theorem Keeps.published {t : Thread σ} (h : t.Keeps d lib m) : ∀ s ∈ t.published, Taken d lib m s := by
  cases t with
  | opening lost count published => exact h.1
  | running serial w => exact Loop.Sound.published h
  | closing serial reason count published => exact h
  | stopped published => exact h

theorem enter_sound (hlib : lib.Exact) (hd : OfModel d m) (scope : σ) (lost : Option (String × ScopeState))
    (count : Nat) {published : List ScopeState} (h : ∀ s ∈ published, Taken d lib m s) :
    (enter d lib scope lost count published).2.Sound d lib m :=
  Loop.Sound.startLoop hlib hd _ _ _ _ h _

theorem Keeps.reopens {serial : Option String} {reason : String} {count : Nat} {published : List ScopeState}
    (h : ∀ s ∈ published, Taken d lib m s) {t' : Thread σ}
    (hstep : (closing serial reason count published).step d lib .reopens = some t') : t'.Keeps d lib m := by
  rw [← Option.some.inj hstep]
  refine ⟨fun s hs => ?_, fun was hwas => ?_⟩
  · rcases List.mem_append.mp hs with hold | hnew
    · exact h s hold
    · rw [List.mem_singleton.mp hnew]
      exact Or.inl rfl
  · split at hwas
    · cases hwas
    · rename_i hchannels
      obtain ⟨-, -, rfl⟩ := Option.map_eq_some_iff.mp hwas
      refine ⟨fun hnone => hchannels (List.isEmpty_iff.mpr hnone), ?_⟩
      rcases List.eq_nil_or_concat published with rfl | ⟨before, last, rfl⟩
      · exact absurd rfl hchannels
      · have hlast : lastState (before.concat last) = last := by
          rw [lastState, List.concat_eq_append, List.getLast?_concat, Option.getD_some]
        refine ⟨before, reason, ?_⟩
        show _ = before ++ [lastState (before.concat last), _]
        rw [hlast, List.concat_eq_append, List.append_assoc]
        rfl

theorem Keeps.step (hlib : lib.Exact) (hd : OfModel d m) {t t' : Thread σ} {e : Event σ} (h : t.Keeps d lib m)
    (hstep : t.step d lib e = some t') : t'.Keeps d lib m := by
  unfold Thread.step at hstep
  split at hstep
  · cases hstep
    exact h
  · rename_i lost count published scope
    rw [← Option.some.inj hstep]
    exact enter_sound hlib hd scope lost count h.1
  · rename_i lost count published scope sent message
    rw [← Option.some.inj hstep]
    exact fun s hs => (enter_sound hlib hd scope lost count h.1).published s (List.mem_of_mem_take hs)
  · rename_i serial w i
    split at hstep
    · cases hstep
    · rename_i w' hturn
      rw [← Option.some.inj hstep]
      exact Loop.Sound.turn hlib hd h hturn
    · rename_i w' hturn
      rw [← Option.some.inj hstep]
      exact (Loop.Sound.turn hlib hd h hturn).published
    · rename_i w' reason hturn
      rw [← Option.some.inj hstep]
      exact (Loop.Sound.turn hlib hd h hturn).published
  · rename_i serial w i sent captures message
    split at hstep
    · cases hstep
    · rename_i w' ended hturn
      split at hstep
      · rw [← Option.some.inj hstep]
        exact fun s hs => (Loop.Sound.turn hlib hd h hturn).published s (List.mem_of_mem_take hs)
      · cases hstep
  · exact Keeps.reopens h hstep
  · rw [← Option.some.inj hstep]
    exact h.published
  · cases hstep

theorem Keeps.run (hlib : lib.Exact) (hd : OfModel d m) {t : Thread σ} {events : List (Event σ)}
    (hrun : Lib.run (Thread.step d lib) start events = some t) : t.Keeps d lib m := by
  have hstart : (start : Thread σ).Keeps d lib m := by
    refine ⟨fun s hs => ?_, fun was hwas => by cases hwas⟩
    rw [List.mem_singleton.mp hs]
    exact Or.inl rfl
  exact Lib.run_preserves (fun t => Keeps d lib m t) (fun _ _ _ h hstep => h.step hlib hd hstep) hstart hrun

/-- **A unit comes back as it went.** With a driver that accepts every setting and whose setters disturb only what is
set after them, in every run of the thread: where the thread opens a unit with the serial of the one it lost, and the
unit is not acquiring, the first state it publishes of the unit has the settings of the last state before the loss. -/
theorem comes_back_as_it_went (hlib : lib.Exact) (hd : OfModel d m) (hob : Obedient d) {events : List (Event σ)}
    {serial : String} {settings : ScopeState} {count : Nat} {published : List ScopeState}
    (hrun : Lib.run (Thread.step d lib) start events = some (opening (some (serial, settings)) count published))
    {scope : σ} (hserial : serialOf (d.getters (d.acquiringAfterOpen (d.releaseCapture scope).2).2) = some serial)
    (hidle : (d.acquiringAfterOpen (d.releaseCapture scope).2).1.getD false = false) :
    LastOf settings published ∧
    ∃ w t, (opening (some (serial, settings)) count published).step d lib (.opens scope) =
        some (running (some serial) w) ∧
      w.published = published ++ [t] ∧ Restored lib settings t := by
  obtain ⟨htaken, hlost⟩ := Keeps.run hlib hd hrun
  have hlast := hlost _ rfl
  have hmem : settings ∈ published := by
    obtain ⟨-, before, reason, rfl⟩ := hlast
    simp
  obtain ⟨was, hwas, hsettings⟩ := (htaken settings hmem).resolve_left hlast.1
  let opened := (d.acquiringAfterOpen (d.releaseCapture scope).2).2
  obtain ⟨t, hpublished, hrestored⟩ :=
    restored_startLoop hd hob hwas opened count (lastState published).version published
  rw [← hsettings] at hpublished hrestored
  have hkept : (Option.filter (fun was : String × ScopeState => some serial == some was.1)
      (some (serial, settings))).map Prod.snd = some settings := by
    simp [Option.filter]
  refine ⟨hlast, _, t, ?_, hpublished, hrestored⟩
  show some (running (enter d lib scope (some (serial, settings)) count published).1
    (enter d lib scope (some (serial, settings)) count published).2) = _
  unfold enter
  dsimp only
  rw [hserial, hidle, hkept]

/-- A unit that is its readings: each probe ratio puts a channel back to one volt per division, and each setting that
may move the trigger level puts it back to zero. -/
def probeScope : Driver Readings :=
  { getters := fun r =>
      { blockGetters with
        isChannelEnabled := r.isChannelEnabled, getVoltsPerDiv := r.getVoltsPerDiv, getVoltsOffset := r.getVoltsOffset,
        getCoupling := r.getCoupling, getAttenuation := r.getAttenuation, getTimePerDiv := r.getTimePerDiv,
        getTimeOffset := r.getTimeOffset, getTriggerLevel := r.getTriggerLevel, getTriggerSource := r.getTriggerSource,
        getTriggerSlope := r.getTriggerSlope, getCaptureMode := r.getCaptureMode }
    set := fun x r => (.ok (), x.apply ⟨.ok 1, .ok 0, .ok 0, .ok 0⟩ r)
    startTriggeredCapture := fun _ r => (.ok (), r)
    stopTriggeredCapture := fun r => (.ok (), r)
    releaseCapture := fun r => (.ok (), r)
    acquiringAfterOpen := fun r => (.ok false, r)
    isReady := fun r => (.ok false, r)
    getTriggeredData := fun r => (.ok emptyFrame, r)
    forceTrigger := fun r => (.ok (), r)
    rearm := fun r => (.ok (), r)
    refreshSettings := fun r => (none, r)
    startRoll := fun _ r => (.error ⟨"the unit refused to stream", false⟩, r)
    pollRoll := fun r => (.ok [], r)
    stopRoll := fun r => (.ok (), r)
    measureAll := fun _ r => (none, r)
    measureOne := fun _ _ r => (none, r)
    readRecord := fun r => (none, r)
    setAcquisition := fun _ _ r => (none, r)
    setHoldoff := fun _ r => (none, r)
    scpi := fun _ r => (none, r) }

/-- The library on a holdoff of zero. -/
def noHoldoffLib : Lib := { plainLib with fromSecsF64 := fun _ => 0, asSecsF64 := fun _ => 0 }

def probeModel : UnitModel :=
  { labels := [.alphabetic 'A'], distinct := List.nodup_singleton _, peakDetect := false, supportsRoll := true }

/-- The unit as it is switched on. -/
def freshReadings : Readings := blockGetters.readings

theorem probeScope_obedient : Obedient probeScope where
  accepts _ _ := rfl
  reports _ _ := ⟨_, rfl⟩
  acquisition _ _ _ := ⟨nofun, rfl⟩
  holdoff _ _ := ⟨nofun, rfl⟩

theorem probeScope_ofModel : OfModel probeScope probeModel := ⟨fun _ => rfl, fun _ => rfl, fun _ => rfl⟩

theorem noHoldoffLib_exact : noHoldoffLib.Exact := by
  have hzero : holdoffFits 0 = true := by decide +kernel
  exact ⟨hzero, rfl, fun _ _ => hzero, fun _ _ => rfl, rfl⟩

/-- Set the volts per division, and then lose the unit to a panic. -/
def lostEvents : List (Event Readings) :=
  [.opens freshReadings, .turns (.at (some (.set (.voltsPerDiv (.alphabetic 'A') 2))) 0),
    .panics (.at (some .getState) 1) 0 0 "unplugged", .reopens]

/-- The serial of the unit that was lost. -/
def lostSerial : Thread σ → Option String
  | opening lost _ _ => lost.map Prod.fst
  | _ => none

theorem probeScope_comes_back :
    ∃ settings count published, ∃ (w : Loop Readings) (t : ScopeState),
      Lib.run (Thread.step probeScope noHoldoffLib) start lostEvents =
        some (opening (some ("AB123/0001", settings)) count published) ∧
      w.published = published ++ [t] ∧ Restored noHoldoffLib settings t := by
  have hlost : (Lib.run (Thread.step probeScope noHoldoffLib) start lostEvents).bind lostSerial =
      some "AB123/0001" := by decide +kernel
  obtain ⟨t, hrun, ht⟩ := Option.bind_eq_some_iff.mp hlost
  cases t with
  | opening lost count published =>
    obtain ⟨⟨serial, settings⟩, rfl, hserial⟩ := Option.map_eq_some_iff.mp ht
    obtain rfl : serial = "AB123/0001" := hserial
    have hopened : serialOf (probeScope.getters (probeScope.acquiringAfterOpen
        (probeScope.releaseCapture freshReadings).2).2) = some "AB123/0001" := by decide +kernel
    obtain ⟨-, w, t, -, hpublished, hrestored⟩ := comes_back_as_it_went noHoldoffLib_exact probeScope_ofModel
      probeScope_obedient hrun hopened rfl
    exact ⟨settings, count, published, w, t, hrun, hpublished, hrestored⟩
  | running serial w => cases ht
  | closing serial reason count published => cases ht
  | stopped published => cases ht

end Thread

end Lager.Scope
