import Lager.Lib.Run
import Lager.Pico.Modern
import Mathlib.Data.List.Nodup

/-!
# The buffers the device writes to

Which memory `get_values` fills is decided when a block is armed, and the buffers are replaced when the configuration
is applied. `Wiring` is the part of the driver that takes part in it, and `Wiring.Sound` what holds of it after every
call: the buffers fit the enabled channels unless the configuration is due, the registered ones are these where the
flag says so, and the block last armed is described by the present settings unless they were applied again since.
-/

namespace Lager.Pico.Modern

open Lager.Lib
open Lager.Scope (ChannelId Coupling TriggerSlope CaptureMode)

structure Wiring where
  channels : List ChannelSettings
  buffers : List Buffer
  registered : Bool
  dirty : Bool
  samples : Nat
  intervalSeconds : ℚ
  reconfigured : Bool
  hardware : Hardware

def PicoScopeModern.wiring (s : PicoScopeModern) : Wiring :=
  ⟨s.settings.channels, s.buffers, s.buffersRegistered, s.dirty, s.samplesPerCapture, s.intervalSeconds,
    s.reconfigured, s.hardware⟩

namespace Wiring

def enabled (w : Wiring) : List ChannelSettings := w.channels.filter (·.enabled)

def describe (u : Model) (w : Wiring) : Description :=
  ⟨w.enabled.map (describeChannel u), w.intervalSeconds * 1000000000⟩

/-- The device has the channels as they are set, and each enabled one has a buffer of its own for a whole block. -/
structure Usable (w : Wiring) : Prop where
  programmed : ∀ c ∈ w.channels, w.hardware.enabled (hardwareIndex c.channelId) = c.enabled
  count : w.buffers.length = w.enabled.length
  length : ∀ b ∈ w.buffers, b.len = w.samples
  distinct : (w.buffers.map (·.id)).Nodup

/-- Each enabled channel was last given its buffer. -/
def Registered (w : Wiring) : Prop :=
  ∀ p ∈ w.enabled.zip w.buffers, w.hardware.registered (hardwareIndex p.1.channelId) = some p.2

/-- The channels of a unit, in the order of its inputs. -/
def ids (u : Model) : List ChannelId := (List.range u.analogChannels).map fun i => .alphabetic (Char.ofNat (65 + i))

/-- The channels are the unit's, and the device has turned on no other. -/
structure Wired (u : Model) (w : Wiring) : Prop where
  fixed : w.channels.map (·.channelId) = ids u
  within : ∀ i, w.hardware.enabled i = true → i < u.analogChannels

structure Sound (u : Model) (w : Wiring) : Prop extends Wired u w where
  usable : w.dirty = false ∨ w.registered = true → w.Usable
  registered : w.registered = true → w.Registered
  armed : w.reconfigured = false → w.hardware.armed = some (w.describe u)

/-! ### The inputs -/

theorem hardwareIndex_ids : ∀ i < 8, hardwareIndex (.alphabetic (Char.ofNat (65 + i))) = i := by decide

theorem le_eight (u : Model) : u.analogChannels ≤ 8 := by
  have h := u.fromVariant
  simp only [List.mem_cons, List.not_mem_nil, or_false] at h
  omega

theorem Wired.indices {u : Model} {w : Wiring} (h : w.Wired u) :
    w.channels.map (fun c => hardwareIndex c.channelId) = List.range u.analogChannels := by
  have hmap : w.channels.map (fun c => hardwareIndex c.channelId) =
      (w.channels.map (·.channelId)).map hardwareIndex := by
    rw [List.map_map]
    rfl
  rw [hmap, h.fixed, ids, List.map_map]
  have hid : ∀ i ∈ List.range u.analogChannels,
      (hardwareIndex ∘ fun i => ChannelId.alphabetic (Char.ofNat (65 + i))) i = i := fun i hi =>
    hardwareIndex_ids i (lt_of_lt_of_le (List.mem_range.mp hi) (le_eight u))
  rw [List.map_congr_left hid, List.map_id']

theorem Wired.index_nodup {u : Model} {w : Wiring} (h : w.Wired u) :
    (w.channels.map fun c => hardwareIndex c.channelId).Nodup := by
  rw [h.indices]
  exact List.nodup_range

theorem Wired.index_lt {u : Model} {w : Wiring} (h : w.Wired u) {c : ChannelSettings} (hc : c ∈ w.channels) :
    hardwareIndex c.channelId < u.analogChannels := by
  have hmem := List.mem_map_of_mem (f := fun c : ChannelSettings => hardwareIndex c.channelId) hc
  rw [h.indices] at hmem
  exact List.mem_range.mp hmem

/-- A channel that is on is one of the enabled ones. -/
theorem Wired.exists_channel {u : Model} {w : Wiring} (h : w.Wired u) {i : Nat} (hi : i < u.analogChannels) :
    ∃ c ∈ w.channels, hardwareIndex c.channelId = i := by
  have hmem : i ∈ w.channels.map fun c => hardwareIndex c.channelId := by
    rw [h.indices]
    exact List.mem_range.mpr hi
  exact List.mem_map.mp hmem

end Wiring

/-! ### The calls -/

variable {u : Model} (d : Device)

theorem call_wiring (c : Call) (w : Wiring) :
    Triple (fun s => s.wiring = w) (call d c) (fun _ s => s.wiring = { w with hardware := w.hardware.take c })
      (fun s => s.wiring = w) := by
  unfold call
  apply triple_get_bind
  rintro s rfl
  refine triple_bind (triple_modify (Q := fun _ t => t.wiring = s.wiring) fun t ht => ht ▸ rfl) fun _ => ?_
  refine triple_bind (Q := fun _ t => t.wiring = s.wiring) ?_ fun _ => triple_modify fun t ht => ?_
  · exact triple_when (fun _ => triple_throw fun _ ht => ht) fun _ _ ht => ht
  · rw [← ht]
    rfl

/-- Most calls leave the wiring alone. -/
theorem keeps_call {c : Call} (hc : ∀ hw : Hardware, hw.take c = hw) : Keeps PicoScopeModern.wiring (call d c) := by
  intro s
  have h := call_wiring d c s.wiring s rfl
  rw [hc] at h
  generalize exec (call d c) s = r at h ⊢
  obtain ⟨r, t⟩ := r
  cases r with
  | ok a => exact h
  | error e => exact h

theorem keeps_halt : Keeps PicoScopeModern.wiring (halt d) := by
  unfold halt
  refine Keeps.bind (keeps_modify fun _ => rfl) fun _ => ?_
  exact keeps_call d fun _ => rfl

theorem keeps_applyTrigger : Keeps PicoScopeModern.wiring (applyTrigger u d) := by
  unfold applyTrigger
  apply keeps_get.bind
  intro s
  apply (keeps_lift _).bind
  intro source
  apply (keeps_lift _).bind
  intro channel
  exact keeps_call d fun _ => rfl

/-! ### Applying the configuration -/

/-- The configuration of these channels is being applied. -/
structure Applying (u : Model) (cs : List ChannelSettings) (w : Wiring) : Prop extends Wiring.Wired u w where
  channels : w.channels = cs
  registered : w.registered = false
  dirty : w.dirty = true
  reconfigured : w.reconfigured = true

theorem Applying.sound {cs : List ChannelSettings} {w : Wiring} (h : Applying u cs w) : w.Sound u := by
  refine ⟨h.toWired, fun hcond => ?_, fun hreg => ?_, fun hrec => ?_⟩
  · rw [h.dirty, h.registered] at hcond
    exact absurd hcond (by decide)
  · exact absurd (hreg.symm.trans h.registered) (by decide)
  · exact absurd (hrec.symm.trans h.reconfigured) (by decide)

/-- Turning a channel of the unit on or off. -/
theorem Applying.setChannel {cs : List ChannelSettings} {w : Wiring} (h : Applying u cs w) {c : ChannelSettings}
    (hc : c ∈ cs) (coupling : Coupling) (range : Range) (offset : ℚ) :
    Applying u cs
      { w with hardware := w.hardware.take (.setChannel (hardwareIndex c.channelId) c.enabled coupling range offset) } := by
  refine ⟨⟨h.fixed, fun i hi => ?_⟩, h.channels, h.registered, h.dirty, h.reconfigured⟩
  by_cases heq : i = hardwareIndex c.channelId
  · exact heq ▸ h.index_lt (h.channels.symm ▸ hc)
  · simp only [Hardware.take, if_neg heq] at hi
    exact h.within i hi

/-- The channels done so far are on the device as they are set. -/
structure ChannelsDone (u : Model) (cs done : List ChannelSettings) (w : Wiring) : Prop extends Applying u cs w where
  programmed : ∀ c ∈ done, w.hardware.enabled (hardwareIndex c.channelId) = c.enabled

theorem setChannel_done {cs done rest : List ChannelSettings} {c : ChannelSettings} (hcs : cs = done ++ c :: rest) :
    Triple (fun s => ChannelsDone u cs done s.wiring) (setChannel u d c)
      (fun _ s => ChannelsDone u cs (done ++ [c]) s.wiring) (fun s => s.wiring.Sound u) := by
  have hmem : c ∈ cs := by
    rw [hcs]
    exact List.mem_append_right done List.mem_cons_self
  apply triple_start
  intro s hs
  unfold setChannel
  apply triple_when
  · intro _
    refine triple_bind (Q := fun _ t => t = s) ?_ fun coupling => ?_
    · refine triple_lift (fun _ _ t ht => ht) fun _ _ t ht => ?_
      subst ht
      exact hs.toApplying.sound
    · refine (call_wiring d _ s.wiring).imp (fun t ht => ht ▸ rfl) (fun _ t ht => ?_) fun t ht => ?_
      · rw [ht]
        refine ⟨hs.toApplying.setChannel hmem _ _ _, fun c' hc' => ?_⟩
        -- each channel has an input of its own
        have hnodup := hs.index_nodup
        rw [hs.channels, hcs, List.map_append, List.map_cons] at hnodup
        rcases List.mem_append.mp hc' with hdone | hlast
        · have hne : hardwareIndex c'.channelId ≠ hardwareIndex c.channelId := by
            intro heq
            have hin := List.mem_map_of_mem (f := fun c : ChannelSettings => hardwareIndex c.channelId) hdone
            exact (List.nodup_append.mp hnodup).2.2 _ hin _ List.mem_cons_self heq
          simp only [Hardware.take, if_neg hne]
          exact hs.programmed c' hdone
        · rw [List.mem_singleton.mp hlast]
          simp only [Hardware.take, if_true]
      · rw [ht]
        exact hs.toApplying.sound
  · intro hnot
    exact absurd (hs.index_lt (hs.channels.symm ▸ hmem)) hnot

theorem selectTimebase_done {cs done : List ChannelSettings} :
    Triple (fun s => ChannelsDone u cs done s.wiring) (selectTimebase d)
      (fun _ s => ChannelsDone u cs done s.wiring) (fun s => s.wiring.Sound u) := by
  unfold selectTimebase
  apply triple_get_bind
  intro s hs
  refine triple_bind (triple_modify (Q := fun _ t => ChannelsDone u cs done t.wiring) ?_) fun _ => ?_
  · rintro t rfl
    exact ⟨hs.toApplying, hs.programmed⟩
  · split
    · apply triple_modify
      intro t ht
      exact ⟨⟨⟨ht.fixed, ht.within⟩, ht.channels, ht.registered, ht.dirty, ht.reconfigured⟩, ht.programmed⟩
    · exact triple_throw fun t ht => ht.toApplying.sound

theorem allocateBuffers_sound {s : PicoScopeModern} {cs : List ChannelSettings}
    (h : ChannelsDone u cs cs s.wiring) : Wiring.Sound u { s.allocateBuffers with dirty := false }.wiring := by
  have hbuffers : s.allocateBuffers.buffers =
      (List.range s.settings.enabled.length).map fun slot => ⟨s.nextBuffer + slot, s.samplesPerCapture⟩ := rfl
  refine ⟨⟨h.fixed, h.within⟩, fun _ => ⟨?_, ?_, ?_, ?_⟩, fun hreg => ?_, fun hrec => ?_⟩
  · exact fun c hc => h.programmed c (h.channels ▸ hc)
  · show s.allocateBuffers.buffers.length = _
    rw [hbuffers, List.length_map, List.length_range]
    rfl
  · intro b hb
    obtain ⟨slot, -, rfl⟩ := List.mem_map.mp hb
    rfl
  · show (s.allocateBuffers.buffers.map (·.id)).Nodup
    rw [hbuffers, List.map_map]
    refine List.Nodup.map (fun i j hij => ?_) List.nodup_range
    exact Nat.add_left_cancel hij
  · exact absurd (hreg.symm.trans h.registered) (by decide)
  · exact absurd (hrec.symm.trans h.reconfigured) (by decide)

/-- Applied, the configuration is sound and no longer due; given up, it is still due. -/
theorem applyConfiguration_sound :
    Triple (fun s => s.wiring.Wired u) (applyConfiguration u d)
      (fun _ s => s.wiring.Sound u ∧ s.dirty = false) (fun s => s.wiring.Sound u) := by
  unfold applyConfiguration
  apply triple_start
  intro s₀ hs₀
  let cs := s₀.settings.channels
  refine triple_bind (triple_modify (Q := fun _ s => Applying u cs s.wiring ∧ s.settings.channels = cs) ?_) fun _ => ?_
  · rintro s rfl
    exact ⟨⟨⟨hs₀.fixed, hs₀.within⟩, rfl, rfl, rfl, rfl⟩, rfl⟩
  apply triple_get_bind
  rintro s ⟨hs, hchannels⟩
  rw [hchannels]
  refine triple_bind (Q := fun _ t => ChannelsDone u cs cs t.wiring) ?_ fun _ => ?_
  · refine (triple_forM_done (I := fun done t => ChannelsDone u cs done t.wiring) fun done c rest hcs =>
      setChannel_done d hcs).imp (fun t ht => ?_) (fun _ _ ht => ht) fun _ ht => ht
    subst ht
    exact ⟨hs, nofun⟩
  refine triple_bind (triple_modify (Q := fun _ t => ChannelsDone u cs cs t.wiring) fun t ht => ?_) fun _ => ?_
  · exact ⟨⟨⟨ht.fixed, ht.within⟩, ht.channels, ht.registered, ht.dirty, ht.reconfigured⟩, ht.programmed⟩
  refine triple_bind (selectTimebase_done d) fun _ => ?_
  refine triple_bind (((keeps_applyTrigger d).triple fun w => ChannelsDone u cs cs w).imp (fun _ ht => ht)
    (fun _ _ ht => ht) fun _ ht => ht.toApplying.sound) fun _ => ?_
  exact triple_modify fun t ht => ⟨allocateBuffers_sound ht, rfl⟩

theorem ensureApplied_sound :
    Triple (fun s => s.wiring.Sound u) (ensureApplied u d)
      (fun _ s => s.wiring.Sound u ∧ s.dirty = false) (fun s => s.wiring.Sound u) := by
  unfold ensureApplied
  apply triple_get_bind
  intro s hs
  apply triple_when
  · intro _
    exact (applyConfiguration_sound d).imp (fun t ht => ht ▸ hs.toWired) (fun _ _ ht => ht) fun _ ht => ht
  · intro hclean t ht
    exact ⟨ht ▸ hs, ht ▸ (Bool.not_eq_true s.dirty).mp hclean⟩

/-! ### Arming -/

/-- An input has one slot. -/
theorem Wiring.Wired.slot_unique {w : Wiring} (h : w.Wired u) (hcount : w.buffers.length = w.enabled.length)
    {p q : ChannelSettings × Buffer} (hp : p ∈ w.enabled.zip w.buffers) (hq : q ∈ w.enabled.zip w.buffers)
    (heq : hardwareIndex p.1.channelId = hardwareIndex q.1.channelId) : p = q := by
  have hnodup : ((w.enabled.zip w.buffers).map fun p => hardwareIndex p.1.channelId).Nodup := by
    have hmap : ((w.enabled.zip w.buffers).map fun p => hardwareIndex p.1.channelId) =
        w.enabled.map fun c => hardwareIndex c.channelId := by
      have hfst := @List.map_fst_zip _ _ w.enabled w.buffers hcount.ge
      rw [← hfst, List.map_map]
      simp only [hfst]
      rfl
    rw [hmap]
    exact h.index_nodup.sublist (List.filter_sublist.map _)
  exact List.inj_on_of_nodup_map hnodup hp hq heq

/-- The buffers handed out so far are on the device. -/
structure BuffersDone (u : Model) (slots done : List (ChannelSettings × Buffer)) (w : Wiring) : Prop
    extends Wiring.Sound u w where
  slots : w.enabled.zip w.buffers = slots
  clean : w.dirty = false
  handed : ∀ p ∈ done, w.hardware.registered (hardwareIndex p.1.channelId) = some p.2

theorem BuffersDone.setDataBuffer {slots done rest : List (ChannelSettings × Buffer)} {p : ChannelSettings × Buffer}
    {w : Wiring} (hslots : slots = done ++ p :: rest) (h : BuffersDone u slots done w) :
    BuffersDone u slots (done ++ [p])
      { w with hardware := w.hardware.take (.setDataBuffer (hardwareIndex p.1.channelId) p.2) } := by
  have husable := h.usable (Or.inl h.clean)
  have hp : p ∈ w.enabled.zip w.buffers := by
    rw [h.slots, hslots]
    exact List.mem_append_right done List.mem_cons_self
  -- a slot is handed its own buffer, so none is taken from another
  have hhanded : ∀ q ∈ w.enabled.zip w.buffers,
      q = p ∨ w.hardware.registered (hardwareIndex q.1.channelId) = some q.2 →
      (w.hardware.take (.setDataBuffer (hardwareIndex p.1.channelId) p.2)).registered
        (hardwareIndex q.1.channelId) = some q.2 := by
    intro q hq hor
    by_cases heq : hardwareIndex q.1.channelId = hardwareIndex p.1.channelId
    · have hqp := h.toWired.slot_unique husable.count hq hp heq
      subst hqp
      simp only [Hardware.take, if_true]
    · simp only [Hardware.take, if_neg heq]
      exact hor.resolve_left fun hqp => heq (hqp ▸ rfl)
  refine ⟨⟨⟨h.fixed, h.within⟩, fun hcond => ?_, fun hreg q hq => ?_, h.armed⟩, h.slots, h.clean, fun q hq => ?_⟩
  · exact ⟨husable.programmed, husable.count, husable.length, husable.distinct⟩
  · exact hhanded q hq (Or.inr (h.registered hreg q hq))
  · rcases List.mem_append.mp hq with hdone | hlast
    · refine hhanded q ?_ (Or.inr (h.handed q hdone))
      rw [h.slots, hslots]
      exact List.mem_append_left _ hdone
    · exact List.mem_singleton.mp hlast ▸ hhanded p hp (Or.inl rfl)

theorem registerBuffers_sound :
    Triple (fun s => s.wiring.Sound u ∧ s.dirty = false) (registerBuffers d)
      (fun _ s => s.wiring.Sound u ∧ s.buffersRegistered = true) (fun s => s.wiring.Sound u) := by
  unfold registerBuffers
  apply triple_get_bind
  rintro s ⟨hs, hclean⟩
  let slots := s.settings.enabled.zip s.buffers
  refine triple_bind (Q := fun _ t => BuffersDone u slots slots t.wiring) ?_ fun _ => ?_
  · refine (triple_forM_done (I := fun done t => BuffersDone u slots done t.wiring) fun done p rest hslots => ?_).imp
      (fun t ht => ?_) (fun _ _ ht => ht) fun _ ht => ht
    · apply triple_start
      intro t ht
      refine (call_wiring d _ t.wiring).imp (fun t' ht' => ht' ▸ rfl) (fun _ t' ht' => ?_) fun t' ht' => ?_
      · rw [ht']
        exact ht.setDataBuffer hslots
      · rw [ht']
        exact ht.toSound
    · subst ht
      exact ⟨hs, rfl, hclean, nofun⟩
  · apply triple_modify
    intro t ht
    have husable := ht.usable (Or.inl ht.clean)
    refine ⟨⟨⟨ht.fixed, ht.within⟩, fun _ => ?_, fun _ p hp => ?_, ht.armed⟩, rfl⟩
    · exact ⟨husable.programmed, husable.count, husable.length, husable.distinct⟩
    · have hslot : p ∈ t.wiring.enabled.zip t.wiring.buffers := hp
      exact ht.handed p (ht.slots ▸ hslot)

theorem arm_sound : Triple (fun s => s.wiring.Sound u) (arm u d) (fun _ s => s.wiring.Sound u)
    (fun s => s.wiring.Sound u) := by
  unfold arm
  apply triple_get_bind
  intro s₀ hs₀
  refine triple_bind (((keeps_halt d).when.triple fun w => w.Sound u).imp (fun t ht => ht ▸ hs₀)
    (fun _ _ ht => ht) fun _ ht => ht) fun _ => ?_
  refine triple_bind (ensureApplied_sound d) fun _ => ?_
  refine triple_bind (registerBuffers_sound d) fun _ => ?_
  apply triple_get_bind
  rintro s ⟨hs, hreg⟩
  refine triple_bind (((keeps_call d fun _ => rfl).triple fun w => w = s.wiring).imp (fun t ht => ht ▸ rfl)
    (fun _ _ ht => ht) fun t ht => ht ▸ hs) fun _ => ?_
  apply triple_modify
  intro t ht
  have ht' : t.wiring.Sound u := ht ▸ hs
  refine ⟨⟨ht'.fixed, ht'.within⟩, fun hcond => ?_, ht'.registered, fun _ => rfl⟩
  have husable := ht'.usable hcond
  exact ⟨husable.programmed, husable.count, husable.length, husable.distinct⟩

/-! ### The operations -/

/-- What a setter may change of the channels: not which there are, and nothing where only the trigger is reprogrammed. -/
def Keeping (change : OscilloscopeSettings → Except Error OscilloscopeSettings) : Reprogram → Prop
  | .everything => ∀ s t, change s = .ok t → t.channels.map (·.channelId) = s.channels.map (·.channelId)
  | .trigger => ∀ s t, change s = .ok t → t.channels = s.channels

theorem applyChange_sound {change : OscilloscopeSettings → Except Error OscilloscopeSettings} {r : Reprogram}
    (hchange : Keeping change r) :
    Triple (fun s => s.wiring.Sound u) (applyChange u d r change) (fun _ s => s.wiring.Sound u)
      (fun s => s.wiring.Wired u) := by
  unfold applyChange
  apply triple_get_bind
  intro s hs
  refine triple_bind (Q := fun settings t => t = s ∧ change s.settings = .ok settings) ?_ fun settings => ?_
  · exact triple_lift (fun _ hok t ht => ⟨ht, hok⟩) fun _ _ t ht => ht ▸ hs.toWired
  cases r with
  | everything =>
    refine triple_bind (triple_modify (Q := fun _ t => t.wiring.Wired u) ?_) fun _ => ?_
    · rintro t ⟨rfl, hok⟩
      exact ⟨(hchange _ _ hok).trans hs.fixed, hs.within⟩
    · exact (applyConfiguration_sound d).imp (fun _ ht => ht) (fun _ _ ht => ht.1) fun _ ht => ht.toWired
  | trigger =>
    refine triple_bind (triple_modify (Q := fun _ t => t.wiring = s.wiring) ?_) fun _ => ?_
    · rintro t ⟨rfl, hok⟩
      unfold PicoScopeModern.wiring
      rw [hchange _ _ hok]
    · exact ((keeps_applyTrigger d).triple (· = s.wiring)).imp (fun _ ht => ht) (fun _ _ ht => ht ▸ hs)
        fun _ ht => ht ▸ hs.toWired

theorem putBack_sound {previous : OscilloscopeSettings}
    (hids : previous.channels.map (·.channelId) = Wiring.ids u) :
    Triple (fun s => s.wiring.Wired u) (putBack u d previous) (fun _ s => s.wiring.Sound u) (fun _ => False) := by
  unfold putBack
  refine triple_bind (triple_modify (Q := fun _ t => t.wiring.Wired u) fun t ht => ⟨hids, ht.within⟩) fun _ => ?_
  refine triple_bind (triple_attempt (applyConfiguration_sound d)) fun result => ?_
  cases result with
  | ok a => exact triple_modify fun _ ht => ht.1
  | error e => exact triple_modify fun _ ht => ht

theorem changeSettings_sound {change : OscilloscopeSettings → Except Error OscilloscopeSettings} {r : Reprogram}
    (hchange : Keeping change r) :
    Triple (fun s => s.wiring.Sound u) (changeSettings u d r change) (fun _ s => s.wiring.Sound u)
      (fun s => s.wiring.Sound u) := by
  have hrearm : ∀ c : Prop, [Decidable c] → Triple (fun s => s.wiring.Sound u) (when c (arm u d))
      (fun _ s => s.wiring.Sound u) (fun s => s.wiring.Sound u) := fun c _ =>
    triple_when (fun _ => arm_sound d) fun _ _ ht => ht
  unfold changeSettings
  apply triple_get_bind
  intro previous hprevious
  refine triple_bind (((keeps_halt d).when.triple fun w => w.Sound u).imp (fun t ht => ht ▸ hprevious)
    (fun _ _ ht => ht) fun _ ht => ht) fun _ => ?_
  refine triple_bind (triple_attempt (applyChange_sound d hchange)) fun result => ?_
  cases result with
  | ok a => exact hrearm _
  | error e =>
    refine triple_bind ((putBack_sound d hprevious.fixed).imp (fun _ ht => ht) (fun _ _ ht => ht)
      fun _ ht => ht.elim) fun _ => ?_
    refine triple_bind (triple_attempt (hrearm _)) fun rearmed => ?_
    refine triple_bind (triple_modify (Q := fun _ t => t.wiring.Sound u) fun t ht => ?_) fun _ => ?_
    · cases rearmed with
      | ok a => exact ht
      | error e => exact ht
    · exact triple_throw fun _ ht => ht

theorem keeping_channel {change : ChannelSettings → ChannelSettings} (hid : ∀ c, (change c).channelId = c.channelId)
    (id : ChannelId) : Keeping (fun settings => channelSettingsMut settings id change) .everything := by
  intro s t hok
  obtain ⟨-, rfl⟩ := channelSettingsMut_eq_ok.mp hok
  exact changeFirst_ids hid id s.channels

theorem keeping_timePerDiv {timePerDiv : ℚ} :
    Keeping (fun settings => .ok { settings with timePerDiv }) .everything := by
  intro s t hok
  cases hok
  rfl

theorem changeTrigger_sound (change : TriggerSettings → TriggerSettings) :
    Triple (fun s => s.wiring.Sound u) (changeTrigger u d change) (fun _ s => s.wiring.Sound u)
      (fun s => s.wiring.Sound u) := by
  refine changeSettings_sound d (r := .trigger) ?_
  intro s t hok
  cases hok
  rfl

theorem changeChannel_sound {change : ChannelSettings → ChannelSettings} (hid : ∀ c, (change c).channelId = c.channelId)
    (id : ChannelId) :
    Triple (fun s => s.wiring.Sound u) (changeChannel u d id change) (fun _ s => s.wiring.Sound u)
      (fun s => s.wiring.Sound u) :=
  changeSettings_sound d (keeping_channel hid id)

theorem set_sound (setter : Setter) :
    Triple (fun s => s.wiring.Sound u) (Modern.set u d setter) (fun _ s => s.wiring.Sound u)
      (fun s => s.wiring.Sound u) := by
  have hlift : ∀ {α : Type} (r : Except Error α), Triple (fun s : PicoScopeModern => s.wiring.Sound u) (liftM r : Act α)
      (fun _ s => s.wiring.Sound u) (fun s => s.wiring.Sound u) := fun r =>
    triple_lift (fun _ _ _ hs => hs) fun _ _ _ hs => hs
  have hpositive : ∀ value, Triple (fun s => s.wiring.Sound u) (positive value) (fun _ s => s.wiring.Sound u)
      (fun s => s.wiring.Sound u) := fun value =>
    triple_when (fun _ => triple_throw fun _ hs => hs) fun _ _ hs => hs
  have henable : ∀ c enabled, Triple (fun s => s.wiring.Sound u) (enableDisableChannel u d c enabled)
      (fun _ s => s.wiring.Sound u) (fun s => s.wiring.Sound u) := by
    intro c enabled
    refine triple_bind (hlift _) fun _ => ?_
    exact @changeChannel_sound u d (fun c => { c with enabled }) (fun _ => rfl) c
  cases setter with
  | enableChannel c => exact henable c true
  | disableChannel c => exact henable c false
  | voltsPerDiv c v =>
    refine triple_bind (hpositive _) fun _ => ?_
    exact @changeChannel_sound u d (fun c => { c with voltsPerDiv := v }) (fun _ => rfl) c
  | voltsOffset c v => exact @changeChannel_sound u d (fun c => { c with voltsOffset := v }) (fun _ => rfl) c
  | coupling c k =>
    refine triple_bind (hlift _) fun _ => ?_
    exact @changeChannel_sound u d (fun c => { c with coupling := k }) (fun _ => rfl) c
  | attenuation c a =>
    refine triple_bind (hpositive _) fun _ => ?_
    exact @changeChannel_sound u d (fun c => { c with attenuation := a }) (fun _ => rfl) c
  | timePerDiv t =>
    refine triple_bind (hpositive _) fun _ => ?_
    exact changeSettings_sound d keeping_timePerDiv
  | timeOffset t => exact triple_modify fun _ hs => hs
  | triggerLevel l => exact changeTrigger_sound d fun t => { t with triggerLevel := l }
  | triggerSource c =>
    refine triple_bind (hlift _) fun _ => ?_
    exact changeTrigger_sound d fun t => { t with triggerSource := c }
  | triggerSlope k => exact changeTrigger_sound d fun t => { t with triggerSlope := k }
  | captureMode m => exact changeTrigger_sound d fun t => { t with captureMode := m }

theorem startTriggeredCapture_sound (percent : ℚ) :
    Triple (fun s => s.wiring.Sound u) (startTriggeredCapture u d percent) (fun _ s => s.wiring.Sound u)
      (fun s => s.wiring.Sound u) := by
  refine triple_bind (triple_modify (Q := fun _ t => t.wiring.Sound u) fun _ hs => hs) fun _ => ?_
  exact arm_sound d

theorem armInAuto_sound :
    Triple (fun s => s.wiring.Sound u) (armInAuto u d) (fun _ s => s.wiring.Sound u) (fun s => s.wiring.Sound u) :=
  triple_bind ((keeps_applyTrigger d).triple fun w => w.Sound u) fun _ => arm_sound d

/-- A sound wiring whose configuration is applied again before the next block. -/
theorem Wiring.Sound.stale {w : Wiring} (h : w.Sound u) : Wiring.Sound u { w with dirty := true } := by
  refine ⟨⟨h.fixed, h.within⟩, fun hcond => ?_, h.registered, h.armed⟩
  have husable := h.usable (Or.inr (hcond.resolve_left nofun))
  exact ⟨husable.programmed, husable.count, husable.length, husable.distinct⟩

theorem forceTrigger_sound :
    Triple (fun s => s.wiring.Sound u) (forceTrigger u d) (fun _ s => s.wiring.Sound u)
      (fun s => s.wiring.Sound u) := by
  unfold forceTrigger
  apply triple_get_bind
  intro s hs
  refine triple_bind (((keeps_halt d).when.triple fun w => w.Sound u).imp (fun t ht => ht ▸ hs)
    (fun _ _ ht => ht) fun _ ht => ht) fun _ => ?_
  refine triple_bind (triple_modify (Q := fun _ t => t.wiring.Sound u) fun _ ht => ht) fun _ => ?_
  refine triple_bind (triple_attempt (armInAuto_sound d)) fun result => ?_
  have hresult : ∀ t : PicoScopeModern,
      Outcome (fun (_ : Unit) s => s.wiring.Sound u) (fun s => s.wiring.Sound u) (result, t) → t.wiring.Sound u := by
    intro t ht
    cases result with
    | ok a => exact ht
    | error e => exact ht
  refine triple_bind (triple_modify (Q := fun _ t => t.wiring.Sound u) fun t ht => (hresult t ht).stale) fun _ => ?_
  cases result with
  | ok a => exact triple_pure fun _ ht => ht
  | error e => exact triple_throw fun _ ht => ht

theorem keeps_getTriggeredData : Keeps PicoScopeModern.wiring (getTriggeredData u d) := by
  unfold getTriggeredData
  apply keeps_get.bind
  intro s
  apply (keeps_lift _).bind
  intro enabled
  apply (keeps_call d fun _ => rfl).bind
  intro
  refine Keeps.bind (keeps_modify fun _ => rfl) fun _ => ?_
  exact keeps_pure _

theorem act_sound (op : Op) :
    Triple (fun s => s.wiring.Sound u) (op.act u d) (fun _ s => s.wiring.Sound u) (fun s => s.wiring.Sound u) := by
  have hdone : ∀ {x : Act Unit}, Triple (fun s => s.wiring.Sound u) x (fun _ s => s.wiring.Sound u)
      (fun s => s.wiring.Sound u) → Triple (fun s => s.wiring.Sound u) (x >>= fun _ => pure (none : Option Frame))
      (fun _ s => s.wiring.Sound u) (fun s => s.wiring.Sound u) := fun hx =>
    triple_bind hx fun _ => triple_pure fun _ hs => hs
  cases op with
  | set setter => exact hdone (set_sound d setter)
  | startTriggeredCapture percent => exact hdone (startTriggeredCapture_sound d percent)
  | stopTriggeredCapture => exact hdone ((keeps_halt d).triple fun w => w.Sound u)
  | rearm => exact hdone (triple_get_bind fun s hs => (startTriggeredCapture_sound d _).imp (fun t ht => ht ▸ hs)
      (fun _ _ ht => ht) fun _ ht => ht)
  | forceTrigger => exact hdone (forceTrigger_sound d)
  | getTriggeredData =>
    refine triple_bind ((keeps_getTriggeredData d).triple fun w => w.Sound u) fun _ => ?_
    exact triple_pure fun _ hs => hs

/-! ### Runs -/

theorem sound_step {s t : PicoScopeModern} {e : Event} (h : s.wiring.Sound u) (hstep : step u s e = some t) :
    t.wiring.Sound u := by
  have hact : Outcome (fun _ s => s.wiring.Sound u) (fun s => s.wiring.Sound u) (outcome u s e) :=
    act_sound e.device e.op s.unwatched h
  unfold step at hstep
  generalize outcome u s e = r at hact hstep
  obtain ⟨r, t'⟩ := r
  cases hstep
  cases r with
  | ok a => exact hact
  | error err => exact hact

theorem Adopts.sound {s : PicoScopeModern} (h : Adopts u d s) : s.wiring.Sound u := by
  have hwired : (adopted u).wiring.Wired u := by
    refine ⟨?_, nofun⟩
    show ((List.range u.analogChannels).map initialChannel).map (·.channelId) = Wiring.ids u
    rw [List.map_map]
    rfl
  have hsound := applyConfiguration_sound d (adopted u) hwired
  rw [show exec (applyConfiguration u d) (adopted u) = (.ok (), s) from h] at hsound
  exact hsound.1

theorem sound_run {s t : PicoScopeModern} (h : Adopts u d s) {es : List Event} (hrun : run (step u) s es = some t) :
    t.wiring.Sound u :=
  run_preserves (fun s => s.wiring.Sound u) (fun _ _ _ hs hstep => sound_step hs hstep) h.sound hrun

/-- A read finds, for every channel that the device has on, one of the driver's buffers, another for each channel, and
as long as what is asked for. -/
structure Live (s : PicoScopeModern) : Prop where
  current : ∀ i, s.hardware.enabled i = true →
    ∃ b ∈ s.buffers, s.hardware.registered i = some b ∧ s.samplesPerCapture ≤ b.len
  distinct : ∀ i j b c, s.hardware.enabled i = true → s.hardware.enabled j = true →
    s.hardware.registered i = some b → s.hardware.registered j = some c → b.id = c.id → i = j

/-- The slot of a channel that the device has on. -/
theorem exists_slot {w : Wiring} (h : w.Sound u) (hreg : w.registered = true) {i : Nat}
    (hi : w.hardware.enabled i = true) :
    ∃ p ∈ w.enabled.zip w.buffers, hardwareIndex p.1.channelId = i ∧ w.hardware.registered i = some p.2 := by
  have husable := h.usable (Or.inr hreg)
  obtain ⟨c, hc, rfl⟩ := h.toWired.exists_channel (h.within i hi)
  have henabled : c ∈ w.enabled := List.mem_filter.mpr ⟨hc, (husable.programmed c hc).symm.trans hi⟩
  have hfst : (w.enabled.zip w.buffers).map Prod.fst = w.enabled := List.map_fst_zip husable.count.ge
  obtain ⟨p, hp, rfl⟩ := List.mem_map.mp (hfst.symm ▸ henabled)
  exact ⟨p, hp, rfl, h.registered hreg p hp⟩

theorem live_of_sound {s : PicoScopeModern} (h : s.wiring.Sound u) (hreg : s.buffersRegistered = true) : Live s := by
  have husable := h.usable (Or.inr hreg)
  refine ⟨fun i hi => ?_, fun i j b c hi hj hb hc hbc => ?_⟩
  · obtain ⟨p, hp, -, hbuffer⟩ := exists_slot h hreg hi
    have hmem : p.2 ∈ s.buffers := (List.of_mem_zip hp).2
    exact ⟨p.2, hmem, hbuffer, (husable.length p.2 hmem).ge⟩
  · obtain ⟨p, hp, rfl, hbuffer⟩ := exists_slot h hreg hi
    obtain ⟨q, hq, rfl, hbuffer'⟩ := exists_slot h hreg hj
    obtain rfl : p.2 = b := Option.some.inj (hbuffer.symm.trans hb)
    obtain rfl : q.2 = c := Option.some.inj (hbuffer'.symm.trans hc)
    -- two slots with one buffer are one slot
    have hsnd : (s.wiring.enabled.zip s.wiring.buffers).map Prod.snd = s.wiring.buffers :=
      List.map_snd_zip husable.count.le
    have hnodup : ((s.wiring.enabled.zip s.wiring.buffers).map fun p => p.2.id).Nodup := by
      have hdistinct := husable.distinct
      rw [← hsnd, List.map_map] at hdistinct
      exact hdistinct
    exact congrArg (fun p : ChannelSettings × Buffer => hardwareIndex p.1.channelId)
      (List.inj_on_of_nodup_map hnodup hp hq hbc)

theorem readable_registered {s : PicoScopeModern} {enabled : List ChannelSettings} (h : readable s = .ok enabled) :
    s.buffersRegistered = true := by
  unfold readable at h
  split_ifs at h with _ hreg
  exact hreg

/-- A frame describes itself by the settings it is read at. -/
theorem getTriggeredData_description (s : PicoScopeModern) :
    Triple (· = s) (getTriggeredData u d) (fun frame _ => frame.description = s.describe u) (fun _ => True) := by
  unfold getTriggeredData
  apply triple_get_bind
  rintro s' rfl
  refine triple_bind triple_true fun _ => ?_
  refine triple_bind triple_true fun _ => ?_
  refine triple_bind triple_true fun _ => ?_
  exact triple_pure fun _ _ => rfl

/-- Since the configuration was last applied, a block has been armed: the `run_block` after it was not refused. -/
def Unstale (s : PicoScopeModern) (e : Event) : Prop :=
  e.op = .getTriggeredData → s.buffersRegistered = true → s.reconfigured = false

/-- What a read finds and returns. -/
def ReadsRight (u : Model) (s : PicoScopeModern) (e : Event) : Prop :=
  e.op = .getTriggeredData → ∀ enabled, readable s = .ok enabled →
    Live s ∧ ∀ frame t, outcome u s e = (.ok (some frame), t) → s.hardware.armed = some frame.description

/-- **Live buffers.** Whatever the device refuses, it only writes to the driver's buffers; and while no read comes
between a refused `run_block` and the next armed block, a frame is described as its block was armed. -/
theorem reads_right {s₀ : PicoScopeModern} (hadopts : Adopts u d s₀) {es : List Event} {e : Event} {s : PicoScopeModern}
    (hal : Along (step u) Unstale s₀ (es ++ [e])) (hrun : run (step u) s₀ es = some s) : ReadsRight u s e := by
  intro hop enabled hreadable
  have hsound := sound_run d hadopts hrun
  have hreg := readable_registered hreadable
  refine ⟨live_of_sound hsound hreg, fun frame t hout => ?_⟩
  have harmed := hsound.armed ((hal.append hrun).2.1 hop hreg)
  have hframe : Triple (· = s.unwatched) (e.op.act u e.device)
      (fun r _ => ∀ frame, r = some frame → frame.description = s.describe u) (fun _ => True) := by
    rw [hop]
    refine triple_bind (getTriggeredData_description e.device s.unwatched) fun frame => ?_
    refine triple_pure fun t ht frame' hsome => ?_
    cases hsome
    exact ht
  have hdescription := hframe s.unwatched rfl
  rw [show exec (e.op.act u e.device) s.unwatched = (.ok (some frame), t) from hout] at hdescription
  rw [hdescription frame rfl]
  exact harmed

/-! ### A refused `run_block` -/

/-- A unit of four channels that accepts the calls that `accepts` says. -/
def unit4 : Model := ⟨.ps5000a, 4, 32767, by decide⟩

def meets (accepts : Nat → Bool) : Device := ⟨accepts, fun _ _ _ => some ⟨1 / 100000, 0⟩, 2000, fun _ => false⟩

def obliging : Device := meets fun _ => true

theorem adopts_of_ok (h : (exec (applyConfiguration u d) (adopted u)).1 = .ok ()) :
    Adopts u d (exec (applyConfiguration u d) (adopted u)).2 := Prod.ext h rfl

def opened4 : PicoScopeModern := (exec (applyConfiguration unit4 obliging) (adopted unit4)).2

theorem opened4_adopts : Adopts unit4 obliging opened4 := adopts_of_ok obliging (by decide +kernel)

def readout : Event := ⟨.getTriggeredData, obliging⟩

theorem reads_right_armed : ∃ s, run (step unit4) opened4 [⟨.startTriggeredCapture 50, obliging⟩] = some s ∧
    (readable s).isOk = true ∧ ReadsRight unit4 s readout := by
  let s := (outcome unit4 opened4 ⟨.startTriggeredCapture 50, obliging⟩).2
  have hreconfigured : s.reconfigured = false := by decide +kernel
  refine ⟨s, rfl, by decide +kernel, @reads_right unit4 obliging _ opened4_adopts [_] _ _ ?_ rfl⟩
  refine ⟨nofun, fun t ht => ⟨fun _ _ => ?_, fun _ _ => trivial⟩⟩
  cases ht
  exact hreconfigured

theorem outcome_of_frame {r : Except Error (Option Frame) × PicoScopeModern} {frame : Frame}
    (h : r.1.toOption.bind id = some frame) : r = (.ok (some frame), r.2) := by
  obtain ⟨r, s⟩ := r
  cases r with
  | ok found =>
    cases h
    rfl
  | error e => exact absurd h nofun

/-- A block armed at 1 V/div, then 2 V/div while it is stopped, and a `run_block` refused: the device still has the
first block, and it is returned as one of the second setting. -/
def refusedBlock : List Event :=
  [⟨.startTriggeredCapture 50, obliging⟩, ⟨.stopTriggeredCapture, obliging⟩,
    ⟨.set (.voltsPerDiv (.alphabetic 'A') 2), obliging⟩, ⟨.startTriggeredCapture 50, meets fun n => n ≠ 1⟩]

theorem stale_block_returned : ∃ s, run (step unit4) opened4 refusedBlock = some s ∧ ¬ReadsRight unit4 s readout := by
  have hread : (run (step unit4) opened4 refusedBlock).map (fun s =>
      ((readable s).isOk, ((outcome unit4 s readout).1.toOption.bind id).map fun frame =>
        decide (s.hardware.armed = some frame.description))) = some (true, some false) := by decide +kernel
  obtain ⟨s, hrun, hfacts⟩ := Option.map_eq_some_iff.mp hread
  obtain ⟨hok, hframe⟩ := Prod.mk.inj hfacts
  refine ⟨s, hrun, fun hright => ?_⟩
  obtain ⟨enabled, henabled⟩ : ∃ enabled, readable s = .ok enabled := by
    cases hr : readable s with
    | ok enabled => exact ⟨enabled, rfl⟩
    | error err => simp [hr, Except.isOk, Except.toBool] at hok
  obtain ⟨frame, hsome, hne⟩ := Option.map_eq_some_iff.mp hframe
  exact of_decide_eq_false hne ((hright rfl enabled henabled).2 frame _ (outcome_of_frame hsome))

end Lager.Pico.Modern
