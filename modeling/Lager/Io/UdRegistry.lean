import Lager.Io.UdHandles
import Mathlib.Data.List.Nodup

/-!
# One entry for each U3

Between calls every handle that is open is in the registry, under the serial of its device, and what a call returns has
answered it. Three steps break this, and no others do: `_register` raising after the open, `_register` replacing the
entry of a handle that was lost, and the adoption of the one open entry, which nobody has asked.
-/

namespace Lager.Io

open Lager.Lib Lager.Py

variable {bench : Bench} {s s' : Ud} {e : Entry} {h serial : Nat} {want : Option String} {hd : Handle}

/-! ### Handles -/

/-- The handle's device is the one that the request names. -/
def Named (want : Option String) (serial : Nat) (port : Option String) : Prop :=
  ∀ w, want = some w →
    match portNamed w with
    | some p => port = some p
    | none => intOfText w.toList = some (serial : Int)

/-- The handles of one state are those of the other, as far as their devices go, and the other may have more. -/
def Extends (s s' : Ud) : Prop :=
  ∀ (h : Nat) (hd : Handle), s.handles[h]? = some hd →
    ∃ hd' : Handle, s'.handles[h]? = some hd' ∧ hd'.serial = hd.serial ∧ hd'.port = hd.port

theorem Extends.refl (hsame : s'.handles = s.handles) : Extends s s' := fun _ hd hh => ⟨hd, hsame ▸ hh, rfl, rfl⟩

theorem lose_serial (d : Nat) (hd : Handle) : (hd.lose d).serial = hd.serial := by
  unfold Handle.lose
  split_ifs <;> rfl

theorem lose_port (d : Nat) (hd : Handle) : (hd.lose d).port = hd.port := by
  unfold Handle.lose
  split_ifs <;> rfl

theorem lose_closed (d : Nat) (hd : Handle) : (hd.lose d).closed = hd.closed := by
  unfold Handle.lose
  split_ifs <;> rfl

theorem lose_alive {d : Nat} (h : (hd.lose d).alive = true) : hd.serial ≠ d ∧ hd.alive = true := by
  unfold Handle.lose at h
  by_cases heq : hd.serial = d
  · rw [if_pos heq] at h
    cases h
  · rw [if_neg heq] at h
    exact ⟨heq, h⟩

/-- The handles after a device has been lost. -/
theorem getElem?_lose {d h' : Nat} {hd' : Handle} (hh : (s.handles.map (Handle.lose d))[h']? = some hd') :
    ∃ hd, s.handles[h']? = some hd ∧ hd' = hd.lose d := by
  rw [List.getElem?_map] at hh
  obtain ⟨hd, hbefore, rfl⟩ := Option.map_eq_some_iff.mp hh
  exact ⟨hd, hbefore, rfl⟩

theorem extends_close (s : Ud) (h : Nat) : Extends s (s.close h) := by
  intro h' hd hh
  by_cases heq : h = h'
  · exact ⟨hd.close, by simp [Ud.close, heq, hh], rfl, rfl⟩
  · exact ⟨hd, by simp [Ud.close, heq, hh], rfl, rfl⟩

/-- The handles after a close: another one as it was, or the closed one. -/
theorem close_cases {h' : Nat} (hh : (s.close h).handles[h']? = some hd) :
    (h' ≠ h ∧ s.handles[h']? = some hd) ∨ (hd.closed = true ∧ hd.alive = false) := by
  simp only [Ud.close, List.getElem?_modify] at hh
  by_cases heq : h = h'
  · simp only [heq, if_true] at hh
    obtain ⟨before, -, rfl⟩ := Option.map_eq_some_iff.mp hh
    exact .inr ⟨rfl, rfl⟩
  · simp only [heq, if_false] at hh
    exact .inl ⟨Ne.symm heq, by simpa using hh⟩

theorem extends_append (s : Ud) (more : List Handle) : Extends s { s with handles := s.handles ++ more } := by
  intro h hd hh
  refine ⟨hd, ?_, rfl, rfl⟩
  exact (List.getElem?_append_left (List.getElem?_eq_some_iff.mp hh).1).trans hh

theorem getElem?_append_new {more : Handle} (hh : (s.handles ++ [more])[h]? = some hd) :
    s.handles[h]? = some hd ∨ (h = s.handles.length ∧ hd = more) := by
  by_cases hlt : h < s.handles.length
  · exact .inl ((List.getElem?_append_left hlt).symm.trans hh)
  · rw [List.getElem?_append_right (by omega), List.getElem?_singleton] at hh
    split_ifs at hh with hzero
    cases hh
    exact .inr ⟨by omega, rfl⟩

/-! ### Where live handles are -/

/-- The device of a live handle is where it was when it was opened. -/
def Live (s : Ud) : Prop :=
  ∀ (h : Nat) (hd : Handle), s.handles[h]? = some hd → hd.alive = true → s.ports hd.serial = some hd.port

/-- Nothing is plugged or unplugged, and every live handle was one before. -/
structure Loses (s s' : Ud) : Prop where
  ports : s'.ports = s.ports
  handles : ∀ (h : Nat) (hd : Handle), s'.handles[h]? = some hd → hd.alive = true → s.handles[h]? = some hd

/-- The same, but for a new handle of a device that is plugged in. -/
structure Settles (s s' : Ud) : Prop where
  ports : s'.ports = s.ports
  handles : ∀ (h : Nat) (hd : Handle), s'.handles[h]? = some hd → hd.alive = true →
    s.handles[h]? = some hd ∨ (h = s.handles.length ∧ s.ports hd.serial = some hd.port)

theorem Loses.trans {s₁ s₂ s₃ : Ud} (h : Loses s₁ s₂) (h' : Loses s₂ s₃) : Loses s₁ s₃ :=
  ⟨h'.ports.trans h.ports, fun n hd hh halive => h.handles n hd (h'.handles n hd hh halive) halive⟩

theorem Loses.settles (h : Loses s s') : Settles s s' :=
  ⟨h.ports, fun n hd hh halive => .inl (h.handles n hd hh halive)⟩

theorem Loses.same (hports : s'.ports = s.ports) (hhandles : s'.handles = s.handles) : Loses s s' :=
  ⟨hports, fun _ _ hh _ => hhandles ▸ hh⟩

theorem Settles.live (h : Settles s s') (hlive : Live s) : Live s' := by
  intro h' hd hh halive
  rw [h.ports]
  rcases h.handles h' hd hh halive with hbefore | ⟨-, hnew⟩
  · exact hlive h' hd hbefore halive
  · exact hnew

theorem loses_discard (s : Ud) (e : Entry) : Loses s (s.discard e) := by
  refine ⟨rfl, fun h' hd hh halive => ?_⟩
  rcases close_cases hh with ⟨-, hbefore⟩ | ⟨-, hdead⟩
  · exact hbefore
  · rw [hdead] at halive
    cases halive

theorem loses_release_device (s : Ud) (want : Option String) : Loses s (release_device s want) := by
  unfold release_device
  split
  · split_ifs <;> exact Loses.same rfl rfl
  · exact Loses.same rfl rfl

theorem loses_force_close (s : Ud) (want : Option String) : Loses s (force_close s want) := by
  unfold force_close
  split
  · exact loses_discard s _
  · exact Loses.same rfl rfl

theorem loses_deviceCount {count : Nat} (hstep : s.deviceCount count = some s') : Loses s s' := by
  obtain ⟨want, port, -, rfl⟩ := deviceCount_cases hstep
  exact Loses.same rfl rfl

theorem loses_close_all (s : Ud) : Loses s (close_all s) := by
  have hfold : ∀ (l : List Entry) (t : Ud), Loses t (l.foldl Ud.discard t) := by
    intro l
    induction l with
    | nil => exact fun t => Loses.same rfl rfl
    | cons e l ih => exact fun t => (loses_discard t e).trans (ih (t.discard e))
  exact hfold s.devices s

theorem settles_opened {d : Nat} {opened : Handle × Ud} (hopened : s.openHandle d = some opened)
    (hhandles : s'.handles = opened.2.handles) (hports : s'.ports = s.ports) : Settles s s' := by
  obtain ⟨port, hport, -, hstate⟩ := openHandle_cases hopened
  refine ⟨hports, fun h hd hh halive => ?_⟩
  rw [hhandles, hstate] at hh
  rcases getElem?_append_new hh with hbefore | ⟨rfl, rfl⟩
  · exact .inl hbefore
  · exact .inr ⟨rfl, hport⟩

/-- A device that was opened and closed again has left the live handles as they were. -/
theorem passed_handles {d : Nat} {opened : Handle × Ud} (hopened : s.openHandle d = some opened)
    (hh : (opened.2.close s.handles.length).handles[h]? = some hd) :
    s.handles[h]? = some hd ∨ (hd.closed = true ∧ hd.alive = false) := by
  obtain ⟨port, -, -, hstate⟩ := openHandle_cases hopened
  rcases close_cases hh with ⟨hne, hopen⟩ | hclosed
  · rw [hstate] at hopen
    rcases getElem?_append_new hopen with hold | ⟨heq, -⟩
    · exact .inl hold
    · exact absurd heq hne
  · exact .inr hclosed

theorem passed_ports {d : Nat} {opened : Handle × Ud} (hopened : s.openHandle d = some opened) :
    opened.2.ports = s.ports := by
  obtain ⟨port, -, -, hstate⟩ := openHandle_cases hopened
  rw [hstate]

theorem loses_passed {d : Nat} {opened : Handle × Ud} {phase : Phase} (hopened : s.openHandle d = some opened) :
    Loses s { opened.2.close s.handles.length with phase := phase } := by
  refine ⟨passed_ports hopened, fun h hd hh halive => ?_⟩
  rcases passed_handles hopened hh with hbefore | ⟨-, hdead⟩
  · exact hbefore
  · rw [hdead] at halive
    cases halive

theorem openFailed_same (s : Ud) (want : Option String) : Loses s (s.openFailed want) := by
  unfold Ud.openFailed
  split <;> exact Loses.same rfl rfl

theorem loses_configU3 {answers : Bool} (hstep : s.configU3 answers = some s') : Loses s s' := by
  rcases configU3_cases hstep with ⟨want, e, -, -, -, rfl⟩ | ⟨want, e, -, -, rfl⟩ | ⟨want, h, hd, -, -, -, -, rfl⟩ |
    ⟨want, h, -, -, rfl⟩
  · exact Loses.same rfl rfl
  · exact (loses_discard s e).trans (Loses.same rfl rfl)
  · exact Loses.same rfl rfl
  · exact Loses.same rfl rfl

theorem settles_openDevice {found : Option Nat} (hstep : s.openDevice found = some s') : Settles s s' := by
  rcases openDevice_cases hstep with ⟨want, port, left, -, rfl⟩ | ⟨want, port, left, d, opened, -, hopened, -, rfl⟩ |
    ⟨want, port, left, d, opened, -, hopened, rfl⟩ | ⟨want, serial, -, -, rfl⟩ |
    ⟨want, serial, d, opened, -, -, hopened, rfl⟩
  · apply Loses.settles
    exact Loses.same rfl rfl
  · exact settles_opened hopened rfl (passed_ports hopened)
  · exact (loses_passed hopened).settles
  · exact (openFailed_same s want).settles
  · exact settles_opened hopened rfl (passed_ports hopened)

theorem loses_set_channel_mode {dio : Nat} {analog : Bool} (hstep : set_channel_mode bench s h dio analog = some s') :
    Loses s s' := by
  rcases set_channel_mode_cases hstep with rfl | ⟨hd, -, -, rfl⟩ | ⟨-, rfl⟩
  · exact Loses.same rfl rfl
  · exact Loses.same rfl rfl
  · exact Loses.same rfl rfl

theorem loses_configIo {answers applied : Bool} (hstep : s.configIo answers applied = some s') : Loses s s' := by
  rcases configIo_cases hstep with ⟨-, rfl⟩ | ⟨h, dio, analog, hd, -, -, -, -, rfl⟩ | ⟨h, dio, analog, hd, -, -, -, rfl⟩ |
    ⟨h, dio, analog, wanted, hd, -, -, -, rfl⟩ | ⟨h, dio, analog, wanted, hd, -, -, -, -, -, rfl⟩
  all_goals exact Loses.same rfl rfl

theorem live_unplug (hlive : Live s) (hstep : s.unplug serial = some s') : Live s' := by
  obtain ⟨-, rfl⟩ := unplug_cases hstep
  intro h' hd' hh halive
  obtain ⟨hd, hbefore, rfl⟩ := getElem?_lose hh
  obtain ⟨hne, halive⟩ := lose_alive halive
  show (if (hd.lose serial).serial = serial then none else s.ports (hd.lose serial).serial) = _
  rw [lose_serial, lose_port, if_neg hne]
  exact hlive h' hd hbefore halive

theorem live_plug {port : String} (hlive : Live s) (hstep : s.plug bench serial port = some s') : Live s' := by
  obtain ⟨hnone, rfl⟩ := plug_cases hstep
  intro h' hd hh halive
  have hport := hlive h' hd hh halive
  show (if hd.serial = serial then some port else s.ports hd.serial) = _
  rw [if_neg ?_, hport]
  rintro rfl
  rw [hnone] at hport
  cases hport

theorem live_step {event : Event} (hlive : Live s) (hstep : step bench s event = some s') : Live s' := by
  cases event with
  | unplug serial => exact live_unplug hlive hstep
  | plug serial port => exact live_plug hlive hstep
  | getDevice want =>
    obtain ⟨-, heq⟩ := whenIdle_some hstep
    cases heq
    have hsame : Loses s (get_device s want) := Loses.same rfl rfl
    exact hsame.settles.live hlive
  | releaseDevice want =>
    obtain ⟨-, heq⟩ := whenIdle_some hstep
    cases heq
    exact (loses_release_device s want).settles.live hlive
  | forceClose want =>
    obtain ⟨-, heq⟩ := whenIdle_some hstep
    cases heq
    exact (loses_force_close s want).settles.live hlive
  | closeAll =>
    obtain ⟨-, heq⟩ := whenIdle_some hstep
    cases heq
    exact (loses_close_all s).settles.live hlive
  | setChannelMode h dio analog => exact (loses_set_channel_mode (whenIdle_some hstep).2).settles.live hlive
  | configU3 answers => exact (loses_configU3 hstep).settles.live hlive
  | deviceCount count => exact (loses_deviceCount hstep).settles.live hlive
  | openDevice found => exact (settles_openDevice hstep).live hlive
  | configIo answers applied => exact (loses_configIo hstep).settles.live hlive

/-! ### The invariant -/

/-- What the call in progress has found out about its request. -/
def PhaseOk (s : Ud) : Phase → Prop
  | .probing want e => e ∈ s.devices ∧ ∃ hd, s.handles[e.handle]? = some hd ∧ Named want hd.serial (some hd.port)
  | .registering want h => ∃ hd, s.handles[h]? = some hd ∧ Named want hd.serial (some hd.port)
  | .counting want port | .scanning want port _ => ∃ w, want = some w ∧ portNamed w = some port
  | .opening want serial => ∀ w, want = some w → portNamed w = none ∧ serial ≠ none ∧ intOfText w.toList = serial
  | _ => True

/-- The handle has answered during the call, and its device is the one that was asked for. -/
def Returned.Right (r : Returned) : Prop :=
  r.answered = true ∧ ∃ serial, r.serial = some serial ∧ Named r.want serial r.port

structure Kept (s : Ud) : Prop where
  keys : (s.devices.map Entry.key).Nodup
  own : ∀ e ∈ s.devices, ∃ hd, s.handles[e.handle]? = some hd ∧ e.key = keyOf hd.serial
  refs : ∀ e ∈ s.devices, 0 ≤ e.refs
  held : ∀ (h : Nat) (hd : Handle), s.handles[h]? = some hd → hd.closed = false →
    (∃ e ∈ s.devices, e.handle = h) ∨ s.phase.holding = some h
  returned : ∀ r ∈ s.returned, r.Right
  phase : PhaseOk s s.phase

theorem PhaseOk.mono {phase : Phase} (h : PhaseOk s phase) (hext : Extends s s') (hdevices : s'.devices = s.devices) :
    PhaseOk s' phase := by
  cases phase with
  | probing want e =>
    obtain ⟨hmem, hd, hh, hnamed⟩ := h
    obtain ⟨hd', hh', hserial, hport⟩ := hext e.handle hd hh
    exact ⟨hdevices ▸ hmem, hd', hh', by rwa [hserial, hport]⟩
  | registering want h' =>
    obtain ⟨hd, hh, hnamed⟩ := h
    obtain ⟨hd', hh', hserial, hport⟩ := hext h' hd hh
    exact ⟨hd', hh', by rwa [hserial, hport]⟩
  | idle | counting | scanning | opening | readingIo | writingIo => exact h

theorem own_mono {devices : List Entry} (hext : Extends s s')
    (h : ∀ e ∈ devices, ∃ hd, s.handles[e.handle]? = some hd ∧ e.key = keyOf hd.serial) :
    ∀ e ∈ devices, ∃ hd, s'.handles[e.handle]? = some hd ∧ e.key = keyOf hd.serial := by
  intro e he
  obtain ⟨hd, hh, hkey⟩ := h e he
  obtain ⟨hd', hh', hserial, -⟩ := hext e.handle hd hh
  exact ⟨hd', hh', by rw [hserial, hkey]⟩

/-- Nothing but the phase has changed, and no open handle is forgotten. -/
theorem Kept.toPhase (h : Kept s) (hdevices : s'.devices = s.devices) (hhandles : s'.handles = s.handles)
    (hreturned : s'.returned = s.returned) (hholding : s.phase.holding = none)
    (hphase : PhaseOk s' s'.phase) : Kept s' where
  keys := hdevices ▸ h.keys
  own := by
    rw [hdevices]
    exact own_mono (Extends.refl hhandles) h.own
  refs := hdevices ▸ h.refs
  held := by
    intro h' hd hh hopen
    rw [hhandles] at hh
    rcases h.held h' hd hh hopen with hentry | hhold
    · exact .inl (hdevices ▸ hentry)
    · rw [hholding] at hhold
      cases hhold
  returned := hreturned ▸ h.returned
  phase := hphase

theorem Kept.entry_of_key (h : Kept s) {e e' : Entry} (he : e ∈ s.devices) (he' : e' ∈ s.devices)
    (hkey : e.key = e'.key) : e = e' := List.inj_on_of_nodup_map h.keys he he' hkey

/-! ### Requests -/

theorem resolve_mem {uniqueOk : Bool} (h : _resolve_open_key s want uniqueOk = some e) : e ∈ s.devices := by
  cases want with
  | some w =>
    unfold _resolve_open_key at h
    dsimp only at h
    cases hport : portNamed w with
    | some port =>
      rw [hport] at h
      exact List.mem_of_find?_eq_some h
    | none =>
      rw [hport] at h
      exact List.mem_of_find?_eq_some h
  | none =>
    unfold _resolve_open_key at h
    dsimp only at h
    cases hknown : s.firstFound.bind fun known => s.devices.find? fun e => e.key == some known with
    | some e' =>
      rw [hknown] at h
      cases h
      obtain ⟨known, -, hfind⟩ := Option.bind_eq_some_iff.mp hknown
      exact List.mem_of_find?_eq_some hfind
    | none =>
      rw [hknown] at h
      dsimp only at h
      split at h
      case h_1 hsingle =>
        cases h
        rw [hsingle]
        exact List.mem_singleton_self e
      case h_2 => cases h

theorem intOfText_key {serial : Nat} {w : String} (h : keyOf serial = some w) :
    intOfText w.toList = some (serial : Int) := by
  unfold keyOf at h
  by_cases hzero : serial = 0
  · rw [if_pos hzero] at h
    cases h
  · rw [if_neg hzero] at h
    cases h
    rw [String.toList_ofList, intOfText_textOfNat]

/-- An entry that serves a request is the device that the request names. -/
theorem resolve_named {uniqueOk : Bool} (h : _resolve_open_key s want uniqueOk = some e)
    (hh : s.handles[e.handle]? = some hd) (hkey : e.key = keyOf hd.serial) : Named want hd.serial (some hd.port) := by
  rintro w rfl
  unfold _resolve_open_key at h
  dsimp only at h
  cases hport : portNamed w with
  | some port =>
    rw [hport] at h
    have hsame := List.find?_some h
    simp only [Ud.portOf, hh, Option.map_some, beq_iff_eq] at hsame
    exact hsame
  | none =>
    rw [hport] at h
    have hsame := List.find?_some h
    rw [beq_iff_eq, hkey] at hsame
    exact intOfText_key hsame

theorem openPhase_ok (s : Ud) (want : Option String) : PhaseOk s (openPhase want) := by
  unfold openPhase
  cases want with
  | none => exact fun w hw => by cases hw
  | some w =>
    dsimp only
    cases hport : portNamed w with
    | some port => exact ⟨w, rfl, hport⟩
    | none =>
      cases hint : intOfText w.toList with
      | none => exact trivial
      | some n =>
        rintro w' hw
        cases hw
        exact ⟨hport, Option.some_ne_none n, hint⟩

theorem openPhase_holding (want : Option String) : (openPhase want).holding = none := by
  unfold openPhase
  cases want with
  | none => rfl
  | some w =>
    dsimp only
    cases portNamed w with
    | some port => rfl
    | none => cases intOfText w.toList <;> rfl

/-! ### Steps -/

/-- **What keeps the registry.** A configuration that is read after an open answers, and its device has no entry yet;
and a request for the first device does not fall back on the only open one. -/
def Careful (s : Ud) : Event → Prop
  | .configU3 answers =>
    match s.phase with
    | .registering _ h => answers = true ∧ ∀ e ∈ s.devices, e.key ≠ (s.serialOf h).bind keyOf
    | _ => True
  | .openDevice none =>
    match s.phase with
    | .opening none _ => s.devices.length ≠ 1
    | _ => True
  | _ => True

theorem kept_unplug (h : Kept s) (hstep : s.unplug serial = some s') : Kept s' := by
  obtain ⟨-, rfl⟩ := unplug_cases hstep
  have hext : ∀ s' : Ud, s'.handles = s.handles.map (Handle.lose serial) → Extends s s' := by
    intro s' hsame h' hd hh
    refine ⟨hd.lose serial, ?_, lose_serial serial hd, lose_port serial hd⟩
    rw [hsame, List.getElem?_map, hh, Option.map_some]
  refine ⟨h.keys, own_mono (hext _ rfl) h.own, h.refs, ?_, h.returned, h.phase.mono (hext _ rfl) rfl⟩
  intro h' hd' hh hopen
  obtain ⟨hd, hbefore, rfl⟩ := getElem?_lose hh
  exact h.held h' hd hbefore (lose_closed serial hd ▸ hopen)

theorem kept_plug {port : String} (h : Kept s) (hstep : s.plug bench serial port = some s') : Kept s' := by
  obtain ⟨-, rfl⟩ := plug_cases hstep
  exact ⟨h.keys, h.own, h.refs, h.held, h.returned, h.phase.mono (Extends.refl rfl) rfl⟩

theorem kept_get_device (h : Kept s) (hidle : s.phase = .idle) : Kept (get_device s want) := by
  have hkept : PhaseOk (get_device s want) (get_device s want).phase → Kept (get_device s want) :=
    h.toPhase rfl rfl rfl (hidle ▸ rfl)
  apply hkept
  unfold get_device
  dsimp only
  cases hresolve : _resolve_open_key s (if want = some "" then none else want) false with
  | none =>
    dsimp only
    exact openPhase_ok _ _
  | some e =>
    have hmem := resolve_mem hresolve
    obtain ⟨hd, hh, hkey⟩ := h.own e hmem
    exact ⟨hmem, hd, hh, resolve_named hresolve hh hkey⟩

/-- One entry is closed and forgotten. -/
theorem kept_discard (phase : Phase) (h : Kept s) (he : e ∈ s.devices) (hholding : s.phase.holding = none)
    (hphase : ∀ s', PhaseOk s' phase) : Kept { s.discard e with phase := phase } where
  keys := (List.Sublist.map Entry.key List.filter_sublist).nodup h.keys
  own := by
    intro e' he'
    exact own_mono (extends_close s e.handle) h.own e' (List.mem_of_mem_filter he')
  refs := fun e' he' => h.refs e' (List.mem_of_mem_filter he')
  held := by
    intro h' hd hh hopen
    rcases close_cases hh with ⟨hne, hbefore⟩ | ⟨hclosed, -⟩
    case inr =>
      rw [hopen] at hclosed
      cases hclosed
    rcases h.held h' hd hbefore hopen with ⟨e', he', rfl⟩ | hhold
    · refine .inl ⟨e', List.mem_filter.mpr ⟨he', ?_⟩, rfl⟩
      rw [bne_iff_ne]
      intro hkey
      exact hne (congrArg Entry.handle (h.entry_of_key he' he hkey))
    · rw [hholding] at hhold
      cases hhold
  returned := h.returned
  phase := hphase _

theorem kept_discard_idle (h : Kept s) (he : e ∈ s.devices) (hidle : s.phase = .idle) : Kept (s.discard e) := by
  have hkept := kept_discard .idle h he (hidle ▸ rfl) fun _ => trivial
  have hsame : { s.discard e with phase := .idle } = s.discard e := by
    rw [← hidle]
    rfl
  exact hsame ▸ hkept

theorem kept_force_close (h : Kept s) (hidle : s.phase = .idle) : Kept (force_close s want) := by
  unfold force_close
  cases hresolve : _resolve_open_key s (if want = some "" then none else want) true with
  | none => exact h
  | some e => exact kept_discard_idle h (resolve_mem hresolve) hidle

theorem kept_close_all (h : Kept s) (hidle : s.phase = .idle) : Kept (close_all s) := by
  have hfold : ∀ (l : List Entry) (s : Ud), (l.map Entry.key).Nodup → (∀ e ∈ l, e ∈ s.devices) → s.phase = .idle →
      Kept s → Kept (l.foldl Ud.discard s) := by
    intro l
    induction l with
    | nil => exact fun s _ _ _ h => h
    | cons e l ih =>
      intro s hnodup hmem hidle h
      rw [List.map_cons, List.nodup_cons] at hnodup
      refine ih _ hnodup.2 (fun e' he' => List.mem_filter.mpr ⟨hmem e' (List.mem_cons_of_mem e he'), ?_⟩) hidle
        (kept_discard_idle h (hmem e List.mem_cons_self) hidle)
      rw [bne_iff_ne]
      exact fun hkey => hnodup.1 (hkey ▸ List.mem_map_of_mem he')
  exact hfold s.devices s h.keys (fun _ he => he) hidle h

/-- References move, and entries stay. -/
theorem mem_setRefs {devices : List Entry} {key : Option String} {change : Int} (he : e ∈ setRefs devices key change) :
    ∃ e' ∈ devices, e.key = e'.key ∧ e.handle = e'.handle ∧
      e.refs = if e'.key = key then e'.refs + change else e'.refs := by
  obtain ⟨e', he', rfl⟩ := List.mem_map.mp he
  refine ⟨e', he', ?_⟩
  split_ifs <;> exact ⟨rfl, rfl, rfl⟩

theorem setRefs_mem {devices : List Entry} (key : Option String) (change : Int) (he : e ∈ devices) :
    ∃ e' ∈ setRefs devices key change, e'.key = e.key ∧ e'.handle = e.handle := by
  refine ⟨_, List.mem_map_of_mem he, ?_⟩
  split_ifs <;> exact ⟨rfl, rfl⟩

theorem map_key_setRefs (devices : List Entry) (key : Option String) (change : Int) :
    (setRefs devices key change).map Entry.key = devices.map Entry.key := by
  rw [setRefs, List.map_map]
  apply List.map_congr_left
  intro e _
  rw [Function.comp_apply]
  split_ifs <;> rfl

theorem kept_setRefs {change : Int} (h : Kept s) (hholding : s.phase.holding = none)
    (hphase : PhaseOk { s with devices := setRefs s.devices e.key change } s.phase)
    (hrefs : ∀ e' ∈ s.devices, e'.key = e.key → 0 ≤ e'.refs + change) :
    Kept { s with devices := setRefs s.devices e.key change } where
  keys := by
    show ((setRefs s.devices e.key change).map Entry.key).Nodup
    rw [map_key_setRefs]
    exact h.keys
  own := by
    intro e' he'
    obtain ⟨before, hmem, hkey, hhandle, -⟩ := mem_setRefs he'
    rw [hkey, hhandle]
    exact h.own before hmem
  refs := by
    intro e' he'
    obtain ⟨before, hmem, -, -, hrefs'⟩ := mem_setRefs he'
    rw [hrefs']
    split_ifs with hkey
    · exact hrefs before hmem hkey
    · exact h.refs before hmem
  held := by
    intro h' hd hh hopen
    rcases h.held h' hd hh hopen with ⟨e', he', rfl⟩ | hhold
    · obtain ⟨after, hafter, -, hhandle⟩ := setRefs_mem e.key change he'
      exact .inl ⟨after, hafter, hhandle⟩
    · rw [hholding] at hhold
      cases hhold
  returned := h.returned
  phase := hphase

theorem kept_release_device (h : Kept s) (hidle : s.phase = .idle) : Kept (release_device s want) := by
  unfold release_device
  cases hresolve : _resolve_open_key s (if want = some "" then none else want) true with
  | none => exact h
  | some e =>
    dsimp only
    by_cases hpos : 0 < e.refs
    · rw [if_pos hpos]
      refine kept_setRefs h (hidle ▸ rfl) (hidle ▸ trivial) fun e' he' hkey => ?_
      rw [h.entry_of_key he' (resolve_mem hresolve) hkey]
      omega
    · rw [if_neg hpos]
      exact h

theorem kept_answered (h : Kept s) (answered : List Nat) : Kept { s with answered := answered } :=
  ⟨h.keys, h.own, h.refs, h.held, h.returned, h.phase.mono (Extends.refl rfl) rfl⟩

/-- A handle that has answered and is still there is the right one to return. -/
theorem kept_give (hkept : Kept { s with phase := .idle }) (hlive : Live s) (hh : s.handles[h]? = some hd)
    (halive : hd.alive = true) (hanswered : h ∈ s.answered) (hnamed : Named want hd.serial (some hd.port)) :
    Kept (s.give want h) where
  keys := hkept.keys
  own := hkept.own
  refs := hkept.refs
  held := hkept.held
  returned := by
    intro r hr
    rcases List.mem_append.mp hr with hr | hr
    · exact hkept.returned r hr
    · have hserial := serialOf_handle hh
      have hport := hlive h hd hh halive
      rw [List.mem_singleton.mp hr]
      refine ⟨List.contains_iff_mem.mpr hanswered, hd.serial, hserial, ?_⟩
      show Named want hd.serial ((s.serialOf h).bind s.ports)
      rw [hserial, Option.bind_some, hport]
      exact hnamed
  phase := trivial

theorem kept_probed (hkept : Kept s) (hlive : Live s) (hphase : s.phase = .probing want e)
    (halive : s.alive e.handle = true) :
    Kept (Ud.give { s with answered := e.handle :: s.answered, devices := setRefs s.devices e.key 1 } want
      e.handle) := by
  have hholding : s.phase.holding = none := hphase ▸ rfl
  obtain ⟨-, hd, hh, hnamed⟩ : PhaseOk s (.probing want e) := hphase ▸ hkept.phase
  have hanswered := kept_answered hkept (e.handle :: s.answered)
  have hidle : Kept { s with answered := e.handle :: s.answered, phase := .idle } :=
    hanswered.toPhase rfl rfl rfl hholding trivial
  refine kept_give ?_ hlive hh (alive_handle hh ▸ halive) List.mem_cons_self hnamed
  exact kept_setRefs hidle rfl trivial fun e' he' _ => by
    have := hkept.refs e' he'
    omega

/-- A device that has no entry gets one. -/
theorem kept_register (hkept : Kept s) (hphase : s.phase = .registering want h) (hh : s.handles[h]? = some hd)
    (hnew : ∀ e ∈ s.devices, e.key ≠ keyOf hd.serial) :
    Kept { s.register want h hd.serial with phase := .idle } := by
  have hput : putEntry s.devices ⟨keyOf hd.serial, h, 1⟩ = s.devices ++ [⟨keyOf hd.serial, h, 1⟩] := by
    unfold putEntry
    rw [if_neg]
    intro hany
    obtain ⟨e, he, hkey⟩ := List.any_eq_true.mp hany
    exact hnew e he (beq_iff_eq.mp hkey)
  have hmem : ∀ e, e ∈ putEntry s.devices ⟨keyOf hd.serial, h, 1⟩ ↔
      e ∈ s.devices ∨ e = ⟨keyOf hd.serial, h, 1⟩ := by
    intro e
    rw [hput, List.mem_append, List.mem_singleton]
  refine ⟨?_, ?_, ?_, ?_, hkept.returned, trivial⟩
  · show ((putEntry s.devices ⟨keyOf hd.serial, h, 1⟩).map Entry.key).Nodup
    rw [hput, List.map_append, List.nodup_append]
    refine ⟨hkept.keys, List.nodup_singleton _, ?_⟩
    intro key hold key' hnew' heq
    obtain ⟨e, he, rfl⟩ := List.mem_map.mp hold
    rw [List.map_singleton, List.mem_singleton] at hnew'
    exact hnew e he (heq.trans hnew')
  · intro e he
    rcases (hmem e).mp he with he | rfl
    · exact hkept.own e he
    · exact ⟨hd, hh, rfl⟩
  · intro e he
    rcases (hmem e).mp he with he | rfl
    · exact hkept.refs e he
    · exact Int.one_nonneg
  · intro h' hd' hh' hopen
    rcases hkept.held h' hd' hh' hopen with ⟨e, he, rfl⟩ | hhold
    · exact .inl ⟨e, (hmem e).mpr (.inl he), rfl⟩
    · rw [hphase] at hhold
      cases hhold
      exact .inl ⟨_, (hmem _).mpr (.inr rfl), rfl⟩

theorem kept_configU3 {answers : Bool} (hkept : Kept s) (hlive : Live s) (hcare : Careful s (.configU3 answers))
    (hstep : s.configU3 answers = some s') : Kept s' := by
  have hregistering : ∀ {want h}, s.phase = .registering want h →
      answers = true ∧ ∀ e ∈ s.devices, e.key ≠ (s.serialOf h).bind keyOf := by
    intro want h hphase
    unfold Careful at hcare
    rwa [hphase] at hcare
  rcases configU3_cases hstep with ⟨want, e, hphase, -, halive, rfl⟩ | ⟨want, e, hphase, -, rfl⟩ |
    ⟨want, h, hd, hphase, -, hh, halive, rfl⟩ | ⟨want, h, hphase, hfails, rfl⟩
  · exact kept_probed hkept hlive hphase halive
  · obtain ⟨hmem, -⟩ : PhaseOk s (.probing want e) := hphase ▸ hkept.phase
    exact kept_discard (openPhase want) hkept hmem (hphase ▸ rfl) fun s' => openPhase_ok s' want
  · obtain ⟨hd', hh', hnamed⟩ : PhaseOk s (.registering want h) := hphase ▸ hkept.phase
    cases hh.symm.trans hh'
    have hnew := (hregistering hphase).2
    rw [serialOf_handle hh] at hnew
    refine kept_give ?_ hlive hh halive List.mem_cons_self hnamed
    exact kept_register (kept_answered hkept (h :: s.answered)) hphase hh hnew
  · rw [(hregistering hphase).1] at hfails
    cases hfails

theorem scanPhase_ok {w port : String} {left : Nat} (hport : portNamed w = some port) :
    PhaseOk s (scanPhase (some w) port left) := by
  unfold scanPhase
  split_ifs
  · exact trivial
  · exact ⟨w, rfl, hport⟩

theorem kept_deviceCount {count : Nat} (hkept : Kept s) (hstep : s.deviceCount count = some s') : Kept s' := by
  obtain ⟨want, port, hphase, rfl⟩ := deviceCount_cases hstep
  obtain ⟨w, rfl, hport⟩ : PhaseOk s (.counting want port) := hphase ▸ hkept.phase
  exact hkept.toPhase rfl rfl rfl (hphase ▸ rfl) (scanPhase_ok hport)

/-- A device has been opened, and the call holds its handle. -/
theorem kept_opened {d : Nat} {opened : Handle × Ud} (hkept : Kept s) (hholding : s.phase.holding = none)
    (hopened : s.openHandle d = some opened) (hnamed : Named want d (some opened.1.port)) :
    Kept { opened.2 with phase := .registering want s.handles.length } := by
  obtain ⟨port, -, hhandle, hstate⟩ := openHandle_cases hopened
  rw [hhandle] at hnamed
  rw [hstate]
  refine ⟨hkept.keys, own_mono (extends_append s _) hkept.own, hkept.refs, ?_, hkept.returned, ?_⟩
  · intro h' hd hh hopen
    rcases getElem?_append_new hh with hbefore | ⟨rfl, rfl⟩
    · rcases hkept.held h' hd hbefore hopen with hentry | hhold
      · exact .inl hentry
      · rw [hholding] at hhold
        cases hhold
    · exact .inr rfl
  · refine ⟨⟨d, port, true, false⟩, ?_, hnamed⟩
    exact List.getElem?_concat_length

/-- A device on another port is closed again. -/
theorem kept_passed {d : Nat} {opened : Handle × Ud} {phase : Phase} (hkept : Kept s)
    (hholding : s.phase.holding = none) (hopened : s.openHandle d = some opened) (hphase : ∀ s', PhaseOk s' phase) :
    Kept { opened.2.close s.handles.length with phase := phase } := by
  have hpassed := fun (h' : Nat) (hd : Handle) => @passed_handles s h' hd d opened hopened
  obtain ⟨port, -, -, hstate⟩ := openHandle_cases hopened
  rw [hstate] at hpassed ⊢
  have hext : Extends s { Ud.close { s with handles := s.handles ++ [⟨d, port, true, false⟩] } s.handles.length with
      phase := phase } := by
    intro h' hd hh
    obtain ⟨hd₁, hh₁, hserial₁, hport₁⟩ := extends_append s [⟨d, port, true, false⟩] h' hd hh
    obtain ⟨hd₂, hh₂, hserial₂, hport₂⟩ := extends_close _ s.handles.length h' hd₁ hh₁
    exact ⟨hd₂, hh₂, hserial₂.trans hserial₁, hport₂.trans hport₁⟩
  refine ⟨hkept.keys, own_mono hext hkept.own, hkept.refs, ?_, hkept.returned, hphase _⟩
  intro h' hd hh hopen
  rcases hpassed h' hd hh with hold | ⟨hclosed, -⟩
  · rcases hkept.held h' hd hold hopen with hentry | hhold
    · exact .inl hentry
    · rw [hholding] at hhold
      cases hhold
  · rw [hopen] at hclosed
    cases hclosed

theorem openFailed_idle (hnot : want = none → s.devices.length ≠ 1) :
    s.openFailed want = { s with phase := .idle } := by
  unfold Ud.openFailed
  split
  case h_1 hsingle => exact absurd (congrArg List.length hsingle) (hnot rfl)
  case h_2 => rfl

theorem kept_openDevice {found : Option Nat} (hkept : Kept s) (hcare : Careful s (.openDevice found))
    (hstep : s.openDevice found = some s') : Kept s' := by
  rcases openDevice_cases hstep with ⟨want, port, left, hphase, rfl⟩ |
    ⟨want, port, left, d, opened, hphase, hopened, hsame, rfl⟩ | ⟨want, port, left, d, opened, hphase, hopened, rfl⟩ |
    ⟨want, serial, hphase, rfl, rfl⟩ | ⟨want, serial, d, opened, hphase, hserial, hopened, rfl⟩
  · obtain ⟨w, rfl, hport⟩ : PhaseOk s (.scanning want port left) := hphase ▸ hkept.phase
    exact hkept.toPhase rfl rfl rfl (hphase ▸ rfl) (scanPhase_ok hport)
  · obtain ⟨w, rfl, hport⟩ : PhaseOk s (.scanning want port left) := hphase ▸ hkept.phase
    refine kept_opened hkept (hphase ▸ rfl) hopened ?_
    rintro w' hw
    cases hw
    rw [hport, hsame]
  · obtain ⟨w, rfl, hport⟩ : PhaseOk s (.scanning want port left) := hphase ▸ hkept.phase
    exact kept_passed hkept (hphase ▸ rfl) hopened fun _ => scanPhase_ok hport
  · have hidle : s.openFailed want = { s with phase := .idle } := openFailed_idle fun hnone => by
      subst hnone
      unfold Careful at hcare
      rwa [hphase] at hcare
    rw [hidle]
    exact hkept.toPhase rfl rfl rfl (hphase ▸ rfl) trivial
  · have hasked : PhaseOk s (.opening want serial) := hphase ▸ hkept.phase
    refine kept_opened hkept (hphase ▸ rfl) hopened ?_
    rintro w rfl
    obtain ⟨hport, hsome, hint⟩ := hasked w rfl
    rw [hport]
    rcases hserial with hnone | hsame
    · exact absurd hnone hsome
    · exact hint.trans hsame

theorem kept_set_channel_mode {dio : Nat} {analog : Bool} (hkept : Kept s) (hidle : s.phase = .idle)
    (hstep : set_channel_mode bench s h dio analog = some s') : Kept s' := by
  rcases set_channel_mode_cases hstep with rfl | ⟨hd, -, -, rfl⟩ | ⟨-, rfl⟩
  · exact hkept
  · exact hkept.toPhase rfl rfl rfl (hidle ▸ rfl) trivial
  · exact hkept.toPhase rfl rfl rfl (hidle ▸ rfl) trivial

theorem kept_configIo {answers applied : Bool} (hkept : Kept s) (hstep : s.configIo answers applied = some s') :
    Kept s' := by
  rcases configIo_cases hstep with ⟨hholding, rfl⟩ | ⟨h, dio, analog, hd, hphase, -, -, -, rfl⟩ |
    ⟨h, dio, analog, hd, hphase, -, -, rfl⟩ | ⟨h, dio, analog, wanted, hd, hphase, -, -, rfl⟩ |
    ⟨h, dio, analog, wanted, hd, hphase, -, -, -, -, rfl⟩
  · exact hkept.toPhase rfl rfl rfl hholding trivial
  all_goals exact hkept.toPhase rfl rfl rfl (hphase ▸ rfl) trivial

/-! ### Every run -/

theorem kept_step {event : Event} (hcare : Careful s event) (hlive : Live s) (hkept : Kept s) (hstep : step bench s event = some s') :
    Kept s' := by
  cases event with
  | unplug serial => exact kept_unplug hkept hstep
  | plug serial port => exact kept_plug hkept hstep
  | getDevice want =>
    obtain ⟨hidle, heq⟩ := whenIdle_some hstep
    cases heq
    exact kept_get_device hkept hidle
  | releaseDevice want =>
    obtain ⟨hidle, heq⟩ := whenIdle_some hstep
    cases heq
    exact kept_release_device hkept hidle
  | forceClose want =>
    obtain ⟨hidle, heq⟩ := whenIdle_some hstep
    cases heq
    exact kept_force_close hkept hidle
  | closeAll =>
    obtain ⟨hidle, heq⟩ := whenIdle_some hstep
    cases heq
    exact kept_close_all hkept hidle
  | setChannelMode h dio analog =>
    obtain ⟨hidle, heq⟩ := whenIdle_some hstep
    exact kept_set_channel_mode hkept hidle heq
  | configU3 answers => exact kept_configU3 hkept hlive hcare hstep
  | deviceCount count => exact kept_deviceCount hkept hstep
  | openDevice found => exact kept_openDevice hkept hcare hstep
  | configIo answers applied => exact kept_configIo hkept hstep

theorem live_fresh (h : Fresh s) : Live s := by
  intro h' hd hh
  rw [h.1] at hh
  cases hh

theorem kept_fresh (h : Fresh s) : Kept s := by
  obtain ⟨hhandles, hdevices, -, -, hphase, hreturned, -⟩ := h
  constructor
  · rw [hdevices]
    exact List.nodup_nil
  · rw [hdevices]
    exact fun e he => by cases he
  · rw [hdevices]
    exact fun e he => by cases he
  · rw [hhandles]
    exact fun h hd hh => by cases hh
  · rw [hreturned]
    exact fun r hr => by cases hr
  · rw [hphase]
    exact trivial

/-- Two entries are never of one device, and each is under the serial of its device. -/
def OneEntryEach (s : Ud) : Prop :=
  (∀ e ∈ s.devices, ∃ serial, s.serialOf e.handle = some serial ∧ e.key = keyOf serial) ∧
    ∀ e ∈ s.devices, ∀ e' ∈ s.devices, s.serialOf e.handle = s.serialOf e'.handle → e = e'

/-- **One claim for each device, and the device that was asked for**, in every state between calls. -/
theorem registry_kept {s₀ : Ud} {events : List Event} (hfresh : Fresh s₀) (hrun : run (step bench) s₀ events = some s)
    (hcare : Along (step bench) Careful s₀ events) (hidle : s.phase = .idle) :
    OneEntryEach s ∧
      (∀ (h : Nat) (hd : Handle), s.handles[h]? = some hd → hd.closed = false → ∃ e ∈ s.devices, e.handle = h) ∧
      (∀ e ∈ s.devices, 0 ≤ e.refs) ∧ ∀ r ∈ s.returned, r.Right := by
  have hkept : Kept s := by
    have hboth : Live s ∧ Kept s := run_invariant (fun s => Live s ∧ Kept s)
      (fun _ _ _ hok h hstep => ⟨live_step h.1 hstep, kept_step hok h.1 h.2 hstep⟩) hcare
      ⟨live_fresh hfresh, kept_fresh hfresh⟩ hrun
    exact hboth.2
  have hown : ∀ e ∈ s.devices, ∃ serial, s.serialOf e.handle = some serial ∧ e.key = keyOf serial := by
    intro e he
    obtain ⟨hd, hh, hkey⟩ := hkept.own e he
    exact ⟨hd.serial, by rw [Ud.serialOf, hh, Option.map_some], hkey⟩
  refine ⟨⟨hown, fun e he e' he' hsame => ?_⟩, fun h hd hh hopen => ?_, hkept.refs, hkept.returned⟩
  · obtain ⟨serial, hserial, hkey⟩ := hown e he
    obtain ⟨serial', hserial', hkey'⟩ := hown e' he'
    rw [hserial, hserial'] at hsame
    cases hsame
    exact hkept.entry_of_key he he' (hkey.trans hkey'.symm)
  · rcases hkept.held h hd hh hopen with hentry | hhold
    · exact hentry
    · rw [hidle] at hhold
      cases hhold

/-! ### Runs of one device -/

instance (s : Ud) : (event : Event) → Decidable (Careful s event)
  | .configU3 answers =>
    match h : s.phase with
    | .registering _ handle =>
      decidable_of_iff (answers = true ∧ ∀ e ∈ s.devices, e.key ≠ (s.serialOf handle).bind keyOf) (by simp [Careful, h])
    | .idle | .probing _ _ | .counting _ _ | .scanning _ _ _ | .opening _ _ | .readingIo _ _ _ | .writingIo _ _ _ _ =>
      isTrue (by simp [Careful, h])
  | .openDevice none =>
    match h : s.phase with
    | .opening none _ => decidable_of_iff (s.devices.length ≠ 1) (by simp [Careful, h])
    | .opening (some _) _ => isTrue (by simp [Careful, h])
    | .idle | .probing _ _ | .counting _ _ | .scanning _ _ _ | .registering _ _ | .readingIo _ _ _
    | .writingIo _ _ _ _ => isTrue (by simp [Careful, h])
  | .openDevice (some _) => isTrue trivial
  | .unplug _ | .plug _ _ | .getDevice _ | .releaseDevice _ | .forceClose _ | .closeAll | .setChannelMode _ _ _
  | .deviceCount _ | .configIo _ _ => isTrue trivial

def lowVoltage : Bench := ⟨fun _ => false, fun _ => ⟨0, 0⟩⟩

/-- One U3 is plugged in. -/
def oneU3 : Ud :=
  { ports := fun d => if d = 7 then some "1-1" else none, masks := fun _ => ⟨0, 0⟩, handles := [], devices := [],
    firstFound := none, pinModes := [], phase := .idle, answered := [], returned := [], modesSet := [] }

theorem fresh_oneU3 : Fresh oneU3 := ⟨rfl, rfl, rfl, rfl, rfl, rfl, rfl⟩

/-- The device is opened as the first one, reused by its serial, moved to another port while nobody asks for it, looked
for on its old port, and opened on its new one. -/
def movedU3 : List Event :=
  [.getDevice none, .openDevice (some 7), .configU3 true, .getDevice (some "7"), .configU3 true, .unplug 7,
    .plug 7 "1-2", .getDevice (some "port-1-1"), .configU3 false, .deviceCount 1, .openDevice (some 7),
    .getDevice (some "port-1-2"), .deviceCount 1, .openDevice (some 7), .configU3 true, .releaseDevice (some "7")]

theorem registry_kept_movedU3 : ∃ s, run (step lowVoltage) oneU3 movedU3 = some s ∧ s.returned.length = 3 ∧
    OneEntryEach s ∧
      (∀ (h : Nat) (hd : Handle), s.handles[h]? = some hd → hd.closed = false → ∃ e ∈ s.devices, e.handle = h) ∧
      (∀ e ∈ s.devices, 0 ≤ e.refs) ∧ ∀ r ∈ s.returned, r.Right := by
  have hend : (run (step lowVoltage) oneU3 movedU3).map (fun s => (s.phase, s.returned.length)) = some (.idle, 3) := by
    decide +kernel
  obtain ⟨s, hrun, hs⟩ := Option.map_eq_some_iff.mp hend
  obtain ⟨hidle, hlength⟩ := Prod.mk.inj hs
  exact ⟨s, hrun, hlength, registry_kept fresh_oneU3 hrun (by decide +kernel) hidle⟩

/-- Handles that are open, and that no entry has. -/
def Ud.leaked (s : Ud) : List Nat :=
  (List.range s.handles.length).filter fun h =>
    (s.handles[h]?).any (fun hd => !hd.closed) && !s.devices.any fun e => e.handle == h

/-- A configuration that cannot be read after the open leaves the handle behind; so does a device that was lost and is
opened on its new port; and a request for the first device is given the handle that was lost. -/
theorem registry_leaks :
    (run (step lowVoltage) oneU3 [.getDevice none, .openDevice (some 7), .configU3 false]).map
        (fun s => (s.phase, s.leaked)) = some (.idle, [0]) ∧
      (run (step lowVoltage) oneU3 [.getDevice (some "7"), .openDevice (some 7), .configU3 true, .unplug 7,
        .plug 7 "1-2", .getDevice (some "port-1-2"), .deviceCount 1, .openDevice (some 7), .configU3 true]).map
          (fun s => (s.phase, s.leaked)) = some (.idle, [0]) ∧
      (run (step lowVoltage) oneU3 [.getDevice (some "7"), .openDevice (some 7), .configU3 true, .unplug 7,
        .getDevice none, .openDevice none]).map (fun s => (s.phase, s.returned.map Returned.answered)) =
          some (.idle, [true, false]) :=
  ⟨by decide +kernel, by decide +kernel, by decide +kernel⟩

end Lager.Io
