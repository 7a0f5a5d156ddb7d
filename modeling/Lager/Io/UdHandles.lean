import Lager.Lib.Run
import Lager.Py.Text

/-!
# The registry of open U3s

`io/labjack_ud_handle.py`, for the one model that is supported. The manager's calls are taken apart at their operations
on the hardware: a call runs under the lock, and between two of its operations devices may be unplugged and plugged in.
What an operation comes to is the event's: whether a read answers, which device an open lands on. A handle answers only
while its device has not been unplugged since it was opened, and it claims the device as long.

Devices are told apart by their serials. `answered` are the handles that have answered in the current call, and
`returned` and `modesSet` record what calls have returned, with the state of the hardware at that time.
-/

namespace Lager.Io

open Lager.Lib Lager.Py

def PORT_PREFIX : String := "port-"

def FIRST_DIGITAL_ONLY_DIO : Nat := 16

/-- The analog masks that a device acts on. -/
structure Masks where
  fio : BitVec 8
  eio : BitVec 8
  deriving DecidableEq

/-- Which devices are high-voltage ones, and the masks they power up with. -/
structure Bench where
  isHV : Nat → Bool
  powerUp : Nat → Masks

structure Handle where
  serial : Nat
  port : String
  alive : Bool
  closed : Bool
  deriving DecidableEq

structure Entry where
  key : Option String
  handle : Nat
  refs : Int
  deriving DecidableEq

/-- The operation that the call in progress comes to next. -/
inductive Phase where
  | idle
  | probing (want : Option String) (entry : Entry)
  | counting (want : Option String) (port : String)
  | scanning (want : Option String) (port : String) (left : Nat)
  | opening (want : Option String) (serial : Option Int)
  | registering (want : Option String) (handle : Nat)
  | readingIo (handle dio : Nat) (analog : Bool)
  | writingIo (handle dio : Nat) (analog : Bool) (wanted : BitVec 8)
  deriving DecidableEq

/-- The handle that the call in progress has opened and not yet registered. -/
def Phase.holding : Phase → Option Nat
  | .registering _ h => some h
  | _ => none

/-- What a `get_device` returned, and the port of its device then. -/
structure Returned where
  want : Option String
  handle : Nat
  answered : Bool
  serial : Option Nat
  port : Option String
  deriving DecidableEq

/-- A `set_channel_mode` that returned, and the line's live bit then. -/
structure ModeSet where
  handle : Nat
  dio : Nat
  analog : Bool
  obtained : Bool
  live : Bool
  bit : Bool
  deriving DecidableEq

structure Ud where
  ports : Nat → Option String
  masks : Nat → Masks
  handles : List Handle
  devices : List Entry
  firstFound : Option String
  pinModes : List ((Nat × Nat) × Bool)
  phase : Phase
  answered : List Nat
  returned : List Returned
  modesSet : List ModeSet

/-- Devices come and go, a call begins, or the call in progress takes its next operation. A mask write that fails may
have been `applied`. -/
inductive Event where
  | unplug (serial : Nat)
  | plug (serial : Nat) (port : String)
  | getDevice (want : Option String)
  | releaseDevice (want : Option String)
  | forceClose (want : Option String)
  | closeAll
  | setChannelMode (handle dio : Nat) (analog : Bool)
  | configU3 (answers : Bool)
  | deviceCount (count : Nat)
  | openDevice (found : Option Nat)
  | configIo (answers applied : Bool)
  deriving DecidableEq

/-! ### The hardware -/

def Ud.alive (s : Ud) (h : Nat) : Bool := (s.handles[h]?).any Handle.alive

def Ud.serialOf (s : Ud) (h : Nat) : Option Nat := (s.handles[h]?).map Handle.serial

def Handle.lose (serial : Nat) (handle : Handle) : Handle :=
  if handle.serial = serial then { handle with alive := false } else handle

def Handle.close (handle : Handle) : Handle := { handle with alive := false, closed := true }

def Ud.unplug (s : Ud) (serial : Nat) : Option Ud :=
  match s.ports serial with
  | some _ =>
    some { s with ports := fun d => if d = serial then none else s.ports d,
                  handles := s.handles.map (Handle.lose serial) }
  | none => none

/-- A device that is not plugged in comes back on any port, with its masks as they are at power-up. -/
def Ud.plug (bench : Bench) (s : Ud) (serial : Nat) (port : String) : Option Ud :=
  match s.ports serial with
  | some _ => none
  | none =>
    some { s with ports := fun d => if d = serial then some port else s.ports d,
                  masks := fun d => if d = serial then bench.powerUp serial else s.masks d }

/-- A device that an open handle claims cannot be opened. -/
def Ud.openHandle (s : Ud) (serial : Nat) : Option (Handle × Ud) :=
  match s.ports serial with
  | some port =>
    if s.handles.any fun handle => handle.serial == serial && handle.alive then none
    else some (⟨serial, port, true, false⟩, { s with handles := s.handles ++ [⟨serial, port, true, false⟩] })
  | none => none

def Ud.close (s : Ud) (h : Nat) : Ud := { s with handles := s.handles.modify h Handle.close }

/-! ### The registry -/

/-- `str(device.serialNumber or "") or None`. -/
def keyOf (serial : Nat) : Option String := if serial = 0 then none else some (String.ofList (textOfNat serial))

/-- The port that a request names. -/
def portNamed (want : String) : Option String :=
  if PORT_PREFIX.toList.isPrefixOf want.toList then some (String.ofList (want.toList.drop PORT_PREFIX.length)) else none

/-- `usb_port_of`. -/
def Ud.portOf (s : Ud) (h : Nat) : Option String := (s.handles[h]?).map Handle.port

def _resolve_open_key (s : Ud) (want : Option String) (uniqueOk : Bool) : Option Entry :=
  match want with
  | some w =>
    match portNamed w with
    | some port => s.devices.find? fun e => s.portOf e.handle == some port
    | none => s.devices.find? fun e => e.key == some w
  | none =>
    match s.firstFound.bind fun known => s.devices.find? fun e => e.key == some known with
    | some e => some e
    | none =>
      match uniqueOk, s.devices with
      | true, [e] => some e
      | _, _ => none

/-- `_discard`. -/
def Ud.discard (s : Ud) (e : Entry) : Ud :=
  { s.close e.handle with
    devices := s.devices.filter fun e' => e'.key != e.key,
    pinModes := s.pinModes.filter fun line => some line.1.1 != s.serialOf e.handle }

def setRefs (devices : List Entry) (key : Option String) (change : Int) : List Entry :=
  devices.map fun e => if e.key = key then { e with refs := e.refs + change } else e

/-- A new entry, in the place of an old one with its key. -/
def putEntry (devices : List Entry) (entry : Entry) : List Entry :=
  if devices.any fun e => e.key == entry.key then devices.map fun e => if e.key = entry.key then entry else e
  else devices ++ [entry]

/-! ### Calls -/

/-- `get_device` returns the handle. -/
def Ud.give (s : Ud) (want : Option String) (h : Nat) : Ud :=
  { s with phase := .idle,
           returned := s.returned ++
             [⟨want, h, s.answered.contains h, s.serialOf h, (s.serialOf h).bind s.ports⟩] }

/-- `get_device` once no open entry serves the request. -/
def openPhase (want : Option String) : Phase :=
  match want with
  | none => .opening none none
  | some w =>
    match portNamed w with
    | some port => .counting want port
    | none =>
      match intOfText w.toList with
      | some n => .opening want (some n)
      | none => .idle

def get_device (s : Ud) (want : Option String) : Ud :=
  let want := if want = some "" then none else want
  { s with answered := [],
           phase := match _resolve_open_key s want false with
             | some e => .probing want e
             | none => openPhase want }

def release_device (s : Ud) (want : Option String) : Ud :=
  match _resolve_open_key s (if want = some "" then none else want) true with
  | some e => if 0 < e.refs then { s with devices := setRefs s.devices e.key (-1) } else s
  | none => s

def force_close (s : Ud) (want : Option String) : Ud :=
  match _resolve_open_key s (if want = some "" then none else want) true with
  | some e => s.discard e
  | none => s

def close_all (s : Ud) : Ud := s.devices.foldl Ud.discard s

/-- `_register` once the configuration has been read. -/
def Ud.register (s : Ud) (want : Option String) (h serial : Nat) : Ud :=
  { s with firstFound := if want = none ∧ keyOf serial ≠ none then keyOf serial else s.firstFound,
           devices := putEntry s.devices ⟨keyOf serial, h, 1⟩ }

/-- The read of a configuration: `_is_alive`, or the one in `_register`. -/
def Ud.configU3 (s : Ud) (answers : Bool) : Option Ud :=
  match s.phase, answers with
  | .probing want e, true =>
    if s.alive e.handle then
      some (Ud.give { s with answered := e.handle :: s.answered, devices := setRefs s.devices e.key 1 } want e.handle)
    else none
  | .probing want e, false => some { s.discard e with phase := openPhase want }
  | .registering want h, true =>
    match s.serialOf h with
    | some serial =>
      if s.alive h then
        some (Ud.give (Ud.register { s with answered := h :: s.answered } want h serial) want h)
      else none
    | none => none
  | .registering _ _, false => some { s with phase := .idle }
  | _, _ => none

def scanPhase (want : Option String) (port : String) (left : Nat) : Phase :=
  if left = 0 then .idle else .scanning want port left

def Ud.deviceCount (s : Ud) (count : Nat) : Option Ud :=
  match s.phase with
  | .counting want port => some { s with phase := scanPhase want port count }
  | _ => none

/-- `get_device` where its open fails: a request for the first device adopts the only one that is open. -/
def Ud.openFailed (s : Ud) (want : Option String) : Ud :=
  match want, s.devices with
  | none, [e] =>
    Ud.give { s with firstFound := e.key, devices := setRefs s.devices e.key 1 } none e.handle
  | _, _ => { s with phase := .idle }

def Ud.openDevice (s : Ud) (found : Option Nat) : Option Ud :=
  match s.phase, found with
  | .scanning want port left, none => some { s with phase := scanPhase want port (left - 1) }
  | .scanning want port left, some d =>
    (s.openHandle d).map fun opened =>
      if opened.1.port = port then { opened.2 with phase := .registering want s.handles.length }
      else { opened.2.close s.handles.length with phase := scanPhase want port (left - 1) }
  | .opening want _, none => some (s.openFailed want)
  | .opening want serial, some d =>
    if serial = none ∨ serial = some (d : Int) then
      (s.openHandle d).map fun opened => { opened.2 with phase := .registering want s.handles.length }
    else none
  | _, _ => none

/-! ### Pin modes -/

/-- The register of a line, and its bit there. -/
def Masks.register (m : Masks) (dio : Nat) : BitVec 8 := if dio < 8 then m.fio else m.eio

def bitOf (dio : Nat) : Nat := if dio < 8 then dio else dio - 8

def Masks.line (m : Masks) (dio : Nat) : Bool := (m.register dio).getLsbD (bitOf dio)

def Masks.write (m : Masks) (dio : Nat) (value : BitVec 8) : Masks :=
  if dio < 8 then { m with fio := value } else { m with eio := value }

def wantedMask (current : BitVec 8) (dio : Nat) (analog : Bool) : BitVec 8 :=
  if analog then current ||| BitVec.twoPow 8 (bitOf dio) else current &&& ~~~BitVec.twoPow 8 (bitOf dio)

def remember (pinModes : List ((Nat × Nat) × Bool)) (line : Nat × Nat) (analog : Bool) : List ((Nat × Nat) × Bool) :=
  (line, analog) :: pinModes.filter fun other => other.1 != line

/-- The handle has been returned by `get_device`. -/
def Ud.obtained (s : Ud) (h : Nat) : Bool := s.returned.any fun r => r.handle == h

/-- `set_channel_mode` returns. -/
def Ud.modeSet (s : Ud) (h serial dio : Nat) (analog : Bool) : Ud :=
  { s with phase := .idle,
           modesSet := s.modesSet ++
             [⟨h, dio, analog, s.obtained h, s.alive h, (s.masks serial).line dio⟩] }

/-- A line that has no bit to set is refused or left as it is. -/
def settable (bench : Bench) (serial dio : Nat) : Bool :=
  decide (dio < FIRST_DIGITAL_ONLY_DIO) && !(decide (dio ≤ 3) && bench.isHV serial)

def set_channel_mode (bench : Bench) (s : Ud) (h dio : Nat) (analog : Bool) : Option Ud :=
  match s.serialOf h with
  | some serial =>
    if settable bench serial dio then
      if s.pinModes.lookup (serial, dio) = some analog then some (s.modeSet h serial dio analog)
      else some { s with phase := .readingIo h dio analog }
    else some s
  | none => none

def Ud.writeMask (s : Ud) (serial dio : Nat) (wanted : BitVec 8) : Ud :=
  { s with masks := fun d => if d = serial then (s.masks d).write dio wanted else s.masks d }

def Ud.configured (s : Ud) (h serial dio : Nat) (analog : Bool) : Ud :=
  Ud.modeSet { s with pinModes := remember s.pinModes (serial, dio) analog } h serial dio analog

/-- `configIo`, to read the masks or to write one. -/
def Ud.configIo (s : Ud) (answers applied : Bool) : Option Ud :=
  match s.phase with
  | .readingIo h dio analog =>
    match s.serialOf h, answers with
    | some serial, true =>
      if s.alive h then
        let current := (s.masks serial).register dio
        if wantedMask current dio analog = current then some (s.configured h serial dio analog)
        else some { s with phase := .writingIo h dio analog (wantedMask current dio analog) }
      else none
    | _, false => some { s with phase := .idle }
    | none, true => none
  | .writingIo h dio analog wanted =>
    match s.serialOf h, answers with
    | some serial, true =>
      if s.alive h then some ((s.writeMask serial dio wanted).configured h serial dio analog) else none
    | some serial, false =>
      if s.alive h ∧ applied = true then some { s.writeMask serial dio wanted with phase := .idle }
      else some { s with phase := .idle }
    | none, _ => none
  | _ => none

def whenIdle (s : Ud) (next : Option Ud) : Option Ud := if s.phase = .idle then next else none

def step (bench : Bench) (s : Ud) : Event → Option Ud
  | .unplug serial => s.unplug serial
  | .plug serial port => s.plug bench serial port
  | .getDevice want => whenIdle s (some (get_device s want))
  | .releaseDevice want => whenIdle s (some (release_device s want))
  | .forceClose want => whenIdle s (some (force_close s want))
  | .closeAll => whenIdle s (some (close_all s))
  | .setChannelMode h dio analog => whenIdle s (set_channel_mode bench s h dio analog)
  | .configU3 answers => s.configU3 answers
  | .deviceCount count => s.deviceCount count
  | .openDevice found => s.openDevice found
  | .configIo answers applied => s.configIo answers applied

/-- No call has been made. -/
def Fresh (s : Ud) : Prop :=
  s.handles = [] ∧ s.devices = [] ∧ s.firstFound = none ∧ s.pinModes = [] ∧ s.phase = .idle ∧ s.returned = [] ∧
    s.modesSet = []

/-! ### What an operation can do -/

section Cases

variable {s s' : Ud} {h : Nat} {hd : Handle}

theorem whenIdle_some {next : Option Ud} (h : whenIdle s next = some s') : s.phase = .idle ∧ next = some s' := by
  unfold whenIdle at h
  split_ifs at h with hidle
  exact ⟨hidle, h⟩

theorem handle_of_serial {serial : Nat} (hserial : s.serialOf h = some serial) :
    ∃ hd : Handle, s.handles[h]? = some hd ∧ hd.serial = serial := Option.map_eq_some_iff.mp hserial

theorem serialOf_handle (hh : s.handles[h]? = some hd) : s.serialOf h = some hd.serial := by
  rw [Ud.serialOf, hh, Option.map_some]

theorem alive_handle (hh : s.handles[h]? = some hd) : s.alive h = hd.alive := by rw [Ud.alive, hh, Option.any_some]

theorem handle_of_alive (halive : s.alive h = true) : ∃ hd : Handle, s.handles[h]? = some hd ∧ hd.alive = true := by
  unfold Ud.alive at halive
  cases hh : s.handles[h]? with
  | none =>
    rw [hh] at halive
    cases halive
  | some hd =>
    rw [hh] at halive
    exact ⟨hd, rfl, halive⟩

theorem unplug_cases {serial : Nat} (hstep : s.unplug serial = some s') :
    s.ports serial ≠ none ∧
      s' = { s with
        ports := fun d => if d = serial then none else s.ports d
        handles := s.handles.map (Handle.lose serial) } := by
  unfold Ud.unplug at hstep
  cases hport : s.ports serial with
  | none =>
    rw [hport] at hstep
    cases hstep
  | some port =>
    rw [hport] at hstep
    exact ⟨Option.some_ne_none port, (Option.some.inj hstep).symm⟩

theorem plug_cases {bench : Bench} {serial : Nat} {port : String} (hstep : s.plug bench serial port = some s') :
    s.ports serial = none ∧
      s' = { s with
        ports := fun d => if d = serial then some port else s.ports d
        masks := fun d => if d = serial then bench.powerUp serial else s.masks d } := by
  unfold Ud.plug at hstep
  cases hport : s.ports serial with
  | some port' =>
    rw [hport] at hstep
    cases hstep
  | none =>
    rw [hport] at hstep
    exact ⟨rfl, (Option.some.inj hstep).symm⟩

theorem deviceCount_cases {count : Nat} (hstep : s.deviceCount count = some s') :
    ∃ want port, s.phase = .counting want port ∧ s' = { s with phase := scanPhase want port count } := by
  unfold Ud.deviceCount at hstep
  split at hstep
  case h_1 want port hphase => exact ⟨want, port, hphase, (Option.some.inj hstep).symm⟩
  case h_2 => cases hstep

theorem openHandle_cases {d : Nat} {opened : Handle × Ud} (hopened : s.openHandle d = some opened) :
    ∃ port, s.ports d = some port ∧ opened.1 = ⟨d, port, true, false⟩ ∧
      opened.2 = { s with handles := s.handles ++ [⟨d, port, true, false⟩] } := by
  unfold Ud.openHandle at hopened
  cases hport : s.ports d with
  | none =>
    rw [hport] at hopened
    cases hopened
  | some port =>
    rw [hport] at hopened
    dsimp only at hopened
    by_cases hclaimed : (s.handles.any fun handle => handle.serial == d && handle.alive) = true
    · rw [if_pos hclaimed] at hopened
      cases hopened
    · rw [if_neg hclaimed] at hopened
      cases hopened
      exact ⟨port, rfl, rfl, rfl⟩

/-- A read of the configuration finds an entry alive or lost, or registers a new handle or not. -/
theorem configU3_cases {answers : Bool} (hstep : s.configU3 answers = some s') :
    (∃ want e, s.phase = .probing want e ∧ answers = true ∧ s.alive e.handle = true ∧
      s' = Ud.give { s with answered := e.handle :: s.answered, devices := setRefs s.devices e.key 1 } want e.handle) ∨
    (∃ want e, s.phase = .probing want e ∧ answers = false ∧ s' = { s.discard e with phase := openPhase want }) ∨
    (∃ want h hd, s.phase = .registering want h ∧ answers = true ∧ s.handles[h]? = some hd ∧ hd.alive = true ∧
      s' = Ud.give (Ud.register { s with answered := h :: s.answered } want h hd.serial) want h) ∨
    (∃ want h, s.phase = .registering want h ∧ answers = false ∧ s' = { s with phase := .idle }) := by
  unfold Ud.configU3 at hstep
  split at hstep
  case h_1 want e hphase =>
    split_ifs at hstep with halive
    exact .inl ⟨want, e, hphase, rfl, halive, (Option.some.inj hstep).symm⟩
  case h_2 want e hphase => exact .inr (.inl ⟨want, e, hphase, rfl, (Option.some.inj hstep).symm⟩)
  case h_3 want h hphase =>
    cases hserial : s.serialOf h with
    | none =>
      rw [hserial] at hstep
      cases hstep
    | some serial =>
      rw [hserial] at hstep
      dsimp only at hstep
      split_ifs at hstep with halive
      obtain ⟨hd, hh, rfl⟩ := handle_of_serial hserial
      rw [alive_handle hh] at halive
      exact .inr (.inr (.inl ⟨want, h, hd, hphase, rfl, hh, halive, (Option.some.inj hstep).symm⟩))
  case h_4 want h hphase => exact .inr (.inr (.inr ⟨want, h, hphase, rfl, (Option.some.inj hstep).symm⟩))
  case h_5 => cases hstep

/-- An open fails, lands on the device, or lands on one that is closed again. -/
theorem openDevice_cases {found : Option Nat} (hstep : s.openDevice found = some s') :
    (∃ want port left, s.phase = .scanning want port left ∧ s' = { s with phase := scanPhase want port (left - 1) }) ∨
    (∃ want port left d opened, s.phase = .scanning want port left ∧ s.openHandle d = some opened ∧
      opened.1.port = port ∧ s' = { opened.2 with phase := .registering want s.handles.length }) ∨
    (∃ want port left d opened, s.phase = .scanning want port left ∧ s.openHandle d = some opened ∧
      s' = { opened.2.close s.handles.length with phase := scanPhase want port (left - 1) }) ∨
    (∃ want serial, s.phase = .opening want serial ∧ found = none ∧ s' = s.openFailed want) ∨
    (∃ (want : Option String) (serial : Option Int) (d : Nat) (opened : Handle × Ud),
      s.phase = .opening want serial ∧ (serial = none ∨ serial = some (d : Int)) ∧
      s.openHandle d = some opened ∧ s' = { opened.2 with phase := .registering want s.handles.length }) := by
  unfold Ud.openDevice at hstep
  split at hstep
  case h_1 want port left hphase => exact .inl ⟨want, port, left, hphase, (Option.some.inj hstep).symm⟩
  case h_2 want port left d hphase =>
    obtain ⟨opened, hopened, rfl⟩ := Option.map_eq_some_iff.mp hstep
    split_ifs with hport
    · exact .inr (.inl ⟨want, port, left, d, opened, hphase, hopened, hport, rfl⟩)
    · exact .inr (.inr (.inl ⟨want, port, left, d, opened, hphase, hopened, rfl⟩))
  case h_3 want serial hphase =>
    exact .inr (.inr (.inr (.inl ⟨want, serial, hphase, rfl, (Option.some.inj hstep).symm⟩)))
  case h_4 want serial d hphase =>
    split_ifs at hstep with hserial
    obtain ⟨opened, hopened, rfl⟩ := Option.map_eq_some_iff.mp hstep
    exact .inr (.inr (.inr (.inr ⟨want, serial, d, opened, hphase, hserial, hopened, rfl⟩)))
  case h_5 => cases hstep

/-- A mask is read and is right or has to be written, a write works or fails, and a failed one has been applied or
not. -/
theorem configIo_cases {answers applied : Bool} (hstep : s.configIo answers applied = some s') :
    (s.phase.holding = none ∧ s' = { s with phase := .idle }) ∨
    (∃ h dio analog hd, s.phase = .readingIo h dio analog ∧ s.handles[h]? = some hd ∧ hd.alive = true ∧
      wantedMask ((s.masks hd.serial).register dio) dio analog = (s.masks hd.serial).register dio ∧
      s' = s.configured h hd.serial dio analog) ∨
    (∃ h dio analog hd, s.phase = .readingIo h dio analog ∧ s.handles[h]? = some hd ∧ hd.alive = true ∧
      s' = { s with phase := .writingIo h dio analog (wantedMask ((s.masks hd.serial).register dio) dio analog) }) ∨
    (∃ h dio analog wanted hd, s.phase = .writingIo h dio analog wanted ∧ s.handles[h]? = some hd ∧ hd.alive = true ∧
      s' = (s.writeMask hd.serial dio wanted).configured h hd.serial dio analog) ∨
    (∃ h dio analog wanted hd, s.phase = .writingIo h dio analog wanted ∧ s.handles[h]? = some hd ∧ hd.alive = true ∧
      answers = false ∧ applied = true ∧ s' = { s.writeMask hd.serial dio wanted with phase := .idle }) := by
  unfold Ud.configIo at hstep
  split at hstep
  case h_1 h dio analog hphase =>
    split at hstep
    case h_1 serial hserial =>
      obtain ⟨hd, hh, rfl⟩ := handle_of_serial hserial
      rw [alive_handle hh] at hstep
      dsimp only at hstep
      split_ifs at hstep with halive hsame
      · exact .inr (.inl ⟨h, dio, analog, hd, hphase, hh, halive, hsame, (Option.some.inj hstep).symm⟩)
      · exact .inr (.inr (.inl ⟨h, dio, analog, hd, hphase, hh, halive, (Option.some.inj hstep).symm⟩))
    case h_2 => exact .inl ⟨hphase ▸ rfl, (Option.some.inj hstep).symm⟩
    case h_3 => cases hstep
  case h_2 h dio analog wanted hphase =>
    split at hstep
    case h_1 serial hserial =>
      obtain ⟨hd, hh, rfl⟩ := handle_of_serial hserial
      rw [alive_handle hh] at hstep
      split_ifs at hstep with halive
      exact .inr (.inr (.inr (.inl ⟨h, dio, analog, wanted, hd, hphase, hh, halive, (Option.some.inj hstep).symm⟩)))
    case h_2 serial hserial =>
      obtain ⟨hd, hh, rfl⟩ := handle_of_serial hserial
      rw [alive_handle hh] at hstep
      split_ifs at hstep with hcond
      · exact .inr (.inr (.inr (.inr ⟨h, dio, analog, wanted, hd, hphase, hh, hcond.1, rfl, hcond.2,
          (Option.some.inj hstep).symm⟩)))
      · exact .inl ⟨hphase ▸ rfl, (Option.some.inj hstep).symm⟩
    case h_3 => cases hstep
  case h_3 => cases hstep

/-- A call for a line's mode returns at once, or goes on to read the mask. -/
theorem set_channel_mode_cases {bench : Bench} {dio : Nat} {analog : Bool}
    (hstep : set_channel_mode bench s h dio analog = some s') :
    s' = s ∨
    (∃ hd, s.handles[h]? = some hd ∧ s.pinModes.lookup (hd.serial, dio) = some analog ∧
      s' = s.modeSet h hd.serial dio analog) ∨
    (dio < FIRST_DIGITAL_ONLY_DIO ∧ s' = { s with phase := .readingIo h dio analog }) := by
  unfold set_channel_mode at hstep
  split at hstep
  case h_1 serial hserial =>
    obtain ⟨hd, hh, rfl⟩ := handle_of_serial hserial
    split_ifs at hstep with hsettable hmemo
    · exact .inr (.inl ⟨hd, hh, hmemo, (Option.some.inj hstep).symm⟩)
    · refine .inr (.inr ⟨?_, (Option.some.inj hstep).symm⟩)
      simp only [settable, Bool.and_eq_true, decide_eq_true_eq] at hsettable
      exact hsettable.1
    · exact .inl (Option.some.inj hstep).symm
  case h_2 => cases hstep

end Cases

end Lager.Io
