import Lager.Lib.Run

/-!
# The device locks of the hardware service

`hardware_service.py`. Flask serves every `/invoke` request on a thread of its own. A request looks up the lock
of its device in the table `device_locks` (which makes one if there is none), waits for it with a time limit,
and runs the driver call on a worker thread, again with a limit. A call that outlives its limit is abandoned:
the worker goes on inside the driver, and the lock is never released. A call that raised a stale session error
is made a second time after the device has been created again, under the lock object of the first call.
`/cache/clear` empties the table, and so does `/cache/clear_all`.

Between the steps below the threads may be interleaved in any way. What the driver does inside a call, and the
opening and closing of sessions, which is done outside the locks, is not part of the state.
-/

namespace Lager.Hardware

/-- What an `/invoke` request says about its device. `η`: what `get_net_info_hash` returns. -/
structure Target (η : Type) where
  deviceName : String
  address : Option String
  deviceId : Option String
  netInfoHash : η
  deriving DecidableEq

/-- A key of `device_locks`: `('__address__', address)` or a `cache_key`. -/
inductive LockKey (η : Type) where
  | address (address : String)
  | cacheKey (deviceName : String) (netInfoHash : η)
  deriving DecidableEq

/-- A text that Python's `if` takes for true. -/
def nonEmpty (text : Option String) : Option String := text.filter (· ≠ "")

/-- The identity a request is serialized under: the explicit `device_id`, else the address, else the key of
the driver cache, which without an address is made of the whole `net_info`. -/
def Target.lockKey {η : Type} (t : Target η) : LockKey η :=
  match nonEmpty t.deviceId with
  | some deviceId => .address deviceId
  | none =>
    match nonEmpty t.address with
    | some address => .address address
    | none => .cacheKey t.deviceName t.netInfoHash

/-- Where the thread of a request stands. A lock object is named by its number. -/
inductive Phase (η : Type) where
  /-- Not there yet, or answered. -/
  | idle
  /-- In `lock.acquire`. -/
  | waiting (key : LockKey η) (lock : Nat) (isRetry : Bool)
  /-- In `run_with_deadline`: the driver call is in progress. -/
  | calling (key : LockKey η) (lock : Nat) (isRetry : Bool)
  /-- The call is over and the lock is released next; `recover`: a stale session error is handled after that. -/
  | releasing (key : LockKey η) (lock : Nat) (recover : Bool)
  /-- The device is created again for the second call. -/
  | recovering (key : LockKey η) (lock : Nat)
  /-- `DeviceOperationTimeout`: the request is answered, the call is still in progress. -/
  | abandoned (key : LockKey η) (lock : Nat)
  /-- An abandoned call has come back; nobody releases its lock. -/
  | wedged (lock : Nat)
  deriving DecidableEq

structure Service (η : Type) where
  /-- `device_locks`. -/
  deviceLocks : LockKey η → Option Nat
  locked : Nat → Bool
  nextLock : Nat
  request : Nat → Phase η

def initial (η : Type) : Service η :=
  { deviceLocks := fun _ => none, locked := fun _ => false, nextLock := 0, request := fun _ => .idle }

inductive Act (η : Type) where
  /-- `_get_device_lock`, under its meta lock. -/
  | lookup (target : Target η)
  | acquire
  /-- The time for the wait is up: `DeviceBusy`. -/
  | giveUp
  /-- The driver call returns or raises; `stale`: it raised a session error that is recovered from. -/
  | callEnds (stale : Bool)
  /-- The time for the call is up. -/
  | deadline
  | release
  /-- `create_device` for the second call, which may raise. -/
  | recreate (ok : Bool)

inductive Event (η : Type) where
  | request (id : Nat) (act : Act η)
  | clearCache
  /-- The supervisor respawns the service: the process is gone with all its threads. -/
  | respawn

section

variable {η : Type} [DecidableEq η]

def Service.setRequest (s : Service η) (id : Nat) (p : Phase η) : Service η :=
  { s with request := fun i => if i = id then p else s.request i }

def Service.setLocked (s : Service η) (lock : Nat) (b : Bool) : Service η :=
  { s with locked := fun l => if l = lock then b else s.locked l }

/-- `_get_device_lock`: the lock object of the key, made if the table has none. -/
def getDeviceLock (s : Service η) (key : LockKey η) : Service η × Nat :=
  match s.deviceLocks key with
  | some lock => (s, lock)
  | none =>
    ({ s with deviceLocks := fun k => if k = key then some s.nextLock else s.deviceLocks k
              nextLock := s.nextLock + 1 }, s.nextLock)

/-- One step of the thread of a request, `none` when the thread is not at that point. -/
def stepRequest (s : Service η) (id : Nat) (act : Act η) : Option (Service η) :=
  match act, s.request id with
  | .lookup target, .idle =>
    let (s', lock) := getDeviceLock s target.lockKey
    some (s'.setRequest id (.waiting target.lockKey lock false))
  | .acquire, .waiting key lock isRetry =>
    if s.locked lock then none
    else some ((s.setLocked lock true).setRequest id (.calling key lock isRetry))
  | .giveUp, .waiting _ _ _ => some (s.setRequest id .idle)
  | .callEnds stale, .calling key lock isRetry =>
    -- the second call is the last: its errors are answered
    some (s.setRequest id (.releasing key lock (stale && !isRetry)))
  | .callEnds _, .abandoned _ lock => some (s.setRequest id (.wedged lock))
  | .deadline, .calling key lock _ => some (s.setRequest id (.abandoned key lock))
  | .release, .releasing key lock recover =>
    some ((s.setLocked lock false).setRequest id (if recover then .recovering key lock else .idle))
  | .recreate ok, .recovering key lock =>
    some (s.setRequest id (if ok then .waiting key lock true else .idle))
  | _, _ => none

def step (s : Service η) : Event η → Option (Service η)
  | .request id act => stepRequest s id act
  | .clearCache => some { s with deviceLocks := fun _ => none }
  | .respawn => some (initial η)

end

section

variable {η : Type}

/-! ### What a phase says -/

/-- The device the driver call of the request is in progress on. -/
def Phase.inCall : Phase η → Option (LockKey η)
  | .calling key _ _ | .abandoned key _ => some key
  | _ => none

/-- The lock object that the request has acquired and not released. -/
def Phase.owns : Phase η → Option Nat
  | .calling _ lock _ | .releasing _ lock _ | .abandoned _ lock | .wedged lock => some lock
  | _ => none

/-- The device and the lock object of a request that is in a driver call or may still make one. -/
def Phase.active : Phase η → Option (LockKey η × Nat)
  | .waiting key lock _ | .calling key lock _ | .recovering key lock | .abandoned key lock => some (key, lock)
  | .releasing key lock true => some (key, lock)
  | _ => none

/-- Two driver calls to the same device are not in progress at once. -/
def OneCallPerDevice (s : Service η) : Prop :=
  ∀ i j key, (s.request i).inCall = some key → (s.request j).inCall = some key → i = j

/-- A `/cache/clear` comes while no request is between the lookup of its lock and the end of its last driver
call. The call of an abandoned request ends when the driver comes back, not when the request is answered. -/
def ClearsQuiet (s : Service η) : Event η → Prop
  | .clearCache => ∀ i, (s.request i).active = none
  | _ => True

/-- What every reachable state keeps as long as the table is cleared only when it is quiet. -/
structure Inv (s : Service η) : Prop where
  table_lt : ∀ key lock, s.deviceLocks key = some lock → lock < s.nextLock
  owns_lt : ∀ i lock, (s.request i).owns = some lock → lock < s.nextLock
  locked : ∀ i lock, (s.request i).owns = some lock → s.locked lock = true
  owner : ∀ i j lock, (s.request i).owns = some lock → (s.request j).owns = some lock → i = j
  table : ∀ i key lock, (s.request i).active = some (key, lock) → s.deviceLocks key = some lock

/-! ### The updates keep the invariant -/

variable {s t : Service η}

theorem inv_initial : Inv (initial η) where
  table_lt := nofun
  owns_lt := nofun
  locked := nofun
  owner := nofun
  table := nofun

/-- A request may move to a phase whose lock is the table's and, if it owns the lock, nobody else does. -/
theorem Inv.setRequest (h : Inv s) {id : Nat} {p : Phase η}
    (howns : ∀ lock, p.owns = some lock → lock < s.nextLock ∧ s.locked lock = true ∧
      ∀ j, (s.request j).owns = some lock → j = id)
    (hactive : ∀ key lock, p.active = some (key, lock) → s.deviceLocks key = some lock) :
    Inv (s.setRequest id p) where
  table_lt := h.table_lt
  owns_lt i lock hi := by
    simp only [Service.setRequest] at hi
    split at hi
    · exact (howns lock hi).1
    · exact h.owns_lt i lock hi
  locked i lock hi := by
    simp only [Service.setRequest] at hi
    split at hi
    · exact (howns lock hi).2.1
    · exact h.locked i lock hi
  owner i j lock hi hj := by
    simp only [Service.setRequest] at hi hj
    split at hi <;> split at hj
    case isTrue.isTrue hid hjd => exact hid.trans hjd.symm
    case isTrue.isFalse hid _ => exact hid.trans ((howns lock hi).2.2 j hj).symm
    case isFalse.isTrue _ hjd => exact ((howns lock hj).2.2 i hi).trans hjd.symm
    case isFalse.isFalse => exact h.owner i j lock hi hj
  table i key lock hi := by
    simp only [Service.setRequest] at hi
    split at hi
    · exact hactive key lock hi
    · exact h.table i key lock hi

/-- The case of a request that moves on with what it has. -/
theorem Inv.advance (h : Inv s) {id : Nat} {p : Phase η}
    (howns : ∀ lock, p.owns = some lock → (s.request id).owns = some lock)
    (hactive : ∀ kl, p.active = some kl → (s.request id).active = some kl) : Inv (s.setRequest id p) := by
  refine h.setRequest (fun lock hp => ?_) fun key lock hp => h.table id key lock (hactive _ hp)
  have hid := howns lock hp
  exact ⟨h.owns_lt id lock hid, h.locked id lock hid, fun j hj => h.owner j id lock hj hid⟩

theorem Inv.lock (h : Inv s) (lock : Nat) : Inv (s.setLocked lock true) where
  table_lt := h.table_lt
  owns_lt := h.owns_lt
  locked i l hi := by
    simp only [Service.setLocked]
    split
    · rfl
    · exact h.locked i l hi
  owner := h.owner
  table := h.table

theorem Inv.unlock (h : Inv s) {lock : Nat} (hfree : ∀ i, (s.request i).owns ≠ some lock) :
    Inv (s.setLocked lock false) where
  table_lt := h.table_lt
  owns_lt := h.owns_lt
  locked i l hi := by
    have hne : l ≠ lock := fun heq => hfree i (heq ▸ hi)
    simp only [Service.setLocked, if_neg hne]
    exact h.locked i l hi
  owner := h.owner
  table := h.table

/-! ### One step, and whole runs -/

theorem inv_acquire (h : Inv s) {id lock : Nat} {key : LockKey η} {isRetry : Bool}
    (hp : s.request id = .waiting key lock isRetry) (hfree : s.locked lock = false) :
    Inv ((s.setLocked lock true).setRequest id (.calling key lock isRetry)) := by
  have htable : s.deviceLocks key = some lock := h.table id key lock (by rw [hp]; rfl)
  refine (h.lock lock).setRequest (fun l hl => ?_) fun k l hl => ?_
  · cases hl
    refine ⟨h.table_lt key lock htable, if_pos rfl, fun j hj => ?_⟩
    -- an owner would have the lock locked
    have := h.locked j lock hj
    rw [hfree] at this
    cases this
  · cases hl
    exact htable

theorem inv_release (h : Inv s) {id lock : Nat} {key : LockKey η} {recover : Bool}
    (hp : s.request id = .releasing key lock recover) :
    Inv ((s.setLocked lock false).setRequest id (if recover then .recovering key lock else .idle)) := by
  have hown : (s.request id).owns = some lock := by rw [hp]; rfl
  -- the request lets go of the lock first; the order of the two updates makes no difference
  have hmoved : Inv (s.setRequest id (if recover then .recovering key lock else .idle)) := by
    refine h.advance (fun l hl => ?_) fun kl hkl => ?_
    · cases recover <;> cases hl
    · rw [hp]
      cases recover with
      | true => exact hkl
      | false => cases hkl
  refine hmoved.unlock fun i hi => ?_
  simp only [Service.setRequest] at hi
  split at hi
  · cases recover <;> cases hi
  · next hne => exact hne (h.owner i id lock hi hown)

/-- Two calls on one device would be two owners of the lock in its table entry. -/
theorem Inv.oneCallPerDevice (h : Inv s) : OneCallPerDevice s := by
  have hcall : ∀ i key, (s.request i).inCall = some key →
      ∃ lock, s.deviceLocks key = some lock ∧ (s.request i).owns = some lock := by
    intro i key hi
    have htable := h.table i key
    unfold Phase.inCall at hi
    split at hi
    case h_1 k l _ heq => cases hi; rw [heq] at htable ⊢; exact ⟨l, htable l rfl, rfl⟩
    case h_2 k l heq => cases hi; rw [heq] at htable ⊢; exact ⟨l, htable l rfl, rfl⟩
    case h_3 => cases hi
  intro i j key hi hj
  obtain ⟨lock, hlock, howns⟩ := hcall i key hi
  obtain ⟨lock', hlock', howns'⟩ := hcall j key hj
  rw [hlock] at hlock'
  cases hlock'
  exact h.owner i j lock howns howns'

variable [DecidableEq η]

/-- The lookup returns the lock object that the table has from then on, and touches no other entry. -/
theorem getDeviceLock_spec (h : Inv s) (key : LockKey η) :
    Inv (getDeviceLock s key).1 ∧ (getDeviceLock s key).1.deviceLocks key = some (getDeviceLock s key).2 := by
  unfold getDeviceLock
  split
  · next lock hlock => exact ⟨h, hlock⟩
  · next hnone =>
    refine ⟨⟨fun k lock hk => ?_, fun i lock hi => ?_, h.locked, h.owner, fun i k lock hi => ?_⟩, by simp⟩
    · simp only at hk
      split at hk
      · cases hk
        exact Nat.lt_succ_self _
      · exact Nat.lt_succ_of_lt (h.table_lt k lock hk)
    · exact Nat.lt_succ_of_lt (h.owns_lt i lock hi)
    · have hk := h.table i k lock hi
      have hne : k ≠ key := by
        rintro rfl
        rw [hnone] at hk
        cases hk
      simp only [if_neg hne]
      exact hk

theorem inv_stepRequest (h : Inv s) {id : Nat} {act : Act η} (hstep : stepRequest s id act = some t) : Inv t := by
  unfold stepRequest at hstep
  split at hstep
  case h_1 target _ =>
    cases hstep
    obtain ⟨hinv, htable⟩ := getDeviceLock_spec h target.lockKey
    refine hinv.setRequest nofun fun k l hl => ?_
    cases hl
    exact htable
  case h_2 hp =>
    split at hstep
    · cases hstep
    · next hfree =>
      cases hstep
      exact inv_acquire h hp (by simpa using hfree)
  case h_3 => cases hstep; exact h.advance nofun nofun
  case h_4 stale _ _ isRetry hp =>
    cases hstep
    refine h.advance (fun l hl => by rw [hp]; exact hl) fun kl hkl => ?_
    rw [hp]
    cases hr : stale && !isRetry with
    | true => rw [hr] at hkl; exact hkl
    | false => rw [hr] at hkl; cases hkl
  case h_5 hp => cases hstep; exact h.advance (fun l hl => by rw [hp]; exact hl) nofun
  case h_6 hp =>
    cases hstep
    exact h.advance (fun l hl => by rw [hp]; exact hl) fun kl hkl => by rw [hp]; exact hkl
  case h_7 hp => cases hstep; exact inv_release h hp
  case h_8 ok _ _ hp =>
    cases hstep
    refine h.advance (fun l hl => by cases ok <;> cases hl) fun kl hkl => ?_
    rw [hp]
    cases ok with
    | true => exact hkl
    | false => cases hkl
  case h_9 => cases hstep

theorem inv_step (s : Service η) (e : Event η) (t : Service η) (hok : ClearsQuiet s e) (h : Inv s)
    (hstep : step s e = some t) : Inv t := by
  cases e with
  | request id act => exact inv_stepRequest h hstep
  | clearCache =>
    cases hstep
    refine ⟨nofun, h.owns_lt, h.locked, h.owner, fun i key lock hi => ?_⟩
    rw [hok i] at hi
    cases hi
  | respawn =>
    cases hstep
    exact inv_initial

/-- **One call at a time.** In every run in which the lock table is only cleared while it is quiet, no two
driver calls to the same device are ever in progress at once. -/
theorem one_call_per_device {es : List (Event η)} (hquiet : Lib.Along step ClearsQuiet (initial η) es)
    (hrun : Lib.run step (initial η) es = some s) : OneCallPerDevice s :=
  (Lib.run_invariant Inv inv_step hquiet inv_initial hrun).oneCallPerDevice

end

/-! ### A cleared table -/

/-- A supply addressed by its VISA address. -/
def supply : Target Unit := ⟨"rigol_dp800", some "USB0::0x1AB1::INSTR", none, ()⟩

/-- A call in progress, `/cache/clear`, and a second request for the same device. -/
def clearDuringCall : List (Event Unit) :=
  [.request 0 (.lookup supply), .request 0 .acquire, .clearCache, .request 1 (.lookup supply), .request 1 .acquire]

/-- The second request finds no lock in the table, makes a new one and enters the driver. -/
theorem two_calls_after_clear :
    ∃ s, Lib.run step (initial Unit) clearDuringCall = some s ∧ ¬ OneCallPerDevice s := by
  refine ⟨_, rfl, fun h => ?_⟩
  have h01 : (0 : Nat) = 1 := h 0 1 supply.lockKey rfl rfl
  cases h01

/-- A call from beginning to end, `/cache/clear`, and the next call in progress. -/
def clearBetweenCalls : List (Event Unit) :=
  [.request 0 (.lookup supply), .request 0 .acquire, .request 0 (.callEnds false), .request 0 .release,
    .clearCache, .request 1 (.lookup supply), .request 1 .acquire]

theorem quiet_clearBetweenCalls : Lib.Along step ClearsQuiet (initial Unit) clearBetweenCalls := by
  refine ⟨trivial, fun _ h => ?_⟩; cases h
  refine ⟨trivial, fun _ h => ?_⟩; cases h
  refine ⟨trivial, fun _ h => ?_⟩; cases h
  refine ⟨trivial, fun _ h => ?_⟩; cases h
  refine ⟨fun i => ?_, fun _ h => ?_⟩
  · by_cases hi : i = 0
    · rw [hi]; rfl
    · simp [Service.setRequest, hi, initial, Phase.active, Service.setLocked]
  · cases h
    refine ⟨trivial, fun _ h => ?_⟩; cases h
    exact ⟨trivial, fun _ _ => trivial⟩

theorem one_call_clearBetweenCalls :
    ∃ s, Lib.run step (initial Unit) clearBetweenCalls = some s ∧
      (s.request 1).inCall = some supply.lockKey ∧ OneCallPerDevice s :=
  ⟨_, rfl, rfl, one_call_per_device quiet_clearBetweenCalls rfl⟩

end Lager.Hardware
