import Lager.Lib.Run
import Mathlib.Logic.Function.Basic

/-!
# The lock of one debug probe

`debug/probe_lock.py`, for one key. Every process has one `_ProbeLock` for it: a re-entrant thread lock, a depth,
the open file that holds the `flock` and a note of the holder. A `probe_lock` block is an acquire, a body and a
release; the acquire takes the thread lock, then, at depth 0, opens the lock file and polls `flock`.

The threads of the processes move one step at a time, in any order. A step that makes a call of the operating
system may find it raising. An exception inside the acquire gives the thread lock back, up to the point where the
fields are set. After that point two things go wrong: the note is guarded against `OSError` alone, so any other
exception there (the `KeyboardInterrupt` of a signal) leaves the block entered for good; and `release` gives the
thread lock back only if neither the unlocking nor the closing raises.
-/

namespace Lager.Debug.ProbeLock

open Lager.Lib

/-- `_ProbeLock`. `owner` and `count` are those of the `RLock`. -/
structure ProbeLock where
  owner : Option Nat
  count : Nat
  depth : Nat
  fd : Option Nat
  holder : Option String
  deriving DecidableEq

/-- As `__init__` makes it. -/
def free : ProbeLock := ⟨none, 0, 0, none, none⟩

/-- Where a thread stands. -/
inductive Phase where
  /-- In neither `acquire` nor `release`. -/
  | running
  /-- In `rlock.acquire(timeout=timeout)`. -/
  | waiting
  /-- It has the thread lock; the depth is looked at next. -/
  | owning
  /-- `makedirs` and `open` are next. -/
  | opening
  /-- The lock file is open and `flock` is tried. -/
  | trying (file : Nat)
  /-- `flock` was granted; the fields are set next. -/
  | granted (file : Nat)
  /-- The fields are set; the note is written next. -/
  | noting
  /-- A release at depth 1 has cleared the fields. -/
  | unlocking (file : Nat)
  /-- In the `finally` clause; `raised`: the unlocking raised. -/
  | closing (file : Nat) (raised : Bool)
  /-- `rlock.release()` at the end of a release. -/
  | dropping
  deriving DecidableEq

structure Thread where
  phase : Phase
  /-- How many blocks the thread is inside of. -/
  blocks : Nat
  /-- The label of the attempt. -/
  operation : String
  /-- The process's record and its file with the kernel's lock, as the attempt found them when it got the thread
  lock. The code has no such variable. -/
  found : ProbeLock × Option Nat
  deriving DecidableEq

structure State where
  /-- The open file that holds the kernel's lock. -/
  flock : Option Nat
  /-- The process that opened a file. -/
  fileOwner : Nat → Nat
  nextFile : Nat
  /-- The record of each process. -/
  lock : Nat → ProbeLock
  thread : Nat → Nat → Thread

def initial : State :=
  { flock := none, fileOwner := fun _ => 0, nextFile := 0, lock := fun _ => free,
    thread := fun _ _ => ⟨.running, 0, "", (free, none)⟩ }

inductive Act where
  /-- `acquire`, up to the first try for the thread lock. -/
  | acquire (operation : String)
  /-- A thread that waited is given the thread lock. -/
  | takeThreadLock
  /-- It gave up waiting: `ProbeBusyError`. -/
  | giveUpWaiting
  | testDepth
  /-- `makedirs` and `open`. -/
  | openFile (ok : Bool)
  /-- `flock(LOCK_EX | LOCK_NB)`, granted or refused. -/
  | tryFlock (granted : Bool)
  /-- The time is up: the file is closed, `ProbeBusyError`. -/
  | giveUp
  /-- Any other exception while `flock` is tried. -/
  | raises
  /-- `fd`, `depth` and `holder` are set. -/
  | record
  /-- `ftruncate` and `write`; an `OSError` there is passed over, `false` is any other exception. -/
  | note (ok : Bool)
  /-- `release`, up to the clearing of the fields. -/
  | leave
  | unlock (ok : Bool)
  | close (ok : Bool)
  | drop
  deriving DecidableEq

structure Event where
  pid : Nat
  tid : Nat
  act : Act
  deriving DecidableEq

namespace State

variable (s : State)

def setThread (pid tid : Nat) (th : Thread) : State :=
  { s with thread := Function.update s.thread pid (Function.update (s.thread pid) tid th) }

def setLock (pid : Nat) (lk : ProbeLock) : State := { s with lock := Function.update s.lock pid lk }

/-- The kernel's lock is gone if this file held it. -/
def drop (file : Nat) : State := { s with flock := if s.flock = some file then none else s.flock }

/-- The file of a process that holds the kernel's lock. -/
def mine (pid : Nat) : Option Nat := s.flock.filter fun f => s.fileOwner f == pid

end State

/-- `rlock.acquire`, when the lock is free or the thread's own. -/
def takeRLock (lk : ProbeLock) (tid : Nat) : ProbeLock := { lk with owner := some tid, count := lk.count + 1 }

/-- `rlock.release`. -/
def releaseRLock (lk : ProbeLock) : ProbeLock :=
  if lk.count ≤ 1 then { lk with owner := none, count := 0 } else { lk with count := lk.count - 1 }

/-- A thread gets the thread lock and goes on. -/
def begin (s : State) (pid tid : Nat) (operation : String) : State :=
  (s.setLock pid (takeRLock (s.lock pid) tid)).setThread pid tid
    { s.thread pid tid with phase := .owning, operation, found := (s.lock pid, s.mine pid) }

/-- The thread lock is given back, and the thread is in neither `acquire` nor `release`. -/
def giveBack (s : State) (pid tid : Nat) : State :=
  (s.setLock pid (releaseRLock (s.lock pid))).setThread pid tid { s.thread pid tid with phase := .running }

/-- One step of a thread, `none` when the thread is not at that point. -/
def step (s : State) (e : Event) : Option State :=
  let th := s.thread e.pid e.tid
  let lk := s.lock e.pid
  match e.act, th.phase with
  | .acquire operation, .running =>
    if lk.owner = none ∨ lk.owner = some e.tid then some (begin s e.pid e.tid operation)
    else some (s.setThread e.pid e.tid { th with phase := .waiting, operation })
  | .takeThreadLock, .waiting => if lk.owner = none then some (begin s e.pid e.tid th.operation) else none
  | .giveUpWaiting, .waiting => some (s.setThread e.pid e.tid { th with phase := .running })
  | .testDepth, .owning =>
    if lk.depth ≠ 0 then
      some ((s.setLock e.pid { lk with depth := lk.depth + 1 }).setThread e.pid e.tid
        { th with phase := .running, blocks := th.blocks + 1 })
    else some (s.setThread e.pid e.tid { th with phase := .opening })
  | .openFile true, .opening => some
    ({ s with nextFile := s.nextFile + 1, fileOwner := Function.update s.fileOwner s.nextFile e.pid }.setThread
      e.pid e.tid { th with phase := .trying s.nextFile })
  | .openFile false, .opening => some (giveBack s e.pid e.tid)
  | .tryFlock true, .trying file =>
    if s.flock = none then some ({ s with flock := some file }.setThread e.pid e.tid { th with phase := .granted file })
    else none
  | .tryFlock false, .trying _ => some s
  | .giveUp, .trying file => some (giveBack (s.drop file) e.pid e.tid)
  | .raises, .trying _ => some (giveBack s e.pid e.tid)
  | .record, .granted file => some
    ((s.setLock e.pid { lk with
        fd := some file, depth := 1, holder := some (th.operation ++ " (pid " ++ toString e.pid ++ ")") }).setThread
      e.pid e.tid { th with phase := .noting })
  | .note true, .noting => some (s.setThread e.pid e.tid { th with phase := .running, blocks := th.blocks + 1 })
  | .note false, .noting => some (s.setThread e.pid e.tid { th with phase := .running })
  | .leave, .running =>
    if th.blocks = 0 then none
    else if lk.depth = 1 then lk.fd.map fun file =>
      (s.setLock e.pid { lk with depth := 0, fd := none, holder := none }).setThread e.pid e.tid
        { th with phase := .unlocking file, blocks := th.blocks - 1 }
    else some ((s.setLock e.pid { lk with depth := lk.depth - 1 }).setThread e.pid e.tid
      { th with phase := .dropping, blocks := th.blocks - 1 })
  | .unlock ok, .unlocking file =>
    some ((if ok then s.drop file else s).setThread e.pid e.tid { th with phase := .closing file (!ok) })
  -- the file is gone also when its closing raises
  | .close ok, .closing file raised =>
    some ((s.drop file).setThread e.pid e.tid { th with phase := if ok && !raised then .dropping else .running })
  | .drop, .dropping => some (giveBack s e.pid e.tid)
  | _, _ => none

/-- The acts that are possible in a phase. -/
def Phase.takes : Phase → Act → Bool
  | .running, .acquire _ | .running, .leave => true
  | .waiting, .takeThreadLock | .waiting, .giveUpWaiting => true
  | .owning, .testDepth => true
  | .opening, .openFile _ => true
  | .trying _, .tryFlock _ | .trying _, .giveUp | .trying _, .raises => true
  | .granted _, .record => true
  | .noting, .note _ => true
  | .unlocking _, .unlock _ => true
  | .closing _ _, .close _ => true
  | .dropping, .drop => true
  | _, _ => false

theorem step_takes {s t : State} {pid tid : Nat} {act : Act} (hstep : step s ⟨pid, tid, act⟩ = some t) :
    (s.thread pid tid).phase.takes act = true := by
  unfold step at hstep
  dsimp only at hstep
  split at hstep
  all_goals first
    | (rename_i hphase; rw [hphase]; rfl)
    | cases hstep

/-! ### What has to hold -/

/-- A thread inside the body of a block. -/
def Inside (s : State) (pid tid : Nat) : Prop := (s.thread pid tid).blocks ≠ 0

/-- At most one thread of all processes is inside a block. -/
def Exclusive (s : State) : Prop :=
  ∀ p t p' t', Inside s p t → Inside s p' t' → p = p' ∧ t = t'

/-- No thread of the process is inside a block, entering or leaving one. -/
def Idle (s : State) (pid : Nat) : Prop :=
  ∀ tid, (s.thread pid tid).phase = .running ∧ (s.thread pid tid).blocks = 0

/-- A process none of whose threads is in a block holds neither lock. -/
def GivenBack (s : State) : Prop := ∀ pid, Idle s pid → s.lock pid = free ∧ s.mine pid = none

/-- The steps at which an acquire raises. -/
def Act.raising : Act → Bool
  | .giveUpWaiting => true
  | .openFile ok => !ok
  | .giveUp => true
  | .raises => true
  | .note ok => !ok
  | _ => false

/-- An attempt that raises leaves everything as it was: all of the state, if it did not get the thread lock, and
else its process's record and file lock as it found them. -/
def Undone (s t : State) (e : Event) : Prop :=
  if (s.thread e.pid e.tid).phase = .waiting then t.lock = s.lock ∧ t.flock = s.flock
  else (t.lock e.pid, t.mine e.pid) = (s.thread e.pid e.tid).found

/-- The condition: once the fields are set, no exception but an `OSError` while the note is written, and none
while the file is unlocked and closed. -/
def Unbroken (e : Event) : Prop := e.act ≠ .note false ∧ e.act ≠ .unlock false ∧ e.act ≠ .close false

/-! ### Which file of a process holds the kernel's lock -/

theorem mine_eq_some {s : State} {p f : Nat} : s.mine p = some f ↔ s.flock = some f ∧ s.fileOwner f = p := by
  simp [State.mine, Option.filter_eq_some_iff]

theorem mine_eq_none_of_flock {s : State} (h : s.flock = none) (p : Nat) : s.mine p = none := by
  rw [State.mine, h, Option.filter_none]

theorem mine_congr {s t : State} {p : Nat}
    (h : ∀ f, (t.flock = some f ∧ t.fileOwner f = p) ↔ (s.flock = some f ∧ s.fileOwner f = p)) : t.mine p = s.mine p := by
  apply Option.ext
  intro f
  rw [mine_eq_some, mine_eq_some, h]

@[simp] theorem mine_setThread (s : State) (pid tid : Nat) (th : Thread) (p : Nat) :
    (s.setThread pid tid th).mine p = s.mine p := rfl

@[simp] theorem mine_setLock (s : State) (pid : Nat) (lk : ProbeLock) (p : Nat) : (s.setLock pid lk).mine p = s.mine p :=
  rfl

/-- The other processes do not notice that a file of `pid` is closed or unlocked. -/
theorem mine_drop_ne {s : State} {pid p f : Nat} (howner : s.fileOwner f = pid) (hp : p ≠ pid) :
    (s.drop f).mine p = s.mine p := by
  refine mine_congr fun g => ?_
  have hdrop : (s.drop f).flock = some g ↔ s.flock = some g ∧ g ≠ f := by
    rw [State.drop]
    split_ifs with hf
    · constructor
      · intro hg
        cases hg
      · rintro ⟨hg, hne⟩
        exact absurd (Option.some.inj (hg.symm.trans hf)) hne
    · exact ⟨fun hg => ⟨hg, fun heq => hf (heq ▸ hg)⟩, fun hg => hg.1⟩
  have hsame : (s.drop f).fileOwner = s.fileOwner := rfl
  rw [hdrop, hsame]
  constructor
  · rintro ⟨⟨hg, -⟩, hgp⟩
    exact ⟨hg, hgp⟩
  · rintro ⟨hg, hgp⟩
    exact ⟨⟨hg, fun heq => hp (by rw [← hgp, heq, howner])⟩, hgp⟩

theorem mine_drop_held {s : State} {pid f : Nat} (h : s.mine pid = some f) : (s.drop f).mine pid = none := by
  apply mine_eq_none_of_flock
  exact if_pos (mine_eq_some.mp h).1

theorem mine_drop_none {s : State} {pid f : Nat} (howner : s.fileOwner f = pid) (h : s.mine pid = none) :
    (s.drop f).mine pid = none := by
  have hf : s.flock ≠ some f := fun hf => by
    rw [mine_eq_some.mpr ⟨hf, howner⟩] at h
    cases h
  have hkept : s.drop f = s := by rw [State.drop, if_neg hf]
  rw [hkept, h]

theorem flock_drop {s : State} {f g : Nat} (h : (s.drop f).flock = some g) : s.flock = some g := by
  rw [State.drop] at h
  split_ifs at h
  exact h

/-! ### The invariant -/

/-- The record of a process whose thread has the thread lock once and no file. -/
def bare (tid : Nat) : ProbeLock := ⟨some tid, 1, 0, none, none⟩

/-- The record of a process that has both locks. -/
def Full (tid count depth : Nat) (lk : ProbeLock) (mine : Option Nat) : Prop :=
  ∃ f holder, lk = ⟨some tid, count, depth, some f, some holder⟩ ∧ mine = some f

/-- How the record and the file lock of a process stand by the phase of the thread that has the thread lock. -/
def Stands (tid : Nat) (lk : ProbeLock) (mine : Option Nat) (th : Thread) : Prop :=
  match th.phase with
  | .running => th.blocks ≠ 0 ∧ Full tid th.blocks th.blocks lk mine
  | .waiting => False
  | .owning => (th.blocks = 0 → lk = bare tid ∧ mine = none ∧ th.found = (free, none)) ∧
      (th.blocks ≠ 0 → Full tid (th.blocks + 1) th.blocks lk mine)
  | .opening => th.blocks = 0 ∧ lk = bare tid ∧ mine = none ∧ th.found = (free, none)
  | .trying _ => th.blocks = 0 ∧ lk = bare tid ∧ mine = none ∧ th.found = (free, none)
  | .granted f => th.blocks = 0 ∧ lk = bare tid ∧ mine = some f
  | .noting => th.blocks = 0 ∧ Full tid 1 1 lk mine
  | .unlocking f => th.blocks = 0 ∧ lk = bare tid ∧ mine = some f
  | .closing _ raised => th.blocks = 0 ∧ lk = bare tid ∧ mine = none ∧ raised = false
  | .dropping => (th.blocks = 0 → lk = bare tid ∧ mine = none) ∧
      (th.blocks ≠ 0 → Full tid (th.blocks + 1) th.blocks lk mine)

/-- A thread that has not the thread lock. -/
def Outside (th : Thread) : Prop := th.blocks = 0 ∧ (th.phase = .running ∨ th.phase = .waiting)

structure ProcInv (lk : ProbeLock) (mine : Option Nat) (threads : Nat → Thread) : Prop where
  outside : ∀ t, lk.owner ≠ some t → Outside (threads t)
  free : lk.owner = none → lk = free ∧ mine = none
  stands : ∀ t, lk.owner = some t → Stands t lk mine (threads t)

/-- The file a thread works on. -/
def Phase.file : Phase → Option Nat
  | .trying f => some f
  | .granted f => some f
  | .unlocking f => some f
  | .closing f _ => some f
  | _ => none

structure Inv (s : State) : Prop where
  flock_lt : ∀ f, s.flock = some f → f < s.nextFile
  file : ∀ p t f, (s.thread p t).phase.file = some f → s.fileOwner f = p ∧ f < s.nextFile
  proc : ∀ p, ProcInv (s.lock p) (s.mine p) (s.thread p)

theorem inv_initial : Inv initial := by
  refine ⟨fun f hf => ?_, fun p t f hf => ?_, fun p => ⟨fun t _ => ⟨rfl, Or.inl rfl⟩, fun _ => ⟨rfl, rfl⟩, fun t ht => ?_⟩⟩
  · cases hf
  · cases hf
  · cases ht

/-- What is left to show of a step of `tid` that touches nothing of the other processes: the record and the phase it
leaves fit, and no other thread of its process had the thread lock if the record changed. -/
theorem Inv.move {s t : State} {pid tid : Nat} {lk : ProbeLock} {th : Thread} (h : Inv s)
    (hlock : t.lock = Function.update s.lock pid lk)
    (hthread : t.thread = Function.update s.thread pid (Function.update (s.thread pid) tid th))
    (hmine : ∀ q, q ≠ pid → t.mine q = s.mine q) (hlt : ∀ f, t.flock = some f → f < t.nextFile)
    (hold : ∀ f, f < s.nextFile → t.fileOwner f = s.fileOwner f ∧ f < t.nextFile)
    (hfile : ∀ f, th.phase.file = some f → t.fileOwner f = pid ∧ f < t.nextFile)
    (hproc : ProcInv lk (t.mine pid) (Function.update (s.thread pid) tid th)) : Inv t := by
  refine ⟨hlt, fun p u f hf => ?_, fun p => ?_⟩
  · by_cases hp : p = pid
    · subst hp
      rw [hthread, Function.update_self] at hf
      by_cases hu : u = tid
      · subst hu
        rw [Function.update_self] at hf
        exact hfile f hf
      · rw [Function.update_of_ne hu] at hf
        obtain ⟨howner, hlt'⟩ := h.file p u f hf
        exact ⟨(hold f hlt').1.trans howner, (hold f hlt').2⟩
    · rw [hthread, Function.update_of_ne hp] at hf
      obtain ⟨howner, hlt'⟩ := h.file p u f hf
      exact ⟨(hold f hlt').1.trans howner, (hold f hlt').2⟩
  · by_cases hp : p = pid
    · subst hp
      rw [hlock, hthread, Function.update_self, Function.update_self]
      exact hproc
    · rw [hlock, hthread, Function.update_of_ne hp, Function.update_of_ne hp, hmine p hp]
      exact h.proc p

/-- The process of a thread that has the thread lock, or takes the free one, and keeps it. -/
theorem ProcInv.owner {lk lk' : ProbeLock} {mine mine' : Option Nat} {threads : Nat → Thread} {tid : Nat} {th : Thread}
    (h : ProcInv lk mine threads) (hbefore : lk.owner = none ∨ lk.owner = some tid) (hafter : lk'.owner = some tid)
    (hstands : Stands tid lk' mine' th) : ProcInv lk' mine' (Function.update threads tid th) := by
  refine ⟨fun t ht => ?_, fun hnone => ?_, fun t ht => ?_⟩
  · have hne : t ≠ tid := fun heq => ht (heq ▸ hafter)
    rw [Function.update_of_ne hne]
    apply h.outside
    rcases hbefore with hb | hb
    · rw [hb]
      simp
    · rw [hb]
      exact fun heq => hne (Option.some.inj heq).symm
  · rw [hafter] at hnone
    cases hnone
  · obtain rfl : tid = t := Option.some.inj (hafter.symm.trans ht)
    rw [Function.update_self]
    exact hstands

/-- The process of a thread that gives the thread lock back. -/
theorem ProcInv.giveBack {lk : ProbeLock} {mine : Option Nat} {threads : Nat → Thread} {tid : Nat} {th : Thread}
    (h : ProcInv lk mine threads) (howner : lk.owner = some tid) (hout : Outside th) :
    ProcInv ProbeLock.free none (Function.update threads tid th) := by
  refine ⟨fun t _ => ?_, fun _ => ⟨rfl, rfl⟩, fun t ht => ?_⟩
  · by_cases hne : t = tid
    · subst hne
      rw [Function.update_self]
      exact hout
    · rw [Function.update_of_ne hne]
      apply h.outside
      rw [howner]
      exact fun heq => hne (Option.some.inj heq).symm
  · cases ht

/-- The process of a thread outside that stays outside. -/
theorem ProcInv.outsider {lk : ProbeLock} {mine : Option Nat} {threads : Nat → Thread} {tid : Nat} {th : Thread}
    (h : ProcInv lk mine threads) (howner : lk.owner ≠ some tid) (hout : Outside th) :
    ProcInv lk mine (Function.update threads tid th) := by
  refine ⟨fun t ht => ?_, h.free, fun t ht => ?_⟩
  · by_cases hne : t = tid
    · subst hne
      rw [Function.update_self]
      exact hout
    · rw [Function.update_of_ne hne]
      exact h.outside t ht
  · have hne : t ≠ tid := fun heq => howner (heq ▸ ht)
    rw [Function.update_of_ne hne]
    exact h.stands t ht

/-- A thread in a phase of its own has the thread lock. -/
theorem ProcInv.owner_of_phase {lk : ProbeLock} {mine : Option Nat} {threads : Nat → Thread} {tid : Nat}
    (h : ProcInv lk mine threads) (hrun : (threads tid).phase ≠ .running) (hwait : (threads tid).phase ≠ .waiting) :
    lk.owner = some tid := by
  by_contra hne
  rcases (h.outside tid hne).2 with hp | hp
  · exact hrun hp
  · exact hwait hp

theorem ProcInv.owner_of_blocks {lk : ProbeLock} {mine : Option Nat} {threads : Nat → Thread} {tid : Nat}
    (h : ProcInv lk mine threads) (hblocks : (threads tid).blocks ≠ 0) : lk.owner = some tid := by
  by_contra hne
  exact hblocks (h.outside tid hne).1

section Moves

variable {s : State} (h : Inv s) {pid tid : Nat} {lk : ProbeLock} {th : Thread}

include h

/-- A step that leaves the files alone. -/
theorem Inv.stay (hfile : ∀ f, th.phase.file = some f → (s.thread pid tid).phase.file = some f)
    (hproc : ProcInv lk (s.mine pid) (Function.update (s.thread pid) tid th)) :
    Inv ((s.setLock pid lk).setThread pid tid th) :=
  h.move rfl rfl (fun _ _ => rfl) h.flock_lt (fun _ hf => ⟨rfl, hf⟩) (fun f hf => h.file pid tid f (hfile f hf)) hproc

/-- A step that leaves the record alone, too. -/
theorem Inv.stayThread (hfile : ∀ f, th.phase.file = some f → (s.thread pid tid).phase.file = some f)
    (hproc : ProcInv (s.lock pid) (s.mine pid) (Function.update (s.thread pid) tid th)) :
    Inv (s.setThread pid tid th) := by
  have hsame : s.setLock pid (s.lock pid) = s := by rw [State.setLock, Function.update_eq_self]
  rw [← hsame]
  exact h.stay hfile hproc

/-- A step that closes or unlocks the file it works on. -/
theorem Inv.dropFile {f : Nat} (hf : (s.thread pid tid).phase.file = some f) (hnone : th.phase.file = none ∨ th.phase.file = some f)
    (hproc : ProcInv lk ((s.drop f).mine pid) (Function.update (s.thread pid) tid th)) :
    Inv (((s.drop f).setLock pid lk).setThread pid tid th) := by
  have howner := (h.file pid tid f hf).1
  refine h.move rfl rfl (fun q hq => mine_drop_ne howner hq) (fun g hg => h.flock_lt g (flock_drop hg))
    (fun _ hg => ⟨rfl, hg⟩) (fun g hg => ?_) hproc
  rcases hnone with hn | hn
  · rw [hn] at hg
    cases hg
  · rw [hn] at hg
    cases hg
    exact h.file pid tid f hf

theorem Inv.begin (operation : String) (howner : (s.lock pid).owner = none ∨ (s.lock pid).owner = some tid)
    (hphase : (s.lock pid).owner = some tid → (s.thread pid tid).phase = .running) :
    Inv (begin s pid tid operation) := by
  refine h.stay (fun f hf => by cases hf) ((h.proc pid).owner howner rfl ⟨fun h0 => ?_, fun hne => ?_⟩)
  · -- outside all blocks the thread cannot have had the lock before
    have hfree : (s.lock pid).owner = none := by
      rcases howner with ho | ho
      · exact ho
      · have hst := (h.proc pid).stands tid ho
        rw [Stands, hphase ho] at hst
        exact absurd h0 hst.1
    obtain ⟨hlk, hmine⟩ := (h.proc pid).free hfree
    rw [hlk, hmine]
    exact ⟨rfl, rfl, rfl⟩
  · have ho := (h.proc pid).owner_of_blocks hne
    have hst := (h.proc pid).stands tid ho
    rw [Stands, hphase ho] at hst
    obtain ⟨-, f, holder, hlk, hmine⟩ := hst
    rw [hlk, hmine]
    exact ⟨f, holder, rfl, rfl⟩

/-- The same for a step that leaves the record alone. -/
theorem Inv.dropFileThread {f : Nat} (hf : (s.thread pid tid).phase.file = some f)
    (hnone : th.phase.file = none ∨ th.phase.file = some f)
    (hproc : ProcInv (s.lock pid) ((s.drop f).mine pid) (Function.update (s.thread pid) tid th)) :
    Inv ((s.drop f).setThread pid tid th) := by
  have hsame : (s.drop f).setLock pid (s.lock pid) = s.drop f := by
    show { s.drop f with lock := Function.update s.lock pid (s.lock pid) } = s.drop f
    rw [Function.update_eq_self]
    rfl
  rw [← hsame]
  exact h.dropFile hf hnone hproc

/-- What the record is when the thread has a phase of its own. -/
theorem Inv.stands {ph : Phase} (hphase : (s.thread pid tid).phase = ph) (hrun : ph ≠ .running) (hwait : ph ≠ .waiting) :
    (s.lock pid).owner = some tid ∧ Stands tid (s.lock pid) (s.mine pid) (s.thread pid tid) := by
  have ho := (h.proc pid).owner_of_phase (hphase ▸ hrun) (hphase ▸ hwait)
  exact ⟨ho, (h.proc pid).stands tid ho⟩

end Moves

theorem releaseRLock_bare (tid : Nat) : releaseRLock (bare tid) = free := rfl

/-- Raising without the file lock, the thread gives the thread lock back. -/
theorem Inv.giveBack {s : State} {pid tid : Nat} (h : Inv s) (ho : (s.lock pid).owner = some tid)
    (hlk : s.lock pid = bare tid) (hmine : s.mine pid = none) (hblocks : (s.thread pid tid).blocks = 0) :
    Inv (giveBack s pid tid) := by
  refine h.stay (fun f hf => by cases hf) ?_
  rw [hlk, releaseRLock_bare, hmine]
  exact (h.proc pid).giveBack ho ⟨hblocks, Or.inl rfl⟩

section Steps

variable {s t : State} {pid tid : Nat} {act : Act} (h : Inv s)

include h

theorem Inv.step_running (hphase : (s.thread pid tid).phase = .running)
    (hstep : step s ⟨pid, tid, act⟩ = some t) : Inv t := by
  cases act with
  | acquire operation =>
    simp only [step, hphase] at hstep
    split_ifs at hstep with howner
    · obtain rfl := Option.some.inj hstep
      exact h.begin operation howner fun _ => hphase
    · obtain rfl := Option.some.inj hstep
      rw [not_or] at howner
      have hout := (h.proc pid).outside tid howner.2
      exact h.stayThread (fun f hf => by cases hf) ((h.proc pid).outsider howner.2 ⟨hout.1, Or.inr rfl⟩)
  | leave =>
    simp only [step, hphase] at hstep
    split_ifs at hstep with hblocks hdepth
    · obtain ⟨file, hfd, rfl⟩ := Option.map_eq_some_iff.mp hstep
      have ho := (h.proc pid).owner_of_blocks hblocks
      have hst := (h.proc pid).stands tid ho
      rw [Stands, hphase] at hst
      obtain ⟨-, f, holder, hlk, hmine⟩ := hst
      have hone : (s.thread pid tid).blocks = 1 := by rw [hlk] at hdepth; exact hdepth
      obtain rfl : f = file := by rw [hlk] at hfd; exact Option.some.inj hfd
      have hmem := mine_eq_some.mp hmine
      refine h.move rfl rfl (fun _ _ => rfl) h.flock_lt (fun _ hg => ⟨rfl, hg⟩) (fun g hg => ?_) ?_
      · cases hg
        exact ⟨hmem.2, h.flock_lt f hmem.1⟩
      · refine (h.proc pid).owner (Or.inr ho) ?_ ⟨by simp [hone], ?_, hmine⟩
        · rw [hlk]
        · rw [hlk, hone]
          rfl
    · obtain rfl := Option.some.inj hstep
      have ho := (h.proc pid).owner_of_blocks hblocks
      have hst := (h.proc pid).stands tid ho
      rw [Stands, hphase] at hst
      obtain ⟨-, f, holder, hlk, hmine⟩ := hst
      rw [hlk] at hdepth
      replace hdepth : (s.thread pid tid).blocks ≠ 1 := hdepth
      refine h.stay (fun g hg => by cases hg) ((h.proc pid).owner (Or.inr ho) ?_ ⟨fun h0 => ?_, fun _ => ⟨f, holder, ?_, hmine⟩⟩)
      · rw [hlk]
      · replace h0 : (s.thread pid tid).blocks - 1 = 0 := h0
        omega
      · have hcount : (s.thread pid tid).blocks - 1 + 1 = (s.thread pid tid).blocks := by omega
        rw [hlk]
        simp only [hcount]
  | _ =>
    have htakes := step_takes hstep
    rw [hphase] at htakes
    cases htakes

theorem Inv.step_waiting (hphase : (s.thread pid tid).phase = .waiting)
    (hstep : step s ⟨pid, tid, act⟩ = some t) : Inv t := by
  cases act with
  | takeThreadLock =>
    simp only [step, hphase] at hstep
    split_ifs at hstep with howner
    obtain rfl := Option.some.inj hstep
    exact h.begin _ (Or.inl howner) fun ho => by rw [howner] at ho; cases ho
  | giveUpWaiting =>
    simp only [step, hphase] at hstep
    obtain rfl := Option.some.inj hstep
    have howner : (s.lock pid).owner ≠ some tid := fun ho => by
      have hst := (h.proc pid).stands tid ho
      rw [Stands, hphase] at hst
      exact hst
    have hout := (h.proc pid).outside tid howner
    exact h.stayThread (fun f hf => by cases hf) ((h.proc pid).outsider howner ⟨hout.1, Or.inl rfl⟩)
  | _ =>
    have htakes := step_takes hstep
    rw [hphase] at htakes
    cases htakes

theorem Inv.step_owning (hphase : (s.thread pid tid).phase = .owning)
    (hstep : step s ⟨pid, tid, act⟩ = some t) : Inv t := by
  obtain ⟨ho, hst⟩ := h.stands hphase (by simp) (by simp)
  rw [Stands, hphase] at hst
  cases act with
  | testDepth =>
    simp only [step, hphase] at hstep
    split_ifs at hstep with hdepth
    · obtain rfl := Option.some.inj hstep
      have hblocks : (s.thread pid tid).blocks ≠ 0 := fun h0 => hdepth (by rw [(hst.1 h0).1]; rfl)
      obtain ⟨f, holder, hlk, hmine⟩ := hst.2 hblocks
      refine h.stay (fun g hg => by cases hg) ((h.proc pid).owner (Or.inr ho) ho ⟨Nat.succ_ne_zero _, f, holder, ?_, hmine⟩)
      rw [hlk]
    · obtain rfl := Option.some.inj hstep
      have hblocks : (s.thread pid tid).blocks = 0 := by
        by_contra hne
        obtain ⟨f, holder, hlk, -⟩ := hst.2 hne
        apply hdepth
        rw [hlk]
        exact hne
      exact h.stayThread (fun g hg => by cases hg)
        ((h.proc pid).owner (Or.inr ho) ho ⟨hblocks, hst.1 hblocks⟩)
  | _ =>
    have htakes := step_takes hstep
    rw [hphase] at htakes
    cases htakes

theorem Inv.step_opening (hphase : (s.thread pid tid).phase = .opening)
    (hstep : step s ⟨pid, tid, act⟩ = some t) : Inv t := by
  obtain ⟨ho, hst⟩ := h.stands hphase (by simp) (by simp)
  rw [Stands, hphase] at hst
  obtain ⟨hblocks, hlk, hmine, hfound⟩ := hst
  cases act with
  | openFile ok =>
    cases ok with
    | true =>
      simp only [step, hphase] at hstep
      obtain rfl := Option.some.inj hstep
      -- the new file holds nothing
      have hnew : ∀ q, State.mine { s with
          nextFile := s.nextFile + 1, fileOwner := Function.update s.fileOwner s.nextFile pid } q = s.mine q := by
        refine fun q => mine_congr fun f => and_congr_right fun hf => ?_
        have hne : f ≠ s.nextFile := Nat.ne_of_lt (h.flock_lt f hf)
        simp only [Function.update_of_ne hne]
      refine h.move (Function.update_eq_self pid s.lock).symm rfl (fun q _ => hnew q)
        (fun f hf => Nat.lt_succ_of_lt (h.flock_lt f hf)) (fun f hf => ⟨?_, Nat.lt_succ_of_lt hf⟩) (fun f hf => ?_)
        ((h.proc pid).owner (Or.inr ho) ho ⟨hblocks, hlk, (hnew pid).trans hmine, hfound⟩)
      · exact Function.update_of_ne (Nat.ne_of_lt hf) _ _
      · cases hf
        exact ⟨Function.update_self _ _ _, Nat.lt_succ_self _⟩
    | false =>
      simp only [step, hphase] at hstep
      obtain rfl := Option.some.inj hstep
      exact h.giveBack ho hlk hmine hblocks
  | _ =>
    have htakes := step_takes hstep
    rw [hphase] at htakes
    cases htakes

theorem Inv.step_trying {file : Nat} (hphase : (s.thread pid tid).phase = .trying file)
    (hstep : step s ⟨pid, tid, act⟩ = some t) : Inv t := by
  obtain ⟨ho, hst⟩ := h.stands hphase (by simp) (by simp)
  rw [Stands, hphase] at hst
  obtain ⟨hblocks, hlk, hmine, hfound⟩ := hst
  have hfile : (s.thread pid tid).phase.file = some file := by rw [hphase]; rfl
  obtain ⟨howner, hlt⟩ := h.file pid tid file hfile
  cases act with
  | tryFlock granted =>
    cases granted with
    | true =>
      simp only [step, hphase] at hstep
      split_ifs at hstep with hfree
      obtain rfl := Option.some.inj hstep
      refine h.move (Function.update_eq_self pid s.lock).symm rfl (fun q hq => ?_) (fun f hf => ?_)
        (fun _ hf => ⟨rfl, hf⟩) (fun f hf => ?_)
        ((h.proc pid).owner (Or.inr ho) ho ⟨hblocks, hlk, mine_eq_some.mpr ⟨rfl, howner⟩⟩)
      · refine mine_congr fun f => ⟨fun hf => ?_, fun hf => ?_⟩
        · obtain ⟨hf, hq'⟩ := hf
          cases hf
          exact absurd (hq'.symm.trans howner) hq
        · rw [hfree] at hf
          cases hf.1
      · cases hf
        exact hlt
      · cases hf
        exact ⟨howner, hlt⟩
    | false =>
      simp only [step, hphase] at hstep
      obtain rfl := Option.some.inj hstep
      exact h
  | giveUp =>
    simp only [step, hphase] at hstep
    obtain rfl := Option.some.inj hstep
    refine h.dropFile hfile (Or.inl rfl) ?_
    rw [mine_drop_none howner hmine]
    have hback : releaseRLock ((s.drop file).lock pid) = free := by
      show releaseRLock (s.lock pid) = free
      rw [hlk, releaseRLock_bare]
    rw [hback]
    exact (h.proc pid).giveBack ho ⟨hblocks, Or.inl rfl⟩
  | raises =>
    simp only [step, hphase] at hstep
    obtain rfl := Option.some.inj hstep
    exact h.giveBack ho hlk hmine hblocks
  | _ =>
    have htakes := step_takes hstep
    rw [hphase] at htakes
    cases htakes

theorem Inv.step_granted {file : Nat} (hphase : (s.thread pid tid).phase = .granted file)
    (hstep : step s ⟨pid, tid, act⟩ = some t) : Inv t := by
  obtain ⟨ho, hst⟩ := h.stands hphase (by simp) (by simp)
  rw [Stands, hphase] at hst
  obtain ⟨hblocks, hlk, hmine⟩ := hst
  cases act with
  | record =>
    simp only [step, hphase] at hstep
    obtain rfl := Option.some.inj hstep
    refine h.stay (fun g hg => by cases hg) ((h.proc pid).owner (Or.inr ho) ho ⟨hblocks, ?_⟩)
    rw [hlk]
    exact ⟨file, _, rfl, hmine⟩
  | _ =>
    have htakes := step_takes hstep
    rw [hphase] at htakes
    cases htakes

theorem Inv.step_noting (hok : Unbroken ⟨pid, tid, act⟩) (hphase : (s.thread pid tid).phase = .noting)
    (hstep : step s ⟨pid, tid, act⟩ = some t) : Inv t := by
  obtain ⟨ho, hst⟩ := h.stands hphase (by simp) (by simp)
  rw [Stands, hphase] at hst
  cases act with
  | note ok =>
    cases ok with
    | true =>
      simp only [step, hphase] at hstep
      obtain rfl := Option.some.inj hstep
      obtain ⟨hblocks, hfull⟩ := hst
      refine h.stayThread (fun g hg => by cases hg) ((h.proc pid).owner (Or.inr ho) ho ⟨Nat.succ_ne_zero _, ?_⟩)
      simp only [hblocks]
      exact hfull
    | false => exact absurd rfl hok.1
  | _ =>
    have htakes := step_takes hstep
    rw [hphase] at htakes
    cases htakes

theorem Inv.step_unlocking {file : Nat} (hok : Unbroken ⟨pid, tid, act⟩) (hphase : (s.thread pid tid).phase = .unlocking file)
    (hstep : step s ⟨pid, tid, act⟩ = some t) : Inv t := by
  obtain ⟨ho, hst⟩ := h.stands hphase (by simp) (by simp)
  rw [Stands, hphase] at hst
  obtain ⟨hblocks, hlk, hmine⟩ := hst
  have hfile : (s.thread pid tid).phase.file = some file := by rw [hphase]; rfl
  cases act with
  | unlock ok =>
    cases ok with
    | true =>
      simp only [step, hphase] at hstep
      obtain rfl := Option.some.inj hstep
      rw [if_pos trivial]
      exact h.dropFileThread hfile (Or.inr rfl)
        ((h.proc pid).owner (Or.inr ho) ho ⟨hblocks, hlk, mine_drop_held hmine, rfl⟩)
    | false => exact absurd rfl hok.2.1
  | _ =>
    have htakes := step_takes hstep
    rw [hphase] at htakes
    cases htakes

theorem Inv.step_closing {file : Nat} {raised : Bool} (hok : Unbroken ⟨pid, tid, act⟩) (hphase : (s.thread pid tid).phase = .closing file raised)
    (hstep : step s ⟨pid, tid, act⟩ = some t) : Inv t := by
  obtain ⟨ho, hst⟩ := h.stands hphase (by simp) (by simp)
  rw [Stands, hphase] at hst
  obtain ⟨hblocks, hlk, hmine, rfl⟩ := hst
  have hfile : (s.thread pid tid).phase.file = some file := by rw [hphase]; rfl
  obtain ⟨howner, hlt⟩ := h.file pid tid file hfile
  cases act with
  | close ok =>
    cases ok with
    | true =>
      simp only [step, hphase] at hstep
      obtain rfl := Option.some.inj hstep
      exact h.dropFileThread hfile (Or.inl rfl) ((h.proc pid).owner (Or.inr ho) ho
        ⟨fun _ => ⟨hlk, mine_drop_none howner hmine⟩, fun hne => absurd hblocks hne⟩)
    | false => exact absurd rfl hok.2.2
  | _ =>
    have htakes := step_takes hstep
    rw [hphase] at htakes
    cases htakes

theorem Inv.step_dropping (hphase : (s.thread pid tid).phase = .dropping)
    (hstep : step s ⟨pid, tid, act⟩ = some t) : Inv t := by
  obtain ⟨ho, hst⟩ := h.stands hphase (by simp) (by simp)
  rw [Stands, hphase] at hst
  cases act with
  | drop =>
    simp only [step, hphase] at hstep
    obtain rfl := Option.some.inj hstep
    by_cases hblocks : (s.thread pid tid).blocks = 0
    · exact h.giveBack ho (hst.1 hblocks).1 (hst.1 hblocks).2 hblocks
    · obtain ⟨f, holder, hlk, hmine⟩ := hst.2 hblocks
      have hback : releaseRLock (s.lock pid) =
          ⟨some tid, (s.thread pid tid).blocks, (s.thread pid tid).blocks, some f, some holder⟩ := by
        rw [hlk, releaseRLock, if_neg (by simp [hblocks])]
        rfl
      refine h.stay (fun g hg => by cases hg) ?_
      rw [hback]
      exact (h.proc pid).owner (Or.inr ho) rfl ⟨hblocks, f, holder, rfl, hmine⟩
  | _ =>
    have htakes := step_takes hstep
    rw [hphase] at htakes
    cases htakes

end Steps

theorem step_inv {s t : State} {e : Event} (hok : Unbroken e) (h : Inv s) (hstep : step s e = some t) : Inv t := by
  obtain ⟨pid, tid, act⟩ := e
  cases hphase : (s.thread pid tid).phase with
  | running => exact h.step_running hphase hstep
  | waiting => exact h.step_waiting hphase hstep
  | owning => exact h.step_owning hphase hstep
  | opening => exact h.step_opening hphase hstep
  | trying file => exact h.step_trying hphase hstep
  | granted file => exact h.step_granted hphase hstep
  | noting => exact h.step_noting hok hphase hstep
  | unlocking file => exact h.step_unlocking hok hphase hstep
  | closing file raised => exact h.step_closing hok hphase hstep
  | dropping => exact h.step_dropping hphase hstep

/-! ### The three properties -/

theorem Inv.exclusive {s : State} (h : Inv s) : Exclusive s := by
  -- a process with a thread inside has the kernel's lock
  have hheld : ∀ p t, Inside s p t → (s.lock p).owner = some t ∧ ∃ f, s.mine p = some f := by
    intro p t hin
    have ho := (h.proc p).owner_of_blocks hin
    have hst := (h.proc p).stands t ho
    refine ⟨ho, ?_⟩
    unfold Stands at hst
    split at hst
    · obtain ⟨-, f, -, -, hmine⟩ := hst
      exact ⟨f, hmine⟩
    · exact hst.elim
    · obtain ⟨f, -, -, hmine⟩ := hst.2 hin
      exact ⟨f, hmine⟩
    · exact absurd hst.1 hin
    · exact absurd hst.1 hin
    · exact absurd hst.1 hin
    · exact absurd hst.1 hin
    · exact absurd hst.1 hin
    · exact absurd hst.1 hin
    · obtain ⟨f, -, -, hmine⟩ := hst.2 hin
      exact ⟨f, hmine⟩
  intro p t p' t' hin hin'
  obtain ⟨ho, f, hf⟩ := hheld p t hin
  obtain ⟨ho', f', hf'⟩ := hheld p' t' hin'
  obtain ⟨hflock, rfl⟩ := mine_eq_some.mp hf
  obtain ⟨hflock', rfl⟩ := mine_eq_some.mp hf'
  obtain rfl : f = f' := Option.some.inj (hflock.symm.trans hflock')
  exact ⟨rfl, Option.some.inj (ho.symm.trans ho')⟩

theorem Inv.givenBack {s : State} (h : Inv s) : GivenBack s := by
  intro p hidle
  apply (h.proc p).free
  by_contra hne
  obtain ⟨t, ht⟩ := Option.ne_none_iff_exists'.mp hne
  obtain ⟨hphase, hblocks⟩ := hidle t
  have hst := (h.proc p).stands t ht
  rw [Stands, hphase] at hst
  exact hst.1 hblocks

/-- What a step at which an acquire raises can be. -/
theorem step_raising {s t : State} {pid tid : Nat} {act : Act} (hraise : act.raising = true)
    (hstep : step s ⟨pid, tid, act⟩ = some t) :
    ((s.thread pid tid).phase = .waiting ∧ t.lock = s.lock ∧ t.flock = s.flock) ∨
    ((s.thread pid tid).phase = .opening ∧ t = giveBack s pid tid) ∨
    (∃ file, (s.thread pid tid).phase = .trying file ∧ (t = giveBack (s.drop file) pid tid ∨ t = giveBack s pid tid)) ∨
    act = .note false := by
  -- each of them belongs to one phase
  cases act with
  | giveUpWaiting =>
    cases hphase : (s.thread pid tid).phase <;> simp only [step, hphase, reduceCtorEq] at hstep
    obtain rfl := Option.some.inj hstep
    exact Or.inl ⟨rfl, rfl, rfl⟩
  | openFile ok =>
    obtain rfl : ok = false := by simpa [Act.raising] using hraise
    cases hphase : (s.thread pid tid).phase <;> simp only [step, hphase, reduceCtorEq] at hstep
    exact Or.inr (Or.inl ⟨rfl, (Option.some.inj hstep).symm⟩)
  | giveUp =>
    cases hphase : (s.thread pid tid).phase <;> simp only [step, hphase, reduceCtorEq] at hstep
    exact Or.inr (Or.inr (Or.inl ⟨_, rfl, Or.inl (Option.some.inj hstep).symm⟩))
  | raises =>
    cases hphase : (s.thread pid tid).phase <;> simp only [step, hphase, reduceCtorEq] at hstep
    exact Or.inr (Or.inr (Or.inl ⟨_, rfl, Or.inr (Option.some.inj hstep).symm⟩))
  | note ok =>
    obtain rfl : ok = false := by simpa [Act.raising] using hraise
    exact Or.inr (Or.inr (Or.inr rfl))
  | _ => cases hraise

theorem undone_giveBack {s s' : State} {pid tid : Nat} {act : Act} (hwait : (s.thread pid tid).phase ≠ .waiting)
    (hlk : s'.lock pid = bare tid) (hmine : s'.mine pid = none) (hfound : (s.thread pid tid).found = (free, none)) :
    Undone s (giveBack s' pid tid) ⟨pid, tid, act⟩ := by
  have hlock : (giveBack s' pid tid).lock pid = free := by
    show Function.update s'.lock pid (releaseRLock (s'.lock pid)) pid = free
    rw [Function.update_self, hlk, releaseRLock_bare]
  have hsame : (giveBack s' pid tid).mine pid = none := hmine
  rw [Undone, if_neg hwait, hlock, hsame, hfound]

theorem Inv.undone {s t : State} {e : Event} (h : Inv s) (hok : Unbroken e) (hraise : e.act.raising = true)
    (hstep : step s e = some t) : Undone s t e := by
  obtain ⟨pid, tid, act⟩ := e
  rcases step_raising hraise hstep with ⟨hphase, hlock, hflock⟩ | ⟨hphase, rfl⟩ | ⟨file, hphase, ht⟩ | rfl
  · rw [Undone, if_pos hphase]
    exact ⟨hlock, hflock⟩
  · have hst := (h.stands hphase (by simp) (by simp)).2
    rw [Stands, hphase] at hst
    obtain ⟨-, hlk, hmine, hfound⟩ := hst
    exact undone_giveBack (by simp [hphase]) hlk hmine hfound
  · have hst := (h.stands hphase (by simp) (by simp)).2
    rw [Stands, hphase] at hst
    obtain ⟨-, hlk, hmine, hfound⟩ := hst
    rcases ht with rfl | rfl
    · have howner := (h.file pid tid file (by rw [hphase]; rfl)).1
      exact undone_giveBack (by simp [hphase]) hlk (mine_drop_none howner hmine) hfound
    · exact undone_giveBack (by simp [hphase]) hlk hmine hfound
  · exact absurd rfl hok.1

/-- **The probe lock.** In every run in which nothing but an `OSError` is raised while a note is written, and
nothing while a file is unlocked and closed: at most one thread of all processes is inside a block, an attempt
that raises leaves everything as it was, and a process with no thread in a block holds neither lock. -/
theorem probe_lock_paired {es : List Event} {s : State} (hal : Along step (fun _ e => Unbroken e) initial es)
    (hrun : run step initial es = some s) :
    Exclusive s ∧ GivenBack s ∧
      ∀ e t, Unbroken e → e.act.raising = true → step s e = some t → Undone s t e := by
  have h := run_invariant Inv (fun _ _ _ hok h hstep => step_inv hok h hstep) hal inv_initial hrun
  exact ⟨h.exclusive, h.givenBack, fun e t hok hraise hstep => h.undone hok hraise hstep⟩

/-! ### An interrupted note -/

theorem setThread_ne (s : State) {pid tid p u : Nat} (th : Thread) (hne : ¬(p = pid ∧ u = tid)) :
    (s.setThread pid tid th).thread p u = s.thread p u := by
  show Function.update s.thread pid (Function.update (s.thread pid) tid th) p u = s.thread p u
  by_cases hp : p = pid
  · subst hp
    rw [Function.update_self, Function.update_of_ne fun hu => hne ⟨rfl, hu⟩]
  · rw [Function.update_of_ne hp]

/-- A step moves its own thread only. -/
theorem step_thread_ne {s t : State} {e : Event} {p u : Nat} (hne : ¬(p = e.pid ∧ u = e.tid))
    (hstep : step s e = some t) : t.thread p u = s.thread p u := by
  simp only [step] at hstep
  split at hstep
  all_goals (try split_ifs at hstep) <;> first
    | (obtain rfl := Option.some.inj hstep; exact setThread_ne _ _ hne)
    | (obtain rfl := Option.some.inj hstep; rfl)
    | (obtain ⟨file, -, rfl⟩ := Option.map_eq_some_iff.mp hstep; exact setThread_ne _ _ hne)
    | cases hstep

/-- A thread that moves in no event of a run is as it was. -/
theorem run_thread_ne {s t : State} {es : List Event} {p u : Nat} (hne : ∀ e ∈ es, ¬(p = e.pid ∧ u = e.tid))
    (hrun : run step s es = some t) : t.thread p u = s.thread p u := by
  have hal : Along step (fun _ e => True ∧ ¬(p = e.pid ∧ u = e.tid)) s es := (Along.trivial s es).and_mem hne
  exact run_invariant (fun r => r.thread p u = s.thread p u)
    (fun _ _ _ hok h hstep => (step_thread_ne hok.2 hstep).trans h) hal rfl hrun

/-- Thread 0 of process 1 gets both locks. -/
def entering : List Event :=
  [⟨1, 0, .acquire "flash"⟩, ⟨1, 0, .testDepth⟩, ⟨1, 0, .openFile true⟩, ⟨1, 0, .tryFlock true⟩, ⟨1, 0, .record⟩]

/-- The block is entered, and left again with the unlocking as given. -/
def leaving (unlocked : Bool) : List Event :=
  [⟨1, 0, .note true⟩, ⟨1, 0, .leave⟩, ⟨1, 0, .unlock unlocked⟩, ⟨1, 0, .close true⟩]

/-- Process 1 is idle when its thread 0 is, if no other thread of it has moved. -/
theorem idle_of_run {es : List Event} {s : State} (hes : ∀ e ∈ es, e.tid = 0) (hrun : run step initial es = some s)
    (hidle : (s.thread 1 0).phase = .running ∧ (s.thread 1 0).blocks = 0) : Idle s 1 := by
  intro tid
  by_cases htid : tid = 0
  · subst htid
    exact hidle
  · rw [run_thread_ne (fun e he heq => htid (heq.2.trans (hes e he))) hrun]
    exact ⟨rfl, rfl⟩

/-- A signal interrupts the writing of the note: the attempt raises, no thread is in a block, and both locks stay
held. So does the thread lock when the unlocking raises as a block is left. -/
theorem interrupted_note_keeps_locks :
    (∃ s t, run step initial entering = some s ∧ step s ⟨1, 0, .note false⟩ = some t ∧
      ¬ Undone s t ⟨1, 0, .note false⟩ ∧ ¬ GivenBack t) ∧
    ∃ s, run step initial (entering ++ leaving false) = some s ∧ ¬ GivenBack s := by
  constructor
  · have hrun : (run step initial entering).map (fun s => s.thread 1 0) =
        some ⟨.noting, 0, "flash", (free, none)⟩ := by decide +kernel
    have hnext : (run step initial (entering ++ [⟨1, 0, .note false⟩])).map (fun t =>
        ((t.lock 1).depth, (t.thread 1 0).phase, (t.thread 1 0).blocks)) = some (1, .running, 0) := by decide +kernel
    obtain ⟨s, hs, hthread⟩ := Option.map_eq_some_iff.mp hrun
    obtain ⟨t, ht, hseen⟩ := Option.map_eq_some_iff.mp hnext
    have hstep : step s ⟨1, 0, .note false⟩ = some t := by
      obtain ⟨s', hs', hlast⟩ := run_append_some ht
      obtain rfl : s = s' := Option.some.inj (hs.symm.trans hs')
      rw [run_cons] at hlast
      obtain ⟨t', ht', hnil⟩ := Option.bind_eq_some_iff.mp hlast
      cases hnil
      exact ht'
    simp only [Prod.mk.injEq] at hseen
    obtain ⟨hdepth, hidle⟩ := hseen
    refine ⟨s, t, hs, hstep, fun hundone => ?_, fun hback => ?_⟩
    · have hlock : (t.lock 1, t.mine 1) = (free, none) := by
        rw [Undone, hthread] at hundone
        exact hundone
      rw [(Prod.mk.inj hlock).1] at hdepth
      cases hdepth
    · rw [(hback 1 (idle_of_run (by decide) ht hidle)).1] at hdepth
      cases hdepth
  · have hrun : (run step initial (entering ++ leaving false)).map (fun t =>
        ((t.lock 1).owner, (t.thread 1 0).phase, (t.thread 1 0).blocks)) = some (some 0, .running, 0) := by
      decide +kernel
    obtain ⟨s, hs, hseen⟩ := Option.map_eq_some_iff.mp hrun
    simp only [Prod.mk.injEq] at hseen
    obtain ⟨howner, hidle⟩ := hseen
    refine ⟨s, hs, fun hback => ?_⟩
    rw [(hback 1 (idle_of_run (by decide) hs hidle)).1] at howner
    cases howner

/-- A block entered and left, both locks given back. -/
theorem entered_and_left :
    ∃ s, run step initial (entering ++ leaving true ++ [⟨1, 0, .drop⟩]) = some s ∧ s.flock = none ∧ GivenBack s := by
  have hrun : (run step initial (entering ++ leaving true ++ [⟨1, 0, .drop⟩])).map (fun s => s.flock) = some none := by
    decide +kernel
  have hal : Along step (fun _ e => Unbroken e) initial (entering ++ leaving true ++ [⟨1, 0, .drop⟩]) := by
    have hok : ∀ e ∈ entering ++ leaving true ++ [⟨1, 0, .drop⟩], Unbroken e := by
      simp only [Unbroken]
      decide
    exact ((Along.trivial _ _).and_mem hok).imp fun _ _ h => h.2
  obtain ⟨s, hs, hflock⟩ := Option.map_eq_some_iff.mp hrun
  exact ⟨s, hs, hflock, (probe_lock_paired hal hs).2.1⟩

end Lager.Debug.ProbeLock
