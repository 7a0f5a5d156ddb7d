import Lager.Lib.Run
import Mathlib.Logic.Function.Basic

/-!
# The registry of jobs that are shutting down

`exec/quiesce.py` and `_signal_and_reap`. A reap registers its pids in `_reaping` before the first signal and
takes them out when it is over; whoever starts a job calls `wait_until_clear`, which scans the registry under the
lock until nothing in it is alive. The registry has one entry for a pid, however many reaps there are of it:
`begin` keeps the entry it finds, and `finish` removes it.

The reaps, the waiting callers and the processes move one step at a time, in any order. Times are in milliseconds.
-/

namespace Lager.Exec.Quiesce

open Lager.Lib

/-- `STUCK_AFTER_S` -/
def stuckAfter : Nat := 90000

/-- Where a call of `_signal_and_reap` stands. -/
inductive Phase where
  /-- The pids are registered; the signals are sent next. -/
  | begun
  /-- In `[pid for pid in remaining if _pid_is_alive(pid)]`, one liveness check a step. -/
  | checking (deadline : Nat) (todo kept : List Nat)
  /-- What was left got its `SIGKILL`, or there was nothing to wait for. -/
  | ending
  | finished
  deriving DecidableEq

structure Reap where
  pids : List Nat
  /-- `sig == SIGKILL` -/
  kill : Bool
  grace : Nat
  /-- The time its `begin` read. -/
  began : Nat
  phase : Phase

/-- Where a call of `wait_until_clear` stands. -/
inductive Waiter where
  | absent
  /-- `reaping()` is called next. -/
  | ready (deadline : Nat)
  /-- `reaping()` has read the clock and waits for the lock. -/
  | locking (deadline now : Nat)
  /-- It goes through the entries, holding the lock. -/
  | scanning (deadline : Nat)
  /-- It returned `(True, [])`. -/
  | cleared
  /-- It returned `(False, pending)`. -/
  | gaveUp (pending : List Nat)
  deriving DecidableEq

/-- The loop of `reaping()`: the entries still to be looked at and the list so far. -/
structure Scan where
  waiter : Nat
  now : Nat
  todo : List (Nat × Nat)
  live : List Nat
  deriving DecidableEq

structure State where
  clock : Nat
  alive : Nat → Bool
  /-- `_reaping` -/
  reaping : List (Nat × Nat)
  reaps : Nat → Option Reap
  waiter : Nat → Waiter
  /-- The scan that holds the lock. -/
  scan : Option Scan

/-- A service that has just started, with any processes. -/
def initial (alive : Nat → Bool) : State :=
  { clock := 0, alive, reaping := [], reaps := fun _ => none, waiter := fun _ => .absent, scan := none }

inductive Event where
  | tick (d : Nat)
  | exit (pid : Nat)
  | begin (id : Nat) (pids : List Nat) (kill : Bool) (grace : Nat)
  /-- The signals are sent; `signalled` are the pids for which `os.kill` did not raise. -/
  | signal (id : Nat) (signalled : List Nat)
  /-- One liveness check of a reap. -/
  | check (id : Nat)
  /-- The test of its loop. -/
  | test (id : Nat)
  | finish (id : Nat)
  | wait (w timeout : Nat)
  | readClock (w : Nat)
  | lock (w : Nat)
  /-- The scan looks at its next entry. -/
  | look (w : Nat)
  /-- The scan is through: the lock is given back and the call returns, or sleeps before the next scan. -/
  | release (w : Nat)
  deriving DecidableEq

/-- `_reaping.setdefault(pid, now)` -/
def setDefault (now : Nat) (reaping : List (Nat × Nat)) (pid : Nat) : List (Nat × Nat) :=
  if (reaping.map Prod.fst).contains pid then reaping else reaping ++ [(pid, now)]

/-- `_reaping.pop(pid, None)` -/
def pop (reaping : List (Nat × Nat)) (pid : Nat) : List (Nat × Nat) := reaping.filter fun e => e.1 != pid

/-- `begin` -/
def beginPids (now : Nat) (pids : List Nat) (reaping : List (Nat × Nat)) : List (Nat × Nat) :=
  pids.foldl (setDefault now) reaping

/-- `finish` -/
def finishPids (pids : List Nat) (reaping : List (Nat × Nat)) : List (Nat × Nat) := pids.foldl pop reaping

def State.setPhase (s : State) (id : Nat) (r : Reap) (phase : Phase) : State :=
  { s with reaps := Function.update s.reaps id (some { r with phase }) }

@[simp] theorem State.setPhase_reaps (s : State) (id : Nat) (r : Reap) (phase : Phase) :
    (s.setPhase id r phase).reaps = Function.update s.reaps id (some { r with phase }) := rfl

/-- The body of the loop of `reaping()` for one entry. -/
def lookAt (s : State) (sc : Scan) (pid started : Nat) (rest : List (Nat × Nat)) : State :=
  if s.alive pid = false then
    { s with reaping := pop s.reaping pid, scan := some { sc with todo := rest } }
  else if stuckAfter < sc.now - started then
    { s with reaping := pop s.reaping pid, scan := some { sc with todo := rest } }
  else { s with scan := some { sc with todo := rest, live := sc.live ++ [pid] } }

/-- What `wait_until_clear` does with the list. -/
def afterScan (clock deadline : Nat) (pending : List Nat) : Waiter :=
  if pending = [] then .cleared
  else if deadline ≤ clock then .gaveUp pending
  else .ready deadline

def step (s : State) : Event → Option State
  | .tick d => some { s with clock := s.clock + d }
  | .exit pid => some { s with alive := Function.update s.alive pid false }
  | .begin id pids kill grace =>
    if (s.reaps id).isNone ∧ s.scan.isNone then some
      { s with
        reaping := beginPids s.clock pids s.reaping
        reaps := Function.update s.reaps id (some ⟨pids, kill, grace, s.clock, .begun⟩) }
    else none
  | .signal id signalled =>
    match s.reaps id with
    | some r =>
      if r.phase = .begun then
        some (s.setPhase id r (if signalled = [] ∨ r.kill = true then .ending
          else .checking (s.clock + r.grace) r.pids []))
      else none
    | none => none
  | .check id =>
    match s.reaps id with
    | some r => match r.phase with
      | .checking deadline (pid :: todo) kept =>
        some (s.setPhase id r (.checking deadline todo (if s.alive pid then kept ++ [pid] else kept)))
      | _ => none
    | none => none
  | .test id =>
    match s.reaps id with
    | some r => match r.phase with
      | .checking deadline [] kept =>
        some (s.setPhase id r (if kept ≠ [] ∧ s.clock < deadline then .checking deadline kept [] else .ending))
      | _ => none
    | none => none
  | .finish id =>
    match s.reaps id with
    | some r =>
      if r.phase = .ending ∧ s.scan.isNone then
        some { (s.setPhase id r .finished) with reaping := finishPids r.pids s.reaping }
      else none
    | none => none
  | .wait w timeout =>
    if s.waiter w = .absent then
      some { s with waiter := Function.update s.waiter w (.ready (s.clock + timeout)) }
    else none
  | .readClock w =>
    match s.waiter w with
    | .ready deadline => some { s with waiter := Function.update s.waiter w (.locking deadline s.clock) }
    | _ => none
  | .lock w =>
    match s.waiter w, s.scan with
    | .locking deadline now, none => some
      { s with
        waiter := Function.update s.waiter w (.scanning deadline)
        scan := some ⟨w, now, s.reaping, []⟩ }
    | _, _ => none
  | .look w =>
    match s.scan with
    | some sc => match sc.todo with
      | (pid, started) :: rest => if sc.waiter = w then some (lookAt s sc pid started rest) else none
      | [] => none
    | none => none
  | .release w =>
    match s.scan, s.waiter w with
    | some sc, .scanning deadline =>
      if sc.waiter = w ∧ sc.todo = [] then some
        { s with
          waiter := Function.update s.waiter w (afterScan s.clock deadline sc.live)
          scan := none }
      else none
    | _, _ => none

/-! ### What has to hold -/

/-- A reap that has begun and not finished, and began at most `STUCK_AFTER_S` ago. -/
def Underway (s : State) (r : Reap) : Prop := r.phase ≠ .finished ∧ s.clock ≤ r.began + stuckAfter

/-- No pid of a reap under way is alive. -/
def AllExited (s : State) : Prop :=
  ∀ id r, s.reaps id = some r → Underway s r → ∀ pid ∈ r.pids, s.alive pid = false

/-- The entry of the pid is not that of another reap under way, or the process has exited. -/
def Unshared (s : State) (id : Option Nat) (pid : Nat) : Prop :=
  s.alive pid = true → ∀ id' r, some id' ≠ id → s.reaps id' = some r → Underway s r → pid ∉ r.pids

/-- What the condition asks of a step that removes entries: of a reap that ends, and of a scan that takes a
process for stuck. -/
def NotShared (s : State) : Event → Prop
  | .finish id => ∀ r, s.reaps id = some r → ∀ pid ∈ r.pids, Unshared s (some id) pid
  | .look _ => ∀ sc, s.scan = some sc → ∀ pid started rest, sc.todo = (pid, started) :: rest →
      stuckAfter < sc.now - started → Unshared s none pid
  | _ => True

/-! ### The registry -/

/-- The pids registered. -/
def keys (reaping : List (Nat × Nat)) : List Nat := reaping.map Prod.fst

theorem mem_setDefault {now pid q : Nat} {reaping : List (Nat × Nat)} :
    q ∈ keys (setDefault now reaping pid) ↔ q ∈ keys reaping ∨ q = pid := by
  rw [setDefault]
  split_ifs with h
  · have hmem : pid ∈ keys reaping := by simpa [keys] using h
    constructor
    · exact Or.inl
    · rintro (hq | rfl)
      · exact hq
      · exact hmem
  · simp [keys]

theorem mem_beginPids {now q : Nat} {pids : List Nat} {reaping : List (Nat × Nat)} :
    q ∈ keys (beginPids now pids reaping) ↔ q ∈ keys reaping ∨ q ∈ pids := by
  induction pids generalizing reaping with
  | nil => simp [beginPids]
  | cons pid pids ih =>
    rw [beginPids, List.foldl_cons, ← beginPids, ih, mem_setDefault, List.mem_cons, or_assoc]

theorem mem_pop {pid q : Nat} {reaping : List (Nat × Nat)} : q ∈ keys (pop reaping pid) ↔ q ∈ keys reaping ∧ q ≠ pid := by
  simp only [keys, pop, List.mem_map, List.mem_filter, bne_iff_ne]
  constructor
  · rintro ⟨e, ⟨he, hne⟩, rfl⟩
    exact ⟨⟨e, he, rfl⟩, hne⟩
  · rintro ⟨⟨e, he, rfl⟩, hne⟩
    exact ⟨e, ⟨he, hne⟩, rfl⟩

theorem mem_finishPids {q : Nat} {pids : List Nat} {reaping : List (Nat × Nat)} :
    q ∈ keys (finishPids pids reaping) ↔ q ∈ keys reaping ∧ q ∉ pids := by
  induction pids generalizing reaping with
  | nil => simp [finishPids]
  | cons pid pids ih =>
    rw [finishPids, List.foldl_cons, ← finishPids, ih, mem_pop, List.mem_cons, not_or, and_assoc]

/-! ### One step -/

/-- The pid is registered, and a scan in progress has it on its list or still to look at. -/
def Guarded (s : State) (pid : Nat) : Prop :=
  pid ∈ keys s.reaping ∧ ∀ sc, s.scan = some sc → pid ∈ sc.live ∨ pid ∈ keys sc.todo

/-- Every live pid of every reap under way is guarded. -/
def AllGuarded (s : State) : Prop :=
  ∀ id r, s.reaps id = some r → Underway s r → ∀ pid ∈ r.pids, s.alive pid = true → Guarded s pid

/-- A step that starts no reap and revives no process need only leave the pids of the reaps under way guarded. -/
theorem AllGuarded.of_step {s t : State} (h : AllGuarded s)
    (hreaps : ∀ id r, t.reaps id = some r → Underway t r → ∃ r', s.reaps id = some r' ∧ Underway s r' ∧ r'.pids = r.pids)
    (halive : ∀ pid, t.alive pid = true → s.alive pid = true)
    (hguard : ∀ id r pid, t.reaps id = some r → Underway t r → pid ∈ r.pids → t.alive pid = true →
      Guarded s pid → Guarded t pid) : AllGuarded t := by
  intro id r hr hunder pid hpid hlive
  obtain ⟨r', hr', hunder', hpids⟩ := hreaps id r hr hunder
  exact hguard id r pid hr hunder hpid hlive (h id r' hr' hunder' pid (hpids ▸ hpid) (halive pid hlive))

/-- The reaps stay as they are. -/
theorem reaps_kept {s t : State} (hreaps : t.reaps = s.reaps) (hclock : s.clock ≤ t.clock) (id : Nat) (r : Reap)
    (hr : t.reaps id = some r) (hunder : Underway t r) :
    ∃ r', s.reaps id = some r' ∧ Underway s r' ∧ r'.pids = r.pids :=
  ⟨r, hreaps ▸ hr, ⟨hunder.1, Nat.le_trans hclock hunder.2⟩, rfl⟩

/-- A reap moves to another phase. -/
theorem reaps_setPhase {s : State} {id₀ : Nat} {r₀ : Reap} {phase : Phase} (h₀ : s.reaps id₀ = some r₀)
    (hphase : r₀.phase ≠ .finished) (id : Nat) (r : Reap) (hr : (s.setPhase id₀ r₀ phase).reaps id = some r)
    (hunder : Underway (s.setPhase id₀ r₀ phase) r) : ∃ r', s.reaps id = some r' ∧ Underway s r' ∧ r'.pids = r.pids := by
  by_cases hid : id = id₀
  · subst hid
    rw [State.setPhase_reaps, Function.update_self] at hr
    obtain rfl := Option.some.inj hr
    exact ⟨r₀, h₀, ⟨hphase, hunder.2⟩, rfl⟩
  · rw [State.setPhase_reaps, Function.update_of_ne hid] at hr
    exact ⟨r, hr, hunder, rfl⟩

theorem AllGuarded.setPhase {s : State} {id₀ : Nat} {r₀ : Reap} (h : AllGuarded s) (h₀ : s.reaps id₀ = some r₀)
    (hphase : r₀.phase ≠ .finished) (phase : Phase) : AllGuarded (s.setPhase id₀ r₀ phase) :=
  h.of_step (reaps_setPhase h₀ hphase) (fun _ => id) fun _ _ _ _ _ _ _ hg => hg

theorem AllGuarded.begin {s : State} (h : AllGuarded s) (hscan : s.scan = none) (id : Nat) (pids : List Nat)
    (kill : Bool) (grace : Nat) :
    AllGuarded { s with
      reaping := beginPids s.clock pids s.reaping
      reaps := Function.update s.reaps id (some ⟨pids, kill, grace, s.clock, .begun⟩) } := by
  intro id' r hr hunder pid hpid hlive
  replace hr : Function.update s.reaps id (some ⟨pids, kill, grace, s.clock, .begun⟩) id' = some r := hr
  refine ⟨mem_beginPids.mpr ?_, fun sc hsc => ?_⟩
  · by_cases hid : id' = id
    · subst hid
      rw [Function.update_self] at hr
      obtain rfl := Option.some.inj hr
      exact Or.inr hpid
    · rw [Function.update_of_ne hid] at hr
      exact Or.inl (h id' r hr hunder pid hpid hlive).1
  · rw [hscan] at hsc
    cases hsc

theorem AllGuarded.finish {s : State} {id₀ : Nat} {r₀ : Reap} (h : AllGuarded s) (h₀ : s.reaps id₀ = some r₀)
    (hphase : r₀.phase = .ending) (hscan : s.scan = none) (hshared : NotShared s (.finish id₀)) :
    AllGuarded { (s.setPhase id₀ r₀ .finished) with reaping := finishPids r₀.pids s.reaping } := by
  have hne : r₀.phase ≠ .finished := by
    rw [hphase]
    decide
  refine h.of_step (reaps_setPhase h₀ hne) (fun _ => id) fun id r pid hr hunder hpid hlive hg => ⟨?_, fun sc hsc => ?_⟩
  · replace hr : (s.setPhase id₀ r₀ .finished).reaps id = some r := hr
    have hid : id ≠ id₀ := by
      rintro rfl
      rw [State.setPhase_reaps, Function.update_self] at hr
      obtain rfl := Option.some.inj hr
      exact hunder.1 rfl
    rw [State.setPhase_reaps, Function.update_of_ne hid] at hr
    refine mem_finishPids.mpr ⟨hg.1, fun hin => ?_⟩
    exact hshared r₀ h₀ pid hin hlive id r (fun heq => hid (Option.some.inj heq)) hr hunder hpid
  · have hsc' : s.scan = some sc := hsc
    rw [hscan] at hsc'
    cases hsc'

/-- A scan looks at an entry: the pid is on the list from then on, or it has exited, or it is taken for stuck. -/
theorem AllGuarded.lookAt {s : State} {sc : Scan} {pid started w : Nat} {rest : List (Nat × Nat)} (h : AllGuarded s)
    (hsc : s.scan = some sc) (htodo : sc.todo = (pid, started) :: rest) (hshared : NotShared s (.look w)) :
    AllGuarded (lookAt s sc pid started rest) := by
  have hothers : ∀ q, q ≠ pid → q ∈ keys sc.todo → q ∈ keys rest := by
    intro q hq hmem
    rw [htodo, keys, List.map_cons] at hmem
    exact (List.mem_cons.mp hmem).resolve_left hq
  -- an entry is removed: whoever is guarded otherwise stays so
  have hremoved : (∀ id r, s.reaps id = some r → Underway s r → pid ∈ r.pids → s.alive pid = true → False) →
      AllGuarded { s with reaping := pop s.reaping pid, scan := some { sc with todo := rest } } := by
    intro hnone
    refine h.of_step (reaps_kept rfl (Nat.le_of_eq rfl)) (fun _ => id) fun id r q hr hunder hq hlive hg => ?_
    have hne : q ≠ pid := by
      rintro rfl
      exact hnone id r hr hunder hq hlive
    refine ⟨mem_pop.mpr ⟨hg.1, hne⟩, fun sc' hsc' => ?_⟩
    obtain rfl := Option.some.inj hsc'
    rcases hg.2 sc hsc with hl | ht
    · exact Or.inl hl
    · exact Or.inr (hothers q hne ht)
  rw [Quiesce.lookAt]
  split_ifs with hdead hstuck
  · apply hremoved
    intro id r _ _ _ hlive
    rw [hdead] at hlive
    cases hlive
  · apply hremoved
    intro id r hr hunder hpid hlive
    exact hshared sc hsc pid started rest htodo hstuck hlive id r (by simp) hr hunder hpid
  · refine h.of_step (reaps_kept rfl (Nat.le_of_eq rfl)) (fun _ => id) fun id r q hr hunder hq hlive hg => ⟨hg.1, fun sc' hsc' => ?_⟩
    obtain rfl := Option.some.inj hsc'
    by_cases hne : q = pid
    · exact Or.inl (by simp [hne])
    · rcases hg.2 sc hsc with hl | ht
      · exact Or.inl (List.mem_append_left _ hl)
      · exact Or.inr (hothers q hne ht)

theorem step_allGuarded {s t : State} {e : Event} (hshared : NotShared s e) (h : AllGuarded s)
    (hstep : step s e = some t) : AllGuarded t := by
  cases e with
  | tick d =>
    obtain rfl := Option.some.inj hstep
    exact h.of_step (reaps_kept rfl (Nat.le_add_right _ _)) (fun _ => id) fun _ _ _ _ _ _ _ hg => hg
  | exit pid =>
    obtain rfl := Option.some.inj hstep
    refine h.of_step (reaps_kept rfl (Nat.le_of_eq rfl)) (fun q hq => ?_) fun _ _ _ _ _ _ _ hg => hg
    replace hq : Function.update s.alive pid false q = true := hq
    by_cases hne : q = pid
    · rw [hne, Function.update_self] at hq
      cases hq
    · rwa [Function.update_of_ne hne] at hq
  | begin id pids kill grace =>
    rw [step] at hstep
    split_ifs at hstep with hfree
    obtain rfl := Option.some.inj hstep
    exact h.begin (Option.isNone_iff_eq_none.mp hfree.2) id pids kill grace
  | signal id signalled =>
    rw [step] at hstep
    split at hstep
    · rename_i r hr
      by_cases hphase : r.phase = .begun
      · rw [if_pos hphase] at hstep
        obtain rfl := Option.some.inj hstep
        exact h.setPhase hr (by rw [hphase]; decide) _
      · rw [if_neg hphase] at hstep
        cases hstep
    · cases hstep
  | check id =>
    rw [step] at hstep
    split at hstep
    · rename_i r hr
      split at hstep
      · rename_i hphase
        obtain rfl := Option.some.inj hstep
        exact h.setPhase hr (by rw [hphase]; simp) _
      · cases hstep
    · cases hstep
  | test id =>
    rw [step] at hstep
    split at hstep
    · rename_i r hr
      split at hstep
      · rename_i hphase
        obtain rfl := Option.some.inj hstep
        exact h.setPhase hr (by rw [hphase]; simp) _
      · cases hstep
    · cases hstep
  | finish id =>
    rw [step] at hstep
    split at hstep
    · rename_i r hr
      split_ifs at hstep with hphase
      obtain rfl := Option.some.inj hstep
      exact h.finish hr hphase.1 (Option.isNone_iff_eq_none.mp hphase.2) hshared
    · cases hstep
  | wait w timeout =>
    rw [step] at hstep
    split_ifs at hstep
    obtain rfl := Option.some.inj hstep
    exact h
  | readClock w =>
    rw [step] at hstep
    split at hstep
    · obtain rfl := Option.some.inj hstep
      exact h
    · cases hstep
  | lock w =>
    rw [step] at hstep
    split at hstep
    · obtain rfl := Option.some.inj hstep
      refine h.of_step (reaps_kept rfl (Nat.le_of_eq rfl)) (fun _ => id) fun _ _ _ _ _ _ _ hg => ⟨hg.1, fun sc hsc => ?_⟩
      obtain rfl := Option.some.inj hsc
      exact Or.inr hg.1
    · cases hstep
  | look w =>
    rw [step] at hstep
    split at hstep
    · rename_i sc hsc
      split at hstep
      · rename_i pid started rest htodo
        split_ifs at hstep
        obtain rfl := Option.some.inj hstep
        exact h.lookAt hsc htodo hshared
      · cases hstep
    · cases hstep
  | release w =>
    rw [step] at hstep
    split at hstep
    · split_ifs at hstep
      obtain rfl := Option.some.inj hstep
      refine h.of_step (reaps_kept rfl (Nat.le_of_eq rfl)) (fun _ => id) fun _ _ _ _ _ _ _ hg => ⟨hg.1, fun sc hsc => ?_⟩
      cases hsc
    · cases hstep

/-! ### Whole runs -/

theorem initial_allGuarded (alive : Nat → Bool) : AllGuarded (initial alive) := by
  intro id r hr
  cases hr

/-- A scan that is through with an empty list has found no live pid of a reap under way. -/
theorem clear_allExited {s t : State} {w : Nat} (h : AllGuarded s) (hstep : step s (.release w) = some t)
    (hclear : t.waiter w = .cleared) : AllExited t := by
  rw [step] at hstep
  split at hstep
  · rename_i sc deadline hsc hw
    split_ifs at hstep with hdone
    obtain rfl := Option.some.inj hstep
    replace hclear : Function.update s.waiter w (afterScan s.clock deadline sc.live) w = .cleared := hclear
    rw [Function.update_self] at hclear
    have hempty : sc.live = [] := by
      rw [afterScan] at hclear
      split_ifs at hclear with hlive
      exact hlive
    intro id r hr hunder pid hpid
    by_contra hlive
    have hguarded := h id r hr hunder pid hpid (by simpa using hlive)
    rcases hguarded.2 sc hsc with hl | ht
    · rw [hempty] at hl
      cases hl
    · rw [hdone.2] at ht
      cases ht
  · cases hstep

/-- **The bench is clear when it is said to be.** As long as no reap that ends, and no scan that takes a process
for stuck, removes the entry of a live process that another reap under way shares: whenever `wait_until_clear`
reports the bench clear, no reap under way has a live process. -/
theorem clear_report_allExited (alive : Nat → Bool) (es : List Event) (w : Nat) {t : State}
    (hal : Along step NotShared (initial alive) (es ++ [.release w]))
    (hrun : run step (initial alive) (es ++ [.release w]) = some t) (hclear : t.waiter w = .cleared) : AllExited t := by
  obtain ⟨s, hs, hlast⟩ := run_append_some hrun
  have hguarded := run_invariant AllGuarded (fun _ _ _ hok h hstep => step_allGuarded hok h hstep)
    (hal.append hs).1 (initial_allGuarded alive) hs
  have hstep : step s (.release w) = some t := by
    rw [run_cons] at hlast
    obtain ⟨t', ht', hnil⟩ := Option.bind_eq_some_iff.mp hlast
    cases hnil
    exact ht'
  exact clear_allExited hguarded hstep hclear

/-! ### Two reaps of one process -/

/-- Process 7 is reaped by a call that waits for it, and by a second that sends `SIGKILL`, has nothing to wait for
and ends; then a caller asks whether the bench is clear. -/
def killedMeanwhile : List Event :=
  [.begin 0 [7] false 30000, .signal 0 [7], .check 0, .begin 1 [7] true 30000, .signal 1 [7], .finish 1,
    .wait 0 5000, .readClock 0, .lock 0, .release 0]

/-- Clear is reported although the first reap is under way and the process is alive. -/
theorem clear_during_reap :
    ∃ t, run step (initial fun _ => true) killedMeanwhile = some t ∧ t.waiter 0 = .cleared ∧ ¬ AllExited t := by
  have hrun : (run step (initial fun _ => true) killedMeanwhile).map (fun t =>
      (t.waiter 0, t.alive 7, t.clock, (t.reaps 0).map fun r => (r.pids, decide (r.phase = .finished)))) =
      some (.cleared, true, 0, some ([7], false)) := by decide
  obtain ⟨t, ht, hseen⟩ := Option.map_eq_some_iff.mp hrun
  simp only [Prod.mk.injEq] at hseen
  obtain ⟨hclear, hlive, hclock, hreap⟩ := hseen
  obtain ⟨r, hr, hfields⟩ := Option.map_eq_some_iff.mp hreap
  simp only [Prod.mk.injEq] at hfields
  obtain ⟨hpids, hphase⟩ := hfields
  refine ⟨t, ht, hclear, fun hall => ?_⟩
  have hunder : Underway t r := ⟨of_decide_eq_false hphase, by rw [hclock]; exact Nat.zero_le _⟩
  have hexited := hall 0 r hr hunder 7 (by rw [hpids]; decide)
  rw [hlive] at hexited
  cases hexited

/-- Entries are removed of exited processes only. -/
def OnlyExited (s : State) : Event → Bool
  | .finish id => (s.reaps id).all fun r => r.pids.all fun pid => !s.alive pid
  | .look _ => s.scan.all fun sc => sc.todo.head?.all fun e => decide (sc.now - e.2 ≤ stuckAfter)
  | _ => true

theorem OnlyExited.notShared {s : State} {e : Event} (h : OnlyExited s e = true) : NotShared s e := by
  cases e with
  | finish id =>
    intro r hr pid hpid hlive
    have hexited : ∀ q ∈ r.pids, s.alive q = false := by simpa [OnlyExited, hr] using h
    rw [hexited pid hpid] at hlive
    cases hlive
  | look w =>
    intro sc hsc pid started rest htodo hstuck
    have hnot : sc.now - started ≤ stuckAfter := by simpa [OnlyExited, hsc, htodo] using h
    exact absurd hstuck (Nat.not_lt.mpr hnot)
  | _ => exact trivial

/-- One reap, whose process exits; the caller that waited for it starts. -/
def oneReap : List Event :=
  [.begin 0 [7] false 30000, .wait 0 5000, .readClock 0, .lock 0, .look 0, .release 0, .signal 0 [7], .exit 7,
    .check 0, .test 0, .finish 0, .readClock 0, .lock 0]

theorem clear_after_reap :
    ∃ t, run step (initial fun _ => true) (oneReap ++ [.release 0]) = some t ∧ t.waiter 0 = .cleared ∧ AllExited t := by
  have hrun : (run step (initial fun _ => true) (oneReap ++ [.release 0])).map (fun t => t.waiter 0) =
      some .cleared := by decide
  have hexited : Along step (fun s e => OnlyExited s e = true) (initial fun _ => true) (oneReap ++ [.release 0]) := by
    decide
  obtain ⟨t, ht, hclear⟩ := Option.map_eq_some_iff.mp hrun
  have hal := hexited.imp fun s e h => OnlyExited.notShared h
  exact ⟨t, ht, hclear, clear_report_allExited (fun _ => true) oneReap 0 hal ht hclear⟩

end Lager.Exec.Quiesce
