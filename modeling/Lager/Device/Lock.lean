import Lager.Lib.Run

/-!
# The device lock of one address

`util/device_lock.py`. Every process keeps a table `lock_handles` of the lock files it holds, on top of the
kernel's `flock` on one file per address. An acquire that finds the address in the table returns at once
(`already held by this process`); otherwise it opens the lock file, polls `flock` until it is granted, stores
the open file in the table and writes its pid. A release takes the file out of the table, unlocks and closes
it. A `device_lock` block is an acquire, a body and a release.

The state is that of one address. The threads of the processes move one step at a time, in any order; an
event names the thread, what it does and, where the outside world decides, how it went.
-/

namespace Lager.Device

/-- Where a thread stands inside `acquire_lock` or `release_lock`. `forBlock`: the acquire was made by a
`device_lock` block and not by a direct call. -/
inductive Phase where
  /-- In neither. -/
  | running
  /-- The address was not in the table. -/
  | opening (forBlock : Bool)
  /-- The lock file is open; `flock` is tried next, or the time is up. -/
  | trying (forBlock : Bool) (file : Nat)
  /-- `flock` was granted. -/
  | locked (forBlock : Bool) (file : Nat)
  /-- The file is in the table; the pid is written next. -/
  | stored (forBlock : Bool) (file : Nat)
  /-- A release has taken the file out of the table. -/
  | unlocking (file : Nat)
  | closing (file : Nat)
  deriving DecidableEq

/-- A thread: its phase and the `device_lock` blocks it is inside of, the innermost first. A block is marked
`false` when its acquire failed open, that is, returned without the lock because the locking itself failed. -/
structure Thread where
  phase : Phase
  blocks : List Bool

structure State where
  /-- The open file that holds the kernel's lock. -/
  flock : Option Nat
  isOpen : Nat → Bool
  /-- The process that opened a file. -/
  owner : Nat → Nat
  nextFile : Nat
  /-- `lock_handles[address]` of each process. -/
  lockHandles : Nat → Option Nat
  thread : Nat → Nat → Thread

def initial : State :=
  { flock := none, isOpen := fun _ => false, owner := fun _ => 0, nextFile := 0, lockHandles := fun _ => none,
    thread := fun _ _ => ⟨.running, []⟩ }

inductive Act where
  /-- `acquire_lock`, up to the look into the table. -/
  | acquire (forBlock : Bool)
  | openFile
  /-- `flock(LOCK_EX | LOCK_NB)`, granted or refused. -/
  | flock (granted : Bool)
  /-- `self.lock_handles[address] = lock_file`. -/
  | store
  /-- `_record_pid`; an `OSError` there goes on polling. -/
  | recordPid (ok : Bool)
  /-- The time is up: `DeviceLockError`. -/
  | timeout
  /-- Any other exception inside the acquire: it fails open. -/
  | raises
  /-- `release_lock` up to the pop, at the exit of the innermost block or as a direct call. -/
  | release (atExit : Bool)
  | unlock (ok : Bool)
  | close
  /-- The process ends, with all its threads; the kernel closes its files. -/
  | die
  deriving DecidableEq

structure Event where
  pid : Nat
  tid : Nat
  act : Act

namespace State

variable (s : State)

def setThread (pid tid : Nat) (th : Thread) : State :=
  { s with thread := fun p t => if p = pid ∧ t = tid then th else s.thread p t }

def setHandle (pid : Nat) (handle : Option Nat) : State :=
  { s with lockHandles := fun p => if p = pid then handle else s.lockHandles p }

/-- The kernel's lock is gone if this file held it. -/
def drop (file : Nat) : State := { s with flock := if s.flock = some file then none else s.flock }

/-- Closing an open file drops its lock. -/
def closeFile (file : Nat) : State :=
  { s.drop file with isOpen := fun f => if f = file then false else s.isOpen f }

/-- The state after a process has ended. -/
def without (pid : Nat) : State :=
  { s with
    flock := s.flock.filter fun f => s.owner f != pid
    isOpen := fun f => if s.owner f = pid then false else s.isOpen f
    lockHandles := fun p => if p = pid then none else s.lockHandles p
    thread := fun p t => if p = pid then ⟨.running, []⟩ else s.thread p t }

end State

/-- The blocks after an acquire has returned. -/
def entered (forBlock acquired : Bool) (blocks : List Bool) : List Bool :=
  if forBlock then acquired :: blocks else blocks

/-- The blocks of a thread that calls `release_lock`: at its exit the innermost block is left. -/
def remaining (atExit : Bool) (blocks : List Bool) : List Bool := if atExit then blocks.tail else blocks

/-- One step of a thread, `none` when the thread is not at that point. -/
def step (s : State) (e : Event) : Option State :=
  let th := s.thread e.pid e.tid
  match e.act, th.phase with
  | .acquire b, .running =>
    match s.lockHandles e.pid with
    | some _ => some (s.setThread e.pid e.tid ⟨.running, entered b true th.blocks⟩)
    | none => some (s.setThread e.pid e.tid ⟨.opening b, th.blocks⟩)
  | .openFile, .opening b =>
    some ({ s with
      nextFile := s.nextFile + 1
      isOpen := fun f => if f = s.nextFile then true else s.isOpen f
      owner := fun f => if f = s.nextFile then e.pid else s.owner f }.setThread e.pid e.tid
        ⟨.trying b s.nextFile, th.blocks⟩)
  | .flock granted, .trying b f =>
    -- a closed file has no descriptor to lock; a file may take again the lock it holds
    if s.isOpen f = false then none
    else if granted then
      if s.flock = none ∨ s.flock = some f then
        some ({ s with flock := some f }.setThread e.pid e.tid ⟨.locked b f, th.blocks⟩)
      else none
    else some s
  | .store, .locked b f => some ((s.setHandle e.pid (some f)).setThread e.pid e.tid ⟨.stored b f, th.blocks⟩)
  | .recordPid ok, .stored b f =>
    if s.isOpen f = false then none
    else if ok then some (s.setThread e.pid e.tid ⟨.running, entered b true th.blocks⟩)
    else some (s.setThread e.pid e.tid ⟨.trying b f, th.blocks⟩)
  | .timeout, .trying _ f => some ((s.closeFile f).setThread e.pid e.tid ⟨.running, th.blocks⟩)
  | .raises, .opening b => some (s.setThread e.pid e.tid ⟨.running, entered b false th.blocks⟩)
  | .raises, .trying b f | .raises, .locked b f | .raises, .stored b f =>
    some ((s.closeFile f).setThread e.pid e.tid ⟨.running, entered b false th.blocks⟩)
  | .release atExit, .running =>
    if atExit = true ∧ th.blocks = [] then none
    else match s.lockHandles e.pid with
      | none => some (s.setThread e.pid e.tid ⟨.running, remaining atExit th.blocks⟩)
      | some f =>
        some ((s.setHandle e.pid none).setThread e.pid e.tid ⟨.unlocking f, remaining atExit th.blocks⟩)
  | .unlock ok, .unlocking f =>
    some ((if ok then s.drop f else s).setThread e.pid e.tid ⟨.closing f, th.blocks⟩)
  | .close, .closing f => some ((s.closeFile f).setThread e.pid e.tid ⟨.running, th.blocks⟩)
  | .die, _ => some (s.without e.pid)
  | _, _ => none

/-- A thread of the process is inside a `device_lock` block whose acquire got the lock, or found it held by
this process. -/
def Inside (s : State) (pid : Nat) : Prop := ∃ tid, true ∈ (s.thread pid tid).blocks

/-! ### The condition -/

/-- The file of a thread inside `acquire_lock`. -/
def Phase.acquiring : Phase → Option Nat
  | .trying _ f => some f
  | .locked _ f => some f
  | .stored _ f => some f
  | _ => none

/-- The file of a thread inside `release_lock`. -/
def Phase.releasing : Phase → Option Nat
  | .unlocking f => some f
  | .closing f => some f
  | _ => none

/-- What a step must meet. A release that takes a file out of the table leaves no other block of the process
without its lock: no thread of the process stays inside a block, and none is still acquiring through the file.
An acquire that gives up has not left its file in the table. -/
def Paired (s : State) (e : Event) : Prop :=
  let th := s.thread e.pid e.tid
  match e.act with
  | .release atExit => ∀ f, s.lockHandles e.pid = some f →
      (∀ tid, true ∉ if tid = e.tid then remaining atExit th.blocks else (s.thread e.pid tid).blocks) ∧
      ∀ tid, (s.thread e.pid tid).phase.acquiring ≠ some f
  | .timeout => ∀ f, th.phase.acquiring = some f → s.lockHandles e.pid ≠ some f
  | .raises => ∀ f, th.phase.acquiring = some f → s.lockHandles e.pid ≠ some f
  | _ => True

/-! ### The invariant -/

/-- The file a thread works on. -/
def Phase.file (ph : Phase) : Option Nat := ph.acquiring <|> ph.releasing

theorem Phase.file_of_releasing {ph : Phase} {f : Nat} (h : ph.releasing = some f) : ph.file = some f := by
  cases ph <;> simp_all [file, acquiring, releasing]

theorem Phase.file_cases {ph : Phase} {f : Nat} (h : ph.file = some f) :
    ph.acquiring = some f ∨ ph.releasing = some f := by
  cases ph <;> simp_all [file, acquiring, releasing]

/-- What every state of a paired run satisfies. -/
structure Inv (s : State) : Prop where
  handle_owner : ∀ p f, s.lockHandles p = some f → s.owner f = p ∧ f < s.nextFile
  phase_owner : ∀ p t f, (s.thread p t).phase.file = some f → s.owner f = p ∧ f < s.nextFile
  flock_lt : ∀ f, s.flock = some f → f < s.nextFile
  /-- Two threads never work on the same file. -/
  phase_inj : ∀ p t t' f, (s.thread p t).phase.file = some f → (s.thread p t').phase.file = some f → t = t'
  /-- A file in a table holds the kernel's lock. -/
  handle_flock : ∀ p f, s.lockHandles p = some f → s.flock = some f
  locked_flock : ∀ p t b f, (s.thread p t).phase = .locked b f → s.flock = some f
  stored_handle : ∀ p t b f, (s.thread p t).phase = .stored b f → s.lockHandles p = some f
  /-- A file on its way out is in no table. -/
  releasing_handle : ∀ p t f, (s.thread p t).phase.releasing = some f → s.lockHandles p ≠ some f
  /-- A process inside a block has the lock in its table. -/
  inside_handle : ∀ p t, true ∈ (s.thread p t).blocks → ∃ f, s.lockHandles p = some f

theorem inv_initial : Inv initial := by
  constructor <;> simp [initial, Phase.file, Phase.acquiring, Phase.releasing]

section Moves

variable {s : State} (h : Inv s) {pid tid : Nat}

include h

/-- A thread goes on, with the file it had or none. -/
theorem Inv.setThread {ph : Phase} {blocks : List Bool}
    (hfile : ∀ f, ph.file = some f → (s.thread pid tid).phase.file = some f)
    (hlocked : ∀ b f, ph = .locked b f → s.flock = some f)
    (hstored : ∀ b f, ph = .stored b f → s.lockHandles pid = some f)
    (hreleasing : ∀ f, ph.releasing = some f → s.lockHandles pid ≠ some f)
    (hinside : true ∈ blocks → ∃ f, s.lockHandles pid = some f) : Inv (s.setThread pid tid ⟨ph, blocks⟩) := by
  have hthread : ∀ p t, ((s.setThread pid tid ⟨ph, blocks⟩).thread p t = s.thread p t ∧ ¬(p = pid ∧ t = tid)) ∨
      ((s.setThread pid tid ⟨ph, blocks⟩).thread p t = ⟨ph, blocks⟩ ∧ p = pid ∧ t = tid) := by
    intro p t
    by_cases hpt : p = pid ∧ t = tid
    · exact .inr ⟨if_pos hpt, hpt⟩
    · exact .inl ⟨if_neg hpt, hpt⟩
  -- the file of a thread afterwards is one that the same thread had before
  have hbefore : ∀ p t f, ((s.setThread pid tid ⟨ph, blocks⟩).thread p t).phase.file = some f →
      (s.thread p t).phase.file = some f := by
    intro p t f hf
    rcases hthread p t with ⟨heq, -⟩ | ⟨heq, rfl, rfl⟩
    · rwa [heq] at hf
    · rw [heq] at hf
      exact hfile f hf
  refine ⟨h.handle_owner, fun p t f hf => h.phase_owner p t f (hbefore p t f hf), h.flock_lt,
    fun p t t' f hf hf' => h.phase_inj p t t' f (hbefore p t f hf) (hbefore p t' f hf'), h.handle_flock,
    ?_, ?_, ?_, ?_⟩
  · intro p t b f hph
    rcases hthread p t with ⟨heq, -⟩ | ⟨heq, rfl, rfl⟩
    · rw [heq] at hph
      exact h.locked_flock p t b f hph
    · rw [heq] at hph
      exact hlocked b f hph
  · intro p t b f hph
    rcases hthread p t with ⟨heq, -⟩ | ⟨heq, rfl, rfl⟩
    · rw [heq] at hph
      exact h.stored_handle p t b f hph
    · rw [heq] at hph
      exact hstored b f hph
  · intro p t f hph
    rcases hthread p t with ⟨heq, -⟩ | ⟨heq, rfl, rfl⟩
    · rw [heq] at hph
      exact h.releasing_handle p t f hph
    · rw [heq] at hph
      exact hreleasing f hph
  · intro p t hin
    rcases hthread p t with ⟨heq, -⟩ | ⟨heq, rfl, rfl⟩
    · rw [heq] at hin
      exact h.inside_handle p t hin
    · rw [heq] at hin
      exact hinside hin

/-- The kernel drops the lock of a file that is in no table and that no thread has just locked. -/
theorem Inv.drop {file : Nat} (hhandle : ∀ p, s.lockHandles p ≠ some file)
    (hlocked : ∀ p t b, (s.thread p t).phase ≠ .locked b file) : Inv (s.drop file) := by
  have hflock : ∀ f, f ≠ file → s.flock = some f → (s.drop file).flock = some f := by
    intro f hne hf
    have hnot : ¬s.flock = some file := fun hc => hne (Option.some.inj (hf.symm.trans hc))
    exact (if_neg hnot).trans hf
  refine ⟨h.handle_owner, h.phase_owner, ?_, h.phase_inj, ?_, ?_, h.stored_handle, h.releasing_handle,
    h.inside_handle⟩
  · intro f hf
    refine h.flock_lt f ?_
    unfold State.drop at hf
    split_ifs at hf with hc
    exact hf
  · intro p f hf
    exact hflock f (fun hc => hhandle p (hc ▸ hf)) (h.handle_flock p f hf)
  · intro p t b f hph
    exact hflock f (fun hc => hlocked p t b (hc ▸ hph)) (h.locked_flock p t b f hph)

theorem Inv.closeFile {file : Nat} (hhandle : ∀ p, s.lockHandles p ≠ some file)
    (hlocked : ∀ p t b, (s.thread p t).phase ≠ .locked b file) : Inv (s.closeFile file) := by
  have hdrop := h.drop hhandle hlocked
  exact ⟨hdrop.handle_owner, hdrop.phase_owner, hdrop.flock_lt, hdrop.phase_inj, hdrop.handle_flock,
    hdrop.locked_flock, hdrop.stored_handle, hdrop.releasing_handle, hdrop.inside_handle⟩

/-- No table but its own process's can hold the file a thread works on. -/
theorem Inv.handle_ne {f : Nat} (hfile : (s.thread pid tid).phase.file = some f)
    (hown : s.lockHandles pid ≠ some f) (p : Nat) : s.lockHandles p ≠ some f := by
  intro hp
  have hsame : p = pid := (h.handle_owner p f hp).1.symm.trans (h.phase_owner pid tid f hfile).1
  exact hown (hsame ▸ hp)

/-- No other thread has just locked the file a thread works on. -/
theorem Inv.locked_ne {f : Nat} (hfile : (s.thread pid tid).phase.file = some f) {p t : Nat} {b : Bool}
    (hph : (s.thread p t).phase = .locked b f) : p = pid ∧ t = tid := by
  have hfile' : (s.thread p t).phase.file = some f := by
    rw [hph]
    rfl
  have hsame : p = pid := (h.phase_owner p t f hfile').1.symm.trans (h.phase_owner pid tid f hfile).1
  subst hsame
  exact ⟨rfl, h.phase_inj p t tid f hfile' hfile⟩

/-- A thread leaves its phase and closes its file. -/
theorem Inv.quit {f : Nat} {blocks : List Bool} (hfile : (s.thread pid tid).phase.file = some f)
    (hown : s.lockHandles pid ≠ some f) (hinside : true ∈ blocks → true ∈ (s.thread pid tid).blocks) :
    Inv ((s.closeFile f).setThread pid tid ⟨.running, blocks⟩) := by
  have hmoved : Inv (s.setThread pid tid ⟨.running, blocks⟩) :=
    h.setThread (by simp [Phase.file, Phase.acquiring, Phase.releasing]) (by simp) (by simp)
      (by simp [Phase.releasing]) fun hin => h.inside_handle pid tid (hinside hin)
  refine hmoved.closeFile (h.handle_ne hfile hown) fun p t b hph => ?_
  by_cases hpt : p = pid ∧ t = tid
  · rw [State.setThread] at hph
    simp [hpt] at hph
  · refine hpt (h.locked_ne hfile (b := b) ?_)
    rw [State.setThread] at hph
    simpa only [if_neg hpt] using hph

theorem Inv.unlock {f : Nat} (hph : (s.thread pid tid).phase = .unlocking f) (ok : Bool) :
    Inv ((if ok then s.drop f else s).setThread pid tid ⟨.closing f, (s.thread pid tid).blocks⟩) := by
  have hfile : (s.thread pid tid).phase.file = some f := by
    rw [hph]
    rfl
  have hown : s.lockHandles pid ≠ some f := h.releasing_handle pid tid f (by rw [hph]; rfl)
  have hmoved : Inv (s.setThread pid tid ⟨.closing f, (s.thread pid tid).blocks⟩) := by
    refine h.setThread (fun g hg => ?_) (by simp) (by simp) (fun g hg => ?_) (h.inside_handle pid tid)
    · rw [hfile]
      exact hg
    · cases hg
      exact hown
  cases ok with
  | false => exact hmoved
  | true =>
    refine hmoved.drop (h.handle_ne hfile hown) fun p t b hlocked => ?_
    by_cases hpt : p = pid ∧ t = tid
    · rw [State.setThread] at hlocked
      simp [hpt] at hlocked
    · refine hpt (h.locked_ne hfile (b := b) ?_)
      rw [State.setThread] at hlocked
      simpa only [if_neg hpt] using hlocked

/-- A new file is nobody's yet. -/
theorem Inv.openFile (b : Bool) :
    Inv ({ s with
      nextFile := s.nextFile + 1
      isOpen := fun f => if f = s.nextFile then true else s.isOpen f
      owner := fun f => if f = s.nextFile then pid else s.owner f }.setThread pid tid
        ⟨.trying b s.nextFile, (s.thread pid tid).blocks⟩) := by
  have hold : ∀ p t f, (s.thread p t).phase.file = some f → f ≠ s.nextFile := fun p t f hf =>
    Nat.ne_of_lt (h.phase_owner p t f hf).2
  constructor
  · intro p f hf
    obtain ⟨howner, hlt⟩ := h.handle_owner p f hf
    exact ⟨(if_neg (Nat.ne_of_lt hlt)).trans howner, Nat.lt_succ_of_lt hlt⟩
  · intro p t f hf
    simp only [State.setThread] at hf ⊢
    split_ifs at hf with hpt
    · cases hf
      exact ⟨(if_pos rfl).trans hpt.1.symm, Nat.lt_succ_self _⟩
    · obtain ⟨howner, hlt⟩ := h.phase_owner p t f hf
      exact ⟨(if_neg (Nat.ne_of_lt hlt)).trans howner, Nat.lt_succ_of_lt hlt⟩
  · exact fun f hf => Nat.lt_succ_of_lt (h.flock_lt f hf)
  · intro p t t' f hf hf'
    simp only [State.setThread] at hf hf'
    split_ifs at hf hf' with hpt hpt' hpt'
    · exact hpt.2.trans hpt'.2.symm
    · cases hf
      exact absurd rfl (hold p t' _ hf')
    · cases hf'
      exact absurd rfl (hold p t _ hf)
    · exact h.phase_inj p t t' f hf hf'
  · exact h.handle_flock
  · intro p t c f hph
    simp only [State.setThread] at hph
    split_ifs at hph
    exact h.locked_flock p t c f hph
  · intro p t c f hph
    simp only [State.setThread] at hph
    split_ifs at hph
    exact h.stored_handle p t c f hph
  · intro p t f hph
    simp only [State.setThread] at hph
    split_ifs at hph
    · cases hph
    · exact h.releasing_handle p t f hph
  · intro p t hin
    simp only [State.setThread] at hin
    split_ifs at hin with hpt
    · rw [hpt.1]
      exact h.inside_handle pid tid hin
    · exact h.inside_handle p t hin

theorem Inv.grant {b : Bool} {f : Nat} (hph : (s.thread pid tid).phase = .trying b f)
    (hfree : s.flock = none ∨ s.flock = some f) :
    Inv ({ s with flock := some f }.setThread pid tid ⟨.locked b f, (s.thread pid tid).blocks⟩) := by
  have hfile : (s.thread pid tid).phase.file = some f := by
    rw [hph]
    rfl
  -- whoever had the lock has it through this file
  have hsame : ∀ g, s.flock = some g → some f = some g := by
    intro g hg
    rcases hfree with hnone | hsome
    · rw [hnone] at hg
      cases hg
    · rw [← hg, hsome]
  have hlocked : Inv { s with flock := some f } := by
    refine ⟨h.handle_owner, h.phase_owner, ?_, h.phase_inj, fun p g hg => hsame g (h.handle_flock p g hg),
      fun p t c g hg => hsame g (h.locked_flock p t c g hg), h.stored_handle, h.releasing_handle, h.inside_handle⟩
    intro g hg
    cases hg
    exact (h.phase_owner pid tid f hfile).2
  refine hlocked.setThread (fun g hg => hfile.trans hg) (fun c g hg => ?_) (by simp) (by simp [Phase.releasing])
    (h.inside_handle pid tid)
  cases hg
  rfl

theorem Inv.store {b : Bool} {f : Nat} (hph : (s.thread pid tid).phase = .locked b f) :
    Inv ((s.setHandle pid (some f)).setThread pid tid ⟨.stored b f, (s.thread pid tid).blocks⟩) := by
  have hfile : (s.thread pid tid).phase.file = some f := by
    rw [hph]
    rfl
  have hflock := h.locked_flock pid tid b f hph
  have hhandle : Inv (s.setHandle pid (some f)) := by
    have hcases : ∀ p g, (s.setHandle pid (some f)).lockHandles p = some g →
        (p = pid ∧ g = f) ∨ s.lockHandles p = some g := by
      intro p g hg
      simp only [State.setHandle] at hg
      split_ifs at hg with hp
      · exact .inl ⟨hp, (Option.some.inj hg).symm⟩
      · exact .inr hg
    refine ⟨?_, h.phase_owner, h.flock_lt, h.phase_inj, ?_, h.locked_flock, ?_, ?_, ?_⟩
    · intro p g hg
      rcases hcases p g hg with ⟨rfl, rfl⟩ | hold
      · exact h.phase_owner p tid g hfile
      · exact h.handle_owner p g hold
    · intro p g hg
      rcases hcases p g hg with ⟨rfl, rfl⟩ | hold
      · exact hflock
      · exact h.handle_flock p g hold
    · intro p t c g hg
      have hold := h.stored_handle p t c g hg
      have hgf : g = f := Option.some.inj ((h.handle_flock p g hold).symm.trans hflock)
      by_cases hp : p = pid
      · exact (if_pos hp).trans (congrArg some hgf.symm)
      · exact (if_neg hp).trans hold
    · intro p t g hg hnew
      rcases hcases p g hnew with ⟨rfl, rfl⟩ | hold
      · -- the thread that releases the file would be the one that has just locked it
        have ht := h.phase_inj p t tid g (Phase.file_of_releasing hg) hfile
        change (s.thread p t).phase.releasing = some g at hg
        rw [ht, hph] at hg
        cases hg
      · exact h.releasing_handle p t g hg hold
    · intro p t hin
      obtain ⟨g, hg⟩ := h.inside_handle p t hin
      by_cases hp : p = pid
      · exact ⟨f, if_pos hp⟩
      · exact ⟨g, (if_neg hp).trans hg⟩
  refine hhandle.setThread (fun g hg => hfile.trans hg) (by simp) (fun c g hg => ?_) (by simp [Phase.releasing])
    fun _ => ⟨f, if_pos rfl⟩
  cases hg
  exact if_pos rfl

theorem Inv.pop {f : Nat} {blocks : List Bool} (hhandle : s.lockHandles pid = some f)
    (hout : ∀ t, true ∉ if t = tid then blocks else (s.thread pid t).blocks)
    (hacq : ∀ t, (s.thread pid t).phase.acquiring ≠ some f) :
    Inv ((s.setHandle pid none).setThread pid tid ⟨.unlocking f, blocks⟩) := by
  have hcases : ∀ p g, (s.setHandle pid none).lockHandles p = some g → p ≠ pid ∧ s.lockHandles p = some g := by
    intro p g hg
    simp only [State.setHandle] at hg
    split_ifs at hg with hp
    exact ⟨hp, hg⟩
  -- nobody else works on the file: not to acquire it, and not to release what is still in the table
  have hunused : ∀ t, (s.thread pid t).phase.file ≠ some f := by
    intro t hf
    rcases Phase.file_cases hf with hacquiring | hreleasing
    · exact hacq t hacquiring
    · exact h.releasing_handle pid t f hreleasing hhandle
  obtain ⟨howner, hlt⟩ := h.handle_owner pid f hhandle
  constructor
  · exact fun p g hg => h.handle_owner p g (hcases p g hg).2
  · intro p t g hg
    simp only [State.setThread] at hg
    split_ifs at hg with hpt
    · cases hg
      exact ⟨howner.trans hpt.1.symm, hlt⟩
    · exact h.phase_owner p t g hg
  · exact h.flock_lt
  · intro p t t' g hg hg'
    simp only [State.setThread] at hg hg'
    split_ifs at hg hg' with hpt hpt' hpt'
    · exact hpt.2.trans hpt'.2.symm
    · cases hg
      rw [hpt.1] at hg'
      exact absurd hg' (hunused t')
    · cases hg'
      rw [hpt'.1] at hg
      exact absurd hg (hunused t)
    · exact h.phase_inj p t t' g hg hg'
  · exact fun p g hg => h.handle_flock p g (hcases p g hg).2
  · intro p t c g hph
    simp only [State.setThread] at hph
    split_ifs at hph
    exact h.locked_flock p t c g hph
  · intro p t c g hph
    simp only [State.setThread] at hph
    split_ifs at hph with hpt
    have hold := h.stored_handle p t c g hph
    by_cases hp : p = pid
    · subst hp
      rw [hhandle, Option.some.injEq] at hold
      change (s.thread p t).phase = .stored c g at hph
      exact absurd (by rw [hph, hold]; rfl) (hunused t)
    · exact (if_neg hp).trans hold
  · intro p t g hph hnew
    obtain ⟨hp, hold⟩ := hcases p g hnew
    simp only [State.setThread] at hph
    split_ifs at hph with hpt
    · exact hp hpt.1
    · exact h.releasing_handle p t g hph hold
  · intro p t hin
    simp only [State.setThread] at hin ⊢
    by_cases hp : p = pid
    · subst hp
      refine absurd ?_ (hout t)
      by_cases ht : t = tid
      · rw [if_pos ht]
        rwa [if_pos ⟨rfl, ht⟩] at hin
      · rw [if_neg ht]
        rwa [if_neg fun hpt => ht hpt.2] at hin
    · rw [if_neg fun hpt => hp hpt.1] at hin
      obtain ⟨g, hg⟩ := h.inside_handle p t hin
      exact ⟨g, (if_neg hp).trans hg⟩

theorem Inv.without : Inv (s.without pid) := by
  have hphase : ∀ p t, p ≠ pid → (s.without pid).thread p t = s.thread p t := fun p t hp => if_neg hp
  have hgone : ∀ t, (s.without pid).thread pid t = ⟨.running, []⟩ := fun t => if_pos rfl
  have hhandle : ∀ p f, (s.without pid).lockHandles p = some f → p ≠ pid ∧ s.lockHandles p = some f := by
    intro p f hf
    simp only [State.without] at hf
    split_ifs at hf with hp
    exact ⟨hp, hf⟩
  have hflock : ∀ f, s.owner f ≠ pid → s.flock = some f → (s.without pid).flock = some f := by
    intro f hne hf
    simp [State.without, hf, hne]
  have hlive : ∀ p t, ((s.without pid).thread p t).phase ≠ .running → p ≠ pid := by
    rintro p t hrun rfl
    exact hrun (by rw [hgone])
  constructor
  · exact fun p f hf => h.handle_owner p f (hhandle p f hf).2
  · intro p t f hf
    have hp := hlive p t (by rintro hr; rw [hr] at hf; cases hf)
    rw [hphase p t hp] at hf
    exact h.phase_owner p t f hf
  · intro f hf
    refine h.flock_lt f ?_
    simp only [State.without, Option.filter_eq_some_iff] at hf
    exact hf.1
  · intro p t t' f hf hf'
    have hp := hlive p t (by rintro hr; rw [hr] at hf; cases hf)
    rw [hphase p t hp] at hf
    rw [hphase p t' hp] at hf'
    exact h.phase_inj p t t' f hf hf'
  · intro p f hf
    obtain ⟨hp, hold⟩ := hhandle p f hf
    exact hflock f (fun hc => hp ((h.handle_owner p f hold).1.symm.trans hc)) (h.handle_flock p f hold)
  · intro p t b f hph
    have hp := hlive p t (by rw [hph]; simp)
    rw [hphase p t hp] at hph
    have howner := (h.phase_owner p t f (by rw [hph]; rfl)).1
    exact hflock f (fun hc => hp (howner.symm.trans hc)) (h.locked_flock p t b f hph)
  · intro p t b f hph
    have hp := hlive p t (by rw [hph]; simp)
    rw [hphase p t hp] at hph
    exact (if_neg hp).trans (h.stored_handle p t b f hph)
  · intro p t f hph hnew
    obtain ⟨hp, hold⟩ := hhandle p f hnew
    rw [hphase p t hp] at hph
    exact h.releasing_handle p t f hph hold
  · intro p t hin
    by_cases hp : p = pid
    · subst hp
      rw [hgone] at hin
      cases hin
    · rw [hphase p t hp] at hin
      obtain ⟨f, hf⟩ := h.inside_handle p t hin
      exact ⟨f, (if_neg hp).trans hf⟩

end Moves

theorem true_mem_entered {b acquired : Bool} {blocks : List Bool} (h : true ∈ entered b acquired blocks) :
    acquired = true ∨ true ∈ blocks := by
  unfold entered at h
  split_ifs at h
  · rcases List.mem_cons.mp h with heq | hin
    · exact .inl heq.symm
    · exact .inr hin
  · exact .inr h

theorem true_mem_remaining {atExit : Bool} {blocks : List Bool} (h : true ∈ remaining atExit blocks) :
    true ∈ blocks := by
  unfold remaining at h
  split_ifs at h
  · exact List.mem_of_mem_tail h
  · exact h

/-- A thread goes back to running without touching its file. -/
theorem Inv.toRunning {s : State} (h : Inv s) {pid tid : Nat} {blocks : List Bool}
    (hinside : true ∈ blocks → ∃ f, s.lockHandles pid = some f) :
    Inv (s.setThread pid tid ⟨.running, blocks⟩) :=
  h.setThread (by simp [Phase.file, Phase.acquiring, Phase.releasing]) (by simp) (by simp)
    (by simp [Phase.releasing]) hinside

/-- **One paired step keeps the invariant.** -/
theorem Inv.step {s t : State} {e : Event} (h : Inv s) (hok : Paired s e) (hstep : step s e = some t) : Inv t := by
  obtain ⟨pid, tid, act⟩ := e
  have hin := h.inside_handle pid tid
  cases act with
  | acquire b =>
    cases hph : (s.thread pid tid).phase <;> simp only [Device.step, hph, reduceCtorEq] at hstep
    cases hhandle : s.lockHandles pid with
    | none =>
      simp only [hhandle, Option.some.injEq] at hstep
      subst hstep
      exact h.setThread (by simp [Phase.file, Phase.acquiring, Phase.releasing]) (by simp) (by simp)
        (by simp [Phase.releasing]) hin
    | some f =>
      simp only [hhandle, Option.some.injEq] at hstep
      subst hstep
      exact h.toRunning fun _ => ⟨f, hhandle⟩
  | openFile =>
    cases hph : (s.thread pid tid).phase <;> simp only [Device.step, hph, reduceCtorEq, Option.some.injEq] at hstep
    subst hstep
    exact h.openFile _
  | flock granted =>
    cases hph : (s.thread pid tid).phase <;> simp only [Device.step, hph, reduceCtorEq] at hstep
    split_ifs at hstep with hopen hgranted hfree
    · cases hstep
      exact h.grant hph hfree
    · cases hstep
      exact h
  | store =>
    cases hph : (s.thread pid tid).phase <;> simp only [Device.step, hph, reduceCtorEq, Option.some.injEq] at hstep
    subst hstep
    exact h.store hph
  | recordPid ok =>
    cases hph : (s.thread pid tid).phase <;> simp only [Device.step, hph, reduceCtorEq] at hstep
    rename_i b f
    have hhandle := h.stored_handle pid tid b f hph
    split_ifs at hstep with hopen hwritten
    · cases hstep
      exact h.toRunning fun _ => ⟨f, hhandle⟩
    · cases hstep
      refine h.setThread (fun g hg => ?_) (by simp) (by simp) (by simp [Phase.releasing]) hin
      rw [hph]
      exact hg
  | timeout =>
    cases hph : (s.thread pid tid).phase <;> simp only [Device.step, hph, reduceCtorEq, Option.some.injEq] at hstep
    rename_i b f
    subst hstep
    exact h.quit (by rw [hph]; rfl) (hok f (by rw [hph]; rfl)) id
  | raises =>
    have hblocks : ∀ b, true ∈ entered b false (s.thread pid tid).blocks → true ∈ (s.thread pid tid).blocks :=
      fun b hb => (true_mem_entered hb).resolve_left (by decide)
    cases hph : (s.thread pid tid).phase <;> simp only [Device.step, hph, reduceCtorEq, Option.some.injEq] at hstep
    · subst hstep
      exact h.toRunning fun hb => hin (hblocks _ hb)
    all_goals
      subst hstep
      exact h.quit (by rw [hph]; rfl) (hok _ (by rw [hph]; rfl)) (hblocks _)
  | release atExit =>
    cases hph : (s.thread pid tid).phase <;> simp only [Device.step, hph, reduceCtorEq] at hstep
    split_ifs at hstep with hempty
    cases hhandle : s.lockHandles pid with
    | none =>
      simp only [hhandle, Option.some.injEq] at hstep
      subst hstep
      exact h.toRunning fun hb => hin (true_mem_remaining hb)
    | some f =>
      simp only [hhandle, Option.some.injEq] at hstep
      subst hstep
      obtain ⟨hout, hacq⟩ := hok f hhandle
      exact h.pop hhandle hout hacq
  | unlock ok =>
    cases hph : (s.thread pid tid).phase <;> simp only [Device.step, hph, reduceCtorEq, Option.some.injEq] at hstep
    subst hstep
    exact h.unlock hph ok
  | close =>
    cases hph : (s.thread pid tid).phase <;> simp only [Device.step, hph, reduceCtorEq, Option.some.injEq] at hstep
    rename_i f
    subst hstep
    exact h.quit (by rw [hph]; rfl) (h.releasing_handle pid tid f (by rw [hph]; rfl)) id
  | die =>
    simp only [Device.step, Option.some.injEq] at hstep
    subst hstep
    exact h.without

/-- The invariant leaves room for one process. -/
theorem Inv.exclusive {s : State} (h : Inv s) {p q : Nat} (hp : Inside s p) (hq : Inside s q) : p = q := by
  obtain ⟨t, ht⟩ := hp
  obtain ⟨u, hu⟩ := hq
  obtain ⟨f, hf⟩ := h.inside_handle p t ht
  obtain ⟨g, hg⟩ := h.inside_handle q u hu
  have hfg : f = g := Option.some.inj ((h.handle_flock p f hf).symm.trans (h.handle_flock q g hg))
  subst hfg
  exact (h.handle_owner p f hf).1.symm.trans (h.handle_owner q f hg).1

/-! ### Exclusion -/

/-- **One process at a time.** In every run whose releases never take the lock from under another block of the
same process and whose acquires never give up with their file in the table, no two processes are inside a
`device_lock` block, in any state on the way. -/
theorem device_lock_exclusive (es rest : List Event) (s : State)
    (hpaired : Lib.Along step Paired initial (es ++ rest)) (hrun : Lib.run step initial es = some s)
    (p q : Nat) (hp : Inside s p) (hq : Inside s q) : p = q := by
  have hpre := (hpaired.append hrun).1
  have hinv := Lib.run_invariant Inv (fun s e t hok h hstep => h.step hok hstep) hpre inv_initial hrun
  exact hinv.exclusive hp hq

/-- A thread enters a `device_lock` block through the kernel's lock. -/
def enter (pid tid : Nat) : List Event :=
  [⟨pid, tid, .acquire true⟩, ⟨pid, tid, .openFile⟩, ⟨pid, tid, .flock true⟩, ⟨pid, tid, .store⟩,
    ⟨pid, tid, .recordPid true⟩]

/-- A thread leaves its innermost block and gives the lock back. -/
def leave (pid tid : Nat) : List Event :=
  [⟨pid, tid, .release true⟩, ⟨pid, tid, .unlock true⟩, ⟨pid, tid, .close⟩]

theorem paired_in_turn : Lib.Along step Paired initial (enter 0 0 ++ leave 0 0 ++ enter 1 0 ++ []) := by
  simp [Lib.Along, enter, leave, step, Paired, initial, State.setThread, State.setHandle, State.drop,
    State.closeFile, entered, remaining, Phase.acquiring]
  -- the one step with a condition is the release, by the only thread of its process
  refine ⟨fun tid h => ?_, fun tid => ?_⟩
  · simp [h]
  · by_cases h : tid = 0 <;> simp [h]

theorem device_lock_exclusive_in_turn :
    ∃ s, Lib.run step initial (enter 0 0 ++ leave 0 0 ++ enter 1 0) = some s ∧ Inside s 1 ∧
      ∀ p, Inside s p → p = 1 := by
  refine ⟨_, rfl, ⟨0, by decide⟩, fun p hp => ?_⟩
  exact device_lock_exclusive (enter 0 0 ++ leave 0 0 ++ enter 1 0) [] _ paired_in_turn rfl p 1 hp ⟨0, by decide⟩

/-- The inner of two nested blocks gives the lock back while the outer one is still running. -/
theorem device_lock_nested_exit :
    ∃ s, Lib.run step initial (enter 0 0 ++ [⟨0, 0, .acquire true⟩] ++ leave 0 0 ++ enter 1 0) = some s ∧
      Inside s 0 ∧ Inside s 1 :=
  ⟨_, rfl, ⟨0, by decide⟩, ⟨0, by decide⟩⟩

end Lager.Device
