import Lager.Lib.Run
import Mathlib.Data.List.Basic

/-!
# Requests between the clients and the hardware thread

`ScopeHandle::request` checks that a scope is open, enqueues the request and waits for the reply; the hardware thread
takes requests from the queue, holds some of them, and loses, drains, reopens and stops as in
`daemon/src/scope_thread.rs`. The two sides share the open state and the queue, and everything is one step at a time.

A reply is whatever the client's call returns: the answer, or the error for a refused, lost or dropped request.
`executed` records which request was carried out on which opening of a unit, and `seen` which opening the request's
check saw.
-/

namespace Lager.Scope

def COMMAND_QUEUE_DEPTH : Nat := 64
def MOST_HELD : Nat := 64

inductive Message where
  | request (id : Nat)
  | shutdown
  deriving DecidableEq

/-- The requests among the messages. -/
def requests (queue : List Message) : List Nat :=
  queue.filterMap fun
    | .request id => some id
    | .shutdown => none

inductive ServicePhase where
  | opening
  /-- In the loop, with the request it is busy with. -/
  | serving (hand : Option Nat)
  /-- The loop has ended, and the open state does not say so yet. -/
  | lost
  | draining
  | stopped
  deriving DecidableEq

def ServicePhase.hand : ServicePhase → List Nat
  | serving (some id) => [id]
  | _ => []

@[simp] theorem ServicePhase.hand_opening : opening.hand = [] := rfl
@[simp] theorem ServicePhase.hand_idle : (serving none).hand = [] := rfl
@[simp] theorem ServicePhase.hand_busy (id : Nat) : (serving (some id)).hand = [id] := rfl
@[simp] theorem ServicePhase.hand_lost : lost.hand = [] := rfl
@[simp] theorem ServicePhase.hand_draining : draining.hand = [] := rfl
@[simp] theorem ServicePhase.hand_stopped : stopped.hand = [] := rfl

structure Service where
  isOpen : Bool
  /-- How many times a unit was opened. -/
  opening : Nat
  phase : ServicePhase
  stopping : Bool
  queue : List Message
  waiting : List Nat
  /-- Requests that have passed the check and are not in the queue yet. -/
  checked : List Nat
  started : List Nat
  replied : List Nat
  seen : Nat → Option Nat
  executed : List (Nat × Nat)

namespace Service

inductive Event where
  | checks (id : Nat)
  | sends (id : Nat)
  | asksToStop
  | opens
  | openFails
  | takes
  | holds
  | answers
  /-- A held request is served: a capture has come, or the scope has stopped. -/
  | picks (id : Nat)
  /-- A held request is refused after its wait. -/
  | expires (id : Nat)
  | loses
  /-- A panic, with the request in hand carried out or not. -/
  | panics (ran : Bool)
  | fails
  | drains
  | drained
  | stops

def start : Service :=
  { isOpen := false, opening := 0, phase := .opening, stopping := false, queue := [], waiting := [], checked := [],
    started := [], replied := [], seen := fun _ => none, executed := [] }

/-- The thread returns: what it holds and what is queued is dropped, which its clients are told. -/
def stop (s : Service) : Service :=
  { s with phase := .stopped, queue := [], waiting := [], replied := s.replied ++ (s.waiting ++ requests s.queue) }

def check (s : Service) (id : Nat) : Option Service :=
  if id ∈ s.started then none
  else if s.isOpen then
    some { s with
      started := id :: s.started
      checked := id :: s.checked
      seen := fun other => if other = id then some s.opening else s.seen other }
  else some { s with started := id :: s.started, replied := id :: s.replied }

def send (s : Service) (id : Nat) : Option Service :=
  if id ∈ s.checked then
    if s.phase = .stopped then some { s with checked := s.checked.erase id, replied := id :: s.replied }
    else if s.queue.length < COMMAND_QUEUE_DEPTH then
      some { s with checked := s.checked.erase id, queue := s.queue ++ [.request id] }
    else none
  else none

/-- `ScopeHandle::shutdown`. -/
def askToStop (s : Service) : Service :=
  { s with
    stopping := true
    queue := if s.phase ≠ .stopped ∧ s.queue.length < COMMAND_QUEUE_DEPTH then s.queue ++ [.shutdown] else s.queue }

def take (s : Service) : Option Service :=
  match s.phase, s.queue with
  | .serving none, .request id :: rest => some { s with phase := .serving (some id), queue := rest }
  | .serving none, .shutdown :: rest => some (stop { s with queue := rest })
  | _, _ => none

def hold (s : Service) : Option Service :=
  match s.phase with
  | .serving (some id) =>
    if s.waiting.length < MOST_HELD then some { s with phase := .serving none, waiting := s.waiting ++ [id] } else none
  | _ => none

def answer (s : Service) : Option Service :=
  match s.phase with
  | .serving (some id) =>
    some { s with phase := .serving none, replied := id :: s.replied, executed := (id, s.opening) :: s.executed }
  | _ => none

def pick (s : Service) (id : Nat) : Option Service :=
  if s.phase = .serving none ∧ id ∈ s.waiting then
    some { s with phase := .serving (some id), waiting := s.waiting.erase id }
  else none

def expire (s : Service) (id : Nat) : Option Service :=
  if s.phase = .serving none ∧ id ∈ s.waiting then
    some { s with waiting := s.waiting.erase id, replied := id :: s.replied }
  else none

/-- The loop ends, and everything it holds is refused or dropped. -/
def lose (s : Service) : Service :=
  { s with phase := .lost, waiting := [], replied := s.replied ++ (s.phase.hand ++ s.waiting) }

def panic (s : Service) (ran : Bool) : Option Service :=
  match s.phase with
  | .serving hand =>
    some { lose s with
      executed := (if ran then hand.toList.map fun id => (id, s.opening) else []) ++ s.executed }
  | _ => none

def drain (s : Service) : Option Service :=
  match s.phase, s.queue with
  | .draining, .request id :: rest => some { s with queue := rest, replied := id :: s.replied }
  | .draining, .shutdown :: rest => some (stop { s with queue := rest })
  | _, _ => none

def step (s : Service) : Event → Option Service
  | .checks id => check s id
  | .sends id => send s id
  | .asksToStop => some (askToStop s)
  | .opens => if s.phase = .opening then
      some { s with isOpen := true, opening := s.opening + 1, phase := .serving none }
    else none
  | .openFails => if s.phase = .opening then some s else none
  | .takes => take s
  | .holds => hold s
  | .answers => answer s
  | .picks id => pick s id
  | .expires id => expire s id
  | .loses => if s.phase = .serving none then some (lose s) else none
  | .panics ran => panic s ran
  | .fails => if s.phase = .lost then some { s with isOpen := false, phase := .draining } else none
  | .drains => drain s
  | .drained => if s.phase = .draining ∧ s.queue = [] then some { s with phase := .opening } else none
  | .stops => if s.stopping ∧ (s.phase = .opening ∨ s.phase = .serving none) then some (stop s) else none

/-- When the drain ends, no client stands between its check and its send. -/
def Settled (s : Service) : Event → Prop
  | .drained => s.checked = []
  | _ => True

/-! ### The invariant -/

/-- How often the request is outstanding. -/
def held (s : Service) (id : Nat) : Nat :=
  s.checked.count id + (requests s.queue).count id + s.phase.hand.count id + s.waiting.count id

/-- Every request is in one place, or answered; what is outstanding saw the opening that is served. -/
structure Inv (s : Service) : Prop where
  once : ∀ id, s.started.count id ≤ 1
  places : ∀ id, s.started.count id = s.held id + s.replied.count id
  current : s.phase ≠ .stopped → ∀ id, 0 < s.held id → s.seen id = some s.opening
  ran : ∀ id k, (id, k) ∈ s.executed → id ∈ s.started ∧ s.seen id = some k
  idle : s.phase = .opening → s.isOpen = false ∧ s.checked = [] ∧ requests s.queue = []
  draining : s.phase = .draining → s.isOpen = false
  alone : (∀ hand, s.phase ≠ .serving hand) → s.waiting = []
  gone : s.phase = .stopped → s.queue = []

@[simp] theorem requests_nil : requests [] = [] := rfl

@[simp] theorem requests_request (id : Nat) (queue : List Message) :
    requests (.request id :: queue) = id :: requests queue := rfl

@[simp] theorem requests_shutdown (queue : List Message) : requests (.shutdown :: queue) = requests queue := rfl

@[simp] theorem requests_append (queue more : List Message) :
    requests (queue ++ more) = requests queue ++ requests more := List.filterMap_append

theorem count_erase_add {l : List Nat} {id : Nat} (h : id ∈ l) (other : Nat) :
    (l.erase id).count other + [id].count other = l.count other := by
  rw [List.count_erase, List.count_singleton]
  have hpos := List.count_pos_iff.mpr h
  by_cases heq : id = other
  · subst heq
    simp
    omega
  · simp [heq]

/-- A step that moves requests between places, answers some of them and sees no new one. -/
theorem Inv.move {s t : Service} (h : Inv s) (hstarted : t.started = s.started) (hseen : t.seen = s.seen)
    (hopening : t.opening = s.opening) (hsum : ∀ id, t.held id + t.replied.count id = s.held id + s.replied.count id)
    (hheld : ∀ id, t.held id ≤ s.held id) (hstopped : s.phase = .stopped → t.phase = .stopped)
    (hran : ∀ id k, (id, k) ∈ t.executed →
      (id, k) ∈ s.executed ∨ 0 < s.held id ∧ k = s.opening ∧ s.phase ≠ .stopped)
    (hidle : t.phase = .opening → t.isOpen = false ∧ t.checked = [] ∧ requests t.queue = [])
    (hdraining : t.phase = .draining → t.isOpen = false)
    (halone : (∀ hand, t.phase ≠ .serving hand) → t.waiting = []) (hgone : t.phase = .stopped → t.queue = []) :
    Inv t := by
  refine ⟨?_, ?_, ?_, ?_, hidle, hdraining, halone, hgone⟩
  · rw [hstarted]
    exact h.once
  · intro id
    rw [hstarted, hsum]
    exact h.places id
  · intro hphase id hpos
    rw [hseen, hopening]
    exact h.current (fun hs => hphase (hstopped hs)) id (Nat.lt_of_lt_of_le hpos (hheld id))
  · intro id k hmem
    rw [hstarted, hseen]
    rcases hran id k hmem with hbefore | ⟨hpos, rfl, hphase⟩
    · exact h.ran id k hbefore
    · refine ⟨List.count_pos_iff.mp ?_, h.current hphase id hpos⟩
      have hplaces := h.places id
      omega

/-- The thread returns between two requests. -/
theorem Inv.stop {s : Service} (h : Inv s) (hhand : s.phase.hand = []) : Inv (stop s) := by
  refine h.move rfl rfl rfl (fun id => ?_) (fun id => ?_) (fun _ => rfl) (fun _ _ hmem => .inl hmem) nofun nofun
    (fun _ => rfl) (fun _ => rfl)
  · simp only [held, Service.stop, hhand, ServicePhase.hand_stopped, requests_nil, List.count_nil, List.count_append]
    omega
  · simp only [held, Service.stop, ServicePhase.hand_stopped, requests_nil, List.count_nil]
    omega

theorem Inv.check {s t : Service} {id : Nat} (h : Inv s) (hstep : check s id = some t) : Inv t := by
  unfold Service.check at hstep
  split at hstep
  · cases hstep
  · rename_i hnew
    have hzero : s.started.count id = 0 := List.count_eq_zero.mpr hnew
    have honce (other : Nat) : (id :: s.started).count other ≤ 1 := by
      have := h.once other
      rw [List.count_cons]
      split
      · rename_i heq
        have hle : s.started.count id + 1 ≤ 1 := by omega
        rwa [← beq_iff_eq.mp heq]
      · exact this
    split at hstep
    · rename_i hopen
      cases hstep
      refine ⟨honce, ?_, ?_, ?_, ?_, ?_, h.alone, h.gone⟩
      · intro other
        have := h.places other
        simp only [held, List.count_cons] at this ⊢
        omega
      · intro hphase other hpos
        dsimp only at hphase hpos ⊢
        split
        · rfl
        · rename_i hne
          refine h.current hphase other ?_
          have hne' : (id == other) = false := by simpa using fun heq => hne heq.symm
          simpa [held, List.count_cons, hne'] using hpos
      · intro other k hmem
        obtain ⟨hstarted, hseen⟩ := h.ran other k hmem
        have hne : other ≠ id := fun heq => hnew (heq ▸ hstarted)
        exact ⟨List.mem_cons_of_mem _ hstarted, by rw [← hseen]; exact if_neg hne⟩
      · intro hphase
        rw [(h.idle hphase).1] at hopen
        cases hopen
      · intro hphase
        rw [h.draining hphase] at hopen
        cases hopen
    · cases hstep
      refine ⟨honce, ?_, h.current, ?_, h.idle, h.draining, h.alone, h.gone⟩
      · intro other
        have := h.places other
        simp only [held, List.count_cons] at this ⊢
        omega
      · intro other k hmem
        obtain ⟨hstarted, hseen⟩ := h.ran other k hmem
        exact ⟨List.mem_cons_of_mem _ hstarted, hseen⟩

theorem Inv.send {s t : Service} {id : Nat} (h : Inv s) (hstep : send s id = some t) : Inv t := by
  unfold Service.send at hstep
  split at hstep
  · rename_i hmem
    have herase := count_erase_add hmem
    split at hstep
    · rename_i hstopped
      cases hstep
      refine h.move rfl rfl rfl (fun other => ?_) (fun other => ?_) (fun hphase => hphase) (fun _ _ hmem => .inl hmem) (fun hphase => ?_)
        h.draining h.alone h.gone
      · have := herase other
        simp only [held, List.count_cons, List.count_nil] at this ⊢
        omega
      · have := herase other
        simp only [held]
        omega
      · rw [hstopped] at hphase
        cases hphase
    · rename_i hrunning
      split at hstep
      · cases hstep
        refine h.move rfl rfl rfl (fun other => ?_) (fun other => ?_) (fun hphase => hphase) (fun _ _ hmem => .inl hmem)
          (fun hphase => ?_) h.draining h.alone (fun hphase => absurd hphase hrunning)
        · have := herase other
          simp only [held, requests_append, requests_request, requests_nil, List.count_append] at this ⊢
          omega
        · have := herase other
          simp only [held, requests_append, requests_request, requests_nil, List.count_append] at this ⊢
          omega
        · rw [(h.idle hphase).2.1] at hmem
          cases hmem
      · cases hstep
  · cases hstep

theorem Inv.askToStop {s : Service} (h : Inv s) : Inv (askToStop s) := by
  have hrequests : requests (Service.askToStop s).queue = requests s.queue := by
    unfold Service.askToStop
    dsimp only
    split
    · rw [requests_append]
      exact List.append_nil _
    · rfl
  have hheld (id : Nat) : (Service.askToStop s).held id = s.held id := by
    simp only [held, hrequests]
    rfl
  refine h.move rfl rfl rfl (fun id => ?_) (fun id => ?_) (fun hphase => hphase) (fun _ _ hmem => .inl hmem)
    (fun hphase => ?_) h.draining h.alone (fun hphase => ?_)
  · rw [hheld]
    rfl
  · exact Nat.le_of_eq (hheld _)
  · rw [hrequests]
    exact h.idle hphase
  · have hnot : ¬(s.phase ≠ .stopped ∧ s.queue.length < COMMAND_QUEUE_DEPTH) := fun hand => hand.1 hphase
    show (if s.phase ≠ .stopped ∧ s.queue.length < COMMAND_QUEUE_DEPTH then _ else s.queue) = []
    rw [if_neg hnot]
    exact h.gone hphase

theorem Inv.take {s t : Service} (h : Inv s) (hstep : take s = some t) : Inv t := by
  unfold Service.take at hstep
  split at hstep
  · rename_i id rest hphase hqueue
    cases hstep
    refine h.move rfl rfl rfl (fun other => ?_) (fun other => ?_) (fun hp => ?_) (fun _ _ hmem => .inl hmem) nofun nofun
      (fun halone => absurd rfl (halone _)) nofun
    · simp only [held, hphase, hqueue, requests_request, ServicePhase.hand_idle, ServicePhase.hand_busy,
        List.count_cons, List.count_nil]
      omega
    · simp only [held, hphase, hqueue, requests_request, ServicePhase.hand_idle, ServicePhase.hand_busy,
        List.count_cons, List.count_nil]
      omega
    · rw [hphase] at hp
      cases hp
  · rename_i rest hphase hqueue
    cases hstep
    refine Inv.stop (h.move rfl rfl rfl (fun other => ?_) (fun other => ?_) (fun hp => hp) (fun _ _ hmem => .inl hmem)
      (fun hp => ?_) (fun hp => ?_) h.alone (fun hp => ?_)) (by rw [hphase]; rfl)
    · simp only [held, hqueue, requests_shutdown]
    · simp only [held, hqueue, requests_shutdown]
      exact Nat.le_refl _
    all_goals
      rw [hphase] at hp
      cases hp
  · cases hstep

theorem Inv.hold {s t : Service} (h : Inv s) (hstep : hold s = some t) : Inv t := by
  unfold Service.hold at hstep
  split at hstep
  · rename_i id hphase
    split at hstep
    · cases hstep
      refine h.move rfl rfl rfl (fun other => ?_) (fun other => ?_) (fun hp => ?_) (fun _ _ hmem => .inl hmem) nofun
        nofun (fun halone => absurd rfl (halone _)) nofun
      · simp only [held, hphase, ServicePhase.hand_idle, ServicePhase.hand_busy, List.count_cons, List.count_nil,
          List.count_append]
        omega
      · simp only [held, hphase, ServicePhase.hand_idle, ServicePhase.hand_busy, List.count_cons, List.count_nil,
          List.count_append]
        omega
      · rw [hphase] at hp
        cases hp
    · cases hstep
  · cases hstep

theorem Inv.answer {s t : Service} (h : Inv s) (hstep : answer s = some t) : Inv t := by
  unfold Service.answer at hstep
  split at hstep
  · rename_i id hphase
    cases hstep
    refine h.move rfl rfl rfl (fun other => ?_) (fun other => ?_) (fun hp => ?_) (fun other k hmem => ?_) nofun nofun
      (fun halone => absurd rfl (halone _)) nofun
    · simp only [held, hphase, ServicePhase.hand_idle, ServicePhase.hand_busy, List.count_cons, List.count_nil]
      omega
    · simp only [held, hphase, ServicePhase.hand_idle, List.count_nil]
      omega
    · rw [hphase] at hp
      cases hp
    · rcases List.mem_cons.mp hmem with heq | hmem
      · cases heq
        refine .inr ⟨?_, rfl, by rw [hphase]; nofun⟩
        simp only [held, hphase, ServicePhase.hand_busy, List.count_singleton_self]
        omega
      · exact .inl hmem
  · cases hstep

theorem Inv.pick {s t : Service} {id : Nat} (h : Inv s) (hstep : pick s id = some t) : Inv t := by
  unfold Service.pick at hstep
  split at hstep
  · rename_i hpick
    obtain ⟨hphase, hmem⟩ := hpick
    have herase := count_erase_add hmem
    cases hstep
    refine h.move rfl rfl rfl (fun other => ?_) (fun other => ?_) (fun hp => ?_) (fun _ _ hmem => .inl hmem) nofun nofun
      (fun halone => absurd rfl (halone _)) nofun
    · have := herase other
      simp only [held, hphase, ServicePhase.hand_idle, ServicePhase.hand_busy, List.count_nil] at this ⊢
      omega
    · have := herase other
      simp only [held, hphase, ServicePhase.hand_idle, ServicePhase.hand_busy, List.count_nil] at this ⊢
      omega
    · rw [hphase] at hp
      cases hp
  · cases hstep

theorem Inv.expire {s t : Service} {id : Nat} (h : Inv s) (hstep : expire s id = some t) : Inv t := by
  unfold Service.expire at hstep
  split at hstep
  · rename_i hexpire
    obtain ⟨hphase, hmem⟩ := hexpire
    have herase := count_erase_add hmem
    cases hstep
    refine h.move rfl rfl rfl (fun other => ?_) (fun other => ?_) (fun hp => hp) (fun _ _ hmem => .inl hmem) h.idle
      h.draining (fun halone => absurd hphase (halone _)) h.gone
    · have := herase other
      simp only [held, List.count_cons, List.count_nil] at this ⊢
      omega
    · have := herase other
      simp only [held]
      omega
  · cases hstep

/-- The loop ends with this history of executions. -/
theorem Inv.lose {s : Service} (h : Inv s) {hand : Option Nat} (hphase : s.phase = .serving hand)
    {executed : List (Nat × Nat)}
    (hran : ∀ id k, (id, k) ∈ executed → (id, k) ∈ s.executed ∨ hand = some id ∧ k = s.opening) :
    Inv { lose s with executed } := by
  refine h.move rfl rfl rfl (fun other => ?_) (fun other => ?_) (fun hp => ?_) (fun id k hmem => ?_) nofun nofun
    (fun _ => rfl) nofun
  · simp only [held, Service.lose, ServicePhase.hand_lost, List.count_nil, List.count_append]
    omega
  · simp only [held, Service.lose, ServicePhase.hand_lost, List.count_nil]
    omega
  · rw [hphase] at hp
    cases hp
  · rcases hran id k hmem with hbefore | ⟨rfl, rfl⟩
    · exact .inl hbefore
    · refine .inr ⟨?_, rfl, by rw [hphase]; nofun⟩
      simp only [held, hphase, ServicePhase.hand_busy, List.count_singleton_self]
      omega

theorem Inv.panic {s t : Service} {ran : Bool} (h : Inv s) (hstep : panic s ran = some t) : Inv t := by
  unfold Service.panic at hstep
  split at hstep
  · rename_i hand hphase
    cases hstep
    refine h.lose hphase fun id k hmem => ?_
    rcases List.mem_append.mp hmem with hmem | hmem
    · split at hmem
      · simp only [List.mem_map, Option.mem_toList, Prod.mk.injEq] at hmem
        obtain ⟨_, hhand, rfl, rfl⟩ := hmem
        exact .inr ⟨hhand, rfl⟩
      · cases hmem
    · exact .inl hmem
  · cases hstep

theorem Inv.drain {s t : Service} (h : Inv s) (hstep : drain s = some t) : Inv t := by
  unfold Service.drain at hstep
  split at hstep
  · rename_i id rest hphase hqueue
    cases hstep
    refine h.move rfl rfl rfl (fun other => ?_) (fun other => ?_) (fun hp => hp) (fun _ _ hmem => .inl hmem)
      (fun hp => ?_) h.draining h.alone (fun hp => ?_)
    · simp only [held, hqueue, requests_request, List.count_cons]
      omega
    · simp only [held, hqueue, requests_request, List.count_cons]
      omega
    all_goals
      rw [hphase] at hp
      cases hp
  · rename_i rest hphase hqueue
    cases hstep
    refine Inv.stop (h.move rfl rfl rfl (fun other => ?_) (fun other => ?_) (fun hp => hp) (fun _ _ hmem => .inl hmem)
      (fun hp => ?_) h.draining h.alone (fun hp => ?_)) (by rw [hphase]; rfl)
    · simp only [held, hqueue, requests_shutdown]
    · simp only [held, hqueue, requests_shutdown]
      exact Nat.le_refl _
    all_goals
      rw [hphase] at hp
      cases hp
  · cases hstep

theorem Inv.step {s t : Service} {e : Event} (h : Inv s) (hsettled : Settled s e) (hstep : step s e = some t) :
    Inv t := by
  cases e with
  | checks id => exact h.check hstep
  | sends id => exact h.send hstep
  | asksToStop =>
    cases hstep
    exact h.askToStop
  | opens =>
    simp only [Service.step] at hstep
    split at hstep
    · rename_i hphase
      cases hstep
      -- nothing is outstanding, so nothing saw the opening before
      obtain ⟨-, hchecked, hqueue⟩ := h.idle hphase
      have hwaiting := h.alone (by rw [hphase]; nofun)
      have hnone (id : Nat) : s.checked.count id + (requests s.queue).count id + s.waiting.count id = 0 := by
        simp [hchecked, hqueue, hwaiting]
      refine ⟨h.once, ?_, ?_, h.ran, nofun, nofun, fun halone => absurd rfl (halone _), nofun⟩
      · intro id
        have := h.places id
        simp only [held, hphase, ServicePhase.hand_opening, ServicePhase.hand_idle, List.count_nil] at this ⊢
        omega
      · intro _ id hpos
        have := hnone id
        simp only [held, ServicePhase.hand_idle, List.count_nil] at hpos
        omega
    · cases hstep
  | openFails =>
    simp only [Service.step] at hstep
    split at hstep
    · cases hstep
      exact h
    · cases hstep
  | takes => exact h.take hstep
  | holds => exact h.hold hstep
  | answers => exact h.answer hstep
  | picks id => exact h.pick hstep
  | expires id => exact h.expire hstep
  | loses =>
    simp only [Service.step] at hstep
    split at hstep
    · rename_i hphase
      cases hstep
      exact h.lose hphase fun id k hmem => .inl hmem
    · cases hstep
  | panics ran => exact h.panic hstep
  | fails =>
    simp only [Service.step] at hstep
    split at hstep
    · rename_i hphase
      cases hstep
      refine h.move rfl rfl rfl (fun id => ?_) (fun id => ?_) (fun hp => ?_) (fun _ _ hmem => .inl hmem) nofun
        (fun _ => rfl) (fun _ => h.alone (by rw [hphase]; nofun)) nofun
      · simp only [held, hphase, ServicePhase.hand_lost, ServicePhase.hand_draining]
      · simp only [held, hphase, ServicePhase.hand_lost, ServicePhase.hand_draining]
        exact Nat.le_refl _
      · rw [hphase] at hp
        cases hp
    · cases hstep
  | drains => exact h.drain hstep
  | drained =>
    simp only [Service.step] at hstep
    split at hstep
    · rename_i hempty
      obtain ⟨hphase, hqueue⟩ := hempty
      cases hstep
      refine h.move rfl rfl rfl (fun id => ?_) (fun id => ?_) (fun hp => ?_) (fun _ _ hmem => .inl hmem)
        (fun _ => ⟨h.draining hphase, hsettled, by simp [hqueue]⟩) nofun
        (fun _ => h.alone (by rw [hphase]; nofun)) nofun
      · simp only [held, hphase, ServicePhase.hand_opening, ServicePhase.hand_draining]
      · simp only [held, hphase, ServicePhase.hand_opening, ServicePhase.hand_draining]
        exact Nat.le_refl _
      · rw [hphase] at hp
        cases hp
    · cases hstep
  | stops =>
    simp only [Service.step] at hstep
    split at hstep
    · rename_i hstops
      cases hstep
      refine h.stop ?_
      rcases hstops.2 with hphase | hphase
      · rw [hphase]
        rfl
      · rw [hphase]
        rfl
    · cases hstep

/-! ### Every request is answered -/

/-- The steps that bring a request nearer to its reply: its client sends it, and the thread works off what it has. -/
def Event.works : Event → Bool
  | sends _ | takes | answers | expires _ | fails | drains => true
  | _ => false

def Busy (s : Service) : Prop := s.checked ≠ [] ∨ requests s.queue ≠ [] ∨ s.phase.hand ≠ [] ∨ s.waiting ≠ []

/-- What is left to do until everything is answered. -/
def load (s : Service) : Nat :=
  4 * s.checked.length + 3 * s.queue.length + 2 * s.phase.hand.length + s.waiting.length +
    if s.phase = .lost then 1 else 0

theorem stop_load (s : Service) : (stop s).load = 4 * s.checked.length := by
  simp [load, Service.stop]

/-- The head of the queue is worked off, whether it is a request or a shutdown. -/
theorem take_works {s : Service} (hphase : s.phase = .serving none) (hqueue : s.queue ≠ []) :
    ∃ t, step s .takes = some t ∧ t.load < s.load ∧ t.started = s.started := by
  obtain ⟨head, rest, hq⟩ := List.exists_cons_of_ne_nil hqueue
  cases head with
  | request id =>
    have hstep : step s .takes = some { s with phase := .serving (some id), queue := rest } := by
      simp only [step, take, hphase, hq]
    refine ⟨_, hstep, ?_, rfl⟩
    simp only [load, hphase, hq, ServicePhase.hand_busy, ServicePhase.hand_idle, List.length_cons, List.length_nil,
      reduceCtorEq, if_false]
    omega
  | shutdown =>
    have hstep : step s .takes = some (stop { s with queue := rest }) := by simp only [step, take, hphase, hq]
    refine ⟨_, hstep, ?_, rfl⟩
    rw [stop_load]
    simp only [load, hq, List.length_cons]
    omega

theorem drain_works {s : Service} (hphase : s.phase = .draining) (hqueue : s.queue ≠ []) :
    ∃ t, step s .drains = some t ∧ t.load < s.load ∧ t.started = s.started := by
  obtain ⟨head, rest, hq⟩ := List.exists_cons_of_ne_nil hqueue
  cases head with
  | request id =>
    have hstep : step s .drains = some { s with queue := rest, replied := id :: s.replied } := by
      simp only [step, drain, hphase, hq]
    refine ⟨_, hstep, ?_, rfl⟩
    simp only [load, hq, List.length_cons]
    omega
  | shutdown =>
    have hstep : step s .drains = some (stop { s with queue := rest }) := by simp only [step, drain, hphase, hq]
    refine ⟨_, hstep, ?_, rfl⟩
    rw [stop_load]
    simp only [load, hq, List.length_cons]
    omega

/-- A client that has passed its check goes on, as long as there is room. -/
theorem send_works {s : Service} {id : Nat} (hmem : id ∈ s.checked) (hroom : s.queue = []) :
    ∃ t, step s (.sends id) = some t ∧ t.load < s.load ∧ t.started = s.started := by
  have hlength := List.length_erase_of_mem hmem
  have hpos := List.length_pos_of_mem hmem
  by_cases hstopped : s.phase = .stopped
  · have hstep : step s (.sends id) = some { s with checked := s.checked.erase id, replied := id :: s.replied } := by
      simp only [step, send, hmem, hstopped, if_true]
    refine ⟨_, hstep, ?_, rfl⟩
    simp only [load, hlength]
    omega
  · have hshort : s.queue.length < COMMAND_QUEUE_DEPTH := by
      rw [hroom]
      decide
    have hstep : step s (.sends id) =
        some { s with checked := s.checked.erase id, queue := s.queue ++ [.request id] } := by
      simp only [step, send, hmem, hstopped, hshort, if_true, if_false]
    refine ⟨_, hstep, ?_, rfl⟩
    simp only [load, hlength, List.length_append, List.length_cons, List.length_nil]
    omega

/-- **Progress.** While something is outstanding, a working step is possible, and it leaves less to do. -/
theorem exists_work {s : Service} (h : Inv s) (hbusy : s.Busy) :
    ∃ e t, Event.works e = true ∧ step s e = some t ∧ t.load < s.load ∧ t.started = s.started := by
  -- with an empty queue and nothing held, only a client can be busy
  have hclient (hqueue : s.queue = []) (hhand : s.phase.hand = []) (hwaiting : s.waiting = []) :
      ∃ e t, Event.works e = true ∧ step s e = some t ∧ t.load < s.load ∧ t.started = s.started := by
    obtain ⟨id, rest, hchecked⟩ : ∃ id rest, s.checked = id :: rest := by
      refine List.exists_cons_of_ne_nil ?_
      rcases hbusy with hb | hb | hb | hb
      · exact hb
      · exact absurd (by rw [hqueue]; rfl) hb
      · exact absurd hhand hb
      · exact absurd hwaiting hb
    have hmem : id ∈ s.checked := by
      rw [hchecked]
      exact List.mem_cons_self
    obtain ⟨t, ht⟩ := send_works hmem hqueue
    exact ⟨_, t, rfl, ht⟩
  cases hphase : s.phase with
  | opening =>
    obtain ⟨-, hchecked, hqueue⟩ := h.idle hphase
    have hwaiting := h.alone (by rw [hphase]; nofun)
    rcases hbusy with hb | hb | hb | hb
    · exact absurd hchecked hb
    · exact absurd hqueue hb
    · rw [hphase] at hb
      exact absurd rfl hb
    · exact absurd hwaiting hb
  | serving hand =>
    cases hand with
    | some id =>
      have hstep : step s .answers = some { s with
          phase := .serving none, replied := id :: s.replied, executed := (id, s.opening) :: s.executed } := by
        simp only [step, answer, hphase]
      refine ⟨_, _, rfl, hstep, ?_, rfl⟩
      simp only [load, hphase, ServicePhase.hand_busy, ServicePhase.hand_idle, List.length_cons, List.length_nil,
        reduceCtorEq, if_false]
      omega
    | none =>
      by_cases hqueue : s.queue = []
      · cases hwaiting : s.waiting with
        | nil => exact hclient hqueue (by rw [hphase]; rfl) hwaiting
        | cons id rest =>
          have hstep : step s (.expires id) =
              some { s with waiting := s.waiting.erase id, replied := id :: s.replied } := by
            simp only [step, expire, hphase, hwaiting, List.mem_cons_self, and_self, if_true]
          refine ⟨_, _, rfl, hstep, ?_, rfl⟩
          simp [load, hwaiting]
      · obtain ⟨t, ht⟩ := take_works hphase hqueue
        exact ⟨_, t, rfl, ht⟩
  | lost =>
    have hstep : step s .fails = some { s with isOpen := false, phase := .draining } := by
      simp only [step, hphase, if_true]
    refine ⟨_, _, rfl, hstep, ?_, rfl⟩
    simp [load, hphase]
  | draining =>
    by_cases hqueue : s.queue = []
    · exact hclient hqueue (by rw [hphase]; rfl) (h.alone (by rw [hphase]; nofun))
    · obtain ⟨t, ht⟩ := drain_works hphase hqueue
      exact ⟨_, t, rfl, ht⟩
  | stopped => exact hclient (h.gone hphase) (by rw [hphase]; rfl) (h.alone (by rw [hphase]; nofun))

theorem Settled.of_works {s : Service} {e : Event} (h : Event.works e = true) : Settled s e := by
  cases e with
  | drained => cases h
  | _ => trivial

/-- Working on for long enough answers everything. -/
theorem exists_finish {s : Service} (h : Inv s) :
    ∃ es t, (∀ e ∈ es, Event.works e = true) ∧ Lib.run step s es = some t ∧ t.started = s.started ∧ Inv t ∧
      ¬t.Busy := by
  by_cases hbusy : s.Busy
  · obtain ⟨e, t, hworks, hstep, hload, hstarted⟩ := exists_work h hbusy
    obtain ⟨es, u, hall, hrun, hstarted', hinv, hidle⟩ := exists_finish (h.step (.of_works hworks) hstep)
    refine ⟨e :: es, u, ?_, ?_, hstarted'.trans hstarted, hinv, hidle⟩
    · intro x hx
      rcases List.mem_cons.mp hx with rfl | hx
      · exact hworks
      · exact hall x hx
    · rw [Lib.run_cons, hstep]
      exact hrun
  · exact ⟨[], s, nofun, rfl, rfl, h, hbusy⟩
termination_by s.load

theorem Inv.start : Inv start where
  once _ := Nat.zero_le _
  places _ := rfl
  current _ id hpos := absurd hpos (Nat.lt_irrefl 0)
  ran _ _ hmem := by cases hmem
  idle _ := ⟨rfl, rfl, rfl⟩
  draining := nofun
  alone _ := rfl
  gone := nofun

/-! ### Every run -/

theorem held_of_not_busy {s : Service} (h : ¬s.Busy) (id : Nat) : s.held id = 0 := by
  simp only [Busy, not_or, not_not] at h
  obtain ⟨hchecked, hqueue, hhand, hwaiting⟩ := h
  simp [held, hchecked, hqueue, hhand, hwaiting]

/-- **Every request is answered once, and by the unit it was sent to.** In a run in which no client stands between
its check and its send when the queue has been drained: each request has had its one reply or is outstanding in one
place, from where the steps that work off what is there bring everything to exactly one reply, and what was executed
was executed on the opening the request's check saw. -/
theorem requests_answered_once {s : Service} {events : List Event} (hsettled : Lib.Along step Settled start events)
    (hrun : Lib.run step start events = some s) :
    (∀ id ∈ s.started, s.held id + s.replied.count id = 1) ∧
    (∀ id k, (id, k) ∈ s.executed → s.seen id = some k) ∧
    ∃ work t, (∀ e ∈ work, Event.works e = true) ∧ Lib.run step s work = some t ∧ t.started = s.started ∧
      ∀ id ∈ s.started, t.replied.count id = 1 := by
  have hinv : Inv s := Lib.run_invariant Inv (fun s e t hs h hstep => h.step hs hstep) hsettled .start hrun
  have honce {t : Service} (ht : Inv t) (hstarted : t.started = s.started) :
      ∀ id ∈ s.started, t.held id + t.replied.count id = 1 := by
    intro id hid
    have hplaces := ht.places id
    have hle := ht.once id
    have hpos : 0 < t.started.count id := List.count_pos_iff.mpr (hstarted ▸ hid)
    omega
  refine ⟨honce hinv rfl, fun id k hmem => (hinv.ran id k hmem).2, ?_⟩
  obtain ⟨work, t, hworks, hrun', hstarted, ht, hidle⟩ := exists_finish hinv
  refine ⟨work, t, hworks, hrun', hstarted, fun id hid => ?_⟩
  have hone := honce ht hstarted id hid
  rw [held_of_not_busy hidle] at hone
  omega

/-- Two requests on a first opening, one answered and one lost with the unit, and one on a second. -/
def twoOpenings : List Event :=
  [.opens, .checks 0, .sends 0, .takes, .answers, .checks 1, .sends 1, .takes, .holds, .loses, .fails, .drained,
    .opens, .checks 2, .sends 2, .takes, .answers]

theorem twoOpenings_answered_once :
    Lib.Along step Settled start twoOpenings ∧ ∃ s, Lib.run step start twoOpenings = some s ∧
      s.executed = [(2, 2), (0, 1)] ∧ ∀ id k, (id, k) ∈ s.executed → s.seen id = some k := by
  have hsettled : Lib.Along step Settled start twoOpenings := by
    simp [twoOpenings, Lib.Along, Settled, step, start, check, send, take, answer, hold, lose,
      COMMAND_QUEUE_DEPTH, MOST_HELD]
  have hexecuted : (Lib.run step start twoOpenings).map (·.executed) = some [(2, 2), (0, 1)] := by decide +kernel
  obtain ⟨s, hrun, hs⟩ := Option.map_eq_some_iff.mp hexecuted
  exact ⟨hsettled, s, hrun, hs, (requests_answered_once hsettled hrun).2.1⟩

/-- A client that passed its check and had not sent its request when the queue was drained. -/
def sentAfterDrain : List Event :=
  [.opens, .checks 0, .loses, .fails, .drained, .sends 0, .opens, .takes, .answers]

/-- The request is executed on the second opening, which its check did not see. -/
theorem sent_after_drain_is_carried_over :
    ∃ s, Lib.run step start sentAfterDrain = some s ∧ ¬∀ id k, (id, k) ∈ s.executed → s.seen id = some k := by
  have hexecuted : (Lib.run step start sentAfterDrain).map (fun s => (s.executed, s.seen 0)) =
      some ([(0, 2)], some 1) := by decide +kernel
  obtain ⟨s, hrun, hs⟩ := Option.map_eq_some_iff.mp hexecuted
  obtain ⟨hran, hseen⟩ := Prod.mk.inj hs
  refine ⟨s, hrun, fun h => ?_⟩
  have hsecond := h 0 2 (by rw [hran]; exact List.mem_cons_self)
  rw [hseen] at hsecond
  cases hsecond

end Service

end Lager.Scope
