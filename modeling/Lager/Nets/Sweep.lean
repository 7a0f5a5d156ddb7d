import Mathlib.Data.List.Sort
import Lager.Nets.Probe
import Lager.Lib.Run

/-!
# The `/nets/state` sweep

`_sweep` of `http_handlers/nets_handler.py` as a system of a main thread, up to eight workers and a clock that move
in any order. Nets whose instrument need not be asked are answered at once; the others are probed per instrument
by a worker that publishes what it has in a `sink`, and the main thread collects the groups that are done, cuts
short those whose budget is over, and at the request deadline cuts off the rest. The lines it yields are streamed
as they are, or joined by name into the array form.

The environment of a request (the USB bus, the cooldown memory) and every answer of an instrument are arbitrary.
-/

namespace Lager.Nets.Sweep

open Lager.Py Lager.Lib

/-- `_STATE_TIMEOUT` -/
def stateTimeout : Nat := 8000

/-- `_GROUP_BUDGET_S` -/
def groupBudgetBase : Nat := 3000

/-- `_GROUP_BUDGET_PER_NET_S` -/
def groupBudgetPerNet : Nat := 1000

/-- `_COOLDOWN_S` -/
def cooldownWindow : Nat := 30000

def presenceExemptRoles : List String := ["usb", "debug", "webcam", "router", "mikrotik"]

def usbHubRoles : List String := ["usb"]

/-- An entry of the cooldown memory. -/
structure CooldownItem where
  since : Nat
  reason : String
  keys : List String

/-- What a request finds when it starts. -/
structure Env where
  /-- `time.monotonic()` -/
  started : Nat
  /-- `_rec_absent` against the bus, `none` when the bus says nothing usable. -/
  recAbsent : Option (NetRec → Bool)
  /-- `_address_from_rec` -/
  addressOf : NetRec → String
  /-- `_identity_keys` -/
  identityKeys : List NetRec → List String
  cooldown : GroupKey → Option CooldownItem
  /-- `_fetch_last_ok` -/
  lastOk : String → Option Nat
  /-- The cooldown clock in `_cooldown_snapshot`, and in `_sweep` after it. -/
  snapshotAt : Nat
  coolNow : Nat

/-! ### Before the first line -/

/-- `_cooldown_snapshot` -/
def cooldownSnapshot (env : Env) (key : GroupKey) : Option CooldownItem :=
  (env.cooldown key).filter fun item =>
    env.snapshotAt - item.since < cooldownWindow &&
      !item.keys.any fun ident => (env.lastOk ident).any fun age => age < env.snapshotAt - item.since

/-- `_cooled` -/
def cooled (rec : NetRec) (item : CooldownItem) (now : Nat) : Entry :=
  let ago := now - item.since
  entry rec.name rec.role .null
    (some ("not probed: " ++ item.reason ++ " (" ++ seconds ago ++ "s ago); next probe in " ++
      seconds (cooldownWindow - ago) ++ "s")) (some codeCooldown) none

/-- `_absent` -/
def absent (env : Env) (rec : NetRec) : Entry :=
  entry rec.name rec.role .null
    (some ("not connected: " ++ textOr rec.instrument "instrument" ++ " (" ++ env.addressOf rec ++
      ") is not on the USB bus")) (some codeAbsent) none

def hasProbe (rec : NetRec) : Bool :=
  briefProbes.contains rec.role || batchProbes.contains rec.role || labjackBatched rec

/-- No net of the group is on the bus; the roles that are exempt are told by the first net. -/
def allAbsent (env : Env) (recs : List NetRec) : Bool :=
  match env.recAbsent, recs with
  | some isAbsent, first :: _ => !presenceExemptRoles.contains first.role && recs.all isAbsent
  | _, _ => false

/-- The entries of a group whose instrument is not asked. -/
def atOnce (env : Env) (key : GroupKey) (recs : List NetRec) : Option (List Entry) :=
  if recs.all fun rec => !hasProbe rec then
    some (recs.map fun rec => entry rec.name rec.role .null (some reasonNoProbe) none none)
  else if allAbsent env recs then some (recs.map (absent env))
  else (cooldownSnapshot env key).map fun item => recs.map fun rec => cooled rec item env.coolNow

structure Group where
  key : GroupKey
  recs : List NetRec
  deriving DecidableEq

/-- `_group_budget` -/
def groupBudget : List NetRec → Nat
  | [] => groupBudgetBase
  | first :: rest =>
    if usbHubRoles.contains first.role then stateTimeout
    else if labjackBatched first then groupBudgetBase
    else groupBudgetBase + groupBudgetPerNet * rest.length

def Group.budget (g : Group) : Nat := groupBudget g.recs

/-- The groups that are answered at once, with their entries. -/
def answeredAtOnce (env : Env) (nets : List NetRec) : List (List NetRec × List Entry) :=
  (grouped groupKey nets).filterMap fun (key, recs) => (atOnce env key recs).map fun entries => (recs, entries)

/-- The list `immediate` of `_sweep`. -/
def immediate (env : Env) (nets : List NetRec) : List Entry := (answeredAtOnce env nets).flatMap (·.2)

/-- The groups that are submitted to the pool. -/
def groups (env : Env) (nets : List NetRec) : List Group :=
  (grouped groupKey nets).filterMap fun (key, recs) =>
    if (atOnce env key recs).isNone then some ⟨key, recs⟩ else none

/-! ### Workers -/

/-- Where the worker of a group stands. -/
inductive Future where
  | queued
  /-- Before the next net, or before the batch call. -/
  | ready
  /-- A net is being probed. -/
  | asked
  /-- `_probe_group_entries` has returned. -/
  | returned (out : List Entry)
  /-- The sink holds the answers, the future is not done yet. -/
  | published (out : List Entry)
  | done (result : Except PyErr (List Entry))

structure Work where
  sink : List Entry
  started : Option Nat
  future : Future

def Work.idle : Work := ⟨[], none, .queued⟩

def Work.isQueued (w : Work) : Bool := w.started.isNone

def Work.isRunning (w : Work) : Bool :=
  match w.started, w.future with
  | none, _ => false
  | _, .done _ => false
  | _, _ => true

inductive WorkerAct where
  | start
  /-- The loop of path 3 goes to its next net. -/
  | ask
  | answer (outcome : Outcome)
  | labjack (outcome : Batch Json)
  | batch (outcome : Batch Brief)
  | publish
  | finish

def WorkerAct.isStart : WorkerAct → Bool
  | .start => true
  | _ => false

/-- The future after `_probe_group_entries` has ended. -/
def Future.after : Except PyErr (List Entry) → Future
  | .ok out => .returned out
  | .error e => .done (.error e)

/-- One step of `_run_group` and `_probe_group`. -/
def workStep (requestDeadline clock : Nat) (g : Group) (w : Work) : WorkerAct → Option Work
  | .start =>
    match w.future with
    | .queued => some { w with started := some clock, future := .ready }
    | _ => none
  | .ask =>
    match w.future, path g.recs with
    | .ready, .perNet =>
      match g.recs[w.sink.length]? with
      | none => some { w with future := .returned w.sink }
      | some rec =>
        if min requestDeadline (w.started.getD 0 + g.budget) ≤ clock then
          some { w with sink := w.sink ++ [timedOut rec none] }
        else some { w with future := .asked }
    | _, _ => none
  | .answer outcome =>
    match w.future, g.recs[w.sink.length]? with
    | .asked, some rec => some { w with sink := w.sink ++ [probeNetState rec outcome], future := .ready }
    | _, _ => none
  | .labjack outcome =>
    match w.future, path g.recs with
    | .ready, .labjack => some { w with future := .after (labjackEntries g.recs outcome) }
    | _, _ => none
  | .batch outcome =>
    match w.future, path g.recs with
    | .ready, .batch role => some { w with future := .after (batchEntries role g.recs outcome) }
    | _, _ => none
  | .publish =>
    match w.future with
    | .returned out => some { w with sink := w.sink ++ out.drop w.sink.length, future := .published out }
    | _ => none
  | .finish =>
    match w.future with
    | .published out => some { w with future := .done (.ok out) }
    | _ => none

/-! ### The main thread -/

inductive Line where
  | states (entries : List Entry)
  | done (entries : List Entry) (elapsedMs : Nat)
  deriving DecidableEq

def Line.entries : Line → List Entry
  | .states entries => entries
  | .done entries _ => entries

/-- Where the generator stands. -/
inductive Pc where
  | start
  | top
  /-- In `wait`, at most until `wake`. -/
  | waiting (wake : Nat)
  /-- In the loop over the futures that `wait` gave back. -/
  | collecting (done : List Group)
  /-- In the loop over `list(pending)`. -/
  | expiring (now : Nat) (rest : List Group)
  /-- The deadline has passed: in the loop over `pending`. -/
  | cutting (rest : List Group) (answered cutOff : List Entry)
  | closing (cutOff : List Entry)
  | finished
  /-- The client went away and the generator was closed. -/
  | closed
  deriving DecidableEq

structure State where
  clock : Nat
  work : GroupKey → Work
  pending : List Group
  pc : Pc
  lines : List Line
  cooldown : GroupKey → Option CooldownItem

inductive Event where
  | tick (ms : Nat)
  | worker (g : Group) (act : WorkerAct)
  /-- A step of the main thread; `order` is the order in which a set of futures is gone through. -/
  | main (order : List Group)
  | hangup

/-- `_settle_cooldown` -/
def settleCooldown (env : Env) (s : State) (g : Group) (entries : List Entry) : GroupKey → Option CooldownItem :=
  let failed := entries.filter fun e => e.reasonCode = some codeTimeout ∨ e.reasonCode = some codeBusy
  let probed := entries.filter fun e => e.reason ≠ some reasonNoProbe
  if (g.recs.head?.map fun first => usbHubRoles.contains first.role) = some true then s.cooldown
  else if entries.any fun e => e.state ≠ .null then Function.update s.cooldown g.key none
  else match failed.head? with
    | none => s.cooldown
    | some first =>
      if failed.length = probed.length then
        Function.update s.cooldown g.key (some ⟨s.clock, first.reason.getD "", env.identityKeys g.recs⟩)
      else s.cooldown

/-- `_cut_short`: the nets whose name stands in the sink, and the others. -/
def cutShort (recs : List NetRec) (sink : List Entry) (reasonForRest : NetRec → Entry) : List Entry × List Entry :=
  let done := byKey Entry.name sink
  (recs.filterMap fun rec => done rec.name, (recs.filter fun rec => (done rec.name).isNone).map reasonForRest)

/-- The answers of a group that is done; a probe that raised gives every net the same reason. -/
def collected (g : Group) (w : Work) : Option (List Entry) :=
  match w.future with
  | .done (.ok entries) => some entries
  | .done (.error _) => some (g.recs.map fun rec => unknown rec (unreadable "probe group failed"))
  | _ => none

section

variable (env : Env) (nets : List NetRec)

def requestDeadline : Nat := env.started + stateTimeout

/-- A running group wakes the main thread at the end of its budget. -/
def wakeFor (s : State) (wake : Nat) (g : Group) : Nat :=
  match (s.work g.key).started with
  | none => wake
  | some t => min wake (t + g.budget)

/-- When the main thread looks again if no group is done before. -/
def wakeTime (s : State) : Nat :=
  let wake := s.pending.foldl (wakeFor s) (requestDeadline env)
  if s.pending.any fun g => (s.work g.key).isQueued then min wake (s.clock + 250) else wake

/-- The budget of the group is over, and it was not just the rest of the request's own time. -/
def expired (now : Nat) (g : Group) (w : Work) : Bool :=
  match w.started with
  | none => false
  | some t => decide (t + g.budget ≤ now ∧ t + g.budget < requestDeadline env)

/-- `cut_off.sort`: saved order, by the last net of a name. -/
def savedOrder (entries : List Entry) : List Entry :=
  let order name := ((byKey (fun p => p.1.name) nets.zipIdx name).map (·.2)).getD 0
  entries.insertionSort fun a b => order a.name ≤ order b.name

def nonemptyLine (entries : List Entry) : List Line := if entries = [] then [] else [.states entries]

/-- One step of the generator. -/
def mainStep (s : State) (order : List Group) : Option State :=
  match s.pc with
  | .start => some { s with lines := s.lines ++ nonemptyLine (immediate env nets), pc := .top }
  | .top =>
    if s.pending = [] then some { s with pc := .closing [] }
    else if requestDeadline env ≤ s.clock then
      if order.Perm s.pending then some { s with pc := .cutting order [] [] } else none
    else some { s with pc := .waiting (wakeTime env s) }
  | .waiting wake =>
    if order.Nodup ∧ (∀ g ∈ order, g ∈ s.pending ∧ (collected g (s.work g.key)).isSome) ∧
        (order ≠ [] ∨ wake ≤ s.clock) then
      some { s with pc := .collecting order }
    else none
  | .collecting (g :: rest) =>
    (collected g (s.work g.key)).map fun entries =>
      { s with pending := s.pending.erase g, pc := .collecting rest, lines := s.lines ++ [.states entries],
               cooldown := settleCooldown env s g entries }
  | .collecting [] => if order.Perm s.pending then some { s with pc := .expiring s.clock order } else none
  | .expiring now (g :: rest) =>
    if expired env now g (s.work g.key) then
      let cut := cutShort g.recs (s.work g.key).sink fun rec => timedOut rec (some g.budget)
      some { s with pending := s.pending.erase g, pc := .expiring now rest,
                    lines := s.lines ++ [.states (cut.1 ++ cut.2)],
                    cooldown := settleCooldown env s g (cut.1 ++ cut.2) }
    else some { s with pc := .expiring now rest }
  | .expiring _ [] => some { s with pc := .top }
  | .cutting (g :: rest) answered cutOff =>
    let cut := cutShort g.recs (s.work g.key).sink fun rec => unknown rec reasonDeadline
    some { s with pc := .cutting rest (answered ++ cut.1) (cutOff ++ cut.2),
                  cooldown := settleCooldown env s g (cut.1 ++ cut.2) }
  | .cutting [] answered cutOff =>
    some { s with lines := s.lines ++ nonemptyLine answered, pc := .closing cutOff }
  | .closing cutOff =>
    some { s with lines := s.lines ++ [.done (savedOrder nets cutOff) (s.clock - env.started)], pc := .finished }
  | .finished => none
  | .closed => none

/-- The pool still hands out work: it is shut down before the last line, without waiting for what runs. -/
def Pc.poolOpen : Pc → Bool
  | .closing _ => false
  | .finished => false
  | .closed => false
  | _ => true

/-- The pool starts its groups in turn, at most eight at a time. -/
def canStart (s : State) (g : Group) : Bool :=
  let gs := groups env nets
  s.pc.poolOpen && decide (gs.find? (fun g => (s.work g.key).isQueued) = some g) &&
    decide ((gs.filter fun g => (s.work g.key).isRunning).length < min gs.length 8)

/-- One step of the system. -/
def step (s : State) : Event → Option State
  | .tick ms => some { s with clock := s.clock + ms }
  | .worker g act =>
    if g ∈ groups env nets ∧ (act.isStart = true → canStart env nets s g = true) then
      (workStep (requestDeadline env) s.clock g (s.work g.key) act).map fun w =>
        { s with work := Function.update s.work g.key w }
    else none
  | .main order => mainStep env nets s order
  | .hangup =>
    match s.pc with
    | .finished => none
    | _ => some { s with pc := .closed }

/-- The sweep with all groups submitted, before its first line. -/
def init : State where
  clock := env.started
  work _ := .idle
  pending := groups env nets
  pc := .start
  lines := []
  cooldown := env.cooldown

end

/-- The array form of `nets_state`: the lines joined by name, one entry per saved net. -/
def stateArray (nets : List NetRec) (lines : List Line) : List Entry :=
  let byName := byKey Entry.name (lines.flatMap Line.entries)
  nets.map fun rec => (byName rec.name).getD (unknown rec reasonDeadline)

end Lager.Nets.Sweep
