import Lager.Lib.Run
import Lager.Lock.Reservation
import Lager.Py.Text
import Mathlib.Data.List.SplitOn

/-!
# Sessions that take the box lock

The clients of the lock: `acquire_box_lock` of `cli/box_storage.py` with the release of the commands that wrap it,
the detached run of `lager python` with its hand-over, and `DetachedJobLock` on the box. Any number of them, and
reservations and forced releases besides, take turns at the lock file one request at a time; a request may be lost
on its way, and so may its answer.

The lock file names a lock by its holder string alone. `origin` says beside it whose request made the record that
is stored, and `removed` what the exits of sessions and the ends of jobs took away.
-/

namespace Lager.Lock

open Lager.Py

/-! ### Whose lock is it -/

/-- `(?=@|$)`. -/
def pidEnds : List Char → Bool
  | [] => true
  | ['\n'] => true
  | c :: _ => c = '@'

/-- `_LOCK_PID_RE.sub('', …)`, with the length of the text as fuel. -/
def dropPids : Nat → List Char → List Char
  | _, [] => []
  | 0, text => text
  | fuel + 1, c :: text =>
    let digits := text.takeWhile fun d => (digitOf d).isSome
    let rest := text.dropWhile fun d => (digitOf d).isSome
    if c = ':' ∧ digits ≠ [] ∧ pidEnds rest then dropPids fuel rest else c :: dropPids fuel text

def lockScope (identity : String) : List Char := dropPids identity.toList.length identity.toList

def holderEmail (stored : String) : Option (List Char) :=
  if "ci:".toList.isPrefixOf stored.toList then none
  else match stored.toList.splitOn ':' with
    | [origin, id, name, email] =>
      if origin ≠ [] ∧ id ≠ [] ∧ name ≠ [] ∧ '@' ∉ name ∧ '@' ∈ email then some email else none
    | _ => none

/-- `holder_is_ours`. -/
def holderIsOurs (casefold : List Char → List Char) (stored holder user : String) : Bool :=
  if stored = "" then false
  else if holder ≠ "" ∧ stored = holder then true
  else if holder ≠ "" ∧ lockScope stored = lockScope holder then true
  else if user ≠ "" ∧ stored = user then true
  else match holderEmail stored with
    | some email => user ≠ "" && decide ('@' ∈ user.toList) && casefold email == casefold user.toList
    | none => false

/-! ### Parties -/

/-- A command that takes the lock for itself. -/
structure Party where
  holder : String
  /-- `get_lager_user()`. -/
  user : String
  ci : Bool
  /-- The TTL of the lock, `none` for one that does not expire. -/
  ttl : Option Int
  detach : Bool
  /-- `default_lock_ttl_seconds()` at the hand-over. -/
  rearmTtl : Option Int

namespace Party

def holderType (p : Party) : String := if p.ci then "ci" else "ephemeral"

/-- What the first request asks for: a detached run asks for a lock that does not expire. -/
def askedTtl (p : Party) : Option Int := if p.detach then none else p.ttl

end Party

/-- Where the command is. -/
inductive Cli where
  | start
  /-- The lock was not ours before, and is asked for. -/
  | posting
  /-- `acquired`. -/
  | owns
  /-- `already_ours`, with the holder that its heartbeats name. -/
  | resumed (holder : Json)
  /-- The box has confirmed that it holds the lock for the job. -/
  | launched
  /-- The hand-over did not find the lock, and asks for it. -/
  | rearming
  | exited
  deriving DecidableEq

inductive Job where
  | none
  | running
  | ended
  deriving DecidableEq

/-- Whose request made a record. -/
inductive Maker where
  | session (i : Nat)
  | handover (i : Nat)
  | reservation
  deriving DecidableEq

def Maker.isOf (i : Nat) : Maker → Bool
  | session j => i = j
  | handover j => i = j
  | reservation => false

/-- What the exit of a session or the end of a job took away. -/
structure Removal where
  party : Nat
  origin : Option Maker
  lock : Dict
  deriving DecidableEq

structure World where
  file : LockFile
  origin : Option Maker
  cli : Nat → Cli
  job : Nat → Job
  removed : List Removal

namespace World

def start (file : LockFile) : World :=
  { file, origin := none, cli := fun _ => .start, job := fun _ => .none, removed := [] }

def setCli (w : World) (i : Nat) (cli : Cli) : World := { w with cli := Function.update w.cli i cli }

def setJob (w : World) (i : Nat) (job : Job) : World := { w with job := Function.update w.job i job }

/-! ### Requests -/

/-- An acquire that was answered without a `previous_user` has made a record. -/
def made : Answer → Bool
  | .ok ⟨200, .record lock⟩ => Dict.get lock "previous_user" = .null
  | _ => false

/-- `POST /lock`. -/
def post (w : World) (maker : Maker) (now : Time) (user : String) (holderType ttlSeconds : Field) : World × Answer :=
  let (file, answer) := acquire now (.str user) holderType ttlSeconds w.file
  ({ w with file, origin := if made answer then some maker else if file = .absent then none else w.origin }, answer)

/-- Every other request. -/
def ask (w : World) (c : TimedCall) : World × Answer :=
  let (file, answer) := exec w.file c
  ({ w with file, origin := if file = .absent then none else w.origin }, answer)

/-- The record that is stored. -/
def stored (w : World) : Dict :=
  match readLockRaw w.file with
  | .ok (some lock) => lock
  | _ => []

/-- `POST /unlock` at the exit of a session or the end of a job. -/
def free (w : World) (i : Nat) (now : Time) (holder : String) : World :=
  let (w', answer) := w.ask ⟨now, .release (.str holder) false⟩
  if answer = .ok ⟨200, .unlocked (some "Box unlocked")⟩ then
    { w' with removed := w.removed ++ [⟨i, w.origin, w.stored⟩] }
  else w'

variable (casefold : List Char → List Char)

/-- `holder_is_ours` of a stored holder; a holder that is neither text nor empty makes it raise. -/
def ours (p : Party) (stored : Json) : Option Bool :=
  if !stored.truthy then some false
  else match stored with
    | .str text => some (holderIsOurs casefold text p.holder p.user)
    | _ => none

/-- The holder for the heartbeats of a lock that was resumed. -/
def heartbeatHolder (p : Party) (lock : Dict) : Json :=
  if (Dict.get lock "user").truthy then Dict.get lock "user" else .str p.holder

/-- Where the answer to `GET /lock` leaves the command. -/
def onGet (p : Party) : Answer → Cli
  | .ok ⟨200, .record lock⟩ =>
    match ours casefold p (Dict.getD lock "user" (.str "")) with
    | some true => .resumed (heartbeatHolder p lock)
    | some false => .posting
    | none => .exited
  | _ => .posting

/-- Where the answer to `POST /lock` leaves the command; a lock of someone else is waited for. -/
def onPost (p : Party) : Answer → Cli
  | .ok ⟨200, .record lock⟩ =>
    if Dict.get lock "previous_user" = .null then .owns
    else match ours casefold p (Dict.get lock "previous_user") with
      | some true => .resumed (heartbeatHolder p lock)
      | some false => .owns
      | none => .exited
  | .ok ⟨409, .lockedBy _ lock⟩ =>
    match ours casefold p (Dict.getD lock "user" (.str "unknown")) with
    | some true => .resumed (heartbeatHolder p lock)
    | some false => .posting
    | none => .exited
  | _ => .exited

/-- The hand-over goes on to ask for the lock only where it would. -/
def onHandGet (p : Party) (answer : Answer) : Cli :=
  if onGet casefold p answer = .posting then .rearming else .exited

/-! ### Steps -/

inductive Event where
  /-- `GET /lock` of `acquire_box_lock`; `answered` is false when its answer is lost. -/
  | get (i : Nat) (now : Time) (answered : Bool)
  | noGet (i : Nat)
  | post (i : Nat) (now : Time) (answered : Bool)
  /-- The request does not arrive, or the command gives up waiting. -/
  | noPost (i : Nat)
  | beat (i : Nat) (now : Time)
  /-- The release at the exit; one that was not answered may be sent again. -/
  | exit (i : Nat) (now : Time) (answered : Bool)
  /-- The command ends without a release: it has resumed a lock, or its release does not arrive. -/
  | leave (i : Nat)
  | launch (i : Nat) (confirmed : Bool)
  | handGet (i : Nat) (now : Time) (answered : Bool)
  | noHandGet (i : Nat)
  | handPost (i : Nat) (now : Time)
  | noHandPost (i : Nat)
  | jobBeat (i : Nat) (now : Time)
  | jobEnd (i : Nat) (now : Time)
  /-- `POST /lock` with `holder_type: user`. -/
  | reserve (user : String) (ttlSeconds : Field) (now : Time)
  | force (user : Json) (now : Time)

variable (party : Nat → Party)

def sessionPost (w : World) (i : Nat) (now : Time) : World × Answer :=
  w.post (.session i) now (party i).holder (some (.str (party i).holderType)) (some (ttlJson (party i).askedTtl))

def handoverPost (w : World) (i : Nat) (now : Time) : World × Answer :=
  w.post (.handover i) now (party i).holder (some (.str (party i).holderType)) (some (ttlJson (party i).rearmTtl))

def reservationPost (w : World) (user : String) (ttlSeconds : Field) (now : Time) : World × Answer :=
  w.post .reservation now user (some (.str "user")) ttlSeconds

/-- Which heartbeats a command sends. -/
def beatHolder (w : World) (i : Nat) : Option Json :=
  match w.cli i with
  | .owns => some (.str (party i).holder)
  | .resumed holder => some holder
  | _ => none

def step (w : World) : Event → Option World
  | .get i now answered =>
    if w.cli i = .start then
      let (w', answer) := w.ask ⟨now, .status⟩
      some (w'.setCli i (if answered then onGet casefold (party i) answer else .posting))
    else none
  | .noGet i => if w.cli i = .start then some (w.setCli i .posting) else none
  | .post i now answered =>
    if w.cli i = .posting then
      let (w', answer) := w.sessionPost party i now
      some (w'.setCli i (if answered then onPost casefold (party i) answer else .exited))
    else none
  | .noPost i => if w.cli i = .posting then some (w.setCli i .exited) else none
  | .beat i now => (w.beatHolder party i).map fun holder => (w.ask ⟨now, .heartbeat holder⟩).1
  | .exit i now answered =>
    if w.cli i = .owns ∧ (party i).detach = false then
      let w' := w.free i now (party i).holder
      some (if answered then w'.setCli i .exited else w')
    else none
  | .leave i => if w.cli i ∉ [.launched, .rearming] then some (w.setCli i .exited) else none
  | .launch i confirmed =>
    if w.cli i = .owns ∧ (party i).detach = true then
      some ((w.setCli i (if confirmed then .launched else .exited)).setJob i .running)
    else none
  | .handGet i now answered =>
    if w.cli i = .launched then
      let (w', answer) := w.ask ⟨now, .status⟩
      some (w'.setCli i (if answered then onHandGet casefold (party i) answer else .rearming))
    else none
  | .noHandGet i => if w.cli i = .launched then some (w.setCli i .rearming) else none
  | .handPost i now =>
    if w.cli i = .rearming then some ((w.handoverPost party i now).1.setCli i .exited) else none
  | .noHandPost i => if w.cli i = .rearming then some (w.setCli i .exited) else none
  | .jobBeat i now =>
    if w.job i = .running then some (w.ask ⟨now, .heartbeat (.str (party i).holder)⟩).1 else none
  | .jobEnd i now =>
    if w.job i = .running then some ((w.free i now (party i).holder).setJob i .ended) else none
  | .reserve user ttlSeconds now => some (w.reservationPost user ttlSeconds now).1
  | .force user now => some (w.ask ⟨now, .release user true⟩).1

end World

end Lager.Lock
