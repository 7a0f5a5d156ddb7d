import Lager.Lib.Broadcast
import Lager.Lib.Run
import Mathlib.Algebra.Group.Nat.Defs

/-!
# One client's connection

`serve_connection` of `daemon/src/server.rs`, as a step function: an event is the arm of `select!` that fires, and
what it finds there. The queue of commands is worked off between two events, as at the top of the loop.

A text message is given by what `serde_json` makes of it, and the state of the scope by the number of its version.
The log has what the connection reads and does beside what it sends, in their order.
-/

namespace Lager.Scope.Server

open Lager.Lib (Received recv)

def CAPTURE_BROADCAST_DEPTH : Nat := 16
def MAX_CREDITS : Nat := 64
def MAX_QUEUED_COMMANDS : Nat := 32
def MIN_FPS : Float := 0.1
def MAX_FPS : Float := 1000.0

/-- A capture with its number, as it goes out. -/
structure Published where
  seq : Nat
  encoded : List UInt8
  deriving DecidableEq

inductive Command where
  | subscribe (credits : Option Nat) (maxFps : Option Float) (state : Bool)
  | credit (count : Nat)
  | unsubscribe
  | getTriggeredData
  | getState
  /-- Every other command, which the hardware thread answers with one response. -/
  | control (request : String)

inductive Response where
  | error (message : String)
  | subscribed
  | unsubscribed
  | state (version : Nat)
  | triggeredDataFollows (seq : Nat)
  /-- The answer to a `control` command. -/
  | control (answer : String)
  deriving DecidableEq

/-- The connection answers the command itself. -/
def Command.isOwn : Command → Bool
  | subscribe .. | unsubscribe => true
  | _ => false

/-! ### Handlers -/

inductive ScopeReply where
  | capture (frame : Published)
  | state (version : Nat)
  | done (answer : String)
  | error (message : String)

def ScopeReply.intoError : ScopeReply → Response
  | error message => .error message
  | _ => .error "oscilloscope returned an unexpected reply"

structure Outcome where
  response : Response
  frame : Option Published

/-- `handlers::handle`; `none` is its `unreachable!`. -/
def handle : Command → ScopeReply → Option Outcome
  | .getTriggeredData, .capture frame => some ⟨.triggeredDataFollows frame.seq, some frame⟩
  | .getTriggeredData, reply => some ⟨reply.intoError, none⟩
  | .getState, .state version => some ⟨.state version, none⟩
  | .getState, reply => some ⟨reply.intoError, none⟩
  | .control _, .done answer => some ⟨.control answer, none⟩
  | .control _, reply => some ⟨reply.intoError, none⟩
  | _, _ => none

def timedOut : Response :=
  .error "the oscilloscope did not answer within 30 s; it may be wedged, and need reconnecting"

/-- `answer`: what the hardware thread replies, or `none` when the time is up. -/
def answer (command : Command) : Option ScopeReply → Option Outcome
  | some reply => handle command reply
  | none => some ⟨timedOut, none⟩

/-! ### Subscriptions -/

/-- The two looks at the clock that a frame takes to be sent. -/
structure Clock where
  now : Nat
  later : Nat

structure Subscription where
  /-- Where the receiver of captures stands. -/
  next : Nat
  credits : Option Nat
  pending : Option Published
  minInterval : Option Nat
  nextDue : Option Nat
  deriving DecidableEq

namespace Subscription

def clampFps (fps : Float) : Float :=
  if fps < MIN_FPS then MIN_FPS else if fps > MAX_FPS then MAX_FPS else fps

def new (fromSecsF64 : Float → Nat) (next : Nat) (credits : Option Nat) (maxFps : Option Float) : Subscription :=
  { next, credits, pending := none
    minInterval :=
      (maxFps.filter fun fps => fps.isFinite && decide (fps > 0)).map fun fps => fromSecsF64 (1.0 / clampFps fps)
    nextDue := none }

def hasCredit (sub : Subscription) : Bool := sub.credits.all fun credits => decide (0 < credits)

def pacedUntil (sub : Subscription) (now : Nat) : Option Nat :=
  sub.minInterval.bind fun _ => sub.nextDue.filter fun due => decide (now < due)

def dueAfter (previous : Option Nat) (interval now : Nat) : Nat :=
  match previous with
  | some due => if now ≤ due + interval then due + interval else now + interval
  | none => now + interval

/-- Subtraction on `u32`. -/
def wrappingSub (a b : Nat) : Nat := (a + 2 ^ 32 - b) % 2 ^ 32

/-- `saturating_add` on `u32`. -/
def saturatingAdd (a b : Nat) : Nat := min (a + b) (2 ^ 32 - 1)

/-- The subscription after its pending frame has gone out. -/
def spend (sub : Subscription) (later : Nat) : Subscription :=
  { sub with
    pending := none
    credits := sub.credits.map fun credits => wrappingSub credits 1
    nextDue := match sub.minInterval with
      | some interval => some (dueAfter sub.nextDue interval later)
      | none => sub.nextDue }

def takeSendable (sub : Subscription) (clock : Clock) : Option (Published × Subscription) :=
  if !sub.hasCredit || (sub.pacedUntil clock.now).isSome then none
  else sub.pending.map fun frame => (frame, sub.spend clock.later)

/-- `Command::Credit`. -/
def refill (sub : Subscription) (count : Nat) : Subscription :=
  { sub with credits := sub.credits.map fun credits => min (saturatingAdd credits count) MAX_CREDITS }

end Subscription

/-! ### The connection -/

inductive Queued where
  | command (command : Command)
  | unparsable (message : String)

inductive Message where
  | text (parsed : Except String Command)
  | binary
  | ping
  | pong
  | close

/-- What happens on the connection. The last six are the ones that are sent. -/
inductive Entry where
  /-- A message that is to be answered was read. -/
  | asks (id : Nat) (message : Queued)
  | credit (count : Nat)
  | subscribe (credits : Option Nat) (maxFps : Option Float)
  | unsubscribe
  | capture (frame : Published)
  | reply (id : Nat) (response : Response)
  | push (version : Nat)
  /-- The response that captures were missed. -/
  | notice (missed : Nat)
  | stream (frame : Published)
  | triggered (frame : Published)
  | pong

/-- The message as it waits in the queue, if it is to be answered. -/
def Message.wanted : Message → Option Queued
  | text (.ok (.credit _)) => none
  | text (.ok command) => some (.command command)
  | text (.error e) => some (.unparsable s!"could not parse command: {e}")
  | binary => some (.unparsable "binary frames are not accepted on the command plane")
  | ping | pong | close => none

/-- Neither to be answered nor credit. -/
def Message.isPlain : Message → Bool
  | text _ | binary => false
  | ping | pong | close => true

def Entry.isQuiet : Entry → Bool
  | push _ | pong => true
  | _ => false

structure Connection where
  /-- The captures that the hardware thread has published, and its count of them. -/
  captures : List Published
  sequence : Nat
  version : Nat
  subscription : Option Subscription
  /-- The version of the state that was pushed last. -/
  states : Option Nat
  queued : List (Nat × Queued)
  answering : Option (Nat × Command)
  /-- How many messages that are to be answered were read. -/
  asked : Nat
  closed : Bool
  log : List Entry

namespace Connection

def start (captures : List Published) (sequence version : Nat) : Connection :=
  { captures, sequence, version, subscription := none, states := none, queued := [], answering := none, asked := 0,
    closed := false, log := [] }

def note (s : Connection) (entries : List Entry) : Connection := { s with log := s.log ++ entries }

variable (fromSecsF64 : Float → Nat)

/-- Where the receiver of a new subscription stands: where that of the last one does, or at the end. -/
def receiver (s : Connection) : Nat :=
  match s.subscription with
  | some existing => existing.next
  | none => s.captures.length

def subscribe (s : Connection) (id : Nat) (credits : Option Nat) (maxFps : Option Float) (state : Bool) :
    Connection :=
  { s with
    subscription := some (.new fromSecsF64 s.receiver (credits.map fun c => min c MAX_CREDITS) maxFps)
    states := if state then some s.version else none
    log := s.log ++ [.subscribe credits maxFps, .reply id .subscribed] ++ if state then [.push s.version] else [] }

def unsubscribe (s : Connection) (id : Nat) : Connection :=
  { s with subscription := none, states := none, log := s.log ++ [.unsubscribe, .reply id .unsubscribed] }

/-- The queue, up to the first command that takes its time. -/
def serve (s : Connection) : List (Nat × Queued) → Connection
  | [] => { s with queued := [] }
  | (id, .unparsable message) :: rest => serve ({ s with queued := rest }.note [.reply id (.error message)]) rest
  | (id, .command (.subscribe credits maxFps state)) :: rest =>
    serve ({ s with queued := rest }.subscribe fromSecsF64 id credits maxFps state) rest
  | (id, .command .unsubscribe) :: rest => serve ({ s with queued := rest }.unsubscribe id) rest
  | (id, .command command) :: rest => { s with answering := some (id, command), queued := rest }

/-- The top of the loop. -/
def settle (s : Connection) : Connection :=
  if s.closed || s.answering.isSome then s else s.serve fromSecsF64 s.queued

/-- The subscription with its pending frame sent, if it can go. -/
def forward (s : Connection) (sub : Subscription) (clock : Clock) : Connection :=
  match sub.takeSendable clock with
  | some (frame, rest) => { s with subscription := some rest, log := s.log ++ [.stream frame] }
  | none => { s with subscription := some sub }

def enqueue (s : Connection) (message : Queued) : Connection :=
  { s with
    queued := s.queued ++ [(s.asked, message)]
    asked := s.asked + 1
    log := s.log ++ [.asks s.asked message] }

def creditRead (s : Connection) (count : Nat) (clock : Clock) : Connection :=
  match s.subscription with
  | some sub => (s.note [.credit count]).forward (sub.refill count) clock
  | none => s.note [.credit count]

def incoming (s : Connection) (clock : Clock) : Message → Connection
  | .text (.ok (.credit count)) => s.creditRead count clock
  | .text (.ok command) => s.enqueue (.command command)
  | .text (.error e) => s.enqueue (.unparsable s!"could not parse command: {e}")
  | .binary => s.enqueue (.unparsable "binary frames are not accepted on the command plane")
  | .ping => s.note [.pong]
  | .pong => s
  | .close => { s with closed := true }

def answered (s : Connection) (id : Nat) (outcome : Outcome) : Connection :=
  { s with
    answering := none
    log := s.log ++ (.reply id outcome.response :: outcome.frame.toList.map .triggered) }

def received (s : Connection) (sub : Subscription) (clock : Clock) : Received Published → Connection
  | .value frame => (s.note [.capture frame]).forward { sub with pending := some frame } clock
  | .lagged missed =>
    { s with
      subscription := some sub
      log := s.log ++ if sub.credits.isNone then [.notice missed] else [] }

inductive Event where
  | incoming (message : Message) (clock : Clock)
  /-- The command is answered, or its time is up. -/
  | answered (reply : Option ScopeReply)
  | capture (clock : Clock)
  | capturesClosed
  /-- The frame rate cap that held a frame at the top of the loop lifts. -/
  | paced (top : Nat) (clock : Clock)
  | stateChanged
  | statesClosed
  /-- The socket has ended, or failed. -/
  | ends
  /-- The hardware thread publishes a capture; a panic may have left out numbers before it. -/
  | publishes (skipped : Nat) (encoded : List UInt8)
  | publishesState

/-- The events that only push, pong or end the connection. -/
def Event.isQuiet : Event → Bool
  | incoming message _ => message.isPlain
  | capturesClosed | stateChanged | statesClosed | ends | publishesState => true
  | _ => false

/-- The arms of `select!`, each where it can fire. -/
def arm (s : Connection) : Event → Option Connection
  | .incoming message clock => if s.queued.length < MAX_QUEUED_COMMANDS then some (s.incoming clock message) else none
  | .answered reply => s.answering.bind fun (id, command) => (answer command reply).map (s.answered id)
  | .capture clock =>
    s.subscription.bind fun sub =>
      (recv CAPTURE_BROADCAST_DEPTH s.captures sub.next).map fun (got, next) =>
        s.received { sub with next } clock got
  | .capturesClosed =>
    s.subscription.bind fun sub => if sub.next = s.captures.length then some { s with closed := true } else none
  | .paced top clock =>
    s.subscription.bind fun sub =>
      if sub.pending.isSome && sub.hasCredit && (sub.pacedUntil top).any fun due => decide (due ≤ clock.now) then
        some (s.forward sub clock)
      else none
  | .stateChanged =>
    s.states.bind fun seen =>
      if seen < s.version then some { s with states := some s.version, log := s.log ++ [.push s.version] } else none
  | .statesClosed => if s.states.isSome then some { s with states := none } else none
  | .ends => some { s with closed := true }
  | .publishes skipped encoded =>
    some { s with
      captures := s.captures ++ [⟨s.sequence + skipped + 1, encoded⟩]
      sequence := s.sequence + skipped + 1 }
  | .publishesState => some { s with version := s.version + 1 }

def step (s : Connection) (e : Event) : Option Connection :=
  if s.closed then none else (s.arm e).map (settle fromSecsF64)

/-! ### What a step can do -/

/-- What is taken from the queue at the top of the loop. -/
inductive Turn (s : Connection) : Connection → Prop
  | refuses {id : Nat} {message : String} {rest : List (Nat × Queued)} (hidle : s.answering = none)
      (hqueue : s.queued = (id, .unparsable message) :: rest) :
      Turn s ({ s with queued := rest }.note [.reply id (.error message)])
  | subscribes {id : Nat} {credits : Option Nat} {maxFps : Option Float} {state : Bool} {rest : List (Nat × Queued)}
      (hidle : s.answering = none) (hqueue : s.queued = (id, .command (.subscribe credits maxFps state)) :: rest) :
      Turn s ({ s with queued := rest }.subscribe fromSecsF64 id credits maxFps state)
  | unsubscribes {id : Nat} {rest : List (Nat × Queued)} (hidle : s.answering = none)
      (hqueue : s.queued = (id, .command .unsubscribe) :: rest) :
      Turn s ({ s with queued := rest }.unsubscribe id)
  | takes {id : Nat} {command : Command} {rest : List (Nat × Queued)} (hidle : s.answering = none)
      (hqueue : s.queued = (id, .command command) :: rest) (hown : command.isOwn = false) :
      Turn s { s with answering := some (id, command), queued := rest }

/-- What an event does before the queue is looked at. -/
inductive Fires (s : Connection) : Event → Connection → Prop
  | credits {sub : Subscription} {count : Nat} {clock : Clock} (hsub : s.subscription = some sub) :
      Fires s (.incoming (.text (.ok (.credit count))) clock)
        ((s.note [.credit count]).forward (sub.refill count) clock)
  | ignores {count : Nat} {clock : Clock} (hsub : s.subscription = none) :
      Fires s (.incoming (.text (.ok (.credit count))) clock) (s.note [.credit count])
  | enqueues {message : Message} {clock : Clock} {wanted : Queued} (hwanted : message.wanted = some wanted) :
      Fires s (.incoming message clock) (s.enqueue wanted)
  | answers {id : Nat} {command : Command} {reply : Option ScopeReply} {outcome : Outcome}
      (hbusy : s.answering = some (id, command)) (houtcome : answer command reply = some outcome) :
      Fires s (.answered reply) (s.answered id outcome)
  | receives {sub : Subscription} {frame : Published} {next : Nat} {clock : Clock} (hsub : s.subscription = some sub)
      (hrecv : recv CAPTURE_BROADCAST_DEPTH s.captures sub.next = some (.value frame, next)) :
      Fires s (.capture clock) ((s.note [.capture frame]).forward { sub with next, pending := some frame } clock)
  | lags {sub : Subscription} {missed next : Nat} {clock : Clock} (hsub : s.subscription = some sub)
      (hrecv : recv CAPTURE_BROADCAST_DEPTH s.captures sub.next = some (.lagged missed, next)) :
      Fires s (.capture clock)
        { s with
          subscription := some { sub with next }
          log := s.log ++ if sub.credits.isNone then [.notice missed] else [] }
  | paces {sub : Subscription} {top : Nat} {clock : Clock} (hsub : s.subscription = some sub) :
      Fires s (.paced top clock) (s.forward sub clock)
  | publishes {skipped : Nat} {encoded : List UInt8} :
      Fires s (.publishes skipped encoded)
        { s with
          captures := s.captures ++ [⟨s.sequence + skipped + 1, encoded⟩]
          sequence := s.sequence + skipped + 1 }
  /-- Pushes, pings and the end of the connection. -/
  | quiet {e : Event} {states : Option Nat} {version : Nat} {closed : Bool} {entries : List Entry}
      (hentries : ∀ entry ∈ entries, entry.isQuiet) (hevent : e.isQuiet) :
      Fires s e { s with states, version, closed, log := s.log ++ entries }

theorem fires_incoming (s : Connection) (clock : Clock) (message : Message) :
    Fires s (.incoming message clock) (s.incoming clock message) := by
  have hplain : ∀ (closed : Bool) (entries : List Entry), (∀ entry ∈ entries, entry.isQuiet) → message.isPlain →
      Fires s (.incoming message clock) { s with closed, log := s.log ++ entries } := by
    intro closed entries hentries hmessage
    exact .quiet hentries hmessage
  cases message with
  | text parsed =>
    cases parsed with
    | error e => exact .enqueues rfl
    | ok command =>
      cases command with
      | credit count =>
        unfold Connection.incoming creditRead
        cases hsub : s.subscription with
        | none => exact .ignores hsub
        | some sub => exact .credits hsub
      | _ => exact .enqueues rfl
  | binary => exact .enqueues rfl
  | ping => exact hplain s.closed [.pong] (by simp [Entry.isQuiet]) rfl
  | pong =>
    have h := hplain s.closed [] (by simp) rfl
    rwa [List.append_nil] at h
  | close =>
    have h := hplain true [] (by simp) rfl
    rwa [List.append_nil] at h

theorem Fires.quietly {s : Connection} {e : Event} (hevent : e.isQuiet) (states : Option Nat) (version : Nat)
    (closed : Bool) : Fires s e { s with states, version, closed } := by
  have h : Fires s e { s with states, version, closed, log := s.log ++ [] } := .quiet (by simp) hevent
  rwa [List.append_nil] at h

theorem fires_of_arm {s t : Connection} {e : Event} (h : s.arm e = some t) : Fires s e t := by
  cases e with
  | incoming message clock =>
    simp only [arm] at h
    split at h
    · cases h
      exact fires_incoming s clock message
    · cases h
  | answered reply =>
    obtain ⟨⟨id, command⟩, hbusy, h⟩ := Option.bind_eq_some_iff.mp h
    obtain ⟨outcome, houtcome, rfl⟩ := Option.map_eq_some_iff.mp h
    exact .answers hbusy houtcome
  | capture clock =>
    obtain ⟨sub, hsub, h⟩ := Option.bind_eq_some_iff.mp h
    obtain ⟨⟨got, next⟩, hrecv, rfl⟩ := Option.map_eq_some_iff.mp h
    cases got with
    | value frame => exact @Fires.receives s sub frame next clock hsub hrecv
    | lagged missed => exact @Fires.lags s sub missed next clock hsub hrecv
  | capturesClosed =>
    obtain ⟨sub, -, h⟩ := Option.bind_eq_some_iff.mp h
    split at h
    · cases h
      exact .quietly rfl _ _ _
    · cases h
  | paced top clock =>
    obtain ⟨sub, hsub, h⟩ := Option.bind_eq_some_iff.mp h
    split at h
    · cases h
      exact .paces hsub
    · cases h
  | stateChanged =>
    obtain ⟨seen, -, h⟩ := Option.bind_eq_some_iff.mp h
    split at h
    · cases h
      exact .quiet (by simp [Entry.isQuiet]) rfl
    · cases h
  | statesClosed =>
    simp only [arm] at h
    split at h
    · cases h
      exact .quietly rfl _ _ _
    · cases h
  | ends =>
    cases h
    exact .quietly rfl _ _ _
  | publishes skipped encoded =>
    cases h
    exact .publishes
  | publishesState =>
    cases h
    exact .quietly rfl _ _ _

/-- What every turn of the queue keeps holds after the top of the loop. -/
theorem serve_keeps {I : Connection → Prop} (hturn : ∀ s t, I s → Turn fromSecsF64 s t → I t)
    {s : Connection} {queue : List (Nat × Queued)} (hqueue : s.queued = queue) (hidle : s.answering = none) (h : I s) :
    I (s.serve fromSecsF64 queue) := by
  induction queue generalizing s with
  | nil =>
    have hsame : s.serve fromSecsF64 [] = s := by
      show { s with queued := [] } = s
      rw [← hqueue]
    rwa [hsame]
  | cons entry rest ih =>
    obtain ⟨id, message⟩ := entry
    cases message with
    | unparsable message => exact ih rfl hidle (hturn _ _ h (.refuses hidle hqueue))
    | command command =>
      cases command with
      | subscribe credits maxFps state => exact ih rfl hidle (hturn _ _ h (.subscribes hidle hqueue))
      | unsubscribe => exact ih rfl hidle (hturn _ _ h (.unsubscribes hidle hqueue))
      | _ => exact hturn _ _ h (.takes hidle hqueue rfl)

theorem settle_keeps {I : Connection → Prop} (hturn : ∀ s t, I s → Turn fromSecsF64 s t → I t) {s : Connection}
    (h : I s) : I (s.settle fromSecsF64) := by
  unfold settle
  split
  · exact h
  · rename_i hidle
    simp only [Bool.or_eq_true, not_or, Bool.not_eq_true, Option.isSome_eq_false_iff,
      Option.isNone_iff_eq_none] at hidle
    exact serve_keeps fromSecsF64 hturn rfl hidle.2 h

/-- A step is an event, and then the top of the loop. -/
theorem step_eq_some {s t : Connection} {e : Event} (h : s.step fromSecsF64 e = some t) :
    ∃ u, Fires s e u ∧ t = u.settle fromSecsF64 := by
  unfold step at h
  split at h
  · cases h
  · obtain ⟨u, harm, rfl⟩ := Option.map_eq_some_iff.mp h
    exact ⟨u, fires_of_arm harm, rfl⟩

/-- **Step rule.** What the events and the turns of the queue keep is kept by every step. -/
theorem step_keeps {I : Connection → Prop} (ok : Connection → Event → Prop)
    (hfires : ∀ s e t, ok s e → I s → Fires s e t → I t) (hturn : ∀ s t, I s → Turn fromSecsF64 s t → I t)
    {s t : Connection} {e : Event} (hok : ok s e) (h : I s) (hstep : s.step fromSecsF64 e = some t) : I t := by
  obtain ⟨u, hu, rfl⟩ := step_eq_some fromSecsF64 hstep
  exact settle_keeps fromSecsF64 hturn (hfires s e u hok h hu)

/-- A frame goes out when there is one, with credit for it and its time come, and nothing else changes then. -/
theorem forward_cases (s : Connection) (sub : Subscription) (clock : Clock) :
    (∃ frame, sub.pending = some frame ∧ sub.hasCredit = true ∧ s.forward sub clock =
      { s with subscription := some (sub.spend clock.later), log := s.log ++ [.stream frame] }) ∨
    ((sub.pending = none ∨ sub.hasCredit = false ∨ (sub.pacedUntil clock.now).isSome) ∧
      s.forward sub clock = { s with subscription := some sub }) := by
  unfold forward Subscription.takeSendable
  by_cases hheld : (!sub.hasCredit || (sub.pacedUntil clock.now).isSome) = true
  · right
    rw [if_pos hheld]
    simp only [Bool.or_eq_true, Bool.not_eq_true'] at hheld
    exact ⟨.inr hheld, rfl⟩
  · rw [if_neg hheld]
    simp only [Bool.or_eq_true, Bool.not_eq_true', not_or, Bool.not_eq_false] at hheld
    cases hpending : sub.pending with
    | none => exact .inr ⟨.inl rfl, rfl⟩
    | some frame => exact .inl ⟨frame, rfl, hheld.1, rfl⟩

end Connection

end Lager.Scope.Server
