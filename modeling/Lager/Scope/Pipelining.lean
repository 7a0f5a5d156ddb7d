import Lager.Scope.Credit

/-!
# Credit that is sent ahead of its turn

A client need not wait for the reply to one message before it sends the next. Commands wait in the queue and are
carried out in their order, but `Credit` acts when it is read. While a `Subscribe` or an `Unsubscribe` waits behind
a command that takes its time, credit that was sent after it is applied before it, and lost. When that does not
happen, the balance is the one that the messages give one after the other.
-/

namespace Lager.Scope.Server

/-- The credit of the subscription in force: `none` without one, `some none` when it has no credits. -/
def Connection.balance (s : Connection) : Option (Option Nat) := s.subscription.map (·.credits)

/-- The balance after a message that is handled alone. -/
def balanceAfter (balance : Option (Option Nat)) : Message → Option (Option Nat)
  | .text (.ok (.subscribe credits _ _)) => some (credits.map fun c => min c MAX_CREDITS)
  | .text (.ok .unsubscribe) => none
  | .text (.ok (.credit count)) =>
    balance.map fun credits => credits.map fun c => min (Subscription.saturatingAdd c count) MAX_CREDITS
  | _ => balance

/-- The messages of the client, in the order they were sent. -/
def messages (es : List Connection.Event) : List Message :=
  es.filterMap fun
    | .incoming message _ => some message
    | _ => none

/-- A subscription that is to be made or dropped. -/
def Queued.changes : Queued → Bool
  | .command own => own.isOwn
  | .unparsable _ => false

/-- Credit is read while a subscription is to be made or dropped. -/
def Connection.overtakes (s : Connection) : Connection.Event → Bool
  | .incoming (.text (.ok (.credit _))) _ => s.queued.any fun entry => entry.2.changes
  | _ => false

/-! ### The queue -/

/-- The balance after a message from the queue. -/
def afterQueued (balance : Option (Option Nat)) (entry : Nat × Queued) : Option (Option Nat) :=
  match entry.2 with
  | .command (.subscribe credits _ _) => some (credits.map fun c => min c MAX_CREDITS)
  | .command .unsubscribe => none
  | _ => balance

/-- The balance once the queue is worked off. -/
def Connection.settled (s : Connection) : Option (Option Nat) := s.queued.foldl afterQueued s.balance

theorem afterQueued_of_changes (entry : Nat × Queued) (h : entry.2.changes = false) (balance : Option (Option Nat)) :
    afterQueued balance entry = balance := by
  obtain ⟨id, message⟩ := entry
  cases message with
  | unparsable message => rfl
  | command command => cases command <;> first | rfl | cases h

theorem foldl_afterQueued {queue : List (Nat × Queued)} (h : queue.any (fun entry => entry.2.changes) = false)
    (balance : Option (Option Nat)) : queue.foldl afterQueued balance = balance := by
  induction queue with
  | nil => rfl
  | cons entry queue ih =>
    rw [List.any_cons, Bool.or_eq_false_iff] at h
    rw [List.foldl_cons, afterQueued_of_changes entry h.1]
    exact ih h.2

theorem afterQueued_wanted {message : Message} {wanted : Queued} (h : message.wanted = some wanted) (id : Nat)
    (balance : Option (Option Nat)) : afterQueued balance (id, wanted) = balanceAfter balance message := by
  unfold Message.wanted at h
  split at h <;> cases h
  · rename_i command hcredit
    cases command <;> first | rfl | exact absurd rfl (hcredit _)
  · rfl
  · rfl

theorem balanceAfter_plain {message : Message} (h : message.isPlain) (balance : Option (Option Nat)) :
    balanceAfter balance message = balance := by
  cases message <;> first | rfl | cases h

/-! ### Steps -/

/-- As long as no frame has gone out, what the queue will make of the balance is what the messages make of it. -/
def InOrder (es : List Connection.Event) (s : Connection) : Prop :=
  streamed s.log = [] → s.settled = (messages es).foldl balanceAfter none

theorem messages_append (es : List Connection.Event) (message : Message) (clock : Clock) :
    messages (es ++ [.incoming message clock]) = messages es ++ [message] := List.filterMap_append

theorem foldl_messages (es : List Connection.Event) (message : Message) (clock : Clock) :
    (messages (es ++ [.incoming message clock])).foldl balanceAfter none =
      balanceAfter ((messages es).foldl balanceAfter none) message := by
  rw [messages_append, List.foldl_append]
  rfl

theorem messages_silent {e : Connection.Event} (h : messages [e] = []) (es : List Connection.Event) :
    (messages (es ++ [e])).foldl balanceAfter none = (messages es).foldl balanceAfter none := by
  have happend : messages (es ++ [e]) = messages es ++ messages [e] := List.filterMap_append
  rw [happend, h, List.append_nil]

theorem messages_quiet {e : Connection.Event} (h : e.isQuiet) (es : List Connection.Event) :
    (messages (es ++ [e])).foldl balanceAfter none = (messages es).foldl balanceAfter none := by
  cases e with
  | incoming message clock => rw [foldl_messages, balanceAfter_plain h]
  | _ => first | exact messages_silent rfl es | cases h

/-- An event that leaves the queue and the balance alone, as its message does. -/
theorem InOrder.other {es : List Connection.Event} {s t : Connection} (h : InOrder es s) {e : Connection.Event}
    (hmessage : (messages (es ++ [e])).foldl balanceAfter none = (messages es).foldl balanceAfter none)
    (hlog : streamed t.log = [] → streamed s.log = []) (hbalance : streamed t.log = [] → t.balance = s.balance)
    (hqueued : t.queued = s.queued) : InOrder (es ++ [e]) t := by
  intro hnone
  rw [hmessage, Connection.settled, hqueued, hbalance hnone]
  exact h (hlog hnone)

theorem streamed_left {log more : List Entry} (h : streamed (log ++ more) = []) : streamed log = [] := by
  rw [streamed_append] at h
  exact (List.append_eq_nil_iff.mp h).1

theorem forward_queued (s : Connection) (sub : Subscription) (clock : Clock) :
    (s.forward sub clock).queued = s.queued := by
  rcases s.forward_cases sub clock with ⟨frame, -, -, heq⟩ | ⟨-, heq⟩ <;> rw [heq]

/-- What is forwarded shows in the log, and otherwise the subscription is the one given. -/
theorem forward_balance {s : Connection} {sub : Subscription} {clock : Clock}
    (hnone : streamed (s.forward sub clock).log = []) :
    (s.forward sub clock).balance = some sub.credits ∧ streamed s.log = [] := by
  rcases s.forward_cases sub clock with ⟨frame, -, -, heq⟩ | ⟨-, heq⟩
  · rw [heq] at hnone
    have hsent : streamed (s.log ++ [Entry.stream frame]) = streamed s.log ++ [frame] := streamed_append _ _
    rw [hsent] at hnone
    simp at hnone
  · rw [heq] at hnone ⊢
    exact ⟨rfl, hnone⟩

theorem InOrder.credits {es : List Connection.Event} {s : Connection} (h : InOrder es s) {sub : Subscription}
    (hsub : s.subscription = some sub) {count : Nat} {clock : Clock}
    (hqueue : s.queued.any (fun entry => entry.2.changes) = false) :
    InOrder (es ++ [.incoming (.text (.ok (.credit count))) clock])
      ((s.note [.credit count]).forward (sub.refill count) clock) := by
  intro hnone
  obtain ⟨hbalance, hbefore⟩ := forward_balance hnone
  have hsettled := h (streamed_left hbefore)
  rw [Connection.settled, foldl_afterQueued hqueue] at hsettled
  rw [foldl_messages, ← hsettled, Connection.settled, hbalance, forward_queued]
  show s.queued.foldl afterQueued _ = _
  rw [foldl_afterQueued hqueue, Connection.balance, hsub]
  rfl

theorem InOrder.fires {es : List Connection.Event} {s t : Connection} {e : Connection.Event} (h : InOrder es s)
    (hok : s.overtakes e = false) (hfires : s.Fires e t) : InOrder (es ++ [e]) t := by
  cases hfires with
  | credits hsub => exact h.credits hsub hok
  | @ignores count clock hsub =>
    intro hnone
    have hsettled := h (streamed_left hnone)
    rw [Connection.settled, foldl_afterQueued hok, Connection.balance, hsub] at hsettled
    rw [foldl_messages, ← hsettled, Connection.settled]
    show s.queued.foldl afterQueued s.balance = _
    rw [foldl_afterQueued hok, Connection.balance, hsub]
    rfl
  | @enqueues message clock wanted hwanted =>
    intro hnone
    have hsettled := h (streamed_left hnone)
    rw [foldl_messages, ← hsettled, ← afterQueued_wanted hwanted s.asked, Connection.settled]
    show (s.queued ++ [(s.asked, wanted)]).foldl afterQueued s.balance = _
    rw [List.foldl_append]
    rfl
  | answers hbusy houtcome => exact h.other (messages_silent rfl es) streamed_left (fun _ => rfl) rfl
  | @receives sub frame next clock hsub hrecv =>
    refine h.other (messages_silent rfl es) (fun hnone => streamed_left (forward_balance hnone).2) (fun hnone => ?_)
      (forward_queued _ _ _)
    rw [(forward_balance hnone).1, Connection.balance, hsub]
    rfl
  | @lags sub missed next clock hsub hrecv =>
    refine h.other (messages_silent rfl es) streamed_left (fun _ => ?_) rfl
    simp [Connection.balance, hsub]
  | @paces sub top clock hsub =>
    refine h.other (messages_silent rfl es) (fun hnone => (forward_balance hnone).2) (fun hnone => ?_) (forward_queued _ _ _)
    rw [(forward_balance hnone).1, Connection.balance, hsub]
    rfl
  | publishes => exact h.other (messages_silent rfl es) id (fun _ => rfl) rfl
  | quiet hentries hevent => exact h.other (messages_quiet hevent es) streamed_left (fun _ => rfl) rfl

variable (fromSecsF64 : Float → Nat)

/-- The top of the loop does with the balance what it was going to do. -/
theorem InOrder.turn {es : List Connection.Event} {s t : Connection} (h : InOrder es s)
    (hturn : s.Turn fromSecsF64 t) : InOrder es t := by
  have hpop : ∀ (entry : Nat × Queued) (rest : List (Nat × Queued)), s.queued = entry :: rest →
      t.queued = rest → t.balance = afterQueued s.balance entry →
      (streamed t.log = [] → streamed s.log = []) → InOrder es t := by
    intro entry rest hqueue hrest hbalance hlog hnone
    rw [← h (hlog hnone), Connection.settled, Connection.settled, hqueue, hrest, hbalance, List.foldl_cons]
  cases hturn with
  | refuses hidle hqueue => exact hpop _ _ hqueue rfl rfl streamed_left
  | subscribes hidle hqueue =>
    exact hpop _ _ hqueue rfl rfl fun hnone => streamed_left (streamed_left hnone)
  | unsubscribes hidle hqueue => exact hpop _ _ hqueue rfl rfl streamed_left
  | @takes id command rest hidle hqueue hown =>
    exact hpop _ _ hqueue rfl (afterQueued_of_changes (id, .command command) hown _).symm fun hnone => hnone

/-- **No credit is lost by pipelining, unless it overtakes a subscription.** Once all messages that the client has
sent are handled and no frame has gone out, the credit of the connection is what the messages give one after the
other, in every run in which no credit is read while a `Subscribe` or an `Unsubscribe` waits for its turn. -/
theorem credit_in_order {captures : List Published} {sequence version : Nat} {es : List Connection.Event}
    {s : Connection} (hrun : Lib.run (Connection.step fromSecsF64) (.start captures sequence version) es = some s)
    (hok : Lib.Along (Connection.step fromSecsF64) (fun s e => s.overtakes e = false)
      (.start captures sequence version) es)
    (hhandled : s.queued = []) (hnone : streamed s.log = []) :
    s.balance = (messages es).foldl balanceAfter none := by
  have horder : InOrder es s := by
    refine Lib.run_history_along InOrder (fun es s e t hok h hstep => ?_) hok (fun _ => rfl) hrun
    obtain ⟨u, hfires, rfl⟩ := Connection.step_eq_some fromSecsF64 hstep
    exact Connection.settle_keeps fromSecsF64 (fun _ _ h hturn => h.turn fromSecsF64 hturn) (h.fires hok hfires)
  have hsettled := horder hnone
  rwa [Connection.settled, hhandled] at hsettled

/-- A command that takes its time, a subscription with one credit, and one credit more after its reply. -/
def inTurn : List Connection.Event :=
  let read (message : Command) : Connection.Event := .incoming (.text (.ok message)) ⟨0, 0⟩
  [read (.control "IsReady"), read (.subscribe (some 1) none false), .answered (some (.done "IsReady")),
    read (.credit 1)]

theorem inTurn_balance : ∃ s, Lib.run (Connection.step fun _ => 0) (.start [] 0 0) inTurn = some s ∧
    s.balance = some (some 2) ∧ s.balance = (messages inTurn).foldl balanceAfter none := by
  have hrun : (Lib.run (Connection.step fun _ => 0) (.start [] 0 0) inTurn).map
      (fun s => (s.balance, s.queued.length, streamed s.log)) = some (some (some 2), 0, []) := by
    decide +kernel
  obtain ⟨s, hs, hfinal⟩ := Option.map_eq_some_iff.mp hrun
  simp only [Prod.mk.injEq, List.length_eq_zero_iff] at hfinal
  exact ⟨s, hs, hfinal.1, credit_in_order (fun _ => 0) hs (by decide +kernel) hfinal.2.1 hfinal.2.2⟩

/-- The same messages, all sent at once. -/
def atOnce : List Connection.Event :=
  let read (message : Command) : Connection.Event := .incoming (.text (.ok message)) ⟨0, 0⟩
  [read (.control "IsReady"), read (.subscribe (some 1) none false), read (.credit 1),
    .answered (some (.done "IsReady"))]

/-- The credit finds no subscription, and the balance is one less than it should be. -/
theorem atOnce_loses_credit : ∃ s, Lib.run (Connection.step fun _ => 0) (.start [] 0 0) atOnce = some s ∧
    s.queued = [] ∧ s.answering.isNone ∧ streamed s.log = [] ∧ s.balance = some (some 1) ∧
    (messages atOnce).foldl balanceAfter none = some (some 2) := by
  have hrun : (Lib.run (Connection.step fun _ => 0) (.start [] 0 0) atOnce).map
      (fun s => (s.queued.length, s.answering.isNone, streamed s.log, s.balance)) =
        some (0, true, [], some (some 1)) := by
    decide +kernel
  obtain ⟨s, hs, hfinal⟩ := Option.map_eq_some_iff.mp hrun
  simp only [Prod.mk.injEq, List.length_eq_zero_iff] at hfinal
  exact ⟨s, hs, hfinal.1, hfinal.2.1, hfinal.2.2.1, hfinal.2.2.2, by decide⟩

end Lager.Scope.Server
