import Lager.Scope.Connection

/-!
# Credit and the frames of the stream

What a connection is sent of the stream is accounted for from its log: the terms of the subscription in force, the
credit returned since it was made, the captures received on it and the frames sent. A frame leaves from three
places (a capture, a credit, the timer of the frame rate cap), and all three end in `forward`, which is where credit
is spent; `Backed` is what holds before and after it.
-/

namespace Lager.Scope.Server

open Lager.Lib (recv)

/-- What the log says of the subscription in force. -/
structure Account where
  terms : Option (Option Nat × Option Float)
  credited : Nat
  received : List Published
  sent : List Published

def Account.add (account : Account) : Entry → Account
  | .subscribe credits maxFps => ⟨some (credits, maxFps), 0, [], []⟩
  | .unsubscribe => ⟨none, 0, [], []⟩
  | .credit count => { account with credited := account.credited + count }
  | .capture frame => { account with received := account.received ++ [frame] }
  | .stream frame => { account with sent := account.sent ++ [frame] }
  | _ => account

def account (log : List Entry) : Account := log.foldl Account.add ⟨none, 0, [], []⟩

/-- The frames of the stream, over all subscriptions. -/
def streamed (log : List Entry) : List Published :=
  log.filterMap fun
    | .stream frame => some frame
    | _ => none

/-- Every frame of the stream is the newest capture received on its subscription when it goes out. -/
def Newest (log : List Entry) : Prop :=
  ∀ (i : Nat) (frame : Published), log[i]? = some (.stream frame) →
    (account (log.take i)).received.getLast? = some frame

/-- The flow control that `Subscribe` and `Credit` promise. -/
structure FlowControl (s : Connection) : Prop where
  /-- Subtraction wraps, so a counter that was spent below zero would stand at the end of `u32`. -/
  noUnderflow : ∀ sub left, s.subscription = some sub → sub.credits = some left → left ≤ MAX_CREDITS
  paid : ∀ credits maxFps, (account s.log).terms = some (some credits, maxFps) →
    (account s.log).sent.length ≤ min credits MAX_CREDITS + (account s.log).credited
  newest : Newest s.log
  increasing : (streamed s.log).Pairwise fun earlier later => earlier.seq < later.seq
  all : (account s.log).terms = some (none, none) → (account s.log).sent = (account s.log).received

/-! ### The log -/

@[simp] theorem account_nil : account [] = ⟨none, 0, [], []⟩ := rfl

@[simp] theorem account_append (log more : List Entry) : account (log ++ more) = more.foldl Account.add (account log) :=
  List.foldl_append

@[simp] theorem streamed_append (log more : List Entry) : streamed (log ++ more) = streamed log ++ streamed more :=
  List.filterMap_append

/-- Entries that the account does not look at. -/
def Entry.isOther : Entry → Bool
  | asks .. | reply .. | push _ | notice _ | triggered _ | pong => true
  | _ => false

theorem foldl_add_other {more : List Entry} (h : ∀ entry ∈ more, entry.isOther) (a : Account) :
    more.foldl Account.add a = a := by
  induction more with
  | nil => rfl
  | cons entry more ih =>
    have hadd : a.add entry = a := by
      have hother := h entry List.mem_cons_self
      cases entry <;> first | rfl | cases hother
    rw [List.foldl_cons, hadd]
    exact ih fun other hmem => h other (List.mem_cons_of_mem _ hmem)

theorem streamed_eq_nil {more : List Entry} (h : ∀ frame, Entry.stream frame ∉ more) : streamed more = [] := by
  refine List.filterMap_eq_nil_iff.mpr fun entry hmem => ?_
  cases entry with
  | stream frame => exact absurd hmem (h frame)
  | _ => rfl

theorem not_stream_of_other {more : List Entry} (h : ∀ entry ∈ more, entry.isOther) (frame : Published) :
    Entry.stream frame ∉ more :=
  fun hmem => Bool.noConfusion (h _ hmem)

theorem newest_append {log more : List Entry} (h : Newest log) (hmore : ∀ frame, Entry.stream frame ∉ more) :
    Newest (log ++ more) := by
  intro i frame hget
  by_cases hi : i < log.length
  · rw [List.getElem?_append_left hi] at hget
    rw [List.take_append_of_le_length (Nat.le_of_lt hi)]
    exact h i frame hget
  · rw [List.getElem?_append_right (Nat.le_of_not_lt hi)] at hget
    exact absurd (List.mem_of_getElem? hget) (hmore frame)

theorem newest_stream {log : List Entry} (h : Newest log) {frame : Published}
    (hframe : (account log).received.getLast? = some frame) : Newest (log ++ [.stream frame]) := by
  intro i other hget
  by_cases hi : i < log.length
  · rw [List.getElem?_append_left hi] at hget
    rw [List.take_append_of_le_length (Nat.le_of_lt hi)]
    exact h i other hget
  · have hge : log.length ≤ i := Nat.le_of_not_lt hi
    rw [List.getElem?_append_right hge] at hget
    have hlt := (List.getElem?_eq_some_iff.mp hget).1
    have heq : i = log.length := by
      simp only [List.length_singleton] at hlt
      omega
    subst heq
    rw [Nat.sub_self] at hget
    cases hget
    rw [List.take_append_of_le_length (Nat.le_refl _), List.take_length]
    exact hframe

/-! ### The account of a subscription -/

/-- What the subscription holds is what its account says. -/
structure Backed (sub : Subscription) (a : Account) : Prop where
  terms : ∃ credits maxFps, a.terms = some (credits, maxFps) ∧ credits.isSome = sub.credits.isSome ∧
    (maxFps = none → sub.minInterval = none)
  left : ∀ credits maxFps left, a.terms = some (some credits, maxFps) → sub.credits = some left →
    left ≤ MAX_CREDITS ∧ left + a.sent.length ≤ min credits MAX_CREDITS + a.credited
  pending : ∀ frame, sub.pending = some frame → a.received.getLast? = some frame
  owed : sub.credits = none → sub.minInterval = none → a.sent ++ sub.pending.toList = a.received

/-- Without credits and a frame rate cap, nothing is held back. -/
def Subscription.Prompt (sub : Subscription) : Prop :=
  sub.credits = none → sub.minInterval = none → sub.pending = none

structure Accounted (s : Connection) : Prop where
  unsubscribed : s.subscription = none → (account s.log).terms = none
  backed : ∀ sub, s.subscription = some sub → Backed sub (account s.log) ∧ sub.Prompt
  newest : Newest s.log

theorem wrappingSub_one {left : Nat} (hpos : 0 < left) (hle : left ≤ MAX_CREDITS) :
    Subscription.wrappingSub left 1 = left - 1 := by
  unfold MAX_CREDITS at hle
  unfold Subscription.wrappingSub
  omega

/-- A frame that goes out spends one credit, and it is the one that was owed. -/
theorem Backed.spend {sub : Subscription} {a : Account} (h : Backed sub a) {frame : Published}
    (hpending : sub.pending = some frame) (hcredit : sub.hasCredit = true) (later : Nat) :
    Backed (sub.spend later) (a.add (.stream frame)) := by
  obtain ⟨credits, maxFps, hterms, hsome, hfps⟩ := h.terms
  refine ⟨⟨credits, maxFps, hterms, ?_, hfps⟩, ?_, ?_, ?_⟩
  · simp [Subscription.spend, hsome]
  · intro given fps left hgiven hleft
    obtain ⟨before, hbefore, rfl⟩ := Option.map_eq_some_iff.mp hleft
    obtain ⟨hmax, hpaid⟩ := h.left given fps before hgiven hbefore
    have hpos : 0 < before := by simpa [Subscription.hasCredit, hbefore] using hcredit
    rw [wrappingSub_one hpos hmax]
    refine ⟨by omega, ?_⟩
    show before - 1 + (a.sent ++ [frame]).length ≤ min given MAX_CREDITS + a.credited
    rw [List.length_append, List.length_singleton]
    omega
  · rintro other ⟨⟩
  · intro hnone hinterval
    have howed := h.owed (Option.map_eq_none_iff.mp hnone) hinterval
    rw [hpending] at howed
    show a.sent ++ [frame] ++ [] = a.received
    rw [List.append_nil]
    exact howed

theorem Accounted.forward {s : Connection} {sub : Subscription} (hbacked : Backed sub (account s.log))
    (hnewest : Newest s.log) (clock : Clock) : Accounted (s.forward sub clock) := by
  rcases s.forward_cases sub clock with ⟨frame, hpending, hcredit, heq⟩ | ⟨hheld, heq⟩
  · rw [heq]
    refine ⟨nofun, ?_, newest_stream hnewest (hbacked.pending frame hpending)⟩
    rintro rest ⟨⟩
    rw [account_append]
    exact ⟨hbacked.spend hpending hcredit _, fun _ _ => rfl⟩
  · rw [heq]
    refine ⟨nofun, ?_, hnewest⟩
    rintro rest ⟨⟩
    refine ⟨hbacked, fun hnone hinterval => ?_⟩
    rcases hheld with hpending | hcredit | hpaced
    · exact hpending
    · simp [Subscription.hasCredit, hnone] at hcredit
    · simp [Subscription.pacedUntil, hinterval] at hpaced

/-- A step that leaves the subscription's account alone. -/
theorem Accounted.other {s t : Connection} (h : Accounted s) (more : List Entry)
    (hmore : ∀ entry ∈ more, entry.isOther) (hlog : t.log = s.log ++ more) (hsub : t.subscription = s.subscription) :
    Accounted t := by
  have haccount : account t.log = account s.log := by rw [hlog, account_append, foldl_add_other hmore]
  have hnewest : Newest t.log := by
    rw [hlog]
    exact newest_append h.newest (not_stream_of_other hmore)
  refine ⟨?_, ?_, hnewest⟩
  · rw [haccount, hsub]
    exact h.unsubscribed
  · rw [haccount, hsub]
    exact h.backed

theorem Backed.refill {sub : Subscription} {a : Account} (h : Backed sub a) (count : Nat) :
    Backed (sub.refill count) (a.add (.credit count)) := by
  obtain ⟨credits, maxFps, hterms, hsome, hfps⟩ := h.terms
  refine ⟨⟨credits, maxFps, hterms, ?_, hfps⟩, ?_, h.pending, ?_⟩
  · simp [Subscription.refill, hsome]
  · intro given fps left hgiven hleft
    obtain ⟨before, hbefore, rfl⟩ := Option.map_eq_some_iff.mp hleft
    obtain ⟨-, hpaid⟩ := h.left given fps before hgiven hbefore
    refine ⟨Nat.min_le_right _ _, ?_⟩
    show min (Subscription.saturatingAdd before count) MAX_CREDITS + a.sent.length ≤
      min given MAX_CREDITS + (a.credited + count)
    have hsum : min (Subscription.saturatingAdd before count) MAX_CREDITS ≤ before + count :=
      Nat.le_trans (Nat.min_le_left _ _) (Nat.min_le_left _ _)
    omega
  · intro hnone hinterval
    exact h.owed (Option.map_eq_none_iff.mp hnone) hinterval

theorem Backed.receive {sub : Subscription} {a : Account} (h : Backed sub a) (hprompt : sub.Prompt)
    (frame : Published) (next : Nat) :
    Backed { sub with next, pending := some frame } (a.add (.capture frame)) := by
  refine ⟨h.terms, h.left, ?_, ?_⟩
  · rintro other ⟨⟩
    exact List.getLast?_concat
  · intro hnone hinterval
    have howed := h.owed hnone hinterval
    rw [hprompt hnone hinterval, Option.toList_none, List.append_nil] at howed
    show a.sent ++ [frame] = a.received ++ [frame]
    rw [howed]

theorem Backed.of_next {sub : Subscription} {a : Account} (h : Backed sub a) (next : Nat) :
    Backed { sub with next } a :=
  ⟨h.terms, h.left, h.pending, h.owed⟩

theorem Accounted.fires {s t : Connection} {e : Connection.Event} (h : Accounted s) (hfires : s.Fires e t) :
    Accounted t := by
  cases hfires with
  | @credits sub count clock hsub =>
    refine Accounted.forward ?_ (newest_append h.newest (by simp)) clock
    show Backed _ (account (s.log ++ [Entry.credit count]))
    rw [account_append]
    exact (h.backed sub hsub).1.refill count
  | @ignores count clock hsub =>
    refine ⟨fun _ => ?_, fun sub hsome => ?_, newest_append h.newest (by simp)⟩
    · show (account (s.log ++ [Entry.credit count])).terms = none
      rw [account_append]
      exact h.unsubscribed hsub
    · cases hsub.symm.trans hsome
  | enqueues hwanted => exact h.other [.asks _ _] (by simp [Entry.isOther]) rfl rfl
  | @answers id command reply outcome hbusy houtcome =>
    refine h.other _ (fun entry hmem => ?_) rfl rfl
    rcases List.mem_cons.mp hmem with rfl | htail
    · rfl
    · obtain ⟨frame, -, rfl⟩ := List.mem_map.mp htail
      rfl
  | @receives sub frame next clock hsub hrecv =>
    refine Accounted.forward ?_ (newest_append h.newest (by simp)) clock
    show Backed _ (account (s.log ++ [Entry.capture frame]))
    rw [account_append]
    exact (h.backed sub hsub).1.receive (h.backed sub hsub).2 frame next
  | @lags sub missed next clock hsub hrecv =>
    have hother : ∀ entry ∈ (if sub.credits.isNone then [Entry.notice missed] else []), entry.isOther := by
      split <;> simp [Entry.isOther]
    refine ⟨nofun, ?_, newest_append h.newest (not_stream_of_other hother)⟩
    rintro rest ⟨⟩
    rw [account_append, foldl_add_other hother]
    exact ⟨(h.backed sub hsub).1.of_next next, (h.backed sub hsub).2⟩
  | @paces sub top clock hsub => exact Accounted.forward (h.backed sub hsub).1 h.newest clock
  | publishes => exact h.other [] (by simp) (by simp) rfl
  | quiet hentries hevent =>
    refine h.other _ (fun entry hmem => ?_) rfl rfl
    have hquiet := hentries entry hmem
    cases entry <;> first | rfl | cases hquiet

variable (fromSecsF64 : Float → Nat)

theorem backed_new (next : Nat) (credits : Option Nat) (maxFps : Option Float) :
    Backed (.new fromSecsF64 next (credits.map fun c => min c MAX_CREDITS) maxFps)
      ⟨some (credits, maxFps), 0, [], []⟩ := by
  refine ⟨⟨credits, maxFps, rfl, ?_, ?_⟩, ?_, nofun, fun _ _ => rfl⟩
  · simp [Subscription.new]
  · rintro rfl
    rfl
  · rintro given fps left ⟨⟩ hleft
    cases hleft
    exact ⟨Nat.min_le_right _ _, Nat.le_refl _⟩

theorem Accounted.turn {s t : Connection} (h : Accounted s) (hturn : s.Turn fromSecsF64 t) : Accounted t := by
  cases hturn with
  | refuses hidle hqueue => exact h.other [.reply _ _] (by simp [Entry.isOther]) rfl rfl
  | @subscribes id credits maxFps state rest hidle hqueue =>
    have haccount : account (s.log ++ [Entry.subscribe credits maxFps, Entry.reply id .subscribed] ++
        if state then [Entry.push s.version] else []) = ⟨some (credits, maxFps), 0, [], []⟩ := by
      rw [account_append, account_append]
      cases state <;> rfl
    refine ⟨nofun, ?_, ?_⟩
    · rintro sub ⟨⟩
      show Backed _ (account (s.log ++ _ ++ _)) ∧ _
      rw [haccount]
      exact ⟨backed_new fromSecsF64 _ credits maxFps, fun _ _ => rfl⟩
    · refine newest_append (newest_append h.newest (by simp)) ?_
      cases state <;> simp
  | @unsubscribes id rest hidle hqueue =>
    refine ⟨fun _ => ?_, nofun, newest_append h.newest (by simp)⟩
    show (account (s.log ++ [Entry.unsubscribe, Entry.reply id .unsubscribed])).terms = none
    rw [account_append]
    rfl
  | takes hidle hqueue hown => exact h.other [] (by simp) (by simp) rfl

/-! ### The order of the frames -/

def Below (bound : Nat) (frames : List Published) : Prop := ∀ frame ∈ frames, frame.seq ≤ bound

/-- Every one of the frames was numbered before every one of the others. -/
def Precede (frames others : List Published) : Prop := ∀ frame ∈ frames, ∀ other ∈ others, frame.seq < other.seq

/-- The frames that went out, the pending one and the captures to come are in the order of their numbers. -/
structure Queueing (s : Connection) (sub : Subscription) : Prop where
  next : sub.next ≤ s.captures.length
  pending : Precede (streamed s.log) sub.pending.toList ∧ Below s.sequence sub.pending.toList
  coming : Precede (streamed s.log ++ sub.pending.toList) (s.captures.drop sub.next)

structure Numbered (s : Connection) : Prop where
  captures : s.captures.Pairwise fun earlier later => earlier.seq < later.seq
  counted : Below s.sequence s.captures
  increasing : (streamed s.log).Pairwise fun earlier later => earlier.seq < later.seq
  past : Below s.sequence (streamed s.log)
  subscribed : ∀ sub, s.subscription = some sub → Queueing s sub

theorem Numbered.forward {s : Connection} (h : Numbered s) {sub : Subscription} (hsub : Queueing s sub)
    (clock : Clock) : Numbered (s.forward sub clock) := by
  rcases s.forward_cases sub clock with ⟨frame, hpending, -, heq⟩ | ⟨-, heq⟩
  · have hstreamed : streamed (s.log ++ [Entry.stream frame]) = streamed s.log ++ [frame] := streamed_append _ _
    obtain ⟨hafter, hbelow⟩ := hsub.pending
    have hcoming := hsub.coming
    rw [hpending] at hafter hbelow hcoming
    rw [heq]
    refine ⟨h.captures, h.counted, ?_, ?_, ?_⟩
    · show (streamed (s.log ++ [Entry.stream frame])).Pairwise _
      rw [hstreamed, List.pairwise_append]
      exact ⟨h.increasing, List.pairwise_singleton _ _, hafter⟩
    · show Below s.sequence (streamed (s.log ++ [Entry.stream frame]))
      rw [hstreamed]
      intro other hother
      exact (List.mem_append.mp hother).elim (h.past other) (hbelow other)
    · rintro rest ⟨⟩
      refine ⟨hsub.next, ⟨?_, nofun⟩, ?_⟩
      · rintro other - later ⟨⟩
      · show Precede (streamed (s.log ++ [Entry.stream frame]) ++ []) _
        rw [hstreamed, List.append_nil]
        exact hcoming
  · rw [heq]
    refine ⟨h.captures, h.counted, h.increasing, h.past, ?_⟩
    rintro rest ⟨⟩
    exact ⟨hsub.next, hsub.pending, hsub.coming⟩

/-- A step that sends no frame of the stream, and keeps the captures and the subscription. -/
theorem Numbered.other {s t : Connection} (h : Numbered s) (more : List Entry)
    (hmore : ∀ frame, Entry.stream frame ∉ more) (hlog : t.log = s.log ++ more) (hcaptures : t.captures = s.captures)
    (hsequence : t.sequence = s.sequence)
    (hsub : ∀ sub, t.subscription = some sub → Queueing s sub) : Numbered t := by
  have hstreamed : streamed t.log = streamed s.log := by
    rw [hlog, streamed_append, streamed_eq_nil hmore, List.append_nil]
  refine ⟨?_, ?_, ?_, ?_, fun sub hsome => ?_⟩
  · rw [hcaptures]
    exact h.captures
  · rw [hcaptures, hsequence]
    exact h.counted
  · rw [hstreamed]
    exact h.increasing
  · rw [hstreamed, hsequence]
    exact h.past
  · obtain ⟨hnext, hpending, hcoming⟩ := hsub sub hsome
    refine ⟨?_, ?_, ?_⟩
    · rw [hcaptures]
      exact hnext
    · rw [hstreamed, hsequence]
      exact hpending
    · rw [hstreamed, hcaptures]
      exact hcoming

/-- A new receiver, or one that goes on without its pending frame. -/
theorem Numbered.receiver {s : Connection} (h : Numbered s) (credits : Option Nat) (maxFps : Option Float) :
    Queueing s (.new fromSecsF64 s.receiver credits maxFps) := by
  have hnone : Precede (streamed s.log) [] ∧ Below s.sequence [] := ⟨fun _ _ _ hmem => (nomatch hmem), nofun⟩
  cases hsub : s.subscription with
  | none =>
    have hend : s.receiver = s.captures.length := by rw [Connection.receiver, hsub]
    refine ⟨Nat.le_of_eq hend, hnone, fun frame _ other hmem => ?_⟩
    simp [Subscription.new, hend] at hmem
  | some existing =>
    have hsame : s.receiver = existing.next := by rw [Connection.receiver, hsub]
    obtain ⟨hnext, -, hcoming⟩ := h.subscribed existing hsub
    refine ⟨by simpa [Subscription.new, hsame] using hnext, hnone, fun frame hframe other hmem => ?_⟩
    refine hcoming frame ?_ other ?_
    · exact List.mem_append_left _ (by simpa [Subscription.new] using hframe)
    · simpa [Subscription.new, hsame] using hmem

theorem Numbered.turn {s t : Connection} (h : Numbered s) (hturn : s.Turn fromSecsF64 t) : Numbered t := by
  cases hturn with
  | refuses hidle hqueue => exact h.other [.reply _ _] (by simp) rfl rfl rfl h.subscribed
  | @subscribes id credits maxFps state rest hidle hqueue =>
    refine h.other ([.subscribe credits maxFps, .reply id .subscribed] ++ if state then [.push s.version] else [])
      ?_ ?_ rfl rfl ?_
    · cases state <;> simp
    · simp [Connection.subscribe]
    · rintro sub ⟨⟩
      exact h.receiver fromSecsF64 _ maxFps
  | unsubscribes hidle hqueue => exact h.other [.unsubscribe, .reply _ _] (by simp) rfl rfl rfl nofun
  | takes hidle hqueue hown => exact h.other [] (by simp) (by simp) rfl rfl h.subscribed

theorem Numbered.note {s : Connection} (h : Numbered s) {entry : Entry} (hentry : ∀ frame, entry ≠ .stream frame) :
    Numbered (s.note [entry]) := by
  refine h.other [entry] (fun frame hmem => ?_) rfl rfl rfl h.subscribed
  exact hentry frame (List.mem_singleton.mp hmem).symm

/-- A capture that is received comes after everything sent, and before everything that is still to come. -/
theorem Queueing.receive {s : Connection} {sub : Subscription} (hsub : Queueing s sub) (h : Numbered s)
    {frame : Published} {next : Nat}
    (hrecv : recv CAPTURE_BROADCAST_DEPTH s.captures sub.next = some (.value frame, next)) :
    Queueing s { sub with next, pending := some frame } := by
  obtain ⟨rfl, hdrop⟩ := Lib.recv_value hrecv
  have hframe : frame ∈ s.captures.drop sub.next := hdrop ▸ List.mem_cons_self
  have hlt : sub.next < s.captures.length := by
    by_contra hge
    rw [List.drop_eq_nil_of_le (Nat.le_of_not_lt hge)] at hframe
    cases hframe
  have hrest : ∀ later ∈ s.captures.drop (sub.next + 1), frame.seq < later.seq := by
    have hpairs := h.captures.sublist (List.drop_sublist sub.next _)
    rw [hdrop] at hpairs
    exact (List.pairwise_cons.mp hpairs).1
  refine ⟨hlt, ⟨?_, ?_⟩, ?_⟩
  · intro sent hsent other hother
    obtain rfl := List.mem_singleton.mp hother
    exact hsub.coming sent (List.mem_append_left _ hsent) other hframe
  · intro other hother
    obtain rfl := List.mem_singleton.mp hother
    exact h.counted other (List.mem_of_mem_drop hframe)
  · intro sent hsent other hother
    rcases List.mem_append.mp hsent with hpast | hnow
    · exact hsub.coming sent (List.mem_append_left _ hpast) other (Lib.drop_of_le (Nat.le_succ _) hother)
    · obtain rfl := List.mem_singleton.mp hnow
      exact hrest other hother

theorem Queueing.lag {s : Connection} {sub : Subscription} (hsub : Queueing s sub) {missed next : Nat}
    (hrecv : recv CAPTURE_BROADCAST_DEPTH s.captures sub.next = some (.lagged missed, next)) :
    Queueing s { sub with next } := by
  obtain ⟨-, hnext, hend⟩ := Lib.recv_lagged hrecv
  have hle : sub.next ≤ next := hnext ▸ Nat.le_add_right _ _
  exact ⟨hend, hsub.pending, fun sent hsent other hother => hsub.coming sent hsent other (Lib.drop_of_le hle hother)⟩

/-- The next capture is numbered after everything there is. -/
theorem Numbered.publish {s : Connection} (h : Numbered s) (skipped : Nat) (encoded : List UInt8) :
    Numbered { s with
      captures := s.captures ++ [⟨s.sequence + skipped + 1, encoded⟩]
      sequence := s.sequence + skipped + 1 } := by
  have hlater : ∀ frames : List Published, Below s.sequence frames →
      Precede frames [⟨s.sequence + skipped + 1, encoded⟩] := by
    intro frames hbelow frame hframe other hother
    obtain rfl := List.mem_singleton.mp hother
    have hseq := hbelow frame hframe
    show frame.seq < s.sequence + skipped + 1
    omega
  have hmore : ∀ {frames : List Published}, Below s.sequence frames → Below (s.sequence + skipped + 1) frames := by
    intro frames hbelow frame hframe
    have hseq := hbelow frame hframe
    omega
  refine ⟨?_, ?_, h.increasing, hmore h.past, fun sub hsome => ?_⟩
  · exact List.pairwise_append.mpr ⟨h.captures, List.pairwise_singleton _ _, hlater _ h.counted⟩
  · intro frame hframe
    rcases List.mem_append.mp hframe with hold | hnew
    · exact hmore h.counted frame hold
    · obtain rfl := List.mem_singleton.mp hnew
      exact Nat.le_refl _
  · obtain ⟨hnext, ⟨hafter, hbelow⟩, hcoming⟩ := h.subscribed sub hsome
    refine ⟨?_, ⟨hafter, hmore hbelow⟩, ?_⟩
    · rw [List.length_append]
      exact Nat.le_add_right_of_le hnext
    · show Precede _ ((s.captures ++ [_]).drop sub.next)
      rw [List.drop_append_of_le_length hnext]
      intro sent hsent other hother
      rcases List.mem_append.mp hother with hold | hnew
      · exact hcoming sent hsent other hold
      · refine hlater (streamed s.log ++ sub.pending.toList) ?_ sent hsent other hnew
        intro frame hframe
        exact (List.mem_append.mp hframe).elim (h.past frame) (hbelow frame)

theorem Numbered.fires {s t : Connection} {e : Connection.Event} (h : Numbered s) (hfires : s.Fires e t) :
    Numbered t := by
  cases hfires with
  | @credits sub count clock hsub =>
    have hnote : Numbered (s.note [.credit count]) := h.note (by simp)
    obtain ⟨hnext, hpending, hcoming⟩ := hnote.subscribed sub hsub
    have hrefill : Queueing (s.note [.credit count]) (sub.refill count) := ⟨hnext, hpending, hcoming⟩
    exact hnote.forward hrefill clock
  | ignores hsub => exact h.note (by simp)
  | enqueues hwanted => exact h.other [.asks _ _] (by simp) rfl rfl rfl h.subscribed
  | answers hbusy houtcome => exact h.other _ (by simp) rfl rfl rfl h.subscribed
  | @receives sub frame next clock hsub hrecv =>
    have hnote : Numbered (s.note [.capture frame]) := h.note (by simp)
    exact hnote.forward ((hnote.subscribed sub hsub).receive hnote hrecv) clock
  | @lags sub missed next clock hsub hrecv =>
    refine h.other _ ?_ rfl rfl rfl ?_
    · split <;> simp
    · rintro rest ⟨⟩
      exact (h.subscribed sub hsub).lag hrecv
  | paces hsub => exact h.forward (h.subscribed _ hsub) _
  | publishes => exact h.publish _ _
  | quiet hentries hevent =>
    refine h.other _ (fun frame hmem => ?_) rfl rfl rfl h.subscribed
    exact Bool.noConfusion (hentries _ hmem)

/-! ### Whole connections -/

theorem accounted_start (version : Nat) : Accounted (.start [] 0 version) :=
  ⟨fun _ => rfl, nofun, nofun⟩

theorem numbered_start (version : Nat) : Numbered (.start [] 0 version) :=
  ⟨List.Pairwise.nil, nofun, List.Pairwise.nil, nofun, nofun⟩

theorem Accounted.flowControl {s : Connection} (h : Accounted s) (hnumbered : Numbered s) : FlowControl s := by
  have hsome : ∀ terms, (account s.log).terms = some terms → ∃ sub, s.subscription = some sub := by
    intro terms hterms
    cases hsub : s.subscription with
    | none => cases hterms.symm.trans (h.unsubscribed hsub)
    | some sub => exact ⟨sub, rfl⟩
  refine ⟨?_, ?_, h.newest, hnumbered.increasing, ?_⟩
  · intro sub left hsub hleft
    obtain ⟨hbacked, -⟩ := h.backed sub hsub
    obtain ⟨credits, maxFps, hterms, hboth, -⟩ := hbacked.terms
    rw [hleft] at hboth
    obtain ⟨given, rfl⟩ := Option.isSome_iff_exists.mp hboth
    exact (hbacked.left given maxFps left hterms hleft).1
  · intro credits maxFps hterms
    obtain ⟨sub, hsub⟩ := hsome _ hterms
    obtain ⟨hbacked, -⟩ := h.backed sub hsub
    obtain ⟨_, _, hsame, hboth, -⟩ := hbacked.terms
    cases hterms.symm.trans hsame
    obtain ⟨left, hleft⟩ := Option.isSome_iff_exists.mp hboth.symm
    have hpaid := (hbacked.left credits maxFps left hterms hleft).2
    omega
  · intro hterms
    obtain ⟨sub, hsub⟩ := hsome _ hterms
    obtain ⟨hbacked, hprompt⟩ := h.backed sub hsub
    obtain ⟨_, _, hsame, hboth, hfps⟩ := hbacked.terms
    cases hterms.symm.trans hsame
    have hcredits : sub.credits = none := Option.isSome_eq_false_iff.mp hboth.symm |> Option.isNone_iff_eq_none.mp
    have howed := hbacked.owed hcredits (hfps rfl)
    rwa [hprompt hcredits (hfps rfl), Option.toList_none, List.append_nil] at howed

/-- **Credit is not overspent, and no frame is repeated.** On every connection, in whatever order messages, captures,
lags and timers come, also over subscriptions that replace each other: the counter stays a small number, no more
frames go out on a subscription with credits than were granted with it and since, each one is the newest capture
received on it, the numbers of the frames go up, and without credits and a frame rate cap every capture received is
sent. -/
theorem flow_is_controlled {version : Nat} {es : List Connection.Event} {s : Connection}
    (hrun : Lib.run (Connection.step fromSecsF64) (.start [] 0 version) es = some s) : FlowControl s := by
  have haccounted : Accounted s :=
    Lib.run_preserves Accounted (fun _ _ _ h hstep => Connection.step_keeps fromSecsF64 (fun _ _ => True)
      (fun _ _ _ _ h hfires => h.fires hfires) (fun _ _ h hturn => h.turn fromSecsF64 hturn) trivial h hstep)
      (accounted_start version) hrun
  have hnumbered : Numbered s :=
    Lib.run_preserves Numbered (fun _ _ _ h hstep => Connection.step_keeps fromSecsF64 (fun _ _ => True)
      (fun _ _ _ _ h hfires => h.fires hfires) (fun _ _ h hturn => h.turn fromSecsF64 hturn) trivial h hstep)
      (numbered_start version) hrun
  exact haccounted.flowControl hnumbered

/-- One credit, spent on the first capture; two more come before the next one is returned. -/
def slowDisplay : List Connection.Event :=
  let read (message : Command) : Connection.Event := .incoming (.text (.ok message)) ⟨0, 0⟩
  [read (.subscribe (some 1) none false), .publishes 0 [1], .capture ⟨0, 0⟩, .publishes 0 [2], .capture ⟨0, 0⟩,
    .publishes 0 [3], .capture ⟨0, 0⟩, read (.credit 1)]

theorem slowDisplay_controlled :
    ∃ s, Lib.run (Connection.step fun _ => 0) (.start [] 0 0) slowDisplay = some s ∧
      (streamed s.log).map (·.seq) = [1, 3] ∧ FlowControl s := by
  have hrun : (Lib.run (Connection.step fun _ => 0) (.start [] 0 0) slowDisplay).map
      (fun s => (streamed s.log).map (·.seq)) = some [1, 3] := by
    decide +kernel
  obtain ⟨s, hs, hsent⟩ := Option.map_eq_some_iff.mp hrun
  exact ⟨s, hs, hsent, flow_is_controlled (fun _ => 0) hs⟩

end Lager.Scope.Server
