import Lager.Scope.Connection
import Mathlib.Data.List.Range

/-!
# Replies are matched to commands by their order

A client of the daemon takes the `k`-th response that is not a push for the answer to its `k`-th message. The
queue and the command in hand keep the order of the messages (`InTurn`), and the answer to `GetTriggeredData` and
its frame go out together. The one response that is not an answer is the notice that captures were missed, which a
subscription without credits is sent, so that the matching holds exactly as long as none of those is.
-/

namespace Lager.Scope.Server

/-- The messages that are to be answered, in their order. -/
def asked (log : List Entry) : List Queued :=
  log.filterMap fun
    | .asks _ message => some message
    | _ => none

/-- The answers, each with the number of its message. -/
def answers (log : List Entry) : List (Nat × Response) :=
  log.filterMap fun
    | .reply id response => some (id, response)
    | _ => none

def notices (log : List Entry) : List Nat :=
  log.filterMap fun
    | .notice missed => some missed
    | _ => none

/-- The responses other than pushes, with the number of the message that each one answers. -/
def responses (log : List Entry) : List (Option Nat × Response) :=
  log.filterMap fun
    | .reply id response => some (some id, response)
    | .notice missed => some (none, .error s!"dropped {missed} captures: client is not keeping up")
    | _ => none

/-- The response is one that the code gives to the message. -/
def Queued.Answers : Queued → Response → Prop
  | .unparsable message, response => response = .error message
  | .command (.subscribe ..), response => response = .subscribed
  | .command .unsubscribe, response => response = .unsubscribed
  | .command other, response => ∃ reply outcome, answer other reply = some outcome ∧ outcome.response = response

/-- The frame that an answer announces is the message after it. -/
def Followed (log : List Entry) : Prop :=
  ∀ (i id seq : Nat), log[i]? = some (.reply id (.triggeredDataFollows seq)) →
    ∃ frame, log[i + 1]? = some (.triggered frame) ∧ frame.seq = seq

/-- The number of messages that wait for their answer. -/
def Connection.waiting (s : Connection) : Nat := s.answering.toList.length + s.queued.length

variable (fromSecsF64 : Float → Nat)

/-- What a client relies on that matches responses to its messages by their order. -/
structure Matched (s : Connection) : Prop where
  own : ∀ (k : Nat) (id : Option Nat) (response : Response), (responses s.log)[k]? = some (id, response) →
    id = some k ∧ ∃ message, (asked s.log)[k]? = some message ∧ message.Answers response
  complete : (responses s.log).length + s.waiting = (asked s.log).length
  answerable : ∀ busy, s.answering = some busy → s.closed = false →
    ∀ reply, ∃ t, s.step fromSecsF64 (.answered reply) = some t
  followed : Followed s.log

/-! ### The order of the answers -/

/-- Answered, in hand and queued are the messages, in their order. -/
structure InTurn (s : Connection) : Prop where
  order : (answers s.log).map (·.1) ++ (s.answering.toList.map (·.1) ++ s.queued.map (·.1)) = List.range s.asked
  count : (asked s.log).length = s.asked
  queued : ∀ entry ∈ s.queued, (asked s.log)[entry.1]? = some entry.2 ∧ ∀ count, entry.2 ≠ .command (.credit count)
  busy : ∀ id command, s.answering = some (id, command) → (asked s.log)[id]? = some (.command command) ∧
    command.isOwn = false ∧ ∀ count, command ≠ .credit count
  answered : ∀ entry ∈ answers s.log, ∃ message, (asked s.log)[entry.1]? = some message ∧ message.Answers entry.2
  followed : Followed s.log

@[simp] theorem asked_append (log more : List Entry) : asked (log ++ more) = asked log ++ asked more :=
  List.filterMap_append

@[simp] theorem answers_append (log more : List Entry) : answers (log ++ more) = answers log ++ answers more :=
  List.filterMap_append

@[simp] theorem notices_append (log more : List Entry) : notices (log ++ more) = notices log ++ notices more :=
  List.filterMap_append

theorem followed_append {log more : List Entry} (hlog : Followed log) (hmore : Followed more) :
    Followed (log ++ more) := by
  intro i id seq h
  by_cases hi : i < log.length
  · rw [List.getElem?_append_left hi] at h
    obtain ⟨frame, hframe, hseq⟩ := hlog i id seq h
    have hnext : i + 1 < log.length := (List.getElem?_eq_some_iff.mp hframe).1
    exact ⟨frame, by rwa [List.getElem?_append_left hnext], hseq⟩
  · have hle : log.length ≤ i := Nat.le_of_not_lt hi
    rw [List.getElem?_append_right hle] at h
    obtain ⟨frame, hframe, hseq⟩ := hmore _ id seq h
    refine ⟨frame, ?_, hseq⟩
    rwa [List.getElem?_append_right (Nat.le_succ_of_le hle), Nat.succ_sub hle]

/-- Entries without an announcement are followed by all that they announce. -/
theorem followed_of_none {more : List Entry}
    (h : ∀ id seq, Entry.reply id (.triggeredDataFollows seq) ∉ more) : Followed more :=
  fun _ id seq hget => absurd (List.mem_of_getElem? hget) (h id seq)

/-- Neither a message nor an answer to one. -/
def Entry.isAside : Entry → Bool
  | asks .. | reply .. => false
  | _ => true

theorem asked_aside {more : List Entry} (h : ∀ entry ∈ more, entry.isAside) : asked more = [] := by
  refine List.filterMap_eq_nil_iff.mpr fun entry hentry => ?_
  have haside := h entry hentry
  cases entry <;> first | rfl | cases haside

theorem answers_aside {more : List Entry} (h : ∀ entry ∈ more, entry.isAside) : answers more = [] := by
  refine List.filterMap_eq_nil_iff.mpr fun entry hentry => ?_
  have haside := h entry hentry
  cases entry <;> first | rfl | cases haside

theorem InTurn.aside {s t : Connection} (h : InTurn s) (more : List Entry) (hmore : ∀ entry ∈ more, entry.isAside)
    (hlog : t.log = s.log ++ more) (hqueued : t.queued = s.queued) (hbusy : t.answering = s.answering)
    (hasked : t.asked = s.asked) : InTurn t := by
  have hasks : asked t.log = asked s.log := by rw [hlog, asked_append, asked_aside hmore, List.append_nil]
  have hanswers : answers t.log = answers s.log := by rw [hlog, answers_append, answers_aside hmore, List.append_nil]
  have hfollowed : Followed t.log := by
    rw [hlog]
    refine followed_append h.followed (followed_of_none fun id seq hmem => ?_)
    exact Bool.noConfusion (hmore _ hmem)
  constructor
  · rw [hanswers, hbusy, hqueued, hasked]
    exact h.order
  · rw [hasks, hasked]
    exact h.count
  · rw [hqueued, hasks]
    exact h.queued
  · rw [hbusy, hasks]
    exact h.busy
  · rw [hanswers, hasks]
    exact h.answered
  · exact hfollowed

theorem InTurn.note {s : Connection} (h : InTurn s) {entry : Entry} (haside : entry.isAside) : InTurn (s.note [entry]) := by
  refine h.aside [entry] (fun other hmem => ?_) rfl rfl rfl rfl
  rwa [List.mem_singleton.mp hmem]

theorem InTurn.forward {s : Connection} (h : InTurn s) (sub : Subscription) (clock : Clock) :
    InTurn (s.forward sub clock) := by
  rcases s.forward_cases sub clock with ⟨frame, -, -, heq⟩ | ⟨-, heq⟩
  · rw [heq]
    exact h.aside [.stream frame] (by simp [Entry.isAside]) rfl rfl rfl rfl
  · rw [heq]
    exact h.aside [] (by simp) (by simp) rfl rfl rfl

theorem getElem?_append_of_some {α : Type*} {l : List α} (more : List α) {k : Nat} {a : α} (h : l[k]? = some a) :
    (l ++ more)[k]? = some a := by
  rw [List.getElem?_append_left (List.getElem?_eq_some_iff.mp h).1]
  exact h

theorem InTurn.enqueue {s : Connection} (h : InTurn s) {wanted : Queued}
    (hwanted : ∀ count, wanted ≠ .command (.credit count)) : InTurn (s.enqueue wanted) := by
  have hasks : asked (s.enqueue wanted).log = asked s.log ++ [wanted] := asked_append s.log [.asks s.asked wanted]
  have hanswers : answers (s.enqueue wanted).log = answers s.log := by
    show answers (s.log ++ [Entry.asks s.asked wanted]) = _
    rw [answers_append]
    exact List.append_nil _
  constructor
  · rw [hanswers]
    show (answers s.log).map (·.1) ++ (s.answering.toList.map (·.1) ++ (s.queued ++ [(s.asked, wanted)]).map (·.1)) =
      List.range (s.asked + 1)
    rw [List.map_append, List.range_succ, ← h.order, List.append_assoc, List.append_assoc]
    rfl
  · rw [hasks, List.length_append, h.count]
    rfl
  · intro entry hentry
    rw [hasks]
    rcases List.mem_append.mp hentry with hold | hnew
    · exact ⟨getElem?_append_of_some _ (h.queued entry hold).1, (h.queued entry hold).2⟩
    · obtain rfl := List.mem_singleton.mp hnew
      refine ⟨?_, hwanted⟩
      show (asked s.log ++ [wanted])[s.asked]? = some wanted
      rw [← h.count]
      exact List.getElem?_concat_length
  · intro id command hbusy
    rw [hasks]
    exact ⟨getElem?_append_of_some _ (h.busy id command hbusy).1, (h.busy id command hbusy).2⟩
  · rw [hanswers, hasks]
    intro entry hentry
    obtain ⟨message, hget, hanswer⟩ := h.answered entry hentry
    exact ⟨message, getElem?_append_of_some _ hget, hanswer⟩
  · exact followed_append h.followed (followed_of_none (by simp))

/-- The first message that is not answered gets its answer. -/
theorem InTurn.reply {s t : Connection} (h : InTurn s) {id : Nat} {message : Queued} {response : Response}
    (pre more : List Entry) (hpre : ∀ entry ∈ pre, entry.isAside) (hmore : ∀ entry ∈ more, entry.isAside)
    (hlog : t.log = s.log ++ pre ++ .reply id response :: more) (hasked : t.asked = s.asked)
    (hmessage : (asked s.log)[id]? = some message) (hresponse : message.Answers response)
    (hfirst : s.answering.toList.map (·.1) ++ s.queued.map (·.1) =
      id :: (t.answering.toList.map (·.1) ++ t.queued.map (·.1)))
    (hqueued : ∀ entry ∈ t.queued, entry ∈ s.queued) (hbusy : ∀ busy, t.answering = some busy → s.answering = some busy)
    (hfollowed : Followed (.reply id response :: more)) : InTurn t := by
  have hasks : asked t.log = asked s.log := by
    rw [hlog, asked_append, asked_append, asked_aside hpre, List.append_nil]
    show asked s.log ++ asked more = _
    rw [asked_aside hmore, List.append_nil]
  have hanswers : answers t.log = answers s.log ++ [(id, response)] := by
    rw [hlog, answers_append, answers_append, answers_aside hpre, List.append_nil]
    show answers s.log ++ (id, response) :: answers more = _
    rw [answers_aside hmore]
  constructor
  · rw [hanswers, hasked, ← h.order, hfirst, List.map_append, List.append_assoc]
    rfl
  · rw [hasks, hasked]
    exact h.count
  · intro entry hentry
    rw [hasks]
    exact h.queued entry (hqueued entry hentry)
  · intro other command hother
    rw [hasks]
    exact h.busy other command (hbusy _ hother)
  · rw [hanswers, hasks]
    intro entry hentry
    rcases List.mem_append.mp hentry with hold | hnew
    · exact h.answered entry hold
    · obtain rfl := List.mem_singleton.mp hnew
      exact ⟨message, hmessage, hresponse⟩
  · rw [hlog]
    refine followed_append (followed_append h.followed (followed_of_none fun id seq hmem => ?_)) hfollowed
    exact Bool.noConfusion (hpre _ hmem)

theorem wanted_ne_credit {message : Message} {wanted : Queued} (h : message.wanted = some wanted) (count : Nat) :
    wanted ≠ .command (.credit count) := by
  rintro rfl
  unfold Message.wanted at h
  split at h <;> cases h
  rename_i hcredit
  exact hcredit count rfl

/-- The answer to a command that waits for the hardware thread is followed by the frame that it announces. -/
theorem answer_followed {command : Command} {reply : Option ScopeReply} {outcome : Outcome}
    (h : answer command reply = some outcome) (id : Nat) :
    Followed (.reply id outcome.response :: outcome.frame.toList.map .triggered) := by
  have hcases : (∀ seq, outcome.response ≠ .triggeredDataFollows seq) ∨
      ∃ frame, outcome = ⟨.triggeredDataFollows frame.seq, some frame⟩ := by
    unfold answer at h
    cases reply with
    | none =>
      cases h
      exact .inl (by simp [timedOut])
    | some reply =>
      cases command <;> cases reply <;> cases h <;> simp [ScopeReply.intoError]
  rcases hcases with hnone | ⟨frame, rfl⟩
  · refine followed_of_none fun other seq hmem => ?_
    rcases List.mem_cons.mp hmem with heq | htail
    · injection heq with _ hresponse
      exact hnone seq hresponse.symm
    · obtain ⟨frame, -, heq⟩ := List.mem_map.mp htail
      cases heq
  · intro i other seq hget
    cases i with
    | zero =>
      cases hget
      exact ⟨frame, rfl, rfl⟩
    | succ i =>
      rw [List.getElem?_cons_succ] at hget
      have hmem := List.mem_of_getElem? hget
      simp at hmem

theorem answers_of_answer {command : Command} (hown : command.isOwn = false) {reply : Option ScopeReply}
    {outcome : Outcome} (h : answer command reply = some outcome) :
    (Queued.command command).Answers outcome.response := by
  cases command with
  | subscribe credits maxFps state => cases hown
  | unsubscribe => cases hown
  | credit count => exact ⟨reply, outcome, h, rfl⟩
  | getTriggeredData => exact ⟨reply, outcome, h, rfl⟩
  | getState => exact ⟨reply, outcome, h, rfl⟩
  | control request => exact ⟨reply, outcome, h, rfl⟩

theorem InTurn.fires {s t : Connection} {e : Connection.Event} (h : InTurn s) (hfires : s.Fires e t) : InTurn t := by
  cases hfires with
  | credits hsub => exact (h.note rfl).forward _ _
  | ignores hsub => exact h.note rfl
  | enqueues hwanted => exact h.enqueue (wanted_ne_credit hwanted)
  | answers hbusy houtcome =>
    obtain ⟨hget, hown, -⟩ := h.busy _ _ hbusy
    refine h.reply [] _ (by simp) ?_ ?_ rfl hget (answers_of_answer hown houtcome) ?_ (fun _ hmem => hmem)
      (fun _ hnone => by cases hnone) (answer_followed houtcome _)
    · intro entry hmem
      obtain ⟨frame, -, rfl⟩ := List.mem_map.mp hmem
      rfl
    · rw [List.append_nil]
      rfl
    · rw [hbusy]
      rfl
  | receives hsub hrecv => exact (h.note rfl).forward _ _
  | lags hsub hrecv =>
    refine h.aside _ ?_ rfl rfl rfl rfl
    split <;> simp [Entry.isAside]
  | paces hsub => exact h.forward _ _
  | publishes => exact h.aside [] (by simp) (by simp) rfl rfl rfl
  | quiet hentries _ =>
    refine h.aside _ (fun entry hmem => ?_) rfl rfl rfl rfl
    have hquiet := hentries entry hmem
    cases entry <;> first | rfl | cases hquiet

theorem InTurn.turn {s t : Connection} (h : InTurn s) (hturn : s.Turn fromSecsF64 t) : InTurn t := by
  cases hturn with
  | refuses hidle hqueue =>
    have hhead := h.queued _ (hqueue ▸ List.mem_cons_self)
    refine h.reply [] [] (by simp) (by simp) (by simp [Connection.note]) rfl hhead.1 rfl ?_ ?_ ?_
      (followed_of_none (by simp))
    · simp [hidle, hqueue, Connection.note]
    · intro entry hmem
      exact hqueue ▸ List.mem_cons_of_mem _ hmem
    · exact fun _ hbusy => hbusy
  | @subscribes id credits maxFps state rest hidle hqueue =>
    have hhead := h.queued _ (hqueue ▸ List.mem_cons_self)
    refine h.reply [.subscribe credits maxFps] (if state then [.push s.version] else [])
      (by simp [Entry.isAside]) ?_ ?_ rfl hhead.1 rfl ?_ ?_ ?_ (followed_of_none ?_)
    · split <;> simp [Entry.isAside]
    · simp [Connection.subscribe]
    · simp [hidle, hqueue, Connection.subscribe]
    · intro entry hmem
      exact hqueue ▸ List.mem_cons_of_mem _ hmem
    · exact fun _ hbusy => hbusy
    · split <;> simp
  | unsubscribes hidle hqueue =>
    have hhead := h.queued _ (hqueue ▸ List.mem_cons_self)
    refine h.reply [.unsubscribe] [] (by simp [Entry.isAside]) (by simp)
      (by simp [Connection.unsubscribe]) rfl hhead.1 rfl ?_ ?_ ?_ (followed_of_none (by simp))
    · simp [hidle, hqueue, Connection.unsubscribe]
    · intro entry hmem
      exact hqueue ▸ List.mem_cons_of_mem _ hmem
    · exact fun _ hbusy => hbusy
  | @takes id command rest hidle hqueue hown =>
    have hhead := h.queued _ (hqueue ▸ List.mem_cons_self)
    refine ⟨?_, h.count, fun entry hmem => h.queued entry (hqueue ▸ List.mem_cons_of_mem _ hmem), ?_, h.answered,
      h.followed⟩
    · have horder := h.order
      rw [hidle, hqueue] at horder
      exact horder
    · rintro other taken ⟨⟩
      exact ⟨hhead.1, hown, fun count heq => hhead.2 count (heq ▸ rfl)⟩

/-! ### Notices -/

/-- The receiver of a subscription without credits has lagged. -/
def Connection.misses (s : Connection) : Connection.Event → Bool
  | .capture _ =>
    s.subscription.any fun sub => sub.credits.isNone && decide (sub.next + CAPTURE_BROADCAST_DEPTH < s.captures.length)
  | _ => false

theorem notices_forward (s : Connection) (sub : Subscription) (clock : Clock) :
    notices (s.forward sub clock).log = notices s.log := by
  rcases s.forward_cases sub clock with ⟨frame, -, -, heq⟩ | ⟨-, heq⟩
  · rw [heq]
    show notices (s.log ++ [Entry.stream frame]) = _
    rw [notices_append]
    exact List.append_nil _
  · rw [heq]

theorem notices_note (s : Connection) {entry : Entry} (h : notices [entry] = []) :
    notices (s.note [entry]).log = notices s.log := by
  show notices (s.log ++ [entry]) = _
  rw [notices_append, h, List.append_nil]

theorem notices_turn {s t : Connection} (h : s.Turn fromSecsF64 t) : notices t.log = notices s.log := by
  cases h with
  | refuses hidle hqueue => exact notices_note _ rfl
  | @subscribes id credits maxFps state rest hidle hqueue =>
    show notices (s.log ++ [Entry.subscribe credits maxFps, Entry.reply id .subscribed] ++
      if state then [Entry.push s.version] else []) = _
    rw [notices_append, notices_append]
    cases state <;> simp [notices]
  | @unsubscribes id rest hidle hqueue =>
    show notices (s.log ++ [Entry.unsubscribe, Entry.reply id .unsubscribed]) = _
    rw [notices_append]
    exact List.append_nil _
  | takes hidle hqueue hown => rfl

/-- An event adds a notice exactly where a capture is missed. -/
theorem notices_fires {s t : Connection} {e : Connection.Event} (h : s.Fires e t) :
    (notices t.log).length = (notices s.log).length + (if s.misses e then 1 else 0) := by
  cases h with
  | credits hsub =>
    rw [notices_forward, notices_note s rfl]
    rfl
  | ignores hsub =>
    rw [notices_note s rfl]
    rfl
  | enqueues hwanted =>
    rw [show notices (s.enqueue _).log = notices s.log ++ [] from notices_append _ _, List.append_nil]
    rfl
  | @answers id command reply outcome hbusy houtcome =>
    have hnone : notices (.reply id outcome.response :: outcome.frame.toList.map .triggered) = [] := by
      cases outcome.frame <;> rfl
    rw [show notices (s.answered id outcome).log = notices s.log ++ _ from notices_append _ _, hnone, List.append_nil]
    rfl
  | @receives sub frame next clock hsub hrecv =>
    have hheld : ¬ sub.next + CAPTURE_BROADCAST_DEPTH < s.captures.length := by
      intro hlt
      unfold Lager.Lib.recv at hrecv
      rw [if_pos hlt] at hrecv
      cases hrecv
    rw [notices_forward, notices_note s rfl]
    simp [Connection.misses, hsub, hheld]
  | @lags sub missed next clock hsub hrecv =>
    have hlt : sub.next + CAPTURE_BROADCAST_DEPTH < s.captures.length := by
      by_contra hge
      unfold Lager.Lib.recv at hrecv
      rw [if_neg hge] at hrecv
      obtain ⟨frame, -, heq⟩ := Option.map_eq_some_iff.mp hrecv
      cases heq
    show (notices (s.log ++ if sub.credits.isNone then [Entry.notice missed] else [])).length = _
    rw [notices_append, List.length_append]
    cases hcredits : sub.credits <;> simp [Connection.misses, hsub, hlt, hcredits, notices]
  | paces hsub =>
    rw [notices_forward]
    rfl
  | publishes => rfl
  | @quiet e states version closed entries hentries hevent =>
    have hnone : notices entries = [] := by
      refine List.filterMap_eq_nil_iff.mpr fun entry hentry => ?_
      have hquiet := hentries entry hentry
      cases entry <;> first | rfl | cases hquiet
    have hmisses : s.misses e = false := by
      cases e <;> first | rfl | cases hevent
    show (notices (s.log ++ entries)).length = _
    rw [notices_append, hnone, List.append_nil, hmisses]
    rfl

theorem notices_step {s t : Connection} {e : Connection.Event} (h : s.step fromSecsF64 e = some t) :
    (notices t.log).length = (notices s.log).length + (if s.misses e then 1 else 0) := by
  obtain ⟨u, hfires, rfl⟩ := Connection.step_eq_some fromSecsF64 h
  rw [← notices_fires hfires]
  refine congrArg List.length ?_
  exact Connection.settle_keeps fromSecsF64 (I := fun v => notices v.log = notices u.log)
    (fun v w hv hturn => (notices_turn fromSecsF64 hturn).trans hv) rfl

/-! ### Whole connections -/

theorem length_responses (log : List Entry) :
    (responses log).length = (answers log).length + (notices log).length := by
  induction log with
  | nil => rfl
  | cons entry log ih =>
    cases entry <;> simp_all [responses, answers, notices] <;> omega

theorem responses_of_notices {log : List Entry} (h : notices log = []) :
    responses log = (answers log).map fun entry => (some entry.1, entry.2) := by
  induction log with
  | nil => rfl
  | cons entry log ih =>
    cases entry <;> simp_all [responses, answers, notices]

variable {fromSecsF64} in
theorem inTurn_of_run {captures : List Published} {sequence version : Nat} {es : List Connection.Event}
    {s : Connection} (hrun : Lib.run (Connection.step fromSecsF64) (.start captures sequence version) es = some s) :
    InTurn s := by
  have hstart : InTurn (.start captures sequence version) := by
    refine ⟨rfl, rfl, by simp [Connection.start], by simp [Connection.start], ?_, followed_of_none (by simp [Connection.start])⟩
    simp [Connection.start, answers]
  exact Lib.run_preserves InTurn (fun _ _ _ h hstep => Connection.step_keeps fromSecsF64 (fun _ _ => True)
    (fun _ _ _ _ h hfires => h.fires hfires) (fun _ _ h hturn => h.turn fromSecsF64 hturn) trivial h hstep) hstart hrun

theorem InTurn.answerable {s : Connection} (h : InTurn s) {busy : Nat × Command} (hbusy : s.answering = some busy)
    (hclosed : s.closed = false) (reply : Option ScopeReply) : ∃ t, s.step fromSecsF64 (.answered reply) = some t := by
  obtain ⟨id, command⟩ := busy
  obtain ⟨-, hown, hcredit⟩ := h.busy id command hbusy
  have hsome : ∃ outcome, answer command reply = some outcome := by
    cases reply with
    | none => exact ⟨_, rfl⟩
    | some reply =>
      cases command with
      | subscribe credits maxFps state => cases hown
      | unsubscribe => cases hown
      | credit count => exact absurd rfl (hcredit count)
      | _ => cases reply <;> exact ⟨_, rfl⟩
  obtain ⟨outcome, houtcome⟩ := hsome
  refine ⟨(s.answered id outcome).settle fromSecsF64, ?_⟩
  simp [Connection.step, Connection.arm, hclosed, hbusy, houtcome]

theorem InTurn.complete {s : Connection} (h : InTurn s) : (answers s.log).length + s.waiting = (asked s.log).length := by
  have hlength := congrArg List.length h.order
  simp only [List.length_append, List.length_map, List.length_range] at hlength
  rw [h.count, Connection.waiting, ← hlength]

/-- Without a notice, the responses are the answers in the order of the messages. -/
theorem InTurn.matched {s : Connection} (h : InTurn s) (hnotices : notices s.log = []) : Matched fromSecsF64 s := by
  refine ⟨?_, ?_, fun busy hbusy hclosed reply => h.answerable fromSecsF64 hbusy hclosed reply, h.followed⟩
  · intro k id response hget
    rw [responses_of_notices hnotices, List.getElem?_map] at hget
    obtain ⟨entry, hentry, heq⟩ := Option.map_eq_some_iff.mp hget
    cases heq
    have hk : ((answers s.log).map (·.1))[k]? = some entry.1 := by rw [List.getElem?_map, hentry]; rfl
    have hrange := getElem?_append_of_some (s.answering.toList.map (·.1) ++ s.queued.map (·.1)) hk
    rw [h.order] at hrange
    obtain ⟨hlt, hid⟩ := List.getElem?_eq_some_iff.mp hrange
    rw [List.getElem_range] at hid
    obtain ⟨message, hmessage, hanswers⟩ := h.answered entry (List.mem_of_getElem? hentry)
    rw [hid]
    exact ⟨rfl, message, hmessage, hanswers⟩
  · rw [length_responses, hnotices]
    exact h.complete

/-- **Responses and messages are matched exactly as long as no capture is missed without credits.** On every
connection, in whatever order messages, answers, captures, pushes and timers come: the `k`-th response other than a
push answers the `k`-th message, no answer is missing, and an announced frame comes right after its answer, as long
as the receiver of a subscription without credits has not lagged. The notice that is sent then is one response too
many. -/
theorem responses_match_iff {captures : List Published} {sequence version : Nat} {es : List Connection.Event}
    {s : Connection} (hrun : Lib.run (Connection.step fromSecsF64) (.start captures sequence version) es = some s) :
    Matched fromSecsF64 s ↔
      Lib.Along (Connection.step fromSecsF64) (fun s e => s.misses e = false) (.start captures sequence version) es := by
  have hturn : InTurn s := inTurn_of_run hrun
  have htally := Lib.run_tally (w := fun s e => if s.misses e then 1 else 0) (fun _ => True)
    (fun s => ((notices s.log).length : Int))
    (fun u e v _ hstep => ⟨trivial, by rw [notices_step fromSecsF64 hstep, Int.natCast_add]⟩) trivial hrun
  have hnone : notices s.log = [] ↔
      Lib.Along (Connection.step fromSecsF64) (fun s e => s.misses e = false) (.start captures sequence version) es := by
    have hzero := Lib.tally_eq_zero_iff (w := fun (s : Connection) e => if s.misses e then 1 else 0) hrun
    simp only [ite_eq_right_iff, Nat.one_ne_zero, imp_false, Bool.not_eq_true] at hzero
    rw [← hzero, ← List.length_eq_zero_iff]
    simp only [Connection.start, notices, List.filterMap_nil, List.length_nil, Int.natCast_zero, Int.zero_add] at htally
    rw [← Int.natCast_inj, ← Int.natCast_inj (m := Lib.tally _ _ _ _)]
    exact htally ▸ Iff.rfl
  rw [← hnone]
  constructor
  · intro h
    have hresponses := h.complete
    rw [length_responses, ← hturn.complete] at hresponses
    exact List.length_eq_zero_iff.mp (by omega)
  · exact hturn.matched fromSecsF64

/-- A message from the client, at a moment that does not matter. -/
def sends (command : Command) : Connection.Event := .incoming (.text (.ok command)) ⟨0, 0⟩

/-- `IsReady`, `GetTriggeredData` behind it, a frame of the stream, and what comes of them. -/
def twoCommands : List Connection.Event :=
  [sends (.subscribe none none true), sends (.control "IsReady"), sends .getTriggeredData, .publishes 0 [1],
    .capture ⟨0, 0⟩, .answered (some (.done "IsReady")), .publishesState, .stateChanged,
    .answered (some (.capture ⟨1, [2]⟩))]

theorem twoCommands_match : ∃ s, Lib.run (Connection.step fun _ => 0) (.start [] 0 0) twoCommands = some s ∧
    responses s.log = [(some 0, .subscribed), (some 1, .control "IsReady"), (some 2, .triggeredDataFollows 1)] ∧
    Matched (fun _ => 0) s := by
  have hrun : (Lib.run (Connection.step fun _ => 0) (.start [] 0 0) twoCommands).map (fun s => responses s.log) =
      some [(some 0, .subscribed), (some 1, .control "IsReady"), (some 2, .triggeredDataFollows 1)] := by
    decide +kernel
  obtain ⟨s, hs, hresponses⟩ := Option.map_eq_some_iff.mp hrun
  exact ⟨s, hs, hresponses, (responses_match_iff (fun _ => 0) hs).mpr (by decide +kernel)⟩

/-- Every capture is asked for, and seventeen come while the socket takes nothing. -/
def slowReader : List Connection.Event :=
  sends (.subscribe none none false) :: List.replicate 17 (.publishes 0 []) ++
    [.capture ⟨0, 0⟩, sends (.control "IsReady"), .answered (some (.done "IsReady"))]

/-- The notice stands where the answer to `IsReady` is expected. -/
theorem slowReader_mismatch : ∃ s, Lib.run (Connection.step fun _ => 0) (.start [] 0 0) slowReader = some s ∧
    (responses s.log)[1]? = some (none, .error "dropped 1 captures: client is not keeping up") ∧
    ¬ Matched (fun _ => 0) s := by
  have hrun : (Lib.run (Connection.step fun _ => 0) (.start [] 0 0) slowReader).map (fun s => (responses s.log)[1]?) =
      some (some (none, .error "dropped 1 captures: client is not keeping up")) := by
    decide +kernel
  obtain ⟨s, hs, hresponse⟩ := Option.map_eq_some_iff.mp hrun
  exact ⟨s, hs, hresponse, fun h => nomatch (h.own 1 _ _ hresponse).1⟩

end Lager.Scope.Server
