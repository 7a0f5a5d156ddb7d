import Lager.Scope.Records

/-!
# The published state is the loop's state

`Loop.Shown` says that the last state sent to the subscribers is the one `buildState` gives now, and that only
requests for samples are held. It holds whenever the loop waits for a message, for a driver whose getters keep their
answers over the calls the loop makes without publishing afterwards (`Quiet`). `Loop.Ordered` says that the versions
of the published states increase; no assumption about the driver is needed for it.
-/

namespace Lager.Scope

variable {σ : Type} (d : Driver σ) (lib : Lib)

/-- The calls a running acquisition goes on from, and the calls that only read, do not change what the getters say.
A setting read back is reported as changed if it did. -/
structure Quiet : Prop where
  isReady : ∀ s ready, (d.isReady s).1 = .ok ready → d.getters (d.isReady s).2 = d.getters s
  getTriggeredData : ∀ s, d.getters (d.getTriggeredData s).2 = d.getters s
  forceTrigger : ∀ s, (d.forceTrigger s).1 = .ok () → d.getters (d.forceTrigger s).2 = d.getters s
  rearm : ∀ s, (d.rearm s).1 = .ok () → d.getters (d.rearm s).2 = d.getters s
  pollRoll : ∀ s sink, (d.pollRoll s).1 = .ok sink → d.getters (d.pollRoll s).2 = d.getters s
  refreshSettings : ∀ s, (∀ b, (d.refreshSettings s).1 = some (.ok b) → b = false) →
    d.getters (d.refreshSettings s).2 = d.getters s
  measureAll : ∀ c s, d.getters (d.measureAll c s).2 = d.getters s
  measureOne : ∀ c which s, d.getters (d.measureOne c which s).2 = d.getters s
  readRecord : ∀ s, d.getters (d.readRecord s).2 = d.getters s

/-! ### Operations that leave the state as it is shown -/

theorem buildState_scope {s : σ} (w : Loop σ) (h : d.getters s = d.getters w.scope) :
    buildState d lib { w with scope := s } = buildState d lib w := by
  simp only [buildState, h]

theorem process_state (w : Loop σ) (frame : CaptureFrame) :
    buildState d lib (process lib w frame).1 = buildState d lib w := by
  unfold process
  dsimp only
  split <;> rfl

theorem measure_state (hd : Quiet d) (w : Loop σ) (channel : ChannelId)
    (pick : MeasurementSet → Except ReplyError ScopeReply) :
    buildState d lib (measure d lib w channel pick).1 = buildState d lib w := by
  have hscope := buildState_scope d lib w (hd.measureAll channel w.scope)
  unfold measure
  dsimp only
  split
  · split <;> exact hscope
  · exact hscope
  · split
    · exact hscope
    · split <;> exact hscope

theorem getTriggeredData_state (hd : Quiet d) (w : Loop σ) :
    buildState d lib (getTriggeredData d w).1 = buildState d lib w := by
  have hscope := buildState_scope d lib w (hd.readRecord w.scope)
  unfold getTriggeredData
  dsimp only
  split
  · exact hscope
  · exact hscope
  · split <;> exact hscope

theorem forceTrigger_state (hd : Quiet d) (w : Loop σ) (h : (forceTrigger d w).2.isError = false) :
    buildState d lib (forceTrigger d w).1 = buildState d lib w := by
  unfold forceTrigger at h ⊢
  dsimp only at h ⊢
  split at h
  · cases h
  · split at h
    · cases h
    · split at h
      · rename_i hforced
        have hscope := buildState_scope d lib w (hd.forceTrigger w.scope hforced)
        simp_all only [if_false, Bool.false_eq_true]
        exact hscope
      · cases h

/-- A request that does not change the state and is not refused leaves it. -/
theorem respond_state (hd : Quiet d) (w : Loop σ) (request : ScopeRequest) (hquiet : changesState request = false)
    (haccepted : isRefused request (respond d lib w request).2 = false) :
    buildState d lib (respond d lib w request).1 = buildState d lib w := by
  cases request with
  | set s | startAcquisition p | stopAcquisition | setDisplay p | setAcquisition m c | setHoldoff s | setRoll m
  | scpi c => simp [changesState, invalidatesThePublishedCapture] at hquiet
  | get q =>
    simp only [respond]
    split <;> rfl
  | getTimePerDiv =>
    simp only [respond]
    split
    · rfl
    · split <;> rfl
  | forceTrigger =>
    have hok : (forceTrigger d w).2.isError = false := by
      simpa [isRefused, isForceTrigger, respond] using haccepted
    exact forceTrigger_state d lib hd w hok
  | getTriggeredData => exact getTriggeredData_state d lib hd w
  | measure channel which => exact measure_state d lib hd w channel _
  | measureAll channel => exact measure_state d lib hd w channel _
  | measureOne channel which =>
    have hscope := buildState_scope d lib w (hd.measureOne channel which w.scope)
    simp only [respond]
    split <;> exact hscope
  | isReady | getState | getDisplay | getAcquisition | getHoldoff | getRoll => rfl

theorem changesState_false {request : ScopeRequest} (h : changesState request = false) :
    invalidatesThePublishedCapture request = false ∧ touchesHardware request = false := by
  cases request <;> simp_all [changesState, touchesHardware, invalidatesThePublishedCapture]

theorem serve_of_quiet (w : Loop σ) {request : ScopeRequest} (hquiet : changesState request = false) :
    serve d lib w request =
      (if isRefused request (respond d lib w request).2 then backstop d (respond d lib w request).1
        else (respond d lib w request).1, (respond d lib w request).2,
        isRefused request (respond d lib w request).2) := by
  obtain ⟨hkeeps, htouches⟩ := changesState_false hquiet
  simp [serve, pauseRoll, htouches, handle, invalidate, hkeeps, resumeRoll, hquiet]

theorem serve_state (hd : Quiet d) (w : Loop σ) (request : ScopeRequest)
    (hsame : (serve d lib w request).2.2 = false) :
    buildState d lib (serve d lib w request).1 = buildState d lib w := by
  have hquiet : changesState request = false := (Bool.or_eq_false_iff.mp hsame).1
  rw [serve_of_quiet d lib w hquiet] at hsame ⊢
  simp only at hsame ⊢
  rw [hsame, if_neg Bool.false_ne_true]
  exact respond_state d lib hd w request hquiet hsame

theorem serve_samples_state (hd : Quiet d) (w : Loop σ) {request : ScopeRequest}
    (hwants : wantsSamples request = true) : buildState d lib (serve d lib w request).1 = buildState d lib w := by
  refine serve_state d lib hd w request ?_
  have hquiet : changesState request = false := by
    cases request <;> simp_all [wantsSamples, changesState, invalidatesThePublishedCapture]
  rw [serve_of_quiet d lib w hquiet]
  cases request <;> simp_all [wantsSamples, isRefused, touchesHardware, isForceTrigger, invalidatesThePublishedCapture]

/-! ### The invariant -/

structure Loop.Shown (w : Loop σ) : Prop where
  last : w.published.getLast? = some (buildState d lib w)
  samples : ∀ held ∈ w.waiting, wantsSamples held.request = true

/-- The result of an operation that may end the loop. -/
def Goes (r : Loop σ × Option Ended) : Prop := r.2 = none → r.1.Shown d lib

namespace Loop.Shown

variable {d lib}
variable {w w' : Loop σ}

theorem of_state (h : w.Shown d lib) (hstate : buildState d lib w' = buildState d lib w)
    (hpublished : w'.published = w.published) (hwaiting : w'.waiting = w.waiting) : w'.Shown d lib := by
  refine ⟨?_, ?_⟩
  · rw [hpublished, hstate]
    exact h.last
  · rw [hwaiting]
    exact h.samples

theorem scope (h : w.Shown d lib) {s : σ} (hs : d.getters s = d.getters w.scope) :
    Loop.Shown d lib { w with scope := s } :=
  h.of_state (buildState_scope d lib w hs) rfl rfl

theorem publish (hsamples : ∀ held ∈ w.waiting, wantsSamples held.request = true) :
    (publishState d lib w).Shown d lib := by
  refine ⟨?_, hsamples⟩
  unfold publishState
  rw [List.getLast?_concat]
  rfl

/-- Serving a list of requests for samples. -/
theorem serveAll (hd : Quiet d) {held : List Waiting} (hheld : ∀ x ∈ held, wantsSamples x.request = true)
    (h : w.Shown d lib) : (held.foldl (fun w held => (serve d lib w held.request).1) w).Shown d lib := by
  induction held generalizing w with
  | nil => exact h
  | cons first rest ih =>
    have hlog := serve_log d lib w first.request
    refine ih (fun x hx => hheld x (List.mem_cons_of_mem _ hx)) (h.of_state ?_ (congrArg Log.published hlog)
      (congrArg Log.waiting hlog))
    exact serve_samples_state d lib hd w (hheld first List.mem_cons_self)

theorem answerWaiting (hd : Quiet d) (h : w.Shown d lib) : (answerWaiting d lib w).Shown d lib := by
  refine serveAll hd h.samples ⟨h.last, ?_⟩
  simp

theorem waitState (hd : Quiet d) (h : w.Shown d lib) (now : Nat) : (waitState d lib w now).Shown d lib := by
  unfold Scope.waitState
  split
  · exact h
  · unfold settleWaiting
    dsimp only
    have hrest (p : Waiting → Bool) : Loop.Shown d lib { w with waiting := w.waiting.filter p } :=
      ⟨h.last, fun x hx => h.samples x (List.mem_of_mem_filter hx)⟩
    split
    · exact hrest _
    · exact serveAll hd (fun x hx => h.samples x (List.mem_of_mem_filter hx)) (hrest _)

theorem receive (hd : Quiet d) (h : w.Shown d lib) (request : ScopeRequest) (now : Nat) :
    (receive d lib w request now).1.Shown d lib := by
  unfold Scope.receive
  split
  · rename_i hwaits
    refine ⟨h.last, fun x hx => ?_⟩
    rcases List.mem_append.mp hx with hx | hx
    · exact h.samples x hx
    · rw [List.mem_singleton.mp hx]
      simp_all [waitsForACapture]
  · dsimp only
    have hlog := serve_log d lib w request
    split
    · refine publish ?_
      rw [show (serve d lib w request).1.waiting = w.waiting from congrArg Log.waiting hlog]
      exact h.samples
    · rename_i hsame
      exact h.of_state (serve_state d lib hd w request (Bool.eq_false_iff.mpr hsame)) (congrArg Log.published hlog)
        (congrArg Log.waiting hlog)

theorem rearm (hd : Quiet d) (h : w.Shown d lib) : Goes d lib (rearm d lib w) := by
  unfold Goes Scope.rearm
  dsimp only
  intro hgoes
  split at hgoes
  · rename_i hok
    exact (h.scope (hd.rearm w.scope hok)).of_state rfl rfl rfl
  · split at hgoes
    · cases hgoes
    · rename_i hstays
      simp only [hstays]
      exact publish h.samples

theorem keep (h : w.Shown d lib) (frame : CaptureFrame) : (w.keep frame).Shown d lib := h.of_state rfl rfl rfl

theorem afterCapture (hd : Quiet d) (h : w.Shown d lib) (frame : CaptureFrame) (i : Input) :
    Goes d lib (afterCapture d lib w frame i) := by
  have hanswered := (h.keep frame).answerWaiting hd
  unfold Scope.afterCapture
  dsimp only
  split
  · exact fun _ => publish hanswered.samples
  · split
    · exact fun _ => hanswered.of_state rfl rfl rfl
    · exact hanswered.rearm hd

theorem readOut (hd : Quiet d) (h : w.Shown d lib) (i : Input) : Goes d lib (readOut d lib w i) := by
  have hread := h.scope (hd.getTriggeredData w.scope)
  unfold Scope.readOut
  dsimp only
  split
  · exact fun _ => hread
  · have hlog := Loop.log_of_records (process_records lib { w with scope := (d.getTriggeredData w.scope).2 } ‹_›)
    exact (hread.of_state (process_state d lib _ _) (congrArg Log.published hlog)
      (congrArg Log.waiting hlog)).afterCapture hd _ i

theorem acquire (hd : Quiet d) (h : w.Shown d lib) (i : Input) : Goes d lib (acquire d lib w i) := by
  unfold Scope.acquire
  split
  · split
    · exact fun _ => h
    · refine rearm hd ?_
      exact h.of_state rfl rfl rfl
  · dsimp only
    split
    · rename_i hready
      exact (h.scope (hd.isReady w.scope true hready)).readOut hd i
    · rename_i hready
      exact fun _ => h.scope (hd.isReady w.scope false hready)
    · split
      · exact fun hgoes => by cases hgoes
      · exact fun _ => publish h.samples

/-- The screen that is shown depends on how the roller was set up, which absorbing samples does not change. -/
theorem roller (h : w.Shown d lib) {old new : Roller} (hroller : w.roller = some old) (hinfo : new.info = old.info) :
    Loop.Shown d lib { w with roller := some new } := by
  refine h.of_state ?_ rfl rfl
  simp only [buildState, hroller, Option.isSome_some, Roller.screenTimePerDiv, hinfo]

theorem rollStep (hd : Quiet d) (h : w.Shown d lib) {old : Roller} (hroller : w.roller = some old) (i : Input)
    (hok : (rollStep d w old i).2 = none) : (rollStep d w old i).1.Shown d lib := by
  unfold Scope.rollStep at hok ⊢
  dsimp only at hok ⊢
  split at hok
  · cases hok
  · rename_i sink hpoll
    have hscope := h.scope (hd.pollRoll w.scope sink hpoll)
    have habsorbed : (old.absorb sink).info = old.info := rfl
    split
    · exact hscope.roller hroller habsorbed
    · refine keep ?_ _
      exact (hscope.roller hroller (by exact habsorbed)).of_state rfl rfl rfl

theorem rollTurn (hd : Quiet d) (h : w.Shown d lib) {old : Roller} (hroller : w.roller = some old) (i : Input) :
    Goes d lib (rollTurn d lib w old i) := by
  unfold Scope.rollTurn
  dsimp only
  split
  · rename_i e herror
    split
    · exact fun hgoes => by cases hgoes
    · intro _
      have hlog : (stopRolling d (Scope.rollStep d w old i).1).log = w.log :=
        (Loop.log_of_records (stopRolling_records d _)).trans (rollStep_log d w old i)
      have hpublished : (publishState d lib { stopRolling d (Scope.rollStep d w old i).1 with acquiring := false }).Shown
          d lib := by
        refine publish ?_
        show ∀ held ∈ (stopRolling d (Scope.rollStep d w old i).1).log.waiting, wantsSamples held.request = true
        rw [hlog]
        exact h.samples
      split
      · exact hpublished.answerWaiting hd
      · exact hpublished
  · rename_i hok
    have hstep := h.rollStep hd hroller i hok
    split
    · exact fun _ => hstep.answerWaiting hd
    · exact fun _ => hstep

theorem refreshStep (hd : Quiet d) (h : w.Shown d lib) (i : Input) : Goes d lib (refreshStep d lib w i) := by
  unfold Scope.refreshStep
  split
  · dsimp only
    split
    · exact fun _ => publish h.samples
    · rename_i e herror
      refine fun _ => h.scope (hd.refreshSettings w.scope fun b hb => ?_)
      rw [herror] at hb
      cases hb
    · rename_i hchanged _
      refine fun _ => h.scope (hd.refreshSettings w.scope fun b hb => ?_)
      cases b with
      | false => rfl
      | true => exact absurd hb hchanged
  · exact fun _ => h

theorem poll (hd : Quiet d) (h : w.Shown d lib) (i : Input) : Goes d lib (poll d lib w i) := by
  have hrefreshed := h.refreshStep hd i
  unfold Scope.poll
  split
  · exact fun hgoes => by cases hgoes
  · rename_i heq
    rw [heq] at hrefreshed
    have hshown := hrefreshed rfl
    split
    · exact hshown.rollTurn hd ‹_› i
    · split
      · exact hshown.acquire hd i
      · exact fun _ => hshown

theorem turn (hd : Quiet d) (h : w.Shown d lib) {i : Input} (hturn : turn d lib w i = some (w', none)) :
    w'.Shown d lib := by
  unfold Scope.turn at hturn
  split at hturn
  · cases hturn
  · have hwait := h.waitState hd i.settleNow
    dsimp only at hturn
    split at hturn
    · cases hturn
      exact hwait.receive hd _ i.holdNow
    · split at hturn
      · have hpoll := hwait.poll hd i
        rw [Option.some.inj hturn] at hpoll
        exact hpoll rfl
      · cases hturn

theorem startLoop (scope : σ) (acquiring : Bool) (sequence version : Nat) (published : List ScopeState)
    (restoreFrom : Option ScopeState) :
    (startLoop d lib scope acquiring sequence version published restoreFrom).Shown d lib := by
  refine publish ?_
  cases restoreFrom with
  | none => exact fun held hheld => by cases hheld
  | some settings =>
    have hlog := restore_log d lib ((newLoop d scope acquiring sequence version published).refreshTrigger d) settings
    intro held hheld
    rw [Option.elim_some, show (restore d lib _ settings).waiting = [] from congrArg Log.waiting hlog] at hheld
    cases hheld

end Loop.Shown

/-! ### Versions -/

structure Loop.Ordered (w : Loop σ) : Prop where
  increasing : w.published.Pairwise fun a b => a.version < b.version
  bound : ∀ s ∈ w.published, s.version ≤ w.version

namespace Loop.Ordered

variable {w w' : Loop σ}

theorem of_log (h : w.Ordered) (hversion : w'.version = w.version) (hpublished : w'.published = w.published) :
    w'.Ordered := by
  refine ⟨?_, ?_⟩
  · rw [hpublished]
    exact h.increasing
  · rw [hpublished, hversion]
    exact h.bound

theorem publish (h : w.Ordered) : (publishState d lib w).Ordered := by
  refine ⟨List.pairwise_append.mpr ⟨h.increasing, List.pairwise_singleton _ _, ?_⟩, ?_⟩
  · intro a ha b hb
    rw [List.mem_singleton.mp hb]
    exact Nat.lt_succ_of_le (h.bound a ha)
  · intro s hs
    rcases List.mem_append.mp hs with hs | hs
    · exact Nat.le_succ_of_le (h.bound s hs)
    · rw [List.mem_singleton.mp hs]
      exact Nat.le_refl _

theorem kept : Kept d lib (fun w : Loop σ => w.Ordered) where
  rest h _ hversion hpublished := h.of_log hversion hpublished
  publish h := h.publish d lib
  serve {w} request h := by
    have hlog := serve_log d lib w request
    exact h.of_log (congrArg Log.version hlog) (congrArg Log.published hlog)
  keep _ h := h.of_log rfl rfl

end Loop.Ordered

end Lager.Scope
