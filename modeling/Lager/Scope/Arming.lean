import Lager.Scope.Published
import Lager.Scope.Samples

/-!
# Who arms the unit

An acquisition polls a unit for a block, so somebody has to have armed it: the loop after a read-out or when a
held-back arm is due, a setter of the driver, or the backstop after a refused request. `Arming` says what each driver
call does to the unit. `Loop.Attended` is the invariant: an acquiring loop streams, or has an armed unit, or has an
arm scheduled for a unit that is still set up, and no arm it issued left a held-back one scheduled.

Two paths break it, and `Meets` excludes them: a refused start of roll mode arms a block and leaves a held-back arm
scheduled, and a refused `set_acquisition` or `set_holdoff` has no backstop.
-/

namespace Lager.Scope

variable {σ : Type} {d : Driver σ} (lib : Lib)

/-- What the calls of a driver do to the unit. A call that is refused leaves it in any state, except a read-out. -/
structure Arming (d : Driver σ) where
  status : σ → ArmState
  start : ∀ p s, (d.startTriggeredCapture p s).1 = .ok () → status (d.startTriggeredCapture p s).2 = .armed
  rearm : ∀ s, (d.rearm s).1 = .ok () → status (d.rearm s).2 = .armed
  force : ∀ s, (d.forceTrigger s).1 = .ok () → status (d.forceTrigger s).2 = .armed
  stop : ∀ s, status (d.stopTriggeredCapture s).2 = .off
  startRoll : ∀ p s, status (d.startRoll p s).2 = .off
  readOut : ∀ s frame, (d.getTriggeredData s).1 = .ok frame → status s ≠ .off →
    status (d.getTriggeredData s).2 = .spent
  readOut_refused : ∀ s e, (d.getTriggeredData s).1 = .error e → status (d.getTriggeredData s).2 = status s
  set : ∀ x s, (d.set x s).1 = .ok () → status s ≠ .off → status (d.set x s).2 = .armed
  setAcquisition : ∀ m n s, (d.setAcquisition m n s).1 = some (.ok ()) → status s ≠ .off →
    status (d.setAcquisition m n s).2 = .armed
  setHoldoff : ∀ x s, (d.setHoldoff x s).1 = some (.ok ()) → status s ≠ .off → status (d.setHoldoff x s).2 = .armed
  scpi : ∀ c s t, (d.scpi c s).1 = some (.ok t) → status s ≠ .off → status (d.scpi c s).2 = .armed
  setAcquisition_none : ∀ m n s, (d.setAcquisition m n s).1 = none → status (d.setAcquisition m n s).2 = status s
  setHoldoff_none : ∀ x s, (d.setHoldoff x s).1 = none → status (d.setHoldoff x s).2 = status s
  isReady : ∀ s, status (d.isReady s).2 = status s
  refreshSettings : ∀ s, status (d.refreshSettings s).2 = status s
  measureAll : ∀ c s, status (d.measureAll c s).2 = status s
  measureOne : ∀ c which s, status (d.measureOne c which s).2 = status s
  readRecord : ∀ s, status (d.readRecord s).2 = status s
  opened : ∀ s, (d.acquiringAfterOpen s).1 = .ok true → status (d.acquiringAfterOpen s).2 = .armed

variable (A : Arming d)

/-! ### The invariant -/

/-- No arm was issued that left a held-back one scheduled. -/
def Loop.Single (w : Loop σ) : Prop := ∀ a ∈ w.arms, a = none

structure Loop.Attended (w : Loop σ) : Prop where
  polls : w.acquiring = true →
    w.roller.isSome = true ∨ A.status w.scope = .armed ∨ (w.armAt.isSome = true ∧ A.status w.scope ≠ .off)
  rolls : w.roller.isSome = true → w.armAt = none
  single : w.Single

/-- Nothing is scheduled, and a unit that is polled is armed, unless the hardware has refused the request. -/
structure Loop.Settled (refused : Prop) (w : Loop σ) : Prop where
  polls : w.acquiring = true → w.roller.isSome = true ∨ A.status w.scope = .armed ∨ refused
  none : w.armAt = none
  single : w.Single

variable {A}
variable {w w' : Loop σ} {refused : Prop}

theorem Loop.Settled.attended (h : w.Settled A False) : w.Attended A := by
  refine ⟨fun hacq => ?_, fun _ => h.none, h.single⟩
  rcases h.polls hacq with hroll | harmed | hrefused
  · exact .inl hroll
  · exact .inr (.inl harmed)
  · exact hrefused.elim

theorem Loop.Single.issued (h : w.Single) (hnone : w.armAt = none) : w.issued.Single := by
  intro a ha
  rcases List.mem_append.mp ha with ha | ha
  · exact h a ha
  · exact (List.mem_singleton.mp ha).trans hnone

/-- A unit that is polled between captures is set up. -/
theorem Loop.Attended.set_up (h : w.Attended A) (hacq : w.acquiring = true) (hblock : w.roller = .none) :
    A.status w.scope ≠ .off := by
  rcases h.polls hacq with hroll | harmed | ⟨-, hup⟩
  · rw [hblock] at hroll
    cases hroll
  · rw [harmed]
    nofun
  · exact hup

/-- What the loop has planned for the unit is the same. -/
structure SamePlan (w w' : Loop σ) : Prop where
  acquiring : w'.acquiring = w.acquiring
  roller : w'.roller.isSome = w.roller.isSome
  armAt : w'.armAt = w.armAt
  arms : w'.arms = w.arms

/-- A call that arms a polled unit or leaves it as it was. -/
theorem Loop.Attended.call (h : w.Attended A) (hplan : SamePlan w w')
    (hs : w.acquiring = true → w.roller = none → A.status w'.scope = .armed ∨ A.status w'.scope = A.status w.scope) :
    w'.Attended A := by
  refine ⟨?_, ?_, ?_⟩
  · rw [hplan.acquiring, hplan.roller, hplan.armAt]
    intro hacq
    cases hroller : w.roller with
    | some roller => exact .inl rfl
    | none =>
      rcases hs hacq hroller with harmed | hsame
      · exact .inr (.inl harmed)
      · rw [hsame, ← hroller]
        exact h.polls hacq
  · rw [hplan.roller, hplan.armAt]
    exact h.rolls
  · unfold Loop.Single
    rw [hplan.arms]
    exact h.single

/-! ### Rolling -/

@[simp] theorem stopRolling_acquiring (w : Loop σ) : (stopRolling d w).acquiring = w.acquiring := by
  unfold stopRolling
  split <;> rfl

@[simp] theorem stopRolling_armAt (w : Loop σ) : (stopRolling d w).armAt = w.armAt := by
  unfold stopRolling
  split <;> rfl

@[simp] theorem stopRolling_arms (w : Loop σ) : (stopRolling d w).arms = w.arms := by
  unfold stopRolling
  split <;> rfl

@[simp] theorem stopRolling_roller (w : Loop σ) : (stopRolling d w).roller = none := by
  unfold stopRolling
  split
  · rfl
  · exact Option.not_isSome_iff_eq_none.mp ‹_›

theorem stopRolling_of_block (h : w.roller = none) : stopRolling d w = w := by
  simp [stopRolling, h]

theorem armBlock_settled (A : Arming d) (hnone : w.armAt = none) (hsingle : w.Single) : (armBlock d w).Settled A refused := by
  unfold armBlock
  dsimp only
  split
  · rename_i hok
    exact ⟨fun _ => .inr (.inl (A.start _ _ hok)), hnone, Loop.Single.issued hsingle hnone⟩
  · refine ⟨?_, hnone, hsingle⟩
    intro hacq
    cases hacq

theorem startRolling_settled (A : Arming d) (hnone : w.armAt = none) (hsingle : w.Single) (wanted : Float) :
    (startRolling d w wanted).Settled A refused := by
  have hsingle' : (stopRolling d w).Single := by
    unfold Loop.Single
    rw [stopRolling_arms]
    exact hsingle
  unfold startRolling
  dsimp only
  split
  · exact ⟨fun _ => .inl rfl, rfl, hsingle'⟩
  · exact armBlock_settled A (by simpa using hnone) hsingle'

theorem leaveRolling_settled (hnone : w.armAt = none) (hsingle : w.Single) {wasRolling : Bool}
    (hpolls : w.acquiring = true →
      w.roller.isSome = true ∨ wasRolling = true ∨ A.status w.scope = .armed ∨ refused) :
    (leaveRolling d w wasRolling).Settled A refused := by
  have hnone' : (stopRolling d w).armAt = none := by simpa using hnone
  have hsingle' : (stopRolling d w).Single := by
    unfold Loop.Single
    rw [stopRolling_arms]
    exact hsingle
  unfold leaveRolling
  dsimp only
  split
  · exact armBlock_settled A hnone' hsingle'
  · rename_i hstays
    -- nothing streamed, so the unit is as it was
    refine ⟨fun hacq => .inr ?_, hnone', hsingle'⟩
    rw [hacq, Bool.true_and, Bool.not_eq_true, Bool.or_eq_false_iff] at hstays
    rw [stopRolling_acquiring] at hacq
    rcases hpolls hacq with hroll | hwas | harmed | hrefused
    · rw [hstays.1] at hroll
      cases hroll
    · rw [hstays.2] at hwas
      cases hwas
    · rw [stopRolling_of_block (by simpa using hstays.1)]
      exact .inl harmed
    · exact .inr hrefused

theorem reconcileRoll_settled (hnone : w.armAt = none) (hsingle : w.Single) {wasRolling : Bool}
    (hpolls : w.acquiring = true →
      w.roller.isSome = true ∨ wasRolling = true ∨ A.status w.scope = .armed ∨ refused) :
    (reconcileRoll d w wasRolling).Settled A refused := by
  unfold reconcileRoll
  split
  · split
    · rename_i hrolls
      refine ⟨fun _ => .inl ?_, hnone, hsingle⟩
      unfold rollsAt at hrolls
      split at hrolls
      · rename_i heq
        rw [heq]
        rfl
      · cases hrolls
    · exact startRolling_settled A hnone hsingle _
  · exact leaveRolling_settled hnone hsingle hpolls

/-- The backstop arms a unit that is polled, or gives the acquisition up. -/
theorem backstop_of_polling (hblock : w.roller = none) (hacq : w.acquiring = true) (hsingle : w.Single) :
    (backstop d w).Settled A False := by
  simp only [backstop, hblock, hacq, Option.isNone_none, Bool.and_self, if_true]
  split
  · rename_i hok
    exact ⟨fun _ => .inr (.inl (A.rearm _ hok)), rfl, Loop.Single.issued hsingle rfl⟩
  · refine ⟨?_, rfl, hsingle⟩
    intro hacq
    cases hacq

theorem backstop_of_idle (h : w.roller.isSome = true ∨ w.acquiring = false) : backstop d w = w := by
  unfold backstop
  refine if_neg fun hpolls => ?_
  rw [Bool.and_eq_true, Option.isNone_iff_eq_none] at hpolls
  rcases h with h | h
  · rw [hpolls.1] at h
    cases h
  · rw [hpolls.2] at h
    cases h

theorem backstop_settled (h : w.Settled A refused) : (backstop d w).Settled A False := by
  cases hroller : w.roller with
  | some roller =>
    rw [backstop_of_idle (.inl (by rw [hroller]; rfl))]
    exact ⟨fun _ => .inl (by rw [hroller]; rfl), h.none, h.single⟩
  | none =>
    cases hacq : w.acquiring with
    | true => exact backstop_of_polling hroller hacq h.single
    | false =>
      rw [backstop_of_idle (.inr hacq)]
      refine ⟨fun htrue => ?_, h.none, h.single⟩
      rw [hacq] at htrue
      cases htrue

/-! ### Requests that program the device -/

/-- The device has been programmed, or has refused. -/
theorem handle_touching {request : ScopeRequest} (h : w.Attended A) (htouches : touchesHardware request = true) :
    (handle d lib (stopRolling d w) request).1.roller = none ∧
    (handle d lib (stopRolling d w) request).1.armAt = none ∧
    (handle d lib (stopRolling d w) request).1.Single ∧
    ((handle d lib (stopRolling d w) request).1.acquiring = true → w.roller.isSome = true ∨
      A.status (handle d lib (stopRolling d w) request).1.scope = .armed ∨
      (handle d lib (stopRolling d w) request).2.isError = true) := by
  have hsingle : (stopRolling d w).Single := by
    unfold Loop.Single
    rw [stopRolling_arms]
    exact h.single
  -- the unit a setter finds, if it was not streaming
  have hup (hacq : (stopRolling d w).acquiring = true) :
      w.roller.isSome = true ∨ A.status (stopRolling d w).scope ≠ .off := by
    rw [stopRolling_acquiring] at hacq
    cases hroller : w.roller with
    | some roller => exact .inl rfl
    | none =>
      rw [stopRolling_of_block hroller]
      exact .inr (h.set_up hacq hroller)
  cases request with
  | set x =>
    simp only [handle, invalidate, invalidatesThePublishedCapture, touchesHardware, if_true, respond, Loop.reply]
    split
    · rename_i hok
      refine ⟨stopRolling_roller w, rfl, hsingle, fun hacq => ?_⟩
      rcases hup hacq with hroll | hup
      · exact .inl hroll
      · exact .inr (.inl (A.set x _ hok hup))
    · exact ⟨stopRolling_roller w, rfl, hsingle, fun _ => .inr (.inr rfl)⟩
  | startAcquisition p =>
    simp only [handle, invalidate, invalidatesThePublishedCapture, touchesHardware, if_true, respond, Loop.reply]
    split
    · rename_i hok
      exact ⟨stopRolling_roller w, rfl, Loop.Single.issued hsingle rfl, fun _ => .inr (.inl (A.start p _ hok))⟩
    · exact ⟨stopRolling_roller w, rfl, hsingle, fun _ => .inr (.inr rfl)⟩
  | scpi c =>
    simp only [handle, invalidate, invalidatesThePublishedCapture, touchesHardware, if_true, respond]
    split
    · rename_i t hok
      refine ⟨stopRolling_roller w, rfl, hsingle, fun hacq => ?_⟩
      rcases hup hacq with hroll | hup
      · exact .inl hroll
      · exact .inr (.inl (A.scpi c _ t hok hup))
    · exact ⟨stopRolling_roller w, rfl, hsingle, fun _ => .inr (.inr rfl)⟩
    · exact ⟨stopRolling_roller w, rfl, hsingle, fun _ => .inr (.inr rfl)⟩
  | stopAcquisition =>
    simp only [handle, invalidate, invalidatesThePublishedCapture, respond, Loop.reply]
    split
    · refine ⟨stopRolling_roller w, rfl, hsingle, ?_⟩
      intro hacq
      cases hacq
    · refine ⟨stopRolling_roller w, rfl, hsingle, ?_⟩
      intro hacq
      cases hacq
  | _ => simp [touchesHardware, invalidatesThePublishedCapture] at htouches

theorem serve_touching {request : ScopeRequest} (h : w.Attended A) (htouches : touchesHardware request = true) :
    (serve d lib w request).1.Attended A := by
  obtain ⟨hroller, hnone, hsingle, hpolls⟩ := handle_touching lib h htouches
  have hresumed : (resumeRoll d (handle d lib (stopRolling d w) request).1 request w.roller.isSome).Settled A
      ((handle d lib (stopRolling d w) request).2.isError = true) := by
    rw [resumeRoll, htouches, Bool.true_or, if_pos rfl]
    apply reconcileRoll_settled
    · exact hnone
    · exact hsingle
    · intro hacq
      rcases hpolls hacq with hwas | harmed | hrefused
      · exact .inr (.inl hwas)
      · exact .inr (.inr (.inl harmed))
      · exact .inr (.inr (.inr hrefused))
  have hrefused : isRefused request (handle d lib (stopRolling d w) request).2 =
      (handle d lib (stopRolling d w) request).2.isError := by simp [isRefused, htouches]
  simp only [serve, pauseRoll, htouches, if_true, hrefused]
  split
  · exact (backstop_settled hresumed).attended
  · rename_i haccepted
    refine Loop.Settled.attended ⟨fun hacq => ?_, hresumed.none, hresumed.single⟩
    rcases hresumed.polls hacq with hroll | harmed | hrefused
    · exact .inl hroll
    · exact .inr (.inl harmed)
    · exact absurd hrefused haccepted

/-! ### Requests that the loop applies -/

/-- The request changes the state without programming the device: `SetAcquisition`, `SetRoll`, `SetHoldoff` and
`SetDisplay`. -/
def loopApplied (request : ScopeRequest) : Bool := changesState request && !touchesHardware request

/-- The loop is to start streaming, and the unit refuses. -/
def rollRefused (d : Driver σ) (w : Loop σ) : Bool :=
  match rollTimePerDiv d w with
  | some wanted => !rollsAt w wanted && (d.startRoll (rollPlan wanted) (stopRolling d w).scope).1.toOption.isNone
  | none => false

/-- No start of roll mode is refused while an arm is held back, and an instrument that refuses an acquisition mode
or a holdoff while it is polled goes on as it was. -/
structure Meets (A : Arming d) (w : Loop σ) (request : ScopeRequest) : Prop where
  roll : loopApplied request = true → w.armAt.isSome = true →
    rollRefused d ((handle d lib w request).1.refreshTrigger d) = false
  acquisition : ∀ mode count e, request = .setAcquisition mode count → w.acquiring = true → w.roller = none →
    (d.setAcquisition mode (count.getD w.averageCount) w.scope).1 = some (.error e) →
    A.status (d.setAcquisition mode (count.getD w.averageCount) w.scope).2 = A.status w.scope
  holdoff : ∀ seconds e, request = .setHoldoff seconds → w.acquiring = true → w.roller = none →
    (d.setHoldoff seconds w.scope).1 = some (.error e) →
    A.status (d.setHoldoff seconds w.scope).2 = A.status w.scope

theorem reconcileRoll_attended (h : w.Attended A) (hroll : w.armAt.isSome = true → rollRefused d w = false) :
    (reconcileRoll d w w.roller.isSome).Attended A := by
  cases harm : w.armAt with
  | none =>
    refine Loop.Settled.attended (reconcileRoll_settled harm h.single fun hacq => ?_)
    rcases h.polls hacq with hroll | harmed | ⟨hsome, -⟩
    · exact .inl hroll
    · exact .inr (.inr (.inl harmed))
    · rw [harm] at hsome
      cases hsome
  | some due =>
    -- an arm is held back, so nothing streams
    have hroller : w.roller = none := by
      by_contra hsome
      have := h.rolls (Option.isSome_iff_ne_none.mpr hsome)
      rw [harm] at this
      cases this
    have haccepted := hroll (by rw [harm]; rfl)
    unfold reconcileRoll
    unfold rollRefused at haccepted
    cases hwanted : rollTimePerDiv d w with
    | none => simpa [leaveRolling, hroller, stopRolling_of_block hroller] using h
    | some wanted =>
      have hrolls : rollsAt w wanted = false := by simp [rollsAt, hroller]
      simp only [hwanted, hrolls, Bool.not_false, Bool.true_and] at haccepted
      simp only [hrolls, Bool.false_eq_true, if_false, startRolling]
      split
      · refine Loop.Settled.attended ⟨fun _ => .inl rfl, rfl, ?_⟩
        show ∀ a ∈ (stopRolling d w).arms, a = none
        rw [stopRolling_arms]
        exact h.single
      · rename_i hrefused
        rw [hrefused] at haccepted
        cases haccepted

theorem setAcquisition_attended (h : w.Attended A) {mode : AcquisitionMode} {count : Option Nat}
    (hrefused : ∀ e, w.acquiring = true → w.roller = none →
      (d.setAcquisition mode (count.getD w.averageCount) w.scope).1 = some (.error e) →
      A.status (d.setAcquisition mode (count.getD w.averageCount) w.scope).2 = A.status w.scope) :
    (setAcquisition d w mode count).1.Attended A := by
  unfold setAcquisition
  dsimp only
  split
  · exact h
  · split
    · exact h
    · split
      · rename_i e herror
        exact h.call ⟨rfl, rfl, rfl, rfl⟩ fun hacq hblock => .inr (hrefused e hacq hblock herror)
      · rename_i happlied
        refine h.call ⟨rfl, rfl, rfl, rfl⟩ fun hacq hblock => ?_
        cases hresult : (d.setAcquisition mode (count.getD w.averageCount) w.scope).1 with
        | none => exact .inr (A.setAcquisition_none _ _ _ hresult)
        | some result =>
          cases result with
          | ok _ => exact .inl (A.setAcquisition _ _ _ hresult (h.set_up hacq hblock))
          | error e => exact absurd hresult (happlied e)

theorem setHoldoff_attended (h : w.Attended A) {seconds : Float}
    (hrefused : ∀ e, w.acquiring = true → w.roller = none →
      (d.setHoldoff seconds w.scope).1 = some (.error e) →
      A.status (d.setHoldoff seconds w.scope).2 = A.status w.scope) :
    (setHoldoff d lib w seconds).1.Attended A := by
  unfold setHoldoff
  dsimp only
  split
  · exact h
  · split
    · rename_i e herror
      exact h.call ⟨rfl, rfl, rfl, rfl⟩ fun hacq hblock => .inr (hrefused e hacq hblock herror)
    · rename_i happlied
      refine h.call ⟨rfl, rfl, rfl, rfl⟩ fun hacq hblock => ?_
      cases hresult : (d.setHoldoff seconds w.scope).1 with
      | none => exact .inr (A.setHoldoff_none _ _ hresult)
      | some result =>
        cases result with
        | ok _ => exact .inl (A.setHoldoff _ _ hresult (h.set_up hacq hblock))
        | error e => exact absurd hresult (happlied e)

/-- Whatever becomes of the unit, the plan for it is the same. -/
theorem handle_applied_plan (w : Loop σ) {request : ScopeRequest} (happlied : loopApplied request = true) :
    SamePlan w (handle d lib w request).1 := by
  cases request with
  | setAcquisition mode count =>
    simp only [handle, invalidate, invalidatesThePublishedCapture, touchesHardware, if_true, respond, setAcquisition]
    split
    · exact ⟨rfl, rfl, rfl, rfl⟩
    · split
      · exact ⟨rfl, rfl, rfl, rfl⟩
      · split <;> exact ⟨rfl, rfl, rfl, rfl⟩
  | setHoldoff seconds =>
    rw [handle_of_keeps d lib w rfl]
    simp only [respond, setHoldoff]
    split
    · exact ⟨rfl, rfl, rfl, rfl⟩
    · split <;> exact ⟨rfl, rfl, rfl, rfl⟩
  | setRoll mode =>
    simp only [handle, invalidate, invalidatesThePublishedCapture, touchesHardware, if_true, respond]
    split <;> exact ⟨rfl, rfl, rfl, rfl⟩
  | setDisplay patch =>
    rw [handle_of_keeps d lib w rfl]
    simp only [respond, setDisplay]
    split <;> exact ⟨rfl, rfl, rfl, rfl⟩
  | _ => simp [loopApplied, changesState, touchesHardware, invalidatesThePublishedCapture] at happlied

theorem handle_applied {request : ScopeRequest} (h : w.Attended A) (hmeets : Meets lib A w request)
    (happlied : loopApplied request = true) : (handle d lib w request).1.Attended A := by
  have hplan := handle_applied_plan (d := d) lib w happlied
  cases request with
  | setAcquisition mode count =>
    have hinvalid : (invalidate w (.setAcquisition mode count)).Attended A :=
      h.call ⟨rfl, rfl, rfl, rfl⟩ fun _ _ => .inr rfl
    exact setAcquisition_attended hinvalid fun e hacq hblock => hmeets.acquisition mode count e rfl hacq hblock
  | setHoldoff seconds => exact setHoldoff_attended lib h fun e hacq hblock => hmeets.holdoff seconds e rfl hacq hblock
  | setRoll mode =>
    refine h.call hplan fun _ _ => .inr ?_
    simp only [handle, invalidate, invalidatesThePublishedCapture, touchesHardware, if_true, respond]
    split <;> rfl
  | setDisplay patch =>
    refine h.call hplan fun _ _ => .inr ?_
    rw [handle_of_keeps d lib w rfl]
    simp only [respond, setDisplay]
    split <;> rfl
  | _ => simp [loopApplied, changesState, touchesHardware, invalidatesThePublishedCapture] at happlied

theorem serve_applied {request : ScopeRequest} (h : w.Attended A) (hmeets : Meets lib A w request)
    (happlied : loopApplied request = true) : (serve d lib w request).1.Attended A := by
  obtain ⟨hchanges, htouches⟩ : changesState request = true ∧ touchesHardware request = false := by
    simpa [loopApplied] using happlied
  have hforce : isForceTrigger request = false := by
    cases request <;> simp_all [isForceTrigger, changesState, invalidatesThePublishedCapture]
  have hplan := handle_applied_plan (d := d) lib w happlied
  have hhandled := handle_applied lib h hmeets happlied
  have hresumed : (reconcileRoll d ((handle d lib w request).1.refreshTrigger d) w.roller.isSome).Attended A := by
    rw [← hplan.roller]
    refine reconcileRoll_attended (hhandled.call ⟨rfl, rfl, rfl, rfl⟩ fun _ _ => .inr rfl) fun hsome => ?_
    refine hmeets.roll happlied ?_
    rw [← hplan.armAt]
    exact hsome
  simpa [serve, pauseRoll, htouches, resumeRoll, hchanges, isRefused, hforce] using hresumed

/-! ### The other requests -/

theorem serve_forceTrigger (h : w.Attended A) : (serve d lib w .forceTrigger).1.Attended A := by
  rw [serve_of_quiet d lib w rfl]
  have hrefuses (reply : ScopeReply) : isRefused .forceTrigger reply = reply.isError := by
    simp [isRefused, isForceTrigger]
  simp only [hrefuses, respond, forceTrigger]
  cases hroller : w.roller with
  | some roller =>
    simp only [Option.isSome_some, if_true, ScopeReply.isError]
    rw [backstop_of_idle (.inl (by rw [hroller]; rfl))]
    exact h
  | none =>
    cases hacq : w.acquiring with
    | false =>
      simp only [Option.isSome_none, Bool.false_eq_true, if_false, Bool.not_false, if_true, ScopeReply.isError]
      rw [backstop_of_idle (.inr hacq)]
      exact h
    | true =>
      simp only [Option.isSome_none, Bool.false_eq_true, if_false, Bool.not_true]
      cases hforce : (d.forceTrigger w.scope).1 with
      | ok _ =>
        simp only [ScopeReply.isError, Bool.false_eq_true, if_false]
        exact Loop.Settled.attended ⟨fun _ => .inr (.inl (A.force _ hforce)), rfl, Loop.Single.issued h.single rfl⟩
      | error e =>
        simp only [Loop.failed, ScopeReply.isError, if_true]
        refine (backstop_of_polling ?_ ?_ ?_).attended
        · rfl
        · rfl
        · exact h.single

/-- The requests that only read leave the unit and the plan. -/
theorem respond_reads (A : Arming d) (w : Loop σ) {request : ScopeRequest} (hquiet : changesState request = false)
    (hforce : isForceTrigger request = false) :
    SamePlan w (respond d lib w request).1 ∧ A.status (respond d lib w request).1.scope = A.status w.scope := by
  have hmeasure (channel : ChannelId) (pick : MeasurementSet → Except ReplyError ScopeReply) :
      SamePlan w (measure d lib w channel pick).1 ∧
        A.status (measure d lib w channel pick).1.scope = A.status w.scope := by
    have hstatus := A.measureAll channel w.scope
    unfold measure
    dsimp only
    split
    · split <;> exact ⟨⟨rfl, rfl, rfl, rfl⟩, hstatus⟩
    · exact ⟨⟨rfl, rfl, rfl, rfl⟩, hstatus⟩
    · split
      · exact ⟨⟨rfl, rfl, rfl, rfl⟩, hstatus⟩
      · split <;> exact ⟨⟨rfl, rfl, rfl, rfl⟩, hstatus⟩
  cases request with
  | set s | startAcquisition p | stopAcquisition | setDisplay p | setAcquisition m c | setHoldoff s | setRoll m
  | scpi c => simp [changesState, invalidatesThePublishedCapture] at hquiet
  | forceTrigger => cases hforce
  | get q =>
    simp only [respond]
    split <;> exact ⟨⟨rfl, rfl, rfl, rfl⟩, rfl⟩
  | getTimePerDiv =>
    simp only [respond]
    split
    · exact ⟨⟨rfl, rfl, rfl, rfl⟩, rfl⟩
    · split <;> exact ⟨⟨rfl, rfl, rfl, rfl⟩, rfl⟩
  | getTriggeredData =>
    have hstatus := A.readRecord w.scope
    simp only [respond, getTriggeredData]
    split
    · exact ⟨⟨rfl, rfl, rfl, rfl⟩, hstatus⟩
    · exact ⟨⟨rfl, rfl, rfl, rfl⟩, hstatus⟩
    · split <;> exact ⟨⟨rfl, rfl, rfl, rfl⟩, hstatus⟩
  | measure channel which => exact hmeasure channel _
  | measureAll channel => exact hmeasure channel _
  | measureOne channel which =>
    have hstatus := A.measureOne channel which w.scope
    simp only [respond]
    split <;> exact ⟨⟨rfl, rfl, rfl, rfl⟩, hstatus⟩
  | isReady | getState | getDisplay | getAcquisition | getHoldoff | getRoll => exact ⟨⟨rfl, rfl, rfl, rfl⟩, rfl⟩

theorem serve_reads (h : w.Attended A) {request : ScopeRequest} (hquiet : changesState request = false)
    (hforce : isForceTrigger request = false) : (serve d lib w request).1.Attended A := by
  obtain ⟨-, htouches⟩ := changesState_false hquiet
  obtain ⟨hplan, hstatus⟩ := respond_reads lib A w hquiet hforce
  rw [serve_of_quiet d lib w hquiet]
  simp only [isRefused, htouches, hforce, Bool.or_self, Bool.false_and, Bool.false_eq_true, if_false]
  exact h.call hplan fun _ _ => .inr hstatus

/-- **One request.** -/
theorem Loop.Attended.serve {request : ScopeRequest} (h : w.Attended A) (hmeets : Meets lib A w request) :
    (serve d lib w request).1.Attended A := by
  cases htouches : touchesHardware request with
  | true => exact serve_touching lib h htouches
  | false =>
    cases hchanges : changesState request with
    | true => exact serve_applied lib h hmeets (by simp [loopApplied, hchanges, htouches])
    | false =>
      cases hforce : isForceTrigger request with
      | false => exact serve_reads lib h hchanges hforce
      | true =>
        cases request with
        | forceTrigger => exact serve_forceTrigger lib h
        | _ => cases hforce

/-! ### The loop -/

/-- Serving requests for samples leaves the unit, the plan and the log. -/
theorem serveAll_plan (A : Arming d) (w : Loop σ) {held : List Waiting}
    (hheld : ∀ x ∈ held, wantsSamples x.request = true) :
    SamePlan w (held.foldl (fun w held => (serve d lib w held.request).1) w) ∧
    A.status (held.foldl (fun w held => (serve d lib w held.request).1) w).scope = A.status w.scope ∧
    (held.foldl (fun w held => (serve d lib w held.request).1) w).log = w.log := by
  induction held generalizing w with
  | nil => exact ⟨⟨rfl, rfl, rfl, rfl⟩, rfl, rfl⟩
  | cons first rest ih =>
    have hwants := hheld first List.mem_cons_self
    obtain ⟨hquiet, hforce, htouches⟩ : changesState first.request = false ∧ isForceTrigger first.request = false ∧
        touchesHardware first.request = false := by
      cases hrequest : first.request <;>
        simp_all [wantsSamples, changesState, isForceTrigger, touchesHardware, invalidatesThePublishedCapture]
    obtain ⟨hplan, hstatus⟩ := respond_reads lib A w hquiet hforce
    have hserve : (serve d lib w first.request).1 = (respond d lib w first.request).1 := by
      rw [serve_of_quiet d lib w hquiet]
      simp [isRefused, htouches, hforce]
    obtain ⟨hplan', hstatus', hlog'⟩ := ih (serve d lib w first.request).1 fun x hx => hheld x (List.mem_cons_of_mem _ hx)
    rw [← hserve] at hplan hstatus
    refine ⟨⟨?_, ?_, ?_, ?_⟩, hstatus'.trans hstatus, hlog'.trans (serve_log d lib w first.request)⟩
    · exact hplan'.acquiring.trans hplan.acquiring
    · exact hplan'.roller.trans hplan.roller
    · exact hplan'.armAt.trans hplan.armAt
    · exact hplan'.arms.trans hplan.arms

theorem answerWaiting_plan (A : Arming d) (hsamples : ∀ held ∈ w.waiting, wantsSamples held.request = true) :
    SamePlan w (answerWaiting d lib w) ∧ A.status (answerWaiting d lib w).scope = A.status w.scope ∧
    (answerWaiting d lib w).waiting = [] := by
  obtain ⟨hplan, hstatus, hlog⟩ := serveAll_plan lib A { w with waiting := [] } hsamples
  exact ⟨⟨hplan.acquiring, hplan.roller, hplan.armAt, hplan.arms⟩, hstatus, congrArg Log.waiting hlog⟩

/-- Streaming goes on whatever the poll brings. -/
theorem rollStep_plan {roller : Roller} (hroller : w.roller = some roller) (i : Input) :
    SamePlan w (rollStep d w roller i).1 := by
  unfold rollStep
  dsimp only
  split
  · exact ⟨rfl, rfl, rfl, rfl⟩
  · split <;> exact ⟨rfl, by rw [hroller]; rfl, rfl, rfl⟩

structure Loop.Tended (A : Arming d) (w : Loop σ) : Prop where
  attended : w.Attended A
  samples : ∀ held ∈ w.waiting, wantsSamples held.request = true

/-- The result of an operation that may end the loop. -/
def Tends (A : Arming d) (r : Loop σ × Option Ended) : Prop := r.2 = none → r.1.Tended A

namespace Loop.Tended

theorem call (h : w.Tended A) (hplan : SamePlan w w') (hstatus : A.status w'.scope = A.status w.scope)
    (hwaiting : w'.waiting = w.waiting) : w'.Tended A := by
  refine ⟨h.attended.call hplan fun _ _ => .inr hstatus, ?_⟩
  rw [hwaiting]
  exact h.samples

theorem answerWaiting (h : w.Tended A) : (answerWaiting d lib w).Tended A := by
  obtain ⟨hplan, hstatus, hnone⟩ := answerWaiting_plan lib A h.samples
  refine ⟨h.attended.call hplan fun _ _ => .inr hstatus, ?_⟩
  simp [hnone]

theorem waitState (h : w.Tended A) (now : Nat) : (waitState d lib w now).Tended A := by
  unfold Scope.waitState
  split
  · exact h
  · have hsub (p : Waiting → Bool) : ∀ x ∈ w.waiting.filter p, wantsSamples x.request = true :=
      fun x hx => h.samples x (List.mem_of_mem_filter hx)
    have hrest (p : Waiting → Bool) : Loop.Tended A { w with waiting := w.waiting.filter p } :=
      ⟨h.attended.call ⟨rfl, rfl, rfl, rfl⟩ fun _ _ => .inr rfl, hsub p⟩
    unfold settleWaiting
    dsimp only
    split
    · exact hrest _
    · obtain ⟨hplan, hstatus, hlog⟩ := serveAll_plan lib A { w with waiting := w.waiting.filter _ } (hsub _)
      exact (hrest _).call hplan hstatus (congrArg Log.waiting hlog)

theorem receive (h : w.Tended A) {request : ScopeRequest} (hmeets : Meets lib A w request) (now : Nat) :
    (receive d lib w request now).1.Tended A := by
  unfold Scope.receive
  split
  · rename_i hwaits
    refine ⟨h.attended.call ⟨rfl, rfl, rfl, rfl⟩ fun _ _ => .inr rfl, fun x hx => ?_⟩
    rcases List.mem_append.mp hx with hx | hx
    · exact h.samples x hx
    · rw [List.mem_singleton.mp hx]
      simp_all [waitsForACapture]
  · have hserved : (serve d lib w request).1.Tended A := by
      refine ⟨h.attended.serve lib hmeets, ?_⟩
      rw [show (serve d lib w request).1.waiting = w.waiting from congrArg Log.waiting (serve_log d lib w request)]
      exact h.samples
    dsimp only
    split
    · exact hserved.call ⟨rfl, rfl, rfl, rfl⟩ rfl rfl
    · exact hserved

/-- An acquisition that was given up. -/
theorem stopped (hrolls : w.roller.isSome = true → w.armAt = none) (hsingle : w.Single) (hacq : w.acquiring = false)
    (hsamples : ∀ held ∈ w.waiting, wantsSamples held.request = true) : w.Tended A := by
  refine ⟨⟨fun htrue => ?_, hrolls, hsingle⟩, hsamples⟩
  rw [hacq] at htrue
  cases htrue

theorem rearm (A : Arming d) (hnone : w.armAt = none) (hsingle : w.Single)
    (hsamples : ∀ held ∈ w.waiting, wantsSamples held.request = true) : Tends A (rearm d lib w) := by
  unfold Tends Scope.rearm
  dsimp only
  split
  · rename_i hok
    intro _
    refine ⟨Loop.Settled.attended ⟨fun _ => .inr (.inl ?_), hnone, Loop.Single.issued hsingle hnone⟩, hsamples⟩
    exact A.rearm _ hok
  · split
    · intro hgoes
      cases hgoes
    · exact fun _ => stopped (fun _ => hnone) hsingle rfl hsamples

/-- After a read-out the unit is set up, and either the next block is armed or the arm is held back. -/
theorem afterCapture (A : Arming d) (hblock : w.roller = none) (hnone : w.armAt = none) (hsingle : w.Single)
    (hup : A.status w.scope ≠ .off) (hsamples : ∀ held ∈ w.waiting, wantsSamples held.request = true)
    (frame : CaptureFrame) (i : Input) : Tends A (afterCapture d lib w frame i) := by
  obtain ⟨hplan, hstatus, hempty⟩ := answerWaiting_plan (w := w.keep frame) lib A hsamples
  have hroller : (Scope.answerWaiting d lib (w.keep frame)).roller.isSome = false := by
    rw [hplan.roller]
    show w.roller.isSome = false
    rw [hblock]
    rfl
  have harms : (Scope.answerWaiting d lib (w.keep frame)).Single := by
    unfold Loop.Single
    rw [hplan.arms]
    exact hsingle
  have hidle : ∀ held ∈ (Scope.answerWaiting d lib (w.keep frame)).waiting, wantsSamples held.request = true := by
    simp [hempty]
  unfold Scope.afterCapture
  dsimp only
  split
  · refine fun _ => stopped ?_ harms rfl hidle
    exact fun _ => hplan.armAt.trans hnone
  · split
    · refine fun _ => ⟨⟨fun _ => .inr (.inr ⟨rfl, ?_⟩), fun hroll => ?_, harms⟩, hidle⟩
      · show A.status (Scope.answerWaiting d lib (w.keep frame)).scope ≠ .off
        rw [hstatus]
        exact hup
      · exact absurd hroll (Bool.eq_false_iff.mp hroller)
    · exact rearm lib A (hplan.armAt.trans hnone) harms hidle

theorem readOut (h : w.Tended A) (hacq : w.acquiring = true) (hblock : w.roller = none) (hnone : w.armAt = none)
    (i : Input) : Tends A (readOut d lib w i) := by
  unfold Scope.readOut
  dsimp only
  split
  · rename_i e herror
    exact fun _ => h.call ⟨rfl, rfl, rfl, rfl⟩ (A.readOut_refused _ e herror) rfl
  · rename_i raw hok
    have hspent := A.readOut _ raw hok (h.attended.set_up hacq hblock)
    have hprocessed (v : Loop σ) : (process lib v raw).1.roller = v.roller ∧ (process lib v raw).1.armAt = v.armAt ∧
        (process lib v raw).1.arms = v.arms ∧ (process lib v raw).1.scope = v.scope ∧
        (process lib v raw).1.waiting = v.waiting := by
      unfold process
      dsimp only
      split <;> exact ⟨rfl, rfl, rfl, rfl, rfl⟩
    obtain ⟨hroller, harmAt, harms, hscope, hwaiting⟩ := hprocessed { w with scope := (d.getTriggeredData w.scope).2 }
    refine afterCapture lib A (hroller.trans hblock) (harmAt.trans hnone) ?_ ?_ ?_ _ i
    · unfold Loop.Single
      rw [harms]
      exact h.attended.single
    · rw [hscope, hspent]
      nofun
    · rw [hwaiting]
      exact h.samples

theorem acquire (h : w.Tended A) (hacq : w.acquiring = true) (hblock : w.roller = none) (i : Input) :
    Tends A (acquire d lib w i) := by
  unfold Scope.acquire
  split
  · split
    · exact fun _ => h
    · exact rearm (w := { w with armAt := none }) lib A rfl h.attended.single h.samples
  · rename_i hnone
    have hready : Loop.Tended A { w with scope := (d.isReady w.scope).2 } :=
      h.call ⟨rfl, rfl, rfl, rfl⟩ (A.isReady w.scope) rfl
    dsimp only
    split
    · exact hready.readOut lib hacq hblock hnone i
    · exact fun _ => hready
    · split
      · intro hgoes
        cases hgoes
      · exact fun _ => stopped (fun _ => hnone) h.attended.single rfl h.samples

theorem rollTurn (h : w.Tended A) {roller : Roller} (hroller : w.roller = some roller) (i : Input) :
    Tends A (rollTurn d lib w roller i) := by
  have hplan := rollStep_plan (d := d) hroller i
  have hlog := rollStep_log d w roller i
  have hwaiting : (Scope.rollStep d w roller i).1.waiting = w.waiting := congrArg Log.waiting hlog
  have hnone : (Scope.rollStep d w roller i).1.armAt = none := by
    rw [hplan.armAt]
    exact h.attended.rolls (by rw [hroller]; rfl)
  have hsingle : (Scope.rollStep d w roller i).1.Single := by
    unfold Loop.Single
    rw [hplan.arms]
    exact h.attended.single
  have hstep : (Scope.rollStep d w roller i).1.Tended A := by
    refine ⟨⟨fun _ => .inl ?_, fun _ => hnone, hsingle⟩, ?_⟩
    · rw [hplan.roller, hroller]
      rfl
    · rw [hwaiting]
      exact h.samples
  unfold Scope.rollTurn
  dsimp only
  split
  · split
    · intro hgoes
      cases hgoes
    · intro _
      have hstopped : (publishState d lib
          { stopRolling d (Scope.rollStep d w roller i).1 with acquiring := false }).Tended A := by
        refine stopped (fun _ => ?_) ?_ rfl ?_
        · exact (stopRolling_armAt _).trans hnone
        · show ∀ a ∈ (stopRolling d (Scope.rollStep d w roller i).1).arms, a = none
          rw [stopRolling_arms]
          exact hsingle
        · show ∀ held ∈ (stopRolling d (Scope.rollStep d w roller i).1).log.waiting, wantsSamples held.request = true
          rw [Loop.log_of_records (stopRolling_records d _), hlog]
          exact h.samples
      split
      · exact hstopped.answerWaiting lib
      · exact hstopped
  · split
    · exact fun _ => hstep.answerWaiting lib
    · exact fun _ => hstep

theorem refreshStep (h : w.Tended A) (i : Input) : (refreshStep d lib w i).1.Tended A := by
  have hread : Loop.Tended A { w with scope := (d.refreshSettings w.scope).2 } :=
    h.call ⟨rfl, rfl, rfl, rfl⟩ (A.refreshSettings w.scope) rfl
  unfold Scope.refreshStep
  split
  · dsimp only
    split
    · exact hread.call ⟨rfl, rfl, rfl, rfl⟩ rfl rfl
    · exact hread
    · exact hread
  · exact h

theorem poll (h : w.Tended A) (i : Input) : Tends A (poll d lib w i) := by
  have hrefreshed := h.refreshStep lib i
  unfold Scope.poll
  split
  · intro hgoes
    cases hgoes
  · rename_i heq
    rw [heq] at hrefreshed
    split
    · exact hrefreshed.rollTurn lib ‹_› i
    · split
      · exact hrefreshed.acquire lib ‹_› ‹_› i
      · exact fun _ => hrefreshed

theorem goOn (h : w.Tended A) {i : Input}
    (hmeets : ∀ request, i.message = some request → Meets lib A (Scope.waitState d lib w i.settleNow) request)
    (hturn : goOn d lib w i = some w') : w'.Tended A := by
  have hwait := h.waitState lib i.settleNow
  unfold Scope.goOn at hturn
  split at hturn
  · rename_i v hv
    cases hturn
    unfold turn at hv
    split at hv
    · cases hv
    · dsimp only at hv
      split at hv
      · rename_i request hmessage
        cases hv
        exact hwait.receive lib (hmeets request hmessage) i.holdNow
      · split at hv
        · have hpoll := hwait.poll lib i
          rw [Option.some.inj hv] at hpoll
          exact hpoll rfl
        · cases hv
  · cases hturn

end Loop.Tended

/-! ### Every run -/

/-- A step of `restore`. -/
def restoreStep (d : Driver σ) (w : Loop σ) (request : ScopeRequest) : Option (Loop σ) :=
  some (if w.unitGone.isSome then w else (serve d lib w request).1)

theorem restore_tended (h : w.Tended A) (settings : ScopeState)
    (hmeets : Lib.Along (restoreStep lib d) (Meets lib A) w (restoreRequests settings)) :
    (restore d lib w settings).Tended A := by
  unfold restore
  generalize restoreRequests settings = requests at hmeets
  induction requests generalizing w with
  | nil => exact h
  | cons request rest ih =>
    obtain ⟨hfirst, hrest⟩ := hmeets
    rw [List.foldl_cons]
    refine ih ?_ (hrest _ rfl)
    split
    · exact h
    · refine ⟨h.attended.serve lib hfirst, ?_⟩
      rw [show (serve d lib w request).1.waiting = w.waiting from congrArg Log.waiting (serve_log d lib w request)]
      exact h.samples

/-- The loop as the hardware thread starts it on a scope it has opened. -/
def enterLoop (d : Driver σ) (scope : σ) (sequence version : Nat) (published : List ScopeState) : Loop σ :=
  (newLoop d (d.acquiringAfterOpen scope).2 ((d.acquiringAfterOpen scope).1.getD false) sequence version
    published).refreshTrigger d

def startedLoop (d : Driver σ) (scope : σ) (sequence version : Nat) (published : List ScopeState)
    (restoreFrom : Option ScopeState) : Loop σ :=
  startLoop d lib (d.acquiringAfterOpen scope).2 ((d.acquiringAfterOpen scope).1.getD false) sequence version published
    restoreFrom

/-- Every request put back on a reopened unit meets the condition. -/
def RestoreMeets (A : Arming d) (scope : σ) (sequence version : Nat) (published : List ScopeState)
    (restoreFrom : Option ScopeState) : Prop :=
  ∀ settings, restoreFrom = some settings →
    Lib.Along (restoreStep lib d) (Meets lib A) (enterLoop d scope sequence version published)
      (restoreRequests settings)

/-- The request a turn takes from the queue meets the condition. -/
def TurnMeets (A : Arming d) (w : Loop σ) (i : Input) : Prop :=
  ∀ request, i.message = some request → Meets lib A (waitState d lib w i.settleNow) request

theorem startedLoop_tended (A : Arming d) (scope : σ) (sequence version : Nat) (published : List ScopeState)
    (restoreFrom : Option ScopeState) (hrestore : RestoreMeets lib A scope sequence version published restoreFrom) :
    (startedLoop lib d scope sequence version published restoreFrom).Tended A := by
  have henter : (enterLoop d scope sequence version published).Tended A := by
    refine ⟨⟨fun hacq => .inr (.inl ?_), fun _ => rfl, ?_⟩, ?_⟩
    · refine A.opened scope ?_
      have hacq : (d.acquiringAfterOpen scope).1.getD false = true := hacq
      cases hopened : (d.acquiringAfterOpen scope).1 with
      | error e =>
        rw [hopened] at hacq
        cases hacq
      | ok acquiring =>
        rw [hopened] at hacq
        exact congrArg _ hacq
    · intro a ha
      cases ha
    · intro held hheld
      cases hheld
  have hrestored : (restoreFrom.elim (enterLoop d scope sequence version published)
      (restore d lib (enterLoop d scope sequence version published))).Tended A := by
    cases restoreFrom with
    | none => exact henter
    | some settings => exact restore_tended lib henter settings (hrestore settings rfl)
  exact hrestored.call ⟨rfl, rfl, rfl, rfl⟩ rfl rfl

/-- **Somebody has armed the unit.** In a run in which no start of roll mode is refused while an arm is held back,
and no instrument that refuses an acquisition mode or a holdoff is left stopped: whenever the loop waits while
acquiring, it streams, has an arm scheduled or has an armed unit, and none of the arms it has issued left a
held-back one scheduled. -/
theorem unit_is_attended (A : Arming d) (scope : σ) (sequence version : Nat) (published : List ScopeState)
    (restoreFrom : Option ScopeState) (hrestore : RestoreMeets lib A scope sequence version published restoreFrom)
    {inputs : List Input} {w : Loop σ}
    (hmeets : Lib.Along (goOn d lib) (TurnMeets lib A)
      (startedLoop lib d scope sequence version published restoreFrom) inputs)
    (hrun : Lib.run (goOn d lib) (startedLoop lib d scope sequence version published restoreFrom) inputs = some w)
    (now : Nat) :
    ((waitState d lib w now).acquiring = true → (waitState d lib w now).roller.isSome = true ∨
      (waitState d lib w now).armAt.isSome = true ∨ A.status (waitState d lib w now).scope = .armed) ∧
    ∀ left ∈ (waitState d lib w now).arms, left = none := by
  have hstart := startedLoop_tended lib A scope sequence version published restoreFrom hrestore
  have htended : w.Tended A :=
    Lib.run_invariant (fun w => w.Tended A) (fun w i w' hmeets h hstep => h.goOn lib hmeets hstep) hmeets hstart hrun
  have hwait := htended.waitState lib now
  refine ⟨fun hacq => ?_, hwait.attended.single⟩
  rcases hwait.attended.polls hacq with hroll | harmed | ⟨hheld, -⟩
  · exact .inl hroll
  · exact .inr (.inr harmed)
  · exact .inr (.inl hheld)

/-! ### The two paths that break it -/

def blockArming : Arming blockScope where
  status s := s
  start _ _ _ := rfl
  rearm _ _ := rfl
  force _ _ := rfl
  stop _ := rfl
  startRoll _ _ := rfl
  readOut _ _ _ hup := if_neg hup
  readOut_refused _ _ h := by cases h
  set _ _ _ hup := if_neg hup
  setAcquisition _ _ _ h := by cases h
  setHoldoff _ _ h := by cases h
  scpi _ _ _ h := by cases h
  setAcquisition_none _ _ _ _ := rfl
  setHoldoff_none _ _ _ := rfl
  isReady _ := rfl
  refreshSettings _ := rfl
  measureAll _ _ := rfl
  measureOne _ _ _ := rfl
  readRecord _ := rfl
  opened _ h := by cases h

/-- `blockScope` never refuses a setting, so only a start of roll mode is to be excluded. -/
theorem blockScope_meets {w : Loop ArmState} {request : ScopeRequest} (h : loopApplied request = false) :
    Meets plainLib blockArming w request where
  roll happlied := by
    rw [h] at happlied
    cases happlied
  acquisition _ _ _ _ _ _ herror := by cases herror
  holdoff _ _ _ _ _ herror := by cases herror

theorem blockScope_attended :
    ∃ w, Lib.run (goOn blockScope plainLib) (startedLoop plainLib blockScope .off 0 0 [] none) captureInputs = some w ∧
      w.arms.length = 2 ∧ ∀ left ∈ (waitState blockScope plainLib w 3).arms, left = none := by
  have hlength : (Lib.run (goOn blockScope plainLib) (startedLoop plainLib blockScope .off 0 0 [] none)
      captureInputs).map (·.arms.length) = some 2 := by decide +kernel
  obtain ⟨w, hrun, hw⟩ := Option.map_eq_some_iff.mp hlength
  have hmeets : Lib.Along (goOn blockScope plainLib) (TurnMeets plainLib blockArming)
      (startedLoop plainLib blockScope .off 0 0 [] none) captureInputs := by
    refine ⟨?_, fun _ _ => ⟨?_, fun _ _ => ⟨?_, fun _ _ => trivial⟩⟩⟩
    · intro request hrequest
      cases hrequest
      exact blockScope_meets rfl
    · intro request hrequest
      cases hrequest
      exact blockScope_meets rfl
    · intro request hrequest
      cases hrequest
  have hrestore : RestoreMeets plainLib blockArming .off 0 0 [] none := by
    intro settings hsettings
    cases hsettings
  exact ⟨w, hrun, hw, (unit_is_attended plainLib blockArming .off 0 0 [] none hrestore hmeets hrun 3).2⟩

/-- Roll mode asked for during a holdoff wait. -/
def rollInHoldoff : List Input :=
  [.at (some (.setHoldoff 0.5)) 0, .at (some (.startAcquisition 50)) 1, .at none 2, .at (some (.setRoll .on)) 3]

/-- A scope that refuses a holdoff and stops on its way to the refusal. -/
def strictScope : Driver ArmState :=
  { blockScope with setHoldoff := fun _ _ => (some (.error ⟨"the instrument refused the holdoff", false⟩), .off) }

def strictArming : Arming strictScope :=
  { blockArming with
    setHoldoff := fun _ _ h => by cases h
    setHoldoff_none := fun _ _ h => by cases h }

/-- The block that a refused roll mode arms leaves the held-back arm scheduled; and a holdoff refused while
acquiring leaves a stopped unit polled, with nothing scheduled. -/
theorem arm_left_scheduled_and_unit_left_stopped :
    (∃ w, Lib.run (goOn blockScope plainLib) (startedLoop plainLib blockScope .off 0 0 [] none) rollInHoldoff = some w ∧
      ¬∀ left ∈ (waitState blockScope plainLib w 4).arms, left = none) ∧
    ∃ w, Lib.run (goOn strictScope plainLib) (startedLoop plainLib strictScope .off 0 0 [] none)
        [.at (some (.startAcquisition 50)) 0, .at (some (.setHoldoff 0.5)) 1] = some w ∧
      (waitState strictScope plainLib w 2).acquiring = true ∧
      ¬((waitState strictScope plainLib w 2).roller.isSome = true ∨
        (waitState strictScope plainLib w 2).armAt.isSome = true ∨
        strictArming.status (waitState strictScope plainLib w 2).scope = .armed) := by
  have harms : (Lib.run (goOn blockScope plainLib) (startedLoop plainLib blockScope .off 0 0 [] none)
      rollInHoldoff).map (fun w => (waitState blockScope plainLib w 4).arms) = some [none, some 500000002] := by
    decide +kernel
  have hstopped : (Lib.run (goOn strictScope plainLib) (startedLoop plainLib strictScope .off 0 0 [] none)
      [.at (some (.startAcquisition 50)) 0, .at (some (.setHoldoff 0.5)) 1]).map
      (fun w => ((waitState strictScope plainLib w 2).acquiring, (waitState strictScope plainLib w 2).roller.isSome,
        (waitState strictScope plainLib w 2).armAt, (waitState strictScope plainLib w 2).scope)) =
      some (true, false, none, .off) := by decide +kernel
  obtain ⟨w, hrun, hw⟩ := Option.map_eq_some_iff.mp harms
  obtain ⟨w', hrun', hw'⟩ := Option.map_eq_some_iff.mp hstopped
  refine ⟨⟨w, hrun, fun hall => ?_⟩, w', hrun', ?_, ?_⟩
  · have hleft := hall (some 500000002) (by rw [hw]; simp)
    cases hleft
  · exact congrArg Prod.fst hw'
  · simp only [Prod.mk.injEq] at hw'
    rw [hw'.2.1, hw'.2.2.1, show strictArming.status = id from rfl, hw'.2.2.2]
    simp

end Lager.Scope
