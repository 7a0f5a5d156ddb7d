import Lager.Scope.Records

/-!
# What the loop remembers of the settings

The settings that no driver reports are the loop's own: how captures are combined, the holdoff, when to roll, and
what the clients display. Only the four requests that set them change them, and what the loop has accepted it accepts
again (`Config.Sound`). So every published state with channels is that of a loop whose settings it accepts (`Taken`).
-/

namespace Lager.Scope

open Lager.Py (Json)

structure Config where
  display : Json
  acquisition : AcquisitionMode
  averageCount : Nat
  holdoff : Nat
  roll : RollMode

variable {σ : Type}

def Loop.config (w : Loop σ) : Config := ⟨w.display, w.acquisition, w.averageCount, w.holdoff, w.roll⟩

/-! ### Operations that leave the settings alone -/

section

variable (d : Driver σ) (lib : Lib) (w : Loop σ)

@[simp] theorem stopRolling_config : (stopRolling d w).config = w.config := by
  unfold stopRolling
  split <;> rfl

@[simp] theorem armBlock_config : (armBlock d w).config = w.config := by
  unfold armBlock
  dsimp only
  split <;> rfl

@[simp] theorem startRolling_config (wanted : Float) : (startRolling d w wanted).config = w.config := by
  unfold startRolling
  dsimp only
  split
  · exact stopRolling_config d w
  · rw [armBlock_config]
    exact stopRolling_config d w

@[simp] theorem leaveRolling_config (wasRolling : Bool) : (leaveRolling d w wasRolling).config = w.config := by
  unfold leaveRolling
  dsimp only
  split <;> simp

@[simp] theorem reconcileRoll_config (wasRolling : Bool) : (reconcileRoll d w wasRolling).config = w.config := by
  unfold reconcileRoll
  split
  · split <;> simp
  · simp

@[simp] theorem backstop_config : (backstop d w).config = w.config := by
  unfold backstop
  split
  · dsimp only
    split <;> rfl
  · rfl

@[simp] theorem pauseRoll_config (request : ScopeRequest) : (pauseRoll d w request).config = w.config := by
  unfold pauseRoll
  split <;> simp

@[simp] theorem resumeRoll_config (request : ScopeRequest) (wasRolling : Bool) :
    (resumeRoll d w request wasRolling).config = w.config := by
  unfold resumeRoll
  split
  · rw [reconcileRoll_config]
    rfl
  · rfl

@[simp] theorem process_config (frame : CaptureFrame) : (process lib w frame).1.config = w.config := by
  unfold process
  dsimp only
  split <;> rfl

@[simp] theorem invalidate_config (request : ScopeRequest) : (invalidate w request).config = w.config := by
  unfold invalidate
  split <;> rfl

theorem measure_config (channel : ChannelId) (pick : MeasurementSet → Except ReplyError ScopeReply) :
    (measure d lib w channel pick).1.config = w.config := by
  unfold measure
  dsimp only
  split
  · split <;> rfl
  · rfl
  · split
    · rfl
    · split <;> rfl

theorem getTriggeredData_config : (getTriggeredData d w).1.config = w.config := by
  unfold getTriggeredData
  dsimp only
  split
  · rfl
  · rfl
  · split <;> rfl

theorem forceTrigger_config : (forceTrigger d w).1.config = w.config := by
  unfold forceTrigger
  dsimp only
  split
  · rfl
  · split
    · rfl
    · split <;> rfl

theorem serve_config (request : ScopeRequest) :
    (serve d lib w request).1.config = (handle d lib (pauseRoll d w request) request).1.config := by
  unfold serve
  dsimp only
  split <;> simp

end

/-! ### What is accepted -/

/-- What does not change about a model of oscilloscope: its channels, and whether it detects peaks and rolls. -/
structure UnitModel where
  labels : List ChannelId
  distinct : labels.Nodup
  peakDetect : Bool
  supportsRoll : Bool

def peakDetect (g : Getters) : Bool := Result.getD (g.capabilities.map (·.peakDetect)) false

/-- A driver of a unit of the model. -/
structure OfModel (d : Driver σ) (m : UnitModel) : Prop where
  labels : ∀ s, labels (d.getters s) = m.labels
  peakDetect : ∀ s, peakDetect (d.getters s) = m.peakDetect
  supportsRoll : ∀ s, (d.getters s).supportsRoll = m.supportsRoll

/-- A holdoff that is accepted. -/
def holdoffFits (seconds : Float) : Bool :=
  seconds.isFinite && (decide (0 ≤ seconds) && decide (seconds ≤ MAX_HOLDOFF_S))

/-- What is used of the libraries: a holdoff that is accepted comes back from its `Duration` as one that is accepted
and is the same `Duration`, and `{}` is written in two bytes. -/
structure Lib.Exact (lib : Lib) : Prop where
  zero_fits : holdoffFits (lib.asSecsF64 0) = true
  zero_again : lib.asSecsF64 (lib.fromSecsF64 (lib.asSecsF64 0)) = lib.asSecsF64 0
  fits : ∀ seconds, holdoffFits seconds = true → holdoffFits (lib.asSecsF64 (lib.fromSecsF64 seconds)) = true
  again : ∀ seconds, holdoffFits seconds = true →
    lib.asSecsF64 (lib.fromSecsF64 (lib.asSecsF64 (lib.fromSecsF64 seconds))) = lib.asSecsF64 (lib.fromSecsF64 seconds)
  jsonLength : lib.jsonLength (.obj []) = 2

/-- Settings of the loop that it accepts again on a unit of the model. -/
structure Config.Sound (lib : Lib) (m : UnitModel) (c : Config) : Prop where
  display : lib.jsonLength c.display ≤ MAX_DISPLAY_BYTES
  peak : c.acquisition = .peak → m.peakDetect = true
  count : 1 ≤ c.averageCount ∧ c.averageCount ≤ MAX_AVERAGE_COUNT
  holdoff_fits : holdoffFits (lib.asSecsF64 c.holdoff) = true
  holdoff_again : lib.asSecsF64 (lib.fromSecsF64 (lib.asSecsF64 c.holdoff)) = lib.asSecsF64 c.holdoff
  roll : c.roll = .on → m.supportsRoll = true

theorem sound_new {lib : Lib} (hlib : lib.Exact) (m : UnitModel) :
    Config.Sound lib m ⟨.obj [], .normal, DEFAULT_AVERAGE_COUNT, 0, .auto⟩ where
  display := by
    rw [hlib.jsonLength]
    decide
  peak h := by cases h
  count := by decide
  holdoff_fits := hlib.zero_fits
  holdoff_again := hlib.zero_again
  roll h := by cases h

section

variable {d : Driver σ} {lib : Lib} {m : UnitModel} {w : Loop σ}

theorem setDisplay_sound (h : w.config.Sound lib m) (patch : Json) : (setDisplay lib w patch).1.config.Sound lib m := by
  unfold setDisplay
  dsimp only
  split
  · exact h
  · rename_i hsize
    exact { h with display := Nat.le_of_not_lt hsize }

theorem setHoldoff_sound (hlib : lib.Exact) (h : w.config.Sound lib m) (seconds : Float) :
    (setHoldoff d lib w seconds).1.config.Sound lib m := by
  unfold setHoldoff
  dsimp only
  split
  · exact h
  · rename_i hrange
    have hfits : holdoffFits seconds = true := by
      rwa [← Bool.not_and, Bool.not_eq_true', Bool.not_eq_false] at hrange
    split
    · exact h
    · exact { h with holdoff_fits := hlib.fits seconds hfits, holdoff_again := hlib.again seconds hfits }

theorem setAcquisition_sound (hd : OfModel d m) (h : w.config.Sound lib m) (mode : AcquisitionMode)
    (count : Option Nat) : (setAcquisition d w mode count).1.config.Sound lib m := by
  unfold setAcquisition
  dsimp only
  split
  · exact h
  · rename_i hcount
    split
    · exact h
    · rename_i hpeak
      split
      · exact h
      · refine { h with peak := fun hmode => ?_, count := ?_ }
        · rw [← hd.peakDetect w.scope]
          by_contra hnone
          exact hpeak ⟨hmode, by simpa [peakDetect] using hnone⟩
        · cases count with
          | none => exact h.count
          | some n =>
            rw [Option.any_some, Bool.not_eq_true', Bool.not_eq_false, Bool.and_eq_true, decide_eq_true_eq,
              decide_eq_true_eq] at hcount
            exact hcount

theorem respond_sound (hlib : lib.Exact) (hd : OfModel d m) (h : w.config.Sound lib m) (request : ScopeRequest) :
    (respond d lib w request).1.config.Sound lib m := by
  cases request with
  | setDisplay patch => exact setDisplay_sound h patch
  | setHoldoff seconds => exact setHoldoff_sound hlib h seconds
  | setAcquisition mode count => exact setAcquisition_sound hd h mode count
  | setRoll mode =>
    unfold respond
    dsimp only
    split
    · exact h
    · rename_i hrolls
      refine { h with roll := fun hmode => ?_ }
      rw [← hd.supportsRoll w.scope]
      by_contra hnone
      exact hrolls ⟨hmode, by simpa using hnone⟩
  | getTriggeredData =>
    rw [respond, getTriggeredData_config]
    exact h
  | forceTrigger =>
    rw [respond, forceTrigger_config]
    exact h
  | measure channel which =>
    rw [respond, measure_config]
    exact h
  | measureAll channel =>
    rw [respond, measure_config]
    exact h
  | set s | startAcquisition position | stopAcquisition =>
    simp only [respond, Loop.reply]
    split <;> exact h
  | get q | measureOne channel which | scpi command =>
    simp only [respond]
    split <;> exact h
  | getTimePerDiv =>
    simp only [respond]
    split
    · exact h
    · split <;> exact h
  | isReady | getState | getDisplay | getAcquisition | getHoldoff | getRoll => exact h

theorem serve_sound (hlib : lib.Exact) (hd : OfModel d m) (h : w.config.Sound lib m) (request : ScopeRequest) :
    (serve d lib w request).1.config.Sound lib m := by
  rw [serve_config, handle]
  apply respond_sound hlib hd
  rw [invalidate_config, pauseRoll_config]
  exact h

end

/-! ### Published states -/

/-- The state shows no unit, or it is that of a loop whose settings are accepted. -/
def Taken (d : Driver σ) (lib : Lib) (m : UnitModel) (s : ScopeState) : Prop :=
  s.channels = [] ∨ ∃ w : Loop σ, w.config.Sound lib m ∧ s = buildState d lib w

/-- A loop whose settings are accepted, as were those it has published. -/
structure Loop.Sound (d : Driver σ) (lib : Lib) (m : UnitModel) (w : Loop σ) : Prop where
  config : w.config.Sound lib m
  published : ∀ s ∈ w.published, Taken d lib m s

namespace Loop.Sound

variable {d : Driver σ} {lib : Lib} {m : UnitModel} {w w' : Loop σ}

/-- An operation that leaves the settings and the published states alone. -/
theorem rest (h : w.Sound d lib m) (hconfig : w'.config = w.config) (hpublished : w'.published = w.published) :
    w'.Sound d lib m := by
  constructor
  · rw [hconfig]
    exact h.config
  · rw [hpublished]
    exact h.published

/-- The state after such an operation is published. -/
theorem publish (h : w.Sound d lib m) (hconfig : w'.config = w.config) (hpublished : w'.published = w.published) :
    (publishState d lib w').Sound d lib m := by
  have hrest := h.rest hconfig hpublished
  refine ⟨hrest.config, fun s hs => ?_⟩
  rcases List.mem_append.mp hs with hold | hnew
  · exact hrest.published s hold
  · exact Or.inr ⟨{ w' with version := w'.version + 1 }, hrest.config, List.mem_singleton.mp hnew⟩

variable (hlib : lib.Exact) (hd : OfModel d m)

include hlib hd

theorem serve (h : w.Sound d lib m) (request : ScopeRequest) : (serve d lib w request).1.Sound d lib m := by
  refine ⟨serve_sound hlib hd h.config request, ?_⟩
  have hlog : (Scope.serve d lib w request).1.published = w.published :=
    congrArg Log.published (serve_log d lib w request)
  rw [hlog]
  exact h.published

theorem serveAll (held : List Waiting) (h : w.Sound d lib m) :
    (held.foldl (fun w held => (Scope.serve d lib w held.request).1) w).Sound d lib m := by
  induction held generalizing w with
  | nil => exact h
  | cons first rest ih => exact ih (h.serve hlib hd first.request)

theorem answerWaiting (h : w.Sound d lib m) : (answerWaiting d lib w).Sound d lib m :=
  serveAll hlib hd w.waiting (h.rest rfl rfl)

theorem waitState (h : w.Sound d lib m) (now : Nat) : (waitState d lib w now).Sound d lib m := by
  unfold Scope.waitState
  split
  · exact h
  · unfold settleWaiting
    dsimp only
    split
    · exact h.rest rfl rfl
    · exact serveAll hlib hd _ (h.rest rfl rfl)

theorem receive (h : w.Sound d lib m) (request : ScopeRequest) (now : Nat) :
    (receive d lib w request now).1.Sound d lib m := by
  unfold Scope.receive
  split
  · exact h.rest rfl rfl
  · dsimp only
    split
    · exact (h.serve hlib hd request).publish rfl rfl
    · exact h.serve hlib hd request

omit hlib hd in
theorem rearm (h : w.Sound d lib m) : (rearm d lib w).1.Sound d lib m := by
  unfold Scope.rearm
  dsimp only
  split
  · exact h.rest rfl rfl
  · split
    · exact h.rest rfl rfl
    · exact h.publish rfl rfl

theorem afterCapture (h : w.Sound d lib m) (frame : CaptureFrame) (i : Input) :
    (afterCapture d lib w frame i).1.Sound d lib m := by
  have hkept : (w.keep frame).Sound d lib m := h.rest rfl rfl
  have hanswered := hkept.answerWaiting hlib hd
  unfold Scope.afterCapture
  dsimp only
  split
  · exact hanswered.publish rfl rfl
  · split
    · exact hanswered.rest rfl rfl
    · exact hanswered.rearm

theorem readOut (h : w.Sound d lib m) (i : Input) : (readOut d lib w i).1.Sound d lib m := by
  unfold Scope.readOut
  dsimp only
  split
  · exact h.rest rfl rfl
  · refine afterCapture hlib hd (h.rest ?_ ?_) _ i
    · rw [process_config]
      rfl
    · exact congrArg Log.published (Loop.log_of_records (process_records lib _ _))

theorem acquire (h : w.Sound d lib m) (i : Input) : (acquire d lib w i).1.Sound d lib m := by
  unfold Scope.acquire
  split
  · split
    · exact h
    · have hdue : ({ w with armAt := none } : Loop σ).Sound d lib m := h.rest rfl rfl
      exact hdue.rearm
  · dsimp only
    split
    · refine readOut hlib hd ?_ i
      exact h.rest rfl rfl
    · exact h.rest rfl rfl
    · split
      · exact h.rest rfl rfl
      · exact h.publish rfl rfl

omit hlib hd in
theorem rollStep (h : w.Sound d lib m) (roller : Roller) (i : Input) : (rollStep d w roller i).1.Sound d lib m := by
  unfold Scope.rollStep
  dsimp only
  split
  · exact h.rest rfl rfl
  · split
    · exact h.rest rfl rfl
    · exact h.rest rfl rfl

theorem rollTurn (h : w.Sound d lib m) (roller : Roller) (i : Input) : (rollTurn d lib w roller i).1.Sound d lib m := by
  have hstep := h.rollStep roller i
  unfold Scope.rollTurn
  dsimp only
  split
  · split
    · exact hstep
    · have hstopped := hstep.rest (stopRolling_config d _)
        (congrArg Log.published (Loop.log_of_records (stopRolling_records d _)))
      have hpublished : (publishState d lib
          { stopRolling d (Scope.rollStep d w roller i).1 with acquiring := false }).Sound d lib m :=
        hstopped.publish rfl rfl
      split
      · exact hpublished.answerWaiting hlib hd
      · exact hpublished
  · split
    · exact hstep.answerWaiting hlib hd
    · exact hstep

omit hlib hd in
theorem refreshStep (h : w.Sound d lib m) (i : Input) : (refreshStep d lib w i).1.Sound d lib m := by
  unfold Scope.refreshStep
  split
  · dsimp only
    split
    · exact h.publish rfl rfl
    · exact h.rest rfl rfl
    · exact h.rest rfl rfl
  · exact h

theorem poll (h : w.Sound d lib m) (i : Input) : (poll d lib w i).1.Sound d lib m := by
  have hrefreshed := h.refreshStep i
  unfold Scope.poll
  split
  · rename_i heq
    rw [heq] at hrefreshed
    exact hrefreshed
  · rename_i heq
    rw [heq] at hrefreshed
    split
    · exact hrefreshed.rollTurn hlib hd _ i
    · split
      · exact hrefreshed.acquire hlib hd i
      · exact hrefreshed

theorem turn (h : w.Sound d lib m) {i : Input} {ended : Option Ended} (hturn : turn d lib w i = some (w', ended)) :
    w'.Sound d lib m := by
  unfold Scope.turn at hturn
  split at hturn
  · cases hturn
    exact h.rest rfl rfl
  · have hwait := h.waitState hlib hd i.settleNow
    dsimp only at hturn
    split at hturn
    · cases hturn
      exact hwait.receive hlib hd _ i.holdNow
    · split at hturn
      · have hpoll := hwait.poll hlib hd i
        rw [Option.some.inj hturn] at hpoll
        exact hpoll
      · cases hturn

theorem restore (h : w.Sound d lib m) (settings : ScopeState) : (restore d lib w settings).Sound d lib m := by
  unfold Scope.restore
  generalize restoreRequests settings = requests
  induction requests generalizing w with
  | nil => exact h
  | cons request rest ih =>
    rw [List.foldl_cons]
    split
    · exact ih h
    · exact ih (h.serve hlib hd request)

theorem startLoop (scope : σ) (acquiring : Bool) (sequence version : Nat) {published : List ScopeState}
    (hpublished : ∀ s ∈ published, Taken d lib m s) (restoreFrom : Option ScopeState) :
    (startLoop d lib scope acquiring sequence version published restoreFrom).Sound d lib m := by
  have hnew : ((newLoop d scope acquiring sequence version published).refreshTrigger d).Sound d lib m :=
    ⟨sound_new hlib m, hpublished⟩
  cases restoreFrom with
  | none => exact hnew.publish rfl rfl
  | some settings => exact (hnew.restore hlib hd settings).publish rfl rfl

end Loop.Sound

end Lager.Scope
