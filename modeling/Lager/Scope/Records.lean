import Lager.Scope.Loop

/-!
# What the operations of the loop leave alone

Two parts of the loop's state are records: `Loop.capture` of the published capture, which answers with samples come
from, and `Loop.log` of the published states and the held requests. Working the device, stopping and starting to
stream and re-arming leave both alone, and so does answering a request, except that an answer with samples is noted
(`Answers`). So a fact of the records is an invariant of the loop if publishing, serving and capturing keep it
(`Kept`).
-/

namespace Lager.Scope

open Lager.Lib (CacheEvent bind_eq_ok)

variable {σ : Type} (d : Driver σ) (lib : Lib)

/-- The published capture, the flag that says there is one, and the history of both. -/
structure Capture where
  capturedSinceArm : Bool
  lastFrame : Option CaptureFrame
  notes : List (CacheEvent CaptureFrame)

def Loop.capture (w : Loop σ) : Capture := ⟨w.capturedSinceArm, w.lastFrame, w.notes⟩

/-- What the loop has published and which requests it holds. -/
structure Log where
  version : Nat
  published : List ScopeState
  waiting : List Waiting

def Loop.log (w : Loop σ) : Log := ⟨w.version, w.published, w.waiting⟩

def Loop.records (w : Loop σ) : Capture × Log := (w.capture, w.log)

/-! ### Operations that leave the records alone -/

section

variable (w : Loop σ)

@[simp] theorem failed_records (e : DriverError) : (w.failed e).1.records = w.records := rfl

@[simp] theorem refreshTrigger_records : (w.refreshTrigger d).records = w.records := rfl

@[simp] theorem stopRolling_records : (stopRolling d w).records = w.records := by
  unfold stopRolling
  split <;> rfl

@[simp] theorem armBlock_records : (armBlock d w).records = w.records := by
  unfold armBlock
  dsimp only
  split <;> rfl

@[simp] theorem startRolling_records (wanted : Float) : (startRolling d w wanted).records = w.records := by
  unfold startRolling
  dsimp only
  split
  · exact stopRolling_records d w
  · rw [armBlock_records]
    exact stopRolling_records d w

@[simp] theorem leaveRolling_records (wasRolling : Bool) : (leaveRolling d w wasRolling).records = w.records := by
  unfold leaveRolling
  dsimp only
  split <;> simp

@[simp] theorem reconcileRoll_records (wasRolling : Bool) : (reconcileRoll d w wasRolling).records = w.records := by
  unfold reconcileRoll
  split
  · split <;> simp
  · simp

@[simp] theorem backstop_records : (backstop d w).records = w.records := by
  unfold backstop
  split
  · dsimp only
    split <;> rfl
  · rfl

@[simp] theorem pauseRoll_records (request : ScopeRequest) : (pauseRoll d w request).records = w.records := by
  unfold pauseRoll
  split <;> simp

@[simp] theorem resumeRoll_records (request : ScopeRequest) (wasRolling : Bool) :
    (resumeRoll d w request wasRolling).records = w.records := by
  unfold resumeRoll
  split <;> simp

@[simp] theorem process_records (frame : CaptureFrame) : (process lib w frame).1.records = w.records := by
  unfold process
  dsimp only
  split <;> rfl

@[simp] theorem setAcquisition_records (mode : AcquisitionMode) (count : Option Nat) :
    (setAcquisition d w mode count).1.records = w.records := by
  unfold setAcquisition
  dsimp only
  split
  · rfl
  · split
    · rfl
    · split <;> rfl

@[simp] theorem setHoldoff_records (seconds : Float) : (setHoldoff d lib w seconds).1.records = w.records := by
  unfold setHoldoff
  dsimp only
  split
  · rfl
  · split <;> rfl

@[simp] theorem setDisplay_records (patch : Lager.Py.Json) : (setDisplay lib w patch).1.records = w.records := by
  unfold setDisplay
  dsimp only
  split <;> rfl

@[simp] theorem forceTrigger_records : (forceTrigger d w).1.records = w.records := by
  unfold forceTrigger
  dsimp only
  split
  · rfl
  · split
    · rfl
    · split <;> rfl

/-! ### Answering a request -/

/-- The operation leaves the records alone, or answers with samples of the published capture. -/
def Answers (w w' : Loop σ) : Prop :=
  w'.records = w.records ∨ ∃ frame, w.lastFrame = some frame ∧ w'.records = (w.note (.served frame)).records

theorem samplesNow_ok {frame : CaptureFrame} (h : samplesNow w = .ok frame) : w.lastFrame = some frame := by
  unfold samplesNow at h
  split at h
  · cases h
    assumption
  · split at h
    · cases h
    · split at h <;> cases h

theorem measureNow_ok {channel : ChannelId} {frame : CaptureFrame} {set : MeasurementSet}
    (h : measureNow lib w channel = .ok (frame, set)) :
    w.lastFrame = some frame ∧ measureFrame lib frame channel = .ok set := by
  obtain ⟨found, hfound, h⟩ := bind_eq_ok h
  obtain ⟨measured, hmeasured, h⟩ := bind_eq_ok h
  cases h
  exact ⟨samplesNow_ok w hfound, hmeasured⟩

theorem measure_answers (channel : ChannelId) (pick : MeasurementSet → Except ReplyError ScopeReply) :
    Answers w (measure d lib w channel pick).1 := by
  unfold measure
  dsimp only
  split
  · left
    split <;> rfl
  · left
    rfl
  · split
    · left
      rfl
    · rename_i frame set hm
      split
      · right
        exact ⟨frame, (measureNow_ok lib _ hm).1, rfl⟩
      · left
        rfl

theorem getTriggeredData_answers : Answers w (getTriggeredData d w).1 := by
  unfold getTriggeredData
  dsimp only
  split
  · left
    rfl
  · left
    rfl
  · split
    · rename_i frame hs
      right
      exact ⟨frame, samplesNow_ok _ hs, rfl⟩
    · left
      rfl

theorem respond_answers (request : ScopeRequest)
    (h : invalidatesThePublishedCapture request = true → w.lastFrame = none ∧ w.capturedSinceArm = false) :
    Answers w (respond d lib w request).1 := by
  cases request with
  | getTriggeredData => exact getTriggeredData_answers d w
  | measure channel which => exact measure_answers d lib w channel _
  | measureAll channel => exact measure_answers d lib w channel _
  | startAcquisition position =>
    -- the handler clears the frame a second time
    obtain ⟨hframe, hready⟩ := h rfl
    left
    simp only [respond, Loop.reply]
    split
    · simp [Loop.issued, Loop.records, Loop.capture, Loop.log, hframe, hready]
    · rfl
  | set s | stopAcquisition =>
    left
    simp only [respond, Loop.reply]
    split <;> rfl
  | get q =>
    left
    simp only [respond]
    split <;> rfl
  | getTimePerDiv =>
    left
    simp only [respond]
    split
    · rfl
    · split <;> rfl
  | setRoll mode =>
    left
    simp only [respond]
    split <;> rfl
  | measureOne channel which | scpi command =>
    left
    simp only [respond]
    split <;> rfl
  | forceTrigger => exact .inl (forceTrigger_records d w)
  | setDisplay patch => exact .inl (setDisplay_records lib w patch)
  | setAcquisition mode count => exact .inl (setAcquisition_records d w mode count)
  | setHoldoff seconds => exact .inl (setHoldoff_records d lib w seconds)
  | isReady | getState | getDisplay | getAcquisition | getHoldoff | getRoll => exact .inl rfl

end

/-! ### The log -/

namespace Loop

variable {w w' : Loop σ}

theorem log_of_records (h : w'.records = w.records) : w'.log = w.log := congrArg Prod.snd h

theorem capture_of_records (h : w'.records = w.records) : w'.capture = w.capture := congrArg Prod.fst h

end Loop

theorem Answers.log {w w' : Loop σ} (h : Answers w w') : w'.log = w.log := by
  rcases h with h | ⟨frame, -, h⟩
  · exact Loop.log_of_records h
  · exact (Loop.log_of_records h).trans rfl

section

variable (w : Loop σ)

@[simp] theorem invalidate_log (request : ScopeRequest) : (invalidate w request).log = w.log := by
  unfold invalidate
  split <;> rfl

theorem handle_of_keeps {request : ScopeRequest} (h : invalidatesThePublishedCapture request = false) :
    handle d lib w request = respond d lib w request := by simp [handle, invalidate, h]

/-- The handler finds the capture cleared for a request that clears it. -/
theorem handle_answers (request : ScopeRequest) : Answers (invalidate w request) (handle d lib w request).1 := by
  refine respond_answers d lib _ request fun hinv => ?_
  simp [invalidate, hinv]

theorem serve_records (request : ScopeRequest) :
    (serve d lib w request).1.records = (handle d lib (pauseRoll d w request) request).1.records := by
  unfold serve
  dsimp only
  split <;> simp

@[simp] theorem serve_log (request : ScopeRequest) : (serve d lib w request).1.log = w.log := by
  rw [Loop.log_of_records (serve_records d lib w request), (handle_answers d lib _ request).log, invalidate_log]
  exact Loop.log_of_records (pauseRoll_records d w request)

theorem rollStep_log (roller : Roller) (i : Input) : (rollStep d w roller i).1.log = w.log := by
  unfold rollStep
  dsimp only
  split
  · rfl
  · split <;> rfl

theorem restore_log (settings : ScopeState) : (restore d lib w settings).log = w.log := by
  unfold restore
  generalize restoreRequests settings = requests
  induction requests generalizing w with
  | nil => rfl
  | cons request rest ih =>
    rw [List.foldl_cons, ih]
    split
    · rfl
    · exact serve_log d lib w request

end

/-! ### Invariants of the records -/

/-- A fact of the published capture and the published states that each operation on them keeps: it is then kept by
every turn of the loop, whatever becomes of the device. -/
structure Kept (I : Loop σ → Prop) : Prop where
  rest : ∀ {w w' : Loop σ}, I w → w'.capture = w.capture → w'.version = w.version → w'.published = w.published → I w'
  publish : ∀ {w}, I w → I (publishState d lib w)
  serve : ∀ {w} (request : ScopeRequest), I w → I (serve d lib w request).1
  keep : ∀ {w} (frame : CaptureFrame), I w → I (w.keep frame)

namespace Kept

variable {d lib}
variable {I : Loop σ → Prop} (hk : Kept d lib I) {w w' : Loop σ}

include hk

theorem of_records (heq : w'.records = w.records) (h : I w) : I w' := by
  have hlog := Loop.log_of_records heq
  exact hk.rest h (Loop.capture_of_records heq) (congrArg Log.version hlog) (congrArg Log.published hlog)

theorem serveAll (held : List Waiting) (h : I w) :
    I (held.foldl (fun w held => (Scope.serve d lib w held.request).1) w) := by
  induction held generalizing w with
  | nil => exact h
  | cons first rest ih => exact ih (hk.serve first.request h)

theorem answerWaiting (h : I w) : I (answerWaiting d lib w) :=
  hk.serveAll w.waiting (hk.rest h rfl rfl rfl)

theorem waitState (h : I w) (now : Nat) : I (waitState d lib w now) := by
  unfold Scope.waitState
  split
  · exact h
  · unfold settleWaiting
    dsimp only
    split
    · exact hk.rest h rfl rfl rfl
    · exact hk.serveAll _ (hk.rest h rfl rfl rfl)

theorem receive (h : I w) (request : ScopeRequest) (now : Nat) : I (receive d lib w request now).1 := by
  unfold Scope.receive
  split
  · exact hk.rest h rfl rfl rfl
  · dsimp only
    split
    · exact hk.publish (hk.serve request h)
    · exact hk.serve request h

theorem rearm (h : I w) : I (rearm d lib w).1 := by
  unfold Scope.rearm
  dsimp only
  split
  · exact hk.rest h rfl rfl rfl
  · split
    · exact hk.rest h rfl rfl rfl
    · exact hk.publish (hk.rest h rfl rfl rfl)

theorem afterCapture (h : I w) (frame : CaptureFrame) (i : Input) : I (afterCapture d lib w frame i).1 := by
  have hanswered := hk.answerWaiting (hk.keep frame h)
  unfold Scope.afterCapture
  dsimp only
  split
  · exact hk.publish (hk.rest hanswered rfl rfl rfl)
  · split
    · exact hk.rest hanswered rfl rfl rfl
    · exact hk.rearm hanswered

theorem readOut (h : I w) (i : Input) : I (readOut d lib w i).1 := by
  unfold Scope.readOut
  dsimp only
  split
  · exact hk.rest h rfl rfl rfl
  · refine hk.afterCapture ?_ _ i
    exact hk.of_records (process_records lib _ _) (hk.rest h rfl rfl rfl)

theorem acquire (h : I w) (i : Input) : I (acquire d lib w i).1 := by
  unfold Scope.acquire
  split
  · split
    · exact h
    · exact hk.rearm (hk.rest h rfl rfl rfl)
  · dsimp only
    split
    · refine hk.readOut ?_ i
      exact hk.rest h rfl rfl rfl
    · exact hk.rest h rfl rfl rfl
    · split
      · exact hk.rest h rfl rfl rfl
      · exact hk.publish (hk.rest h rfl rfl rfl)

theorem rollStep (h : I w) (roller : Roller) (i : Input) : I (rollStep d w roller i).1 := by
  unfold Scope.rollStep
  dsimp only
  split
  · exact hk.rest h rfl rfl rfl
  · split
    · exact hk.rest h rfl rfl rfl
    · exact hk.keep _ (hk.rest h rfl rfl rfl)

theorem rollTurn (h : I w) (roller : Roller) (i : Input) : I (rollTurn d lib w roller i).1 := by
  have hstep := hk.rollStep h roller i
  unfold Scope.rollTurn
  dsimp only
  split
  · split
    · exact hstep
    · have hpublished : I (publishState d lib { stopRolling d (Scope.rollStep d w roller i).1 with acquiring := false }) :=
        hk.publish (hk.rest (hk.of_records (stopRolling_records d _) hstep) rfl rfl rfl)
      split
      · exact hk.answerWaiting hpublished
      · exact hpublished
  · split
    · exact hk.answerWaiting hstep
    · exact hstep

theorem refreshStep (h : I w) (i : Input) : I (refreshStep d lib w i).1 := by
  unfold Scope.refreshStep
  split
  · dsimp only
    split
    · exact hk.publish (hk.rest h rfl rfl rfl)
    · exact hk.rest h rfl rfl rfl
    · exact hk.rest h rfl rfl rfl
  · exact h

theorem poll (h : I w) (i : Input) : I (poll d lib w i).1 := by
  have hrefreshed := hk.refreshStep h i
  unfold Scope.poll
  split
  · rename_i heq
    rw [heq] at hrefreshed
    exact hrefreshed
  · rename_i heq
    rw [heq] at hrefreshed
    split
    · exact hk.rollTurn hrefreshed _ i
    · split
      · exact hk.acquire hrefreshed i
      · exact hrefreshed

/-- **The rule for a turn.** -/
theorem turn (h : I w) {i : Input} {ended : Option Ended} (hturn : turn d lib w i = some (w', ended)) : I w' := by
  unfold Scope.turn at hturn
  split at hturn
  · cases hturn
    exact hk.rest h rfl rfl rfl
  · have hwait := hk.waitState h i.settleNow
    dsimp only at hturn
    split at hturn
    · cases hturn
      exact hk.receive hwait _ i.holdNow
    · split at hturn
      · have hpoll := hk.poll hwait i
        rw [Option.some.inj hturn] at hpoll
        exact hpoll
      · cases hturn

theorem restore (h : I w) (settings : ScopeState) : I (restore d lib w settings) := by
  unfold Scope.restore
  generalize restoreRequests settings = requests
  induction requests generalizing w with
  | nil => exact h
  | cons request rest ih =>
    rw [List.foldl_cons]
    split
    · exact ih h
    · exact ih (hk.serve request h)

theorem startLoop {scope : σ} {acquiring : Bool} {sequence version : Nat} {published : List ScopeState}
    (restoreFrom : Option ScopeState) (h : I (newLoop d scope acquiring sequence version published)) :
    I (startLoop d lib scope acquiring sequence version published restoreFrom) := by
  have hnew : I ((newLoop d scope acquiring sequence version published).refreshTrigger d) := hk.rest h rfl rfl rfl
  refine hk.publish ?_
  cases restoreFrom with
  | none => exact hnew
  | some settings => exact hk.restore hnew settings

theorem reached {start : Loop σ} {ended : Option Ended} (h : I start) (hreached : Reached d lib start w ended) :
    I w := by
  induction hreached with
  | start => exact h
  | turn hreached hturn ih => exact hk.turn ih hturn

end Kept

end Lager.Scope
