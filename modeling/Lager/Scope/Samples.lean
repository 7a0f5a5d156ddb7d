import Lager.Scope.Records

/-!
# Samples are never older than the settings

Answers with samples come from the published capture. The invariant `Capture.Current` says that the capture and the
flag that says there is one agree with the history of both, and that every answer so far was current when it was
given.
-/

namespace Lager.Scope

open Lager.Lib (CacheEvent)
open Lager.Lib.CacheEvent (held Sound)

variable {σ : Type} (d : Driver σ) (lib : Lib)

structure Capture.Current (c : Capture) : Prop where
  ready : c.capturedSinceArm = c.lastFrame.isSome
  frame : c.lastFrame = held c.notes
  sound : Sound c.notes

/-! ### The invariant -/

namespace Capture.Current

variable {w w' : Loop σ}

theorem of_records (h : w.capture.Current) (heq : w'.records = w.records) : w'.capture.Current := by
  rw [Loop.capture_of_records heq]
  exact h

theorem answers (h : w.capture.Current) (ha : Answers w w') : w'.capture.Current := by
  rcases ha with heq | ⟨frame, hframe, heq⟩
  · exact h.of_records heq
  · rw [Loop.capture_of_records heq]
    refine ⟨h.ready, ?_, h.sound.concat fun a ha => ?_⟩
    · show w.lastFrame = held (w.notes ++ [CacheEvent.served frame])
      rw [CacheEvent.held_concat]
      exact h.frame
    · cases ha
      exact h.frame.symm.trans hframe

/-- A capture replaces whatever was published. -/
theorem keep (h : w.capture.Current) (frame : CaptureFrame) : (w.keep frame).capture.Current := by
  refine ⟨rfl, ?_, h.sound.concat fun a ha => by cases ha⟩
  show some frame = held (w.notes ++ [CacheEvent.stored frame])
  rw [CacheEvent.held_concat]
  rfl

theorem invalidate (h : w.capture.Current) (request : ScopeRequest) : (invalidate w request).capture.Current := by
  unfold Scope.invalidate
  split
  · refine ⟨rfl, ?_, h.sound.concat fun a ha => by cases ha⟩
    show none = held (w.notes ++ [CacheEvent.invalidated])
    rw [CacheEvent.held_concat]
    rfl
  · exact h

theorem serve (h : w.capture.Current) (request : ScopeRequest) : (serve d lib w request).1.capture.Current := by
  have hpaused : (pauseRoll d w request).capture.Current := h.of_records (pauseRoll_records d w request)
  have hhandled := (hpaused.invalidate request).answers (handle_answers d lib _ request)
  exact hhandled.of_records (serve_records d lib w request)

theorem kept : Kept d lib (fun w : Loop σ => w.capture.Current) where
  rest h hcapture _ _ := by
    rw [hcapture]
    exact h
  publish h := h
  serve request h := h.serve d lib request
  keep frame h := h.keep frame

end Capture.Current

/-! ### Readiness -/

theorem receive_isReady (w : Loop σ) (now : Nat) :
    (receive d lib w .isReady now).2 = some (.bool w.capturedSinceArm) := by
  simp [receive, waitsForACapture, wantsSamples, serve, pauseRoll, touchesHardware, handle, invalidate,
    invalidatesThePublishedCapture, respond]

/-- The driver takes no record and no measurement of its own, so that samples come from captures of the loop. -/
structure AnswersNoRecord : Prop where
  readRecord : ∀ s, (d.readRecord s).1 = none
  measureAll : ∀ c s, (d.measureAll c s).1 = none

/-- What a request for samples is answered with from a frame. -/
def sampleReply (frame : CaptureFrame) : ScopeRequest → Except ReplyError ScopeReply
  | .measure channel which => measureFrame lib frame channel >>= pickOne which
  | .measureAll channel => (measureFrame lib frame channel).map .measurements
  | _ => .ok (.capture frame)

def ScopeReply.ofExcept : Except ReplyError ScopeReply → ScopeReply
  | .ok reply => reply
  | .error e => .error e

section

variable {d}
variable (hd : AnswersNoRecord d) (w : Loop σ)

theorem samplesNow_of_frame {frame : CaptureFrame} (h : w.lastFrame = some frame) : samplesNow w = .ok frame := by
  simp [samplesNow, h]

theorem measureNow_of_frame {frame : CaptureFrame} (h : w.lastFrame = some frame) (channel : ChannelId) :
    measureNow lib w channel = (measureFrame lib frame channel).map fun set => (frame, set) := by
  unfold measureNow
  rw [samplesNow_of_frame w h, Lib.ok_bind]
  cases measureFrame lib frame channel <;> rfl

/-- Neither looks at the device. -/
@[simp] theorem samplesNow_scope (s : σ) : samplesNow { w with scope := s } = samplesNow w := rfl

@[simp] theorem measureNow_scope (s : σ) (channel : ChannelId) :
    measureNow lib { w with scope := s } channel = measureNow lib w channel := rfl

include hd

/-- With a capture, a request for samples is answered from it. -/
theorem respond_of_frame {frame : CaptureFrame} {request : ScopeRequest} (hwants : wantsSamples request = true)
    (h : w.lastFrame = some frame) : (respond d lib w request).2 = .ofExcept (sampleReply lib frame request) := by
  have hmeasure (channel : ChannelId) (pick : MeasurementSet → Except ReplyError ScopeReply) :
      (measure d lib w channel pick).2 = .ofExcept (measureFrame lib frame channel >>= pick) := by
    simp only [measure, hd.measureAll, measureNow_scope, measureNow_of_frame lib w h]
    cases measureFrame lib frame channel with
    | error e => rfl
    | ok set =>
      simp only [Except.map, Lib.ok_bind]
      split <;> simp_all [ScopeReply.ofExcept]
  cases request with
  | getTriggeredData =>
    simp only [respond, getTriggeredData, hd.readRecord, samplesNow_scope, samplesNow_of_frame w h]
    rfl
  | measure channel which => exact hmeasure channel _
  | measureAll channel =>
    refine (hmeasure channel _).trans ?_
    simp only [sampleReply]
    cases measureFrame lib frame channel <;> rfl
  | _ => simp [wantsSamples] at hwants

/-- Without one, the answer is an error. -/
theorem respond_of_no_frame {request : ScopeRequest} (hwants : wantsSamples request = true)
    (h : w.lastFrame = none) : (respond d lib w request).2.isError = true := by
  obtain ⟨e, he⟩ : ∃ e, samplesNow w = .error e := by
    simp only [samplesNow, h]
    split
    · exact ⟨_, rfl⟩
    · split <;> exact ⟨_, rfl⟩
  have hmeasure (channel : ChannelId) (pick : MeasurementSet → Except ReplyError ScopeReply) :
      (measure d lib w channel pick).2.isError = true := by
    have hm : measureNow lib w channel = .error e := by
      unfold measureNow
      rw [he]
      rfl
    simp only [measure, hd.measureAll, measureNow_scope, hm]
    rfl
  cases request with
  | getTriggeredData =>
    simp only [respond, getTriggeredData, hd.readRecord, samplesNow_scope, he]
    rfl
  | measure channel which => exact hmeasure channel _
  | measureAll channel => exact hmeasure channel _
  | _ => simp [wantsSamples] at hwants

/-- An answer with samples is on the record, with the frame the samples are of. -/
theorem respond_served {request : ScopeRequest} (hwants : wantsSamples request = true)
    (hsamples : (respond d lib w request).2.isError = false) :
    ∃ frame, w.lastFrame = some frame ∧ (respond d lib w request).2 = .ofExcept (sampleReply lib frame request) ∧
      (respond d lib w request).1.notes = w.notes ++ [.served frame] := by
  cases hframe : w.lastFrame with
  | none =>
    rw [respond_of_no_frame lib hd w hwants hframe] at hsamples
    cases hsamples
  | some frame =>
    have hreply := respond_of_frame lib hd w hwants hframe
    refine ⟨frame, rfl, hreply, ?_⟩
    have hmeasure (channel : ChannelId) (pick : MeasurementSet → Except ReplyError ScopeReply)
        (h : (measure d lib w channel pick).2.isError = false) :
        (measure d lib w channel pick).1.notes = w.notes ++ [.served frame] := by
      simp only [measure, hd.measureAll, measureNow_scope, measureNow_of_frame lib w hframe] at h ⊢
      cases hm : measureFrame lib frame channel with
      | error e => simp [hm, Except.map, ScopeReply.isError] at h
      | ok set =>
        simp only [hm, Except.map] at h ⊢
        cases hp : pick set with
        | error e => simp [hp, ScopeReply.isError] at h
        | ok reply => rfl
    cases request with
    | getTriggeredData =>
      simp only [respond, getTriggeredData, hd.readRecord, samplesNow_scope, samplesNow_of_frame w hframe]
      rfl
    | measure channel which => exact hmeasure channel _ hsamples
    | measureAll channel => exact hmeasure channel _ hsamples
    | _ => simp [wantsSamples] at hwants

omit hd in
/-- A request that reads only is answered by its handler. -/
theorem receive_reply {request : ScopeRequest} (hreads : touchesHardware request = false)
    (hkeeps : invalidatesThePublishedCapture request = false) {now : Nat} {reply : ScopeReply}
    (h : (receive d lib w request now).2 = some reply) : reply = (respond d lib w request).2 := by
  unfold receive at h
  split at h
  · cases h
  · simp only [serve, pauseRoll, hreads, handle, invalidate, hkeeps, Bool.false_eq_true, if_false,
      Option.some.injEq] at h
    exact h.symm

omit hd in
theorem wantsSamples_reads {request : ScopeRequest} (h : wantsSamples request = true) :
    touchesHardware request = false ∧ invalidatesThePublishedCapture request = false := by
  cases request <;> simp_all [wantsSamples, touchesHardware, invalidatesThePublishedCapture]

/-- With a capture, a request for samples does not wait. -/
theorem receive_of_frame {frame : CaptureFrame} {request : ScopeRequest} (hwants : wantsSamples request = true)
    (h : w.lastFrame = some frame) (now : Nat) :
    (receive d lib w request now).2 = some (.ofExcept (sampleReply lib frame request)) := by
  obtain ⟨hreads, hkeeps⟩ := wantsSamples_reads hwants
  have hnow : waitsForACapture w request = false := by simp [waitsForACapture, h]
  obtain ⟨reply, hreply⟩ : ∃ reply, (receive d lib w request now).2 = some reply := by
    simp [receive, hnow]
  rw [hreply, receive_reply lib w hreads hkeeps hreply, respond_of_frame lib hd w hwants h]

end

/-! ### Every run -/

/-- **Samples are never older than the settings.** In a run of the loop with a driver that takes no record of its
own, every frame that samples were answered from was captured after the last request that makes captures obsolete;
an answer with samples is always one on that record. The loop says it is ready exactly when it has a capture,
which is when it answers a request for samples from it at once; otherwise it holds the request or refuses it. -/
theorem samples_are_current (hd : AnswersNoRecord d) (scope : σ) (acquiring : Bool) (sequence version : Nat)
    (published : List ScopeState) (restoreFrom : Option ScopeState) {w : Loop σ} {ended : Option Ended}
    (hreached : Reached d lib (startLoop d lib scope acquiring sequence version published restoreFrom) w ended) :
    (∀ pre frame post, w.notes = pre ++ .served frame :: post →
      ∃ before since, pre = before ++ .stored frame :: since ∧ .invalidated ∉ since) ∧
    (∀ (v : Loop σ) (request : ScopeRequest), wantsSamples request = true →
      (respond d lib v request).2.isError = false →
      ∃ frame, (respond d lib v request).2 = .ofExcept (sampleReply lib frame request) ∧
        (respond d lib v request).1.notes = v.notes ++ [.served frame]) ∧
    w.capturedSinceArm = w.lastFrame.isSome ∧
    ∀ settleNow now,
      (receive d lib (waitState d lib w settleNow) .isReady now).2 =
        some (.bool (waitState d lib w settleNow).lastFrame.isSome) ∧
      ∀ request, wantsSamples request = true →
        (∀ frame, (waitState d lib w settleNow).lastFrame = some frame →
          (receive d lib (waitState d lib w settleNow) request now).2 =
            some (.ofExcept (sampleReply lib frame request))) ∧
        ((waitState d lib w settleNow).lastFrame = none → ∀ reply,
          (receive d lib (waitState d lib w settleNow) request now).2 = some reply → reply.isError = true) := by
  have hkept := Capture.Current.kept d lib
  have hcurrent : w.capture.Current := hkept.reached (hkept.startLoop restoreFrom ⟨rfl, rfl, .nil⟩) hreached
  refine ⟨fun pre frame post heq => hcurrent.sound.stored_before heq, ?_, hcurrent.ready, ?_⟩
  · intro v request hwants hsamples
    obtain ⟨frame, -, hreply, hnotes⟩ := respond_served lib hd v hwants hsamples
    exact ⟨frame, hreply, hnotes⟩
  · intro settleNow now
    have hwait := hkept.waitState hcurrent settleNow
    refine ⟨?_, fun request hwants => ⟨fun frame hframe => ?_, fun hnone reply hreply => ?_⟩⟩
    · have hready : (waitState d lib w settleNow).capturedSinceArm = (waitState d lib w settleNow).lastFrame.isSome :=
        hwait.ready
      rw [← hready]
      exact receive_isReady d lib _ now
    · exact receive_of_frame lib hd _ hwants hframe now
    · obtain ⟨hreads, hkeeps⟩ := wantsSamples_reads hwants
      rw [receive_reply lib _ hreads hkeeps hreply]
      exact respond_of_no_frame lib hd _ hwants hnone

/-! ### A scope to try the loop on -/

def blockGetters : Getters :=
  { isChannelEnabled := fun _ => .ok true, getVoltsPerDiv := fun _ => .ok 1, getVoltsOffset := fun _ => .ok 0,
    getCoupling := fun _ => .ok .DC, getAttenuation := fun _ => .ok 1, getTimePerDiv := .ok 0.001,
    getTimeOffset := .ok 0, getTriggerLevel := .ok 0, getTriggerSource := .ok (.alphabetic 'A'),
    getTriggerSlope := .ok .rising, getCaptureMode := .ok .normal, getSampleRate := .ok 1000000,
    currentMemoryDepth := .ok 0, getBandwidth := .ok 10000000, getChannelCount := .ok 1,
    getTriggerPosition := .ok 50, capabilities := .ok ⟨"2204A", "AB123/0001", ["A"], false⟩,
    requestedTimePerDiv := .ok 0.001, supportsRoll := true, reportsTrigger := false, answersFromInstrument := false,
    refreshes := false, liveViewProblem := none }

def emptyFrame : CaptureFrame :=
  { seq := 0, captureMonoNs := 0, sampleIntervalNs := 0, preTriggerSamples := 0, postTriggerSamples := 0,
    samplesPerChannel := 0, resolutionBits := 8, overflowMask := 0, flags := 0, screenSamples := 0, channels := [],
    samples := [] }

/-- A scope in normal mode that completes every block it is armed for at once, and refuses to stream. -/
def blockScope : Driver ArmState :=
  { getters := fun _ => blockGetters
    set := fun _ s => (.ok (), if s = .off then .off else .armed)
    startTriggeredCapture := fun _ _ => (.ok (), .armed)
    stopTriggeredCapture := fun _ => (.ok (), .off)
    releaseCapture := fun _ => (.ok (), .off)
    acquiringAfterOpen := fun s => (.ok false, s)
    isReady := fun s => (.ok (s == .armed), s)
    getTriggeredData := fun s => (.ok emptyFrame, if s = .off then .off else .spent)
    forceTrigger := fun _ => (.ok (), .armed)
    rearm := fun _ => (.ok (), .armed)
    refreshSettings := fun s => (none, s)
    startRoll := fun _ _ => (.error ⟨"the unit refused to stream", false⟩, .off)
    pollRoll := fun s => (.ok [], s)
    stopRoll := fun s => (.ok (), s)
    measureAll := fun _ s => (none, s)
    measureOne := fun _ _ s => (none, s)
    readRecord := fun s => (none, s)
    setAcquisition := fun _ _ s => (none, s)
    setHoldoff := fun _ s => (none, s)
    scpi := fun _ s => (none, s) }

/-- The library on frames without samples and on small display settings. -/
def plainLib : Lib :=
  { frameIsTriggered := fun _ _ _ _ => false
    measureChannel := fun _ _ => none
    jsonLength := fun _ => 2
    fromSecsF64 := fun s => (s * 1e9).toUInt64.toNat
    asSecsF64 := fun ns => Float.ofNat ns / 1e9 }

/-- A turn at one time that finds this message. -/
def Input.at (message : Option ScopeRequest) (now : Nat) : Input :=
  { message, settleNow := now, holdNow := now, refreshDue := false, rollNow := now, monoNs := 0, armNow := now,
    readyAt := now, dueNow := now }

def blockLoop : Loop ArmState := startLoop blockScope plainLib .off false 0 0 [] none

/-- Start, ask for a capture, which waits, and let one complete. -/
def captureInputs : List Input :=
  [.at (some (.startAcquisition 50)) 0, .at (some .getTriggeredData) 1, .at none 2]

theorem blockScope_samples_current :
    AnswersNoRecord blockScope ∧ ∃ w, Reached blockScope plainLib blockLoop w none ∧ w.notes.length = 3 ∧
      ∀ pre frame post, w.notes = pre ++ .served frame :: post →
        ∃ before since, pre = before ++ .stored frame :: since ∧ .invalidated ∉ since := by
  have hd : AnswersNoRecord blockScope := ⟨fun _ => rfl, fun _ _ => rfl⟩
  have hrun : (Lib.run (goOn blockScope plainLib) blockLoop captureInputs).map (·.notes.length) = some 3 := by
    decide +kernel
  obtain ⟨w, hw, hlength⟩ := Option.map_eq_some_iff.mp hrun
  have hreached := Reached.start.run blockScope plainLib hw
  exact ⟨hd, w, hreached, hlength, (samples_are_current blockScope plainLib hd .off false 0 0 [] none hreached).1⟩

end Lager.Scope
