import Lager.Scope.Published
import Lager.Scope.Samples
import Mathlib.Data.List.Nodup

/-!
# The hardware thread

`hardware_thread` of `daemon/src/scope_thread.rs`: open the scope, run the loop on it, and open it again whenever it
is lost or a driver call panics. `Thread` has what is alive in each phase of that; everything ever published goes
along. An event names the outcome of an opening, the input of a turn, or how far a turn had come when it panicked.

Through all of it the published versions increase, and whenever the loop waits the last published state is the
loop's.
-/

namespace Lager.Scope

variable {σ : Type} (d : Driver σ) (lib : Lib)

/-- What a subscriber is told before there is a scope to describe. -/
def unopenedState : ScopeState :=
  { version := 0, acquiring := false, rolling := false,
    trigger := { mode := .auto, source := .alphabetic 'A', level := 0, slope := .rising },
    holdoffS := 0, positionPercent := 50, timePerDiv := 0, timeOffset := 0, sampleIntervalNs := 0, memoryDepth := 0,
    roll := .auto, acquisition := .normal, averageCount := DEFAULT_AVERAGE_COUNT, channels := [], display := .obj [],
    liveViewProblem := none }

def CAPTURE_CARD_STOPPED : String := "the capture card stopped"

def onlyTheCaptureCardWent (reason : String) : Bool := CAPTURE_CARD_STOPPED.toList.isPrefixOf reason.toList

/-- The state in the watch channel. -/
def lastState (published : List ScopeState) : ScopeState := published.getLast?.getD unopenedState

inductive Thread (σ : Type) where
  /-- `lost`: the serial of a unit that went, and the settings it had. -/
  | opening (lost : Option (String × ScopeState)) (captureCount : Nat) (published : List ScopeState)
  | running (serial : Option String) (w : Loop σ)
  | closing (serial : Option String) (reason : String) (captureCount : Nat) (published : List ScopeState)
  | stopped (published : List ScopeState)

namespace Thread

/-- Everything sent to the subscribers, from the start of the thread on. -/
def published : Thread σ → List ScopeState
  | opening _ _ published => published
  | running _ w => w.published
  | closing _ _ _ published => published
  | stopped published => published

/-- The loop, while it runs. -/
def loop : Thread σ → Option (Loop σ)
  | running _ w => some w
  | _ => none

def start : Thread σ := opening none 0 [unopenedState]

inductive Event (σ : Type) where
  | openFails
  | opens (scope : σ)
  /-- The driver panics before the loop, or in a turn of it, with so many more states sent and captures counted. -/
  | panicsAtStart (scope : σ) (sent : Nat) (message : String)
  | turns (i : Input)
  | panics (i : Input) (sent captures : Nat) (message : String)
  /-- The queue has been drained. -/
  | reopens
  /-- Also on a panic between the opening and the loop, which nothing catches. -/
  | stops

/-- The serial of a unit that the daemon alone sets. -/
def serialOf (g : Getters) : Option String :=
  match g.capabilities with
  | .ok caps => if caps.serial ≠ "" ∧ !g.refreshes then some caps.serial else none
  | .error _ => none

/-- From an open scope to the start of the loop. -/
def enter (scope : σ) (lost : Option (String × ScopeState)) (captureCount : Nat) (published : List ScopeState) :
    Option String × Loop σ :=
  let scope := (d.releaseCapture scope).2
  let r := d.acquiringAfterOpen scope
  let serial := serialOf (d.getters r.2)
  let restoreFrom := (lost.filter fun was => serial == some was.1).map Prod.snd
  (serial, startLoop d lib r.2 (r.1.getD false) captureCount (lastState published).version published restoreFrom)

/-- The state that tells subscribers the scope has gone. -/
def goneState (reason : String) (published : List ScopeState) : ScopeState :=
  { unopenedState with
    version := (lastState published).version + 1
    liveViewProblem := if onlyTheCaptureCardWent reason then some reason else none }

def panicked (message : String) : String := "the driver panicked: " ++ message

def step : Thread σ → Event σ → Option (Thread σ)
  | opening lost count published, .openFails => some (opening lost count published)
  | opening lost count published, .opens scope =>
    let (serial, w) := enter d lib scope lost count published
    some (running serial w)
  | opening lost count published, .panicsAtStart scope sent message =>
    let (serial, w) := enter d lib scope lost count published
    some (closing serial (panicked message) count (w.published.take (published.length + sent)))
  | running serial w, .turns i =>
    match turn d lib w i with
    | none => none
    | some (w, none) => some (running serial w)
    | some (w, some .shutdown) => some (stopped w.published)
    | some (w, some (.unitGone reason)) => some (closing serial reason w.sequence w.published)
  | running serial w, .panics i sent captures message =>
    match turn d lib w i with
    | none => none
    | some (w', _) =>
      if w.sequence + captures ≤ w'.sequence then
        some (closing serial (panicked message) (w.sequence + captures)
          (w'.published.take (w.published.length + sent)))
      else none
  | closing serial reason count published, .reopens =>
    let settings := lastState published
    let lost := if settings.channels.isEmpty then none else serial.map fun serial => (serial, settings)
    some (opening lost count (published ++ [goneState reason published]))
  | t, .stops => some (stopped t.published)
  | _, _ => none

/-! ### The invariant -/

def Increasing (published : List ScopeState) : Prop := published.Pairwise fun a b => a.version < b.version

theorem le_lastState {published : List ScopeState} (h : Increasing published) :
    ∀ s ∈ published, s.version ≤ (lastState published).version := by
  intro s hs
  rcases List.eq_nil_or_concat published with rfl | ⟨init, last, rfl⟩
  · cases hs
  · simp only [lastState, List.concat_eq_append, List.getLast?_concat, Option.getD_some] at hs ⊢
    rcases List.mem_append.mp hs with hs | hs
    · rw [Increasing, List.concat_eq_append] at h
      exact Nat.le_of_lt ((List.pairwise_append.mp h).2.2 s hs last (List.mem_singleton.mpr rfl))
    · rw [List.mem_singleton.mp hs]

theorem Increasing.gone {published : List ScopeState} (h : Increasing published) (reason : String) :
    Increasing (published ++ [goneState reason published]) := by
  refine List.pairwise_append.mpr ⟨h, List.pairwise_singleton _ _, ?_⟩
  intro a ha b hb
  rw [List.mem_singleton.mp hb]
  exact Nat.lt_succ_of_le (le_lastState h a ha)

structure Good (t : Thread σ) : Prop where
  increasing : Increasing t.published
  loop : ∀ w, t.loop = some w → w.Ordered ∧ w.Shown d lib

variable {d lib}

theorem enter_good (scope : σ) (lost : Option (String × ScopeState)) (count : Nat) {published : List ScopeState}
    (h : Increasing published) :
    (enter d lib scope lost count published).2.Ordered ∧ (enter d lib scope lost count published).2.Shown d lib :=
  ⟨(Loop.Ordered.kept d lib).startLoop _ ⟨h, le_lastState h⟩, Loop.Shown.startLoop _ _ _ _ _ _⟩

/-- Outside the loop only the order of the versions matters. -/
theorem Good.of_increasing {t : Thread σ} (h : Increasing t.published) (hidle : t.loop = none) : t.Good d lib := by
  refine ⟨h, fun w hw => ?_⟩
  rw [hidle] at hw
  cases hw

theorem Good.of_loop {serial : Option String} {w : Loop σ} (hordered : w.Ordered) (hshown : w.Shown d lib) :
    (running serial w).Good d lib := by
  refine ⟨hordered.increasing, fun v hv => ?_⟩
  cases hv
  exact ⟨hordered, hshown⟩

theorem Good.step (hd : Quiet d) {t t' : Thread σ} {e : Event σ} (h : t.Good d lib) (hstep : t.step d lib e = some t') :
    t'.Good d lib := by
  unfold Thread.step at hstep
  split at hstep
  · cases hstep
    exact h
  · rename_i lost count published scope
    obtain ⟨hordered, hshown⟩ := enter_good (d := d) scope lost count h.increasing
    rw [← Option.some.inj hstep]
    exact .of_loop hordered hshown
  · rename_i lost count published scope sent message
    obtain ⟨hordered, -⟩ := enter_good (d := d) scope lost count h.increasing
    rw [← Option.some.inj hstep]
    exact .of_increasing (hordered.increasing.sublist (List.take_sublist _ _)) rfl
  · rename_i serial w i
    obtain ⟨hordered, hshown⟩ := h.loop w rfl
    split at hstep
    · cases hstep
    · rename_i w' hturn
      rw [← Option.some.inj hstep]
      exact .of_loop ((Loop.Ordered.kept d lib).turn hordered hturn) (hshown.turn hd hturn)
    · rename_i w' hturn
      rw [← Option.some.inj hstep]
      exact .of_increasing ((Loop.Ordered.kept d lib).turn hordered hturn).increasing rfl
    · rename_i w' reason hturn
      rw [← Option.some.inj hstep]
      exact .of_increasing ((Loop.Ordered.kept d lib).turn hordered hturn).increasing rfl
  · rename_i serial w i sent captures message
    obtain ⟨hordered, -⟩ := h.loop w rfl
    split at hstep
    · cases hstep
    · rename_i w' _ hturn
      split at hstep
      · have hnext := (Loop.Ordered.kept d lib).turn hordered hturn
        rw [← Option.some.inj hstep]
        exact .of_increasing (hnext.increasing.sublist (List.take_sublist _ _)) rfl
      · cases hstep
  · rw [← Option.some.inj hstep]
    exact .of_increasing (h.increasing.gone _) rfl
  · rw [← Option.some.inj hstep]
    exact .of_increasing h.increasing rfl
  · cases hstep

theorem Good.run (hd : Quiet d) {t : Thread σ} {events : List (Event σ)}
    (hrun : Lib.run (Thread.step d lib) start events = some t) : t.Good d lib := by
  have hstart : (start : Thread σ).Good d lib := .of_increasing (List.pairwise_singleton _ _) rfl
  exact Lib.run_preserves (fun t => Good d lib t) (fun _ _ _ h hstep => h.step hd hstep) hstart hrun

/-- **The published state is the loop's state.** For a driver whose getters keep their answers over the calls of a
running acquisition, in every run of the hardware thread, over any losses, panics and reopenings: the versions of
the published states increase, so that states with one version are one state, and whenever the loop waits for a
message the last published state is the one built from the scope and the loop as they are. -/
theorem published_state_is_current (hd : Quiet d) {t : Thread σ} {events : List (Event σ)}
    (hrun : Lib.run (Thread.step d lib) start events = some t) :
    t.published.Pairwise (fun a b => a.version < b.version) ∧
    (∀ a ∈ t.published, ∀ b ∈ t.published, a.version = b.version → a = b) ∧
    ∀ w, t.loop = some w → ∀ now,
      (waitState d lib w now).published.getLast? = some (buildState d lib (waitState d lib w now)) := by
  have hgood := Good.run hd hrun
  refine ⟨hgood.increasing, ?_, fun w hw now => ((hgood.loop w hw).2.waitState hd now).last⟩
  intro a ha b hb hversion
  have hdistinct : (t.published.map (·.version)).Nodup :=
    List.pairwise_map.mpr (List.Pairwise.imp (fun h => Nat.ne_of_lt h) hgood.increasing)
  exact List.inj_on_of_nodup_map hdistinct ha hb hversion

theorem blockScope_quiet : Quiet blockScope where
  isReady _ _ _ := rfl
  getTriggeredData _ := rfl
  forceTrigger _ _ := rfl
  rearm _ _ := rfl
  pollRoll _ _ _ := rfl
  refreshSettings _ _ := rfl
  measureAll _ _ := rfl
  measureOne _ _ _ := rfl
  readRecord _ := rfl

/-- Open, start, capture, panic, and open again. -/
def reopenedEvents : List (Event ArmState) :=
  [.opens .off, .turns (.at (some (.startAcquisition 50)) 0), .turns (.at none 1),
    .panics (.at none 2) 0 0 "index out of bounds", .reopens, .opens .off]

theorem blockScope_published :
    Quiet blockScope ∧ ∃ t, Lib.run (Thread.step blockScope plainLib) start reopenedEvents = some t ∧
      t.published.map (·.version) = [0, 1, 2, 3, 4] ∧
      t.published.Pairwise (fun a b => a.version < b.version) := by
  have hversions : (Lib.run (Thread.step blockScope plainLib) start reopenedEvents).map
      (fun t => t.published.map (·.version)) = some [0, 1, 2, 3, 4] := by decide +kernel
  obtain ⟨t, hrun, ht⟩ := Option.map_eq_some_iff.mp hversions
  exact ⟨blockScope_quiet, t, hrun, ht, (published_state_is_current blockScope_quiet hrun).1⟩

/-- The calls that are no setter, start, stop, roll or capture do not change what the getters say. -/
structure ReadsOnly (d : Driver σ) : Prop where
  refreshSettings : ∀ s, d.getters (d.refreshSettings s).2 = d.getters s
  measureAll : ∀ c s, d.getters (d.measureAll c s).2 = d.getters s
  measureOne : ∀ c which s, d.getters (d.measureOne c which s).2 = d.getters s
  readRecord : ∀ s, d.getters (d.readRecord s).2 = d.getters s

/-- A scope that reports the depth of the block it is armed for, and has none after a read-out. -/
def depthScope : Driver ArmState :=
  { blockScope with
    getters := fun s => { blockGetters with currentMemoryDepth := .ok (if s = .armed then 1000 else 0) }
    rearm := fun s => (.ok (), s) }

/-- A capture after which no state is published, though a getter answers differently. -/
theorem stale_after_capture :
    ReadsOnly depthScope ∧ ∃ t w, Lib.run (Thread.step depthScope plainLib) start
        [.opens .off, .turns (.at (some (.startAcquisition 50)) 0), .turns (.at none 1)] = some t ∧
      t.loop = some w ∧
      (waitState depthScope plainLib w 2).published.getLast? ≠
        some (buildState depthScope plainLib (waitState depthScope plainLib w 2)) := by
  have hread : ReadsOnly depthScope := ⟨fun _ => rfl, fun _ _ => rfl, fun _ _ _ => rfl, fun _ => rfl⟩
  have hdepths : ((Lib.run (Thread.step depthScope plainLib) start
      [.opens .off, .turns (.at (some (.startAcquisition 50)) 0), .turns (.at none 1)]).bind fun t =>
        t.loop.map fun w => waitState depthScope plainLib w 2).map
      (fun w => (w.published.getLast?.map (·.memoryDepth), (buildState depthScope plainLib w).memoryDepth)) =
        some (some 1000, 0) := by decide +kernel
  obtain ⟨w', hw', hpair⟩ := Option.map_eq_some_iff.mp hdepths
  obtain ⟨t, hrun, hloop⟩ := Option.bind_eq_some_iff.mp hw'
  obtain ⟨w, hw, rfl⟩ := Option.map_eq_some_iff.mp hloop
  refine ⟨hread, t, w, hrun, hw, fun heq => ?_⟩
  rw [heq] at hpair
  simp only [Option.map_some, Prod.mk.injEq, Option.some.injEq] at hpair
  omega

end Thread

end Lager.Scope
