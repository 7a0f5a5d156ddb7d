import Lager.BoxConfig.Snapshot
import Lager.BoxConfig.Render
import Lager.Lib.Run
import Mathlib.Logic.Function.Basic

/-!
# Applies among other invocations

An apply reads the hash of the stored configuration, then the configuration itself, restarts the container (whose
renderer reads the file again), reads the file a last time to see that it has not changed, and calls
`set-applied-hash`, which reads it once more for the snapshot. Each of these is an invocation of its own; verbs of
other operators, other applies and starts without confirmation come in between. The snapshot decides whether such a
start may use host networking.

`recorded_of_undisturbed` is about runs in which the file holds, at every `set-applied-hash`, what was hashed and
what was rendered. `edited_before_stamp` is a run with one edit between the last look at the file and the snapshot.
-/

namespace Lager.BoxConfig

open Lager.Py Lager.Lib.Command
open Lager.Lib (Command run Along run_invariant)

/-! ### What starts render -/

variable (T : CliOps)

/-- The configuration a file holds, if it loads. -/
def held : File → Option BoxConfig
  | .json value => (fromDict T.toTextOps value).toOption
  | _ => none

/-- `_applied_network_mode` -/
def appliedNetworkMode (box : Box) : Json :=
  match ((readAppliedSnapshot T).exec box).1 with
  | .ok (some snap) => snap.networkMode
  | _ => .str defaultNetworkMode

/-- The network in what `_render` writes; `none` when it writes nothing. -/
def renderedNetwork (confirmed : Bool) (box : Box) : Option Json :=
  match box.config with
  | .absent | .corrupt => some (.str defaultNetworkMode)
  | .json value =>
    match fromDict T.toTextOps value with
    | .ok c => some (effectiveNetwork confirmed (appliedNetworkMode T box) c.networkMode).1
    | .error (.validationError _) => some (.str defaultNetworkMode)
    | .error (.raised _) => none

/-! ### Applies -/

/-- `.get("hash")` of a reply. -/
def hashOf : Json → Option String
  | .obj reply =>
    match Dict.get reply "hash" with
    | .str value => some value
    | _ => none
  | _ => none

/-- `.get("ok", True)` of a reply. -/
def okOf : Json → Bool
  | .obj reply => (Dict.getD reply "ok" (.bool true)).truthy
  | _ => false

/-- `reply or {}` -/
def orEmpty (reply : Json) : Json := if reply.truthy then reply else .obj []

/-- How far an apply is. `found` is the configuration that was hashed and `rendered` the one the container was
started with: no step looks at `found`. -/
inductive Phase where
  | hashed (hash : String) (found : BoxConfig)
  | shown (hash : String) (found : BoxConfig) (expected : Json)
  | started (hash : String) (found : BoxConfig) (expected : Json) (rendered : BoxConfig)
  | checked (hash : String) (found rendered : BoxConfig)

def Phase.hash : Phase → String
  | .hashed hash _ | .shown hash _ _ | .started hash _ _ _ | .checked hash _ _ => hash

def Phase.found : Phase → BoxConfig
  | .hashed _ found | .shown _ found _ | .started _ found _ _ | .checked _ found _ => found

structure Shared where
  box : Box
  /-- The applies under way. -/
  applies : Nat → Option Phase
  /-- The hash of the last `set-applied-hash`. -/
  stamped : Option String
  /-- The configuration of the last apply that went through. -/
  last : Option BoxConfig

/-- A box before any of the run: the last apply is the one its snapshot is from. -/
def Shared.start (box : Box) : Shared := ⟨box, fun _ => none, none, held T box.applied⟩

inductive Event where
  /-- Any invocation but `set-applied-hash`. -/
  | verb (w : World) (args : List String)
  | readHash (k : Nat) (w : World)
  | readShow (k : Nat) (w : World)
  /-- The confirmed start of apply `k`, which succeeds. -/
  | confirmedStart (k : Nat)
  /-- `_post_apply_consistency_ok` -/
  | check (k : Nat) (validating showing : World)
  /-- `set-applied-hash`; the apply does not look at the reply. -/
  | stamp (k : Nat) (w : World)
  /-- Apply `k` ends, for whatever reason. -/
  | giveUp (k : Nat)
  /-- `_attempt_rollback` copies the snapshot over the configuration. -/
  | rollback
  | plainStart

def Shared.setPhase (s : Shared) (k : Nat) (p : Option Phase) : Shared :=
  { s with applies := Function.update s.applies k p }

/-- The box after an invocation. -/
def Shared.invoke (s : Shared) (w : World) (args : List String) : Shared := { s with box := (cli T w args s.box).2 }

def step (s : Shared) : Event → Option Shared
  | .verb w args => if verbOf args = "set-applied-hash" then none else some (s.invoke T w args)
  | .readHash k w =>
    match s.applies k, hashOf (cli T w ["hash"] s.box).1, held T s.box.config with
    | none, some hash, some found => some ((s.invoke T w ["hash"]).setPhase k (some (.hashed hash found)))
    | _, _, _ => none
  | .readShow k w =>
    match s.applies k with
    | some (.hashed hash found) =>
      let expected := orEmpty (cli T w ["show"] s.box).1
      some ((s.invoke T w ["show"]).setPhase k (some (.shown hash found expected)))
    | _ => none
  | .confirmedStart k =>
    match s.applies k, held T s.box.config with
    | some (.shown hash found expected), some rendered =>
      some (s.setPhase k (some (.started hash found expected rendered)))
    | _, _ => none
  | .check k validating showing =>
    match s.applies k with
    | some (.started hash found expected rendered) =>
      let t := s.invoke T validating ["validate"]
      if okOf (cli T validating ["validate"] s.box).1 ∧
          (orEmpty (cli T showing ["show"] t.box).1).pyEq expected = true then
        some ((t.invoke T showing ["show"]).setPhase k (some (.checked hash found rendered)))
      else some ((t.invoke T showing ["show"]).setPhase k none)
    | _ => none
  | .stamp k w =>
    match s.applies k with
    | some (.checked hash _ rendered) =>
      let t := (s.invoke T w ["set-applied-hash", hash]).setPhase k none
      some { t with stamped := some hash, last := some rendered }
    | _ => none
  | .giveUp k => some (s.setPhase k none)
  | .rollback =>
    match s.box.applied with
    | .absent => none
    | file => some { s with box := { s.box with config := file } }
  | .plainStart => some s

/-- After every `set-applied-hash` the snapshot has the hash it was given, and a start without confirmation uses
host networking only if the last apply that went through was of a configuration in that mode. -/
def Recorded (s : Shared) : Prop :=
  (∀ hash, s.stamped = some hash → (held T s.box.applied).map (·.computeHash T.toTextOps) = some hash) ∧
    (renderedNetwork T false s.box = some (.str "host") → s.last.map (·.networkMode) = some (.str "host"))

/-- The file holds the configuration that was hashed and that the container was started with. -/
def StillStored (box : Box) : Option Phase → Prop
  | some (.checked _ found rendered) => held T box.config = some found ∧ rendered = found
  | _ => True

/-- When an apply calls `set-applied-hash` the file holds what is to be recorded, and the invocation can take the
lock and write the snapshot. -/
def Undisturbed (s : Shared) : Event → Prop
  | .stamp k w => w.lockFails = false ∧ w.snapshotFails = false ∧ StillStored T s.box (s.applies k)
  | _ => True

variable {T}

/-! ### Single invocations -/

theorem held_eq_some {file : File} {c : BoxConfig} :
    held T file = some c ↔ ∃ value, file = .json value ∧ fromDict T.toTextOps value = .ok c := by
  cases file with
  | json value =>
    simp only [held, File.json.injEq, exists_eq_left']
    cases fromDict T.toTextOps value with
    | ok c' => simp [Except.toOption]
    | error e => simp [Except.toOption]
  | _ => simp [held]

theorem lookup_hash (T : CliOps) (w : World) :
    (dispatchTable T w).lookup "hash" = some fun _ => cmdHash T := rfl

theorem lookup_setAppliedHash (T : CliOps) (w : World) : (dispatchTable T w).lookup "set-applied-hash" =
    some fun args => require args 1 >>= cmdSetAppliedHash T w := rfl

theorem exec_loadRaw {box : Box} {value : Json} (h : box.config = .json value) :
    exec loadRaw box = (.ok value, box) := by
  rw [loadRaw, exec_bind_ok (exec_get box), h]
  rfl

/-- A loaded document is not `null`. -/
theorem ne_null_of_fromDict {value : Json} {c : BoxConfig} (h : fromDict T.toTextOps value = .ok c) :
    value ≠ .null := by
  obtain ⟨d, rfl, -⟩ := fromDict_eq_ok.mp h
  simp

theorem exec_cmdHash {box : Box} {c : BoxConfig} (h : held T box.config = some c) :
    exec (cmdHash T) box = (.ok (.obj [("hash", .str (c.computeHash T.toTextOps))]), box) := by
  obtain ⟨value, hfile, hload⟩ := held_eq_some.mp h
  rw [cmdHash, exec_bind_ok (exec_loadRaw hfile), if_neg (ne_null_of_fromDict hload), hload]
  rfl

/-- What `hash` answers is the hash of what the file holds. -/
theorem hashOf_cli {w : World} {box : Box} {c : BoxConfig} {value : String} (h : held T box.config = some c)
    (hreply : hashOf (cli T w ["hash"] box).1 = some value) : c.computeHash T.toTextOps = value := by
  have hdispatch : dispatch T w ["hash"] = cmdHash T := by
    rw [dispatch, List.headD_cons, lookup_hash]
  rw [cli, hdispatch, exec_cmdHash h] at hreply
  split_ifs at hreply
  · cases hreply
  · exact Option.some.inj hreply

theorem applied_cmdSetAppliedHash {w : World} {box : Box} {c : BoxConfig} (hsnapshot : w.snapshotFails = false)
    (h : held T box.config = some c) (value : String) :
    (exec (cmdSetAppliedHash T w value) box).2.applied = .json (.obj c.toDict) := by
  obtain ⟨raw, hfile, hload⟩ := held_eq_some.mp h
  have hrest : KeepsApplied (do
      writeAppliedHash w value
      audit w "set-applied-hash" (.obj [("hash", .str value)])
      pure (okReply [])) := by
    refine keeps_bind ?_ fun _ => keeps_bind keeps_audit fun _ => keeps_pure
    rw [writeAppliedHash]
    split_ifs
    · exact keeps_raise
    · exact observes_modify fun _ => rfl
  have hwrite : exec (writeAppliedSnapshot w c) box = (.ok ⟨⟩, { box with applied := .json (.obj c.toDict) }) := by
    rw [writeAppliedSnapshot, hsnapshot]
    rfl
  rw [cmdSetAppliedHash, exec_bind_ok (exec_loadRaw hfile), if_pos (ne_null_of_fromDict hload), hload]
  simp only
  rw [exec_bind_ok hwrite]
  exact (hrest _).1

theorem applied_cli {w : World} {box : Box} {c : BoxConfig} (hlock : w.lockFails = false)
    (hsnapshot : w.snapshotFails = false) (h : held T box.config = some c) (value : String) :
    (cli T w ["set-applied-hash", value] box).2.applied = .json (.obj c.toDict) := by
  have hdispatch : dispatch T w ["set-applied-hash", value] = cmdSetAppliedHash T w value := by
    rw [dispatch, List.headD_cons, lookup_setAppliedHash]
    rfl
  have hwritten := applied_cmdSetAppliedHash hsnapshot h value
  rw [cli, hdispatch, if_neg (by rw [hlock]; decide)]
  split <;> simp_all

/-- The snapshot reads back with the hash and the network mode of what was written. -/
theorem held_toDict {file : File} {c : BoxConfig} (h : held T file = some c) :
    ∃ c', held T (.json (.obj c.toDict)) = some c' ∧ c'.computeHash T.toTextOps = c.computeHash T.toTextOps ∧
      c'.networkMode = c.networkMode := by
  obtain ⟨raw, -, hload⟩ := held_eq_some.mp h
  have hwritten := fromDict_toDict (valid_of_fromDict hload)
  obtain ⟨d, -, hacc, -, rfl⟩ := fromDict_eq_ok.mp hload
  refine ⟨_, held_eq_some.mpr ⟨_, rfl, hwritten⟩, ?_, ?_⟩
  · rw [BoxConfig.computeHash, BoxConfig.payload, toDict_loaded_toDict hacc]
    rfl
  · rw [loaded_toDict_extras hacc]

theorem appliedNetworkMode_eq (box : Box) :
    appliedNetworkMode T box = ((held T box.applied).map (·.networkMode)).getD (.str defaultNetworkMode) := by
  rw [appliedNetworkMode, readAppliedSnapshot, exec_bind_ok (exec_get box)]
  cases box.applied with
  | absent => rfl
  | corrupt => rfl
  | json value =>
    simp only [held]
    cases fromDict T.toTextOps value with
    | ok c => rfl
    | error e => cases e <;> rfl

/-- A start without confirmation uses host networking only if the snapshot has that mode. -/
theorem host_of_renderedNetwork {box : Box} (h : renderedNetwork T false box = some (.str "host")) :
    ∃ c, held T box.applied = some c ∧ c.networkMode = .str "host" := by
  have hdefault : (some (Json.str defaultNetworkMode) : Option Json) ≠ some (.str "host") := by decide
  rw [renderedNetwork] at h
  split at h
  · exact absurd h hdefault
  · exact absurd h hdefault
  · split at h
    · rename_i c hload
      simp only [effectiveNetwork, Bool.false_eq_true, or_false] at h
      split_ifs at h with hother happlied
      · exact absurd (Option.some.inj h) hother
      · rw [appliedNetworkMode_eq] at happlied
        cases hsnap : held T box.applied with
        | none =>
          rw [hsnap] at happlied
          exact absurd (congrArg some happlied) hdefault
        | some snap =>
          rw [hsnap] at happlied
          exact ⟨snap, rfl, happlied⟩
      · exact absurd h hdefault
    · exact absurd h hdefault
    · cases h

/-! ### Steps -/

/-- The hash of an apply is that of what it found. -/
def Phase.Sound (T : CliOps) (p : Phase) : Prop := p.found.computeHash T.toTextOps = p.hash

theorem setPhase_applies (s : Shared) (k : Nat) (o : Option Phase) (j : Nat) :
    (s.setPhase k o).applies j = if j = k then o else s.applies j :=
  Function.update_apply s.applies k o j

/-- The applies go on with the hash they have read. -/
theorem sound_setPhase {s : Shared} (hs : ∀ k p, s.applies k = some p → p.Sound T) {k : Nat} {o : Option Phase}
    (ho : ∀ p, o = some p → p.Sound T) : ∀ j p, (s.setPhase k o).applies j = some p → p.Sound T := by
  intro j p hp
  rw [setPhase_applies] at hp
  split_ifs at hp
  · exact ho p hp
  · exact hs j p hp

variable (T) in
/-- What a step other than `set-applied-hash` does not touch. -/
structure Keeps (s t : Shared) : Prop where
  applied : t.box.applied = s.box.applied
  stamped : t.stamped = s.stamped
  last : t.last = s.last
  sound : (∀ k p, s.applies k = some p → p.Sound T) → ∀ k p, t.applies k = some p → p.Sound T

theorem Keeps.refl (s : Shared) : Keeps T s s := ⟨rfl, rfl, rfl, id⟩

theorem Keeps.invoke {s t : Shared} (h : Keeps T s t) {w : World} {args : List String}
    (hverb : verbOf args ≠ "set-applied-hash") : Keeps T s (t.invoke T w args) :=
  ⟨(cli_applied hverb t.box).trans h.applied, h.stamped, h.last, h.sound⟩

theorem Keeps.setPhase {s t : Shared} (h : Keeps T s t) {k : Nat} {o : Option Phase}
    (ho : (∀ k p, s.applies k = some p → p.Sound T) → ∀ p, o = some p → p.Sound T) : Keeps T s (t.setPhase k o) :=
  ⟨h.applied, h.stamped, h.last, fun hs => sound_setPhase (h.sound hs) (ho hs)⟩

/-- **A step** leaves the record alone, or it is `set-applied-hash`. -/
theorem step_cases {s t : Shared} {e : Event} (h : step T s e = some t) :
    Keeps T s t ∨ ∃ k w hash found rendered, e = .stamp k w ∧ s.applies k = some (.checked hash found rendered) ∧
      t = { (s.invoke T w ["set-applied-hash", hash]).setPhase k none with
            stamped := some hash
            last := some rendered } := by
  have hshow : verbOf ["show"] ≠ "set-applied-hash" := by decide
  cases e with
  | verb w args =>
    simp only [step] at h
    split_ifs at h with hverb
    cases h
    exact .inl ((Keeps.refl s).invoke hverb)
  | readHash k w =>
    simp only [step] at h
    split at h
    · rename_i hash found hnone hreply hfile
      cases h
      refine .inl (((Keeps.refl s).invoke (by decide)).setPhase fun _ p hp => ?_)
      cases hp
      exact hashOf_cli hfile hreply
    · cases h
  | readShow k w =>
    simp only [step] at h
    split at h
    · rename_i hash found hphase
      cases h
      refine .inl (((Keeps.refl s).invoke hshow).setPhase fun hs p hp => ?_)
      cases hp
      exact (hs k _ hphase :)
    · cases h
  | confirmedStart k =>
    simp only [step] at h
    split at h
    · rename_i hash found expected rendered hphase hfile
      cases h
      refine .inl ((Keeps.refl s).setPhase fun hs p hp => ?_)
      cases hp
      exact (hs k _ hphase :)
    · cases h
  | check k validating showing =>
    simp only [step] at h
    split at h
    · rename_i hash found expected rendered hphase
      have hvalidate : verbOf ["validate"] ≠ "set-applied-hash" := by decide
      have hkeeps := (@Keeps.invoke T s s (Keeps.refl s) validating ["validate"] hvalidate).invoke
        (w := showing) hshow
      split_ifs at h
      · cases h
        refine .inl (hkeeps.setPhase fun hs p hp => ?_)
        cases hp
        exact (hs k _ hphase :)
      · cases h
        exact .inl (hkeeps.setPhase fun _ p hp => nomatch hp)
    · cases h
  | stamp k w =>
    simp only [step] at h
    split at h
    · rename_i hash found rendered hphase
      cases h
      exact .inr ⟨k, w, hash, found, rendered, rfl, hphase, rfl⟩
    · cases h
  | giveUp k =>
    cases h
    exact .inl ((Keeps.refl s).setPhase fun _ p hp => nomatch hp)
  | rollback =>
    simp only [step] at h
    split at h
    · cases h
    · cases h
      exact .inl ⟨rfl, rfl, rfl, id⟩
  | plainStart =>
    cases h
    exact .inl (Keeps.refl s)

/-! ### Runs -/

variable (T) in
/-- What undisturbed applies keep. -/
structure Faithful (s : Shared) : Prop where
  sound : ∀ k p, s.applies k = some p → p.Sound T
  stamped : ∀ hash, s.stamped = some hash → (held T s.box.applied).map (·.computeHash T.toTextOps) = some hash
  last : (held T s.box.applied).map (·.networkMode) = s.last.map (·.networkMode)

theorem faithful_start (box : Box) : Faithful T (Shared.start T box) :=
  ⟨fun _ _ h => (nomatch h), fun _ h => (nomatch h), rfl⟩

theorem faithful_step {s t : Shared} {e : Event} (hok : Undisturbed T s e) (hs : Faithful T s)
    (h : step T s e = some t) : Faithful T t := by
  rcases step_cases h with hkeeps | ⟨k, w, hash, found, rendered, rfl, hphase, rfl⟩
  · obtain ⟨happlied, hstamped, hlast, hsound⟩ := hkeeps
    refine ⟨hsound hs.sound, ?_, ?_⟩
    · rw [happlied, hstamped]
      exact hs.stamped
    · rw [happlied, hlast]
      exact hs.last
  · rw [Undisturbed, hphase, StillStored] at hok
    obtain ⟨hlock, hsnapshot, hfile, hsame⟩ := hok
    subst hsame
    have hsound : (Phase.checked hash rendered rendered).Sound T := hs.sound k _ hphase
    rw [Phase.Sound, Phase.found, Phase.hash] at hsound
    have happlied := applied_cli hlock hsnapshot hfile hash
    obtain ⟨snap, hsnap, hhash, hmode⟩ := held_toDict hfile
    have hread : held T (cli T w ["set-applied-hash", hash] s.box).2.applied = some snap := by
      rw [happlied, hsnap]
    refine ⟨?_, ?_, ?_⟩
    · exact sound_setPhase (s := s.invoke T w ["set-applied-hash", hash]) hs.sound fun p hp => nomatch hp
    · rintro _ ⟨⟩
      show (held T (cli T w ["set-applied-hash", hash] s.box).2.applied).map _ = _
      rw [hread, Option.map_some, hhash, hsound]
    · show (held T (cli T w ["set-applied-hash", hash] s.box).2.applied).map _ = _
      rw [hread, Option.map_some, hmode]
      rfl

theorem Faithful.recorded {s : Shared} (h : Faithful T s) : Recorded T s := by
  refine ⟨h.stamped, fun hhost => ?_⟩
  obtain ⟨c, hsnap, hmode⟩ := host_of_renderedNetwork hhost
  rw [← h.last, hsnap, Option.map_some, hmode]

/-- **Undisturbed applies.** In every run in which the file holds, at each `set-applied-hash`, what was hashed and
what the container was started with, the snapshot is what was applied. -/
theorem recorded_of_undisturbed (T : CliOps) (box : Box) (events : List Event) (s : Shared)
    (hrun : run (step T) (Shared.start T box) events = some s)
    (hal : Along (step T) (Undisturbed T) (Shared.start T box) events) : Recorded T s :=
  (run_invariant (Faithful T) (fun _ _ _ hok hs h => faithful_step hok hs h) hal (faithful_start box) hrun).recorded

/-- What `network-mode set host` sends. -/
def hostPayload : String := "\x7b\"mode\": \"host\"\x7d"

def modeCli : CliOps where
  toTextOps := asciiText
  loads payload :=
    if payload = hostPayload then .ok (.obj [("mode", .str "host")]) else .error "Expecting value"
  message _ := ""

/-- A box after `reset`, with no apply so far. -/
def resetBox : Box := ⟨.json (.obj bareConfig.toDict), .absent, none, .absent, []⟩

/-- An apply up to its last look at the file. -/
def applyUntilCheck : List Event :=
  [.readHash 0 quietWorld, .readShow 0 quietWorld, .confirmedStart 0, .check 0 quietWorld quietWorld]

deriving instance DecidableEq for BoxConfig

instance decidableStillStored (T : CliOps) (box : Box) : DecidablePred (StillStored T box)
  | some (.checked _ found rendered) => inferInstanceAs (Decidable (held T box.config = some found ∧ rendered = found))
  | none | some (.hashed ..) | some (.shown ..) | some (.started ..) => isTrue trivial

instance decidableUndisturbed (T : CliOps) (s : Shared) : DecidablePred (Undisturbed T s)
  | .stamp k w => inferInstanceAs
    (Decidable (w.lockFails = false ∧ w.snapshotFails = false ∧ StillStored T s.box (s.applies k)))
  | .verb .. | .readHash .. | .readShow .. | .confirmedStart _ | .check .. | .giveUp _ | .rollback | .plainStart =>
    isTrue trivial

/-- An apply of its own, and a switch to host networking that waits for the next one. -/
theorem recorded_of_undisturbed_apply : ∃ s, run (step modeCli) (Shared.start modeCli resetBox)
      (applyUntilCheck ++ [.stamp 0 quietWorld, .verb quietWorld ["network-mode-set", hostPayload], .plainStart]) =
        some s ∧ Recorded modeCli s := by
  have hruns : (run (step modeCli) (Shared.start modeCli resetBox) (applyUntilCheck ++
      [.stamp 0 quietWorld, .verb quietWorld ["network-mode-set", hostPayload], .plainStart])).isSome = true := by
    decide +kernel
  obtain ⟨s, hrun⟩ := Option.isSome_iff_exists.mp hruns
  refine ⟨s, hrun, recorded_of_undisturbed modeCli resetBox _ s hrun ?_⟩
  decide +kernel

/-- **One edit between the last look and the snapshot.** The container was started with the default mode, the
snapshot says host, and the next start without confirmation switches to it. -/
theorem edited_before_stamp : ∃ s, run (step modeCli) (Shared.start modeCli resetBox)
      (applyUntilCheck ++ [.verb quietWorld ["network-mode-set", hostPayload], .stamp 0 quietWorld, .plainStart]) =
        some s ∧ ¬Recorded modeCli s := by
  have hend : (run (step modeCli) (Shared.start modeCli resetBox) (applyUntilCheck ++
      [.verb quietWorld ["network-mode-set", hostPayload], .stamp 0 quietWorld, .plainStart])).map
        (fun s => (renderedNetwork modeCli false s.box, s.last.map (·.networkMode))) =
      some (some (.str "host"), some (.str "lagernet")) := by
    decide +kernel
  obtain ⟨s, hrun, hs⟩ := Option.map_eq_some_iff.mp hend
  obtain ⟨hhost, hlast⟩ := Prod.mk.inj hs
  refine ⟨s, hrun, fun hrecorded => ?_⟩
  have hmode := hrecorded.2 hhost
  rw [hlast] at hmode
  exact absurd hmode (by decide)

end Lager.BoxConfig
