import Lager.RunRecord.SameId

/-!
# Fetching a final record

`load_final` looks for the record in `final/`, then for the open one, and then once more in `final/`: the record is
published before the open one is removed, so a run that was recorded shows in one of the two at any time (`Known`).
The record is looked up under `fs_slug` of the id, while it was written under the id itself. These are the same for
every id that `valid_run_id` accepts, with one exception: its pattern ends in `$`, which also matches before a
newline at the end.
-/

namespace Lager.RunRecord

open Lager.Py Lager.Lib

/-! ### Looking up -/

/-- `fs_slug`. -/
def fsSlug (value : String) : String :=
  String.ofList (value.toList.map fun c => if c.isAlphanum || c = '.' || c = '_' || c = '-' then c else '_')

inductive Fetched
  /-- 200 with the record. -/
  | found (record : Record)
  /-- 202. -/
  | stillOpen
  /-- 404. -/
  | unknown
  deriving DecidableEq

/-- Where a fetch stands. -/
inductive Fetch
  /-- `open(final_path)` -/
  | looking
  /-- `os.path.exists(open_path)` -/
  | testing
  /-- One more look. -/
  | lookingAgain
  /-- `time.monotonic() >= deadline` -/
  | waiting
  | answered (answer : Fetched)
  deriving DecidableEq

/-- The start of `load_final`. A slug has no separator in it, so that the paths are always inside their directories. -/
def loadFinal (runId : RunId) : Fetch := if validRunId runId then .looking else .answered .unknown

/-- One operation of `load_final`, on the files as they are; `late` says that the deadline has passed. -/
def Fetch.step (runId : RunId) (s : Store) (late : Bool) : Fetch → Fetch
  | .looking =>
    match s.final.lookup (fsSlug runId) with
    | some record => .answered (.found record)
    | none => .testing
  | .testing => if fsSlug runId ∈ s.opens then .waiting else .lookingAgain
  | .lookingAgain =>
    match s.final.lookup (fsSlug runId) with
    | some record => .answered (.found record)
    | none => .answered .unknown
  | .waiting => if late then .answered .stillOpen else .looking
  | .answered answer => .answered answer

/-- A box and a fetch. -/
structure Watched where
  sys : Sys
  fetch : Fetch

inductive WatchEvent
  | box (e : Event)
  | fetch (late : Bool)

def watchStep (w : World) (mode : Mode) (runId : RunId) (v : Watched) : WatchEvent → Option Watched
  | .box e => (step w mode v.sys e).map fun sys => { v with sys }
  | .fetch late => some { v with fetch := v.fetch.step runId v.sys.store late }

/-! ### Names -/

theorem fsSlug_eq {runId : RunId} (hvalid : validRunId runId = true) (hlast : runId.toList.getLast? ≠ some '\n') :
    fsSlug runId = runId := by
  have hsafe : ∀ c ∈ runId.toList, (c.isAlphanum || c = '.' || c = '_' || c = '-') = true := by
    unfold validRunId at hvalid
    rw [if_neg hlast] at hvalid
    intro c hc
    cases htext : runId.toList with
    | nil => simp [htext] at hc
    | cons first rest =>
      simp only [htext, Bool.and_eq_true, List.all_eq_true] at hvalid
      rw [htext, List.mem_cons] at hc
      rcases hc with rfl | hrest
      · simp [hvalid.1.1]
      · have hchar := hvalid.1.2 c hrest
        simp only [isRunIdChar, Bool.or_eq_true] at hchar ⊢
        tauto
  have hmap : runId.toList.map (fun c => if c.isAlphanum || c = '.' || c = '_' || c = '-' then c else '_') =
      runId.toList.map id := by
    refine List.map_congr_left fun c hc => ?_
    rw [if_pos (hsafe c hc), id]
  rw [fsSlug, hmap, List.map_id, String.ofList_toList]

theorem lookup_slug {runId : RunId} (hslug : fsSlug runId = runId) {d : Dir Record} :
    d.lookup (fsSlug runId) = d.lookup runId := by
  rw [hslug]

/-- The id that is minted in this step. -/
def Event.minted? : Event → Option RunId
  | .run _ e => e.uuid?
  | _ => none

variable {w : World} {mode : Mode} {s t : Sys} {e : Event}

/-- Every id that a run has settled on is a valid one. -/
def ValidIds (s : Sys) : Prop :=
  ∀ i r runId, s.runs i = some r → (r.phase.chosen = some runId ∨ r.phase.opened.map (·.record.runId) = some runId) →
    validRunId runId = true

theorem step_validIds (hs : ValidIds s) (hminted : ∀ uuid ∈ e.minted?, validRunId uuid = true)
    (h : step w mode s e = some t) : ValidIds t := by
  intro i r' runId hr' hid
  rcases (step_effect h).run_cases hr' with hsame | ⟨r, hr, rfl, -⟩ | ⟨req, rfl, -⟩ | ⟨r, re, p, rfl, hr, hstep, rfl⟩
  · exact hs i r' runId hsame hid
  · refine hs i r runId hr (.inr ?_)
    rcases hid with hchosen | hopened
    · cases hchosen
    · exact hopened
  · rcases hid with hchosen | hopened
    · cases hchosen
    · cases hopened
  · rcases hid with hchosen | hopened
    · rcases runStep_chosen hstep hchosen with ⟨-, -, hvalid | huuid⟩ | hbefore | ⟨huuid, -⟩
      · exact hvalid
      · exact hminted runId huuid
      · exact hs i r runId hr (.inl hbefore)
      · exact hminted runId huuid
    · obtain ⟨o, ho, rfl⟩ := Option.map_eq_some_iff.mp hopened
      rcases (runStep_opened hstep o).mp ho with hbefore | ⟨c, rfl, hphase⟩
      · exact hs i r _ hr (.inr (by rw [hbefore]; rfl))
      · exact hs i r _ hr (.inl (by rw [hphase]; rfl))

/-! ### A recorded run shows -/

/-- A run that was recorded is open, or was published. -/
structure Known (s : Sys) : Prop where
  fileName : ∀ runId o, s.store.opens.lookup runId = some o → o.record.runId = runId
  job : ∀ a job, s.job? a = some job → job.Shaped ∧ job.record.runId = job.file
  published : Published s
  recorded : ∀ i runId, RecordedAs s i runId → runId ∈ s.store.opens ∨ ∃ q ∈ s.store.written, q.runId = runId

/-- What a step does to the open records. -/
theorem Known.opens_cases (hs : Known s) (h : Effect w mode s t e) :
    t.store.opens = s.store.opens ∨ (∃ o : OpenRecord, t.store.opens = s.store.opens.insert o.record.runId o) ∨
    (∃ q ∈ s.store.written, t.store.opens = s.store.opens.erase q.runId) := by
  rcases h.store_cases with hfiles | ⟨i, r, id, -, -, -, -, hstore⟩ | ⟨i, r, o, c, -, -, -, -, hstore⟩ |
    ⟨a, job, je, after, -, hj, hjob⟩ | ⟨id, -, hstore⟩
  · exact .inl hfiles.opens
  · exact .inl (by rw [hstore])
  · exact .inr (.inl ⟨o, by rw [hstore]⟩)
  · obtain ⟨hshape, hfile⟩ := hs.job a job hj
    rcases (jobStep_opens hjob hshape).2 with hsame | ⟨herase, -, -, rest, hstage⟩
    · exact .inl hsame
    · exact .inr (.inr ⟨job.record, hs.published a job hj (by simp [hstage]), by rw [herase, hfile]⟩)
  · exact .inl (by rw [hstore]; rfl)

/-- What was published stays so, and an open record is removed only then. -/
theorem Known.kept (hs : Known s) (h : Effect w mode s t e) {runId : RunId}
    (hold : runId ∈ s.store.opens ∨ ∃ q ∈ s.store.written, q.runId = runId) :
    runId ∈ t.store.opens ∨ ∃ q ∈ t.store.written, q.runId = runId := by
  rcases hold with hmem | ⟨q, hq, hid⟩
  · rcases hs.opens_cases h with hsame | ⟨o, hinsert⟩ | ⟨q, hq, herase⟩
    · exact .inl (hsame ▸ hmem)
    · exact .inl (by rw [hinsert]; exact (AList.mem_insert _).mpr (.inr hmem))
    · by_cases hid : runId = q.runId
      · exact .inr ⟨q, h.written_subset hq, hid.symm⟩
      · exact .inl (by rw [herase]; exact AList.mem_erase.mpr ⟨hid, hmem⟩)
  · exact .inr ⟨q, h.written_subset hq, hid⟩

theorem shaped_sweepJobOf (w : World) (s : Store) (name : RunId) (o : OpenRecord) (json : Json) :
    (sweepJobOf w s name o json).Shaped :=
  ⟨⟨_, rfl, by simp⟩, by simp [sweepJobOf]⟩

theorem step_known (hs : Known s) (h : step w mode s e = some t) : Known t := by
  have heff := step_effect h
  refine ⟨fun runId o hlook => ?_, fun a job' hj => ?_, step_published hs.published h, fun i runId hi => ?_⟩
  · rcases hs.opens_cases heff with hsame | ⟨o', hinsert⟩ | ⟨q, -, herase⟩
    · exact hs.fileName runId o (hsame ▸ hlook)
    · rcases lookup_of_insert hinsert hlook with ⟨rfl, rfl⟩ | ⟨-, hbefore⟩
      · rfl
      · exact hs.fileName runId o hbefore
    · exact hs.fileName runId o (lookup_of_erase herase hlook).2
  · rcases heff.job_cases hj with hsame | ⟨hstage, ⟨i, r, o, -, -, -, hof⟩ | ⟨name, rest, o, json, -, -, -, hopen, rfl⟩⟩ |
      ⟨job, je, -, hbefore, hstep⟩
    · exact hs.job a job' hsame
    · exact ⟨shaped_of_jobOf hof hstage, hof.runId.trans hof.file.symm⟩
    · exact ⟨shaped_sweepJobOf w _ name o json, hs.fileName name o hopen⟩
    · obtain ⟨hshape, hfile⟩ := hs.job a job hbefore
      obtain ⟨hrec, hname, -, hshape'⟩ := jobStep_goOn hstep hshape
      exact ⟨hshape', by rw [hrec, hname, hfile]⟩
  · rcases recordedAs_cases heff hi with hbefore | ⟨o, -, -, rfl, hinsert⟩
    · exact hs.kept heff (hs.recorded i runId hbefore)
    · exact .inl (by rw [hinsert]; exact (AList.mem_insert _).mpr (.inl rfl))

theorem known_init : Known Sys.init := by
  refine ⟨fun runId o hlook => ?_, fun a job hj => ?_, published_init, fun i runId hi => ?_⟩
  · exact absurd hlook (by simp [Sys.init, Store.empty])
  · cases a <;> cases hj
  · obtain ⟨r, o, hr, -⟩ := hi
    cases hr

/-! ### A fetch -/

/-- While a recorded run is fetched. -/
structure Watching (runId : RunId) (v : Watched) : Prop where
  known : Known v.sys
  final : ∀ q ∈ v.sys.store.written, q.runId ∈ v.sys.store.final
  shows : runId ∈ v.sys.store.opens ∨ ∃ q ∈ v.sys.store.written, q.runId = runId
  fetch : v.fetch ≠ .answered .unknown
  /-- The second look is taken when the open record was seen to be gone. -/
  again : v.fetch = .lookingAgain → runId ∈ v.sys.store.final

/-- Nothing is pruned in this step. -/
def WatchEvent.Keeps (e : WatchEvent) : Prop := ∀ a ok, e ≠ .box (publishEvent a (.prune ok))

theorem step_final (hs : ∀ q ∈ s.store.written, q.runId ∈ s.store.final) (h : step w mode s e = some t)
    (hkeeps : ∀ a ok, e ≠ publishEvent a (.prune ok)) : ∀ q ∈ t.store.written, q.runId ∈ t.store.final := by
  have hunpruned : Unpruned [] s := fun _ => hs
  refine step_unpruned hunpruned h fun a ok hmem => ?_
  exact hkeeps a ok (List.mem_singleton.mp hmem).symm

/-- Without pruning no record leaves `final/`. -/
theorem final_mono (h : step w mode s e = some t) (hkeeps : ∀ a ok, e ≠ publishEvent a (.prune ok)) {runId : RunId}
    (hmem : runId ∈ s.store.final) : runId ∈ t.store.final := by
  rcases (step_effect h).final_cases with hsame | ⟨a, job, je, -, -, -, hinsert⟩ | ⟨a, ok, v, he, -⟩
  · exact hsame ▸ hmem
  · rw [hinsert]
    exact (AList.mem_insert _).mpr (.inr hmem)
  · exact absurd he (hkeeps a ok)

theorem watching_box {runId : RunId} {v : Watched} (h : Watching runId v) (hstep : step w mode v.sys e = some t)
    (hkeeps : ∀ a ok, e ≠ publishEvent a (.prune ok)) : Watching runId { v with sys := t } :=
  ⟨step_known h.known hstep, step_final h.final hstep hkeeps, h.known.kept (step_effect hstep) h.shows, h.fetch,
    fun hagain => final_mono hstep hkeeps (h.again hagain)⟩

theorem watching_fetch {runId : RunId} {v : Watched} (h : Watching runId v) (hslug : fsSlug runId = runId)
    (late : Bool) : Watching runId { v with fetch := v.fetch.step runId v.sys.store late } := by
  refine ⟨h.known, h.final, h.shows, ?_, ?_⟩
  · cases hfetch : v.fetch with
    | looking =>
      simp only [Fetch.step]
      split <;> simp
    | testing =>
      simp only [Fetch.step]
      split <;> simp
    | lookingAgain =>
      obtain ⟨r, hr⟩ := Option.isSome_iff_exists.mp (AList.lookup_isSome.mpr (h.again hfetch))
      rw [← lookup_slug hslug] at hr
      simp [Fetch.step, hr]
    | waiting =>
      simp only [Fetch.step]
      split <;> simp
    | answered a =>
      rw [Fetch.step, ← hfetch]
      exact h.fetch
  · cases hfetch : v.fetch with
    | testing =>
      simp only [Fetch.step, hslug]
      split
      · simp
      · rename_i hgone
        intro _
        rcases h.shows with hopen | ⟨q, hq, rfl⟩
        · exact absurd hopen hgone
        · exact h.final q hq
    | looking =>
      simp only [Fetch.step]
      split <;> simp
    | lookingAgain =>
      simp only [Fetch.step]
      split <;> simp
    | waiting =>
      simp only [Fetch.step]
      split <;> simp
    | answered a => simp [Fetch.step]

theorem watching_step {runId : RunId} (hslug : fsSlug runId = runId) (v : Watched) (e : WatchEvent) (v' : Watched)
    (hkeeps : e.Keeps) (h : Watching runId v) (hstep : watchStep w mode runId v e = some v') : Watching runId v' := by
  cases e with
  | box e =>
    obtain ⟨t, ht, rfl⟩ := Option.map_eq_some_iff.mp hstep
    exact watching_box h ht fun a ok heq => hkeeps a ok (by rw [heq])
  | fetch late =>
    cases hstep
    exact watching_fetch h hslug late

/-- How many operations are left when the deadline has passed. -/
def Fetch.rank : Fetch → Nat
  | .looking => 3
  | .testing => 2
  | .lookingAgain | .waiting => 1
  | .answered _ => 0

theorem Fetch.rank_step (runId : RunId) (s : Store) (f : Fetch) : (f.step runId s true).rank ≤ f.rank - 1 := by
  cases f with
  | looking =>
    simp only [Fetch.step]
    split <;> simp [Fetch.rank]
  | testing =>
    simp only [Fetch.step]
    split <;> simp [Fetch.rank]
  | lookingAgain =>
    simp only [Fetch.step]
    split <;> simp [Fetch.rank]
  | waiting => simp [Fetch.step, Fetch.rank]
  | answered a => simp [Fetch.step, Fetch.rank]

theorem Fetch.answered_of_rank {f : Fetch} (h : f.rank = 0) : ∃ a, f = .answered a := by
  cases f with
  | answered a => exact ⟨a, rfl⟩
  | _ => cases h

/-- Past its deadline a fetch answers after three more operations, whatever it finds. -/
theorem Fetch.answers (runId : RunId) (f : Fetch) (s₁ s₂ s₃ : Store) :
    ∃ a, ((f.step runId s₁ true).step runId s₂ true).step runId s₃ true = .answered a := by
  have h₁ := Fetch.rank_step runId s₁ f
  have h₂ := Fetch.rank_step runId s₂ (f.step runId s₁ true)
  have h₃ := Fetch.rank_step runId s₃ ((f.step runId s₁ true).step runId s₂ true)
  have hbound : f.rank ≤ 3 := by cases f <;> simp [Fetch.rank]
  exact Fetch.answered_of_rank (by omega)

/-- What a fetch finds is what `final/` holds at that time. -/
theorem Fetch.found_eq {runId : RunId} (hslug : fsSlug runId = runId) {f : Fetch} {s : Store} {late : Bool} {r : Record}
    (hbefore : ∀ a, f ≠ .answered a) (h : f.step runId s late = .answered (.found r)) :
    s.final.lookup runId = some r := by
  cases f with
  | looking =>
    simp only [Fetch.step] at h
    split at h
    · rename_i q hq
      cases h
      exact (lookup_slug hslug).symm.trans hq
    · cases h
  | testing =>
    simp only [Fetch.step] at h
    split at h <;> cases h
  | lookingAgain =>
    simp only [Fetch.step] at h
    split at h
    · rename_i q hq
      cases h
      exact (lookup_slug hslug).symm.trans hq
    · cases h
  | waiting =>
    simp only [Fetch.step] at h
    split at h <;> cases h
  | answered a => exact absurd rfl (hbefore a)

theorem along_keeps {runId : RunId} (fs : List WatchEvent) (h : ∀ e ∈ fs, e.Keeps) (v : Watched) :
    Along (watchStep w mode runId) (fun _ e => e.Keeps) v fs := by
  induction fs generalizing v with
  | nil => trivial
  | cons e fs ih =>
    exact ⟨h e List.mem_cons_self, fun u _ => ih (fun d hd => h d (List.mem_cons_of_mem _ hd)) u⟩

/-- Every id recorded in a run of the store is a valid one, if those that are minted are. -/
theorem run_validIds {es : List Event} (hrun : run (step w mode) Sys.init es = some s)
    (hminted : ∀ e ∈ es, ∀ uuid ∈ e.minted?, validRunId uuid = true) : ValidIds s := by
  have hnext : ∀ (es : List Event) (s : Sys) (e : Event) (t : Sys),
      ((∀ d ∈ es, ∀ uuid ∈ d.minted?, validRunId uuid = true) → ValidIds s) → step w mode s e = some t →
        (∀ d ∈ es ++ [e], ∀ uuid ∈ d.minted?, validRunId uuid = true) → ValidIds t := by
    intro es s e t hs hstep hall
    exact step_validIds (hs fun d hd => hall d (List.mem_append_left _ hd))
      (hall e (List.mem_append_right _ (List.mem_singleton_self e))) hstep
  refine run_history (fun es s => (∀ d ∈ es, ∀ uuid ∈ d.minted?, validRunId uuid = true) → ValidIds s) hnext ?_ hrun
    hminted
  intro _ i r runId hr
  cases hr

/-- **A recorded run is never reported unknown.** Take any run of the store after which an open record has been
written under the id, which does not end in a newline, and any interleaving of a fetch of it with the store, with
crashes and sweeps, in which nothing is pruned: the fetch never answers 404, what it answers with 200 is what
`final/` holds for the id at that time, and three operations after its deadline it has answered. -/
theorem recorded_run_known (w : World) (mode : Mode) (es : List Event) (fs : List WatchEvent) (s : Sys) (v : Watched)
    (i : Nat) (runId : RunId) (hrun : run (step w mode) Sys.init es = some s)
    (hminted : ∀ e ∈ es, ∀ uuid ∈ e.minted?, validRunId uuid = true) (hrecorded : RecordedAs s i runId)
    (hwatch : run (watchStep w mode runId) ⟨s, loadFinal runId⟩ fs = some v)
    (hkept : ∀ a ok, publishEvent a (.prune ok) ∉ es) (hkept' : ∀ e ∈ fs, e.Keeps)
    (hid : runId.toList.getLast? ≠ some '\n') :
    v.fetch ≠ .answered .unknown ∧
      (∀ late r, (∀ a, v.fetch ≠ .answered a) →
        v.fetch.step runId v.sys.store late = .answered (.found r) → v.sys.store.final.lookup runId = some r) ∧
      ∀ s₁ s₂ s₃, ∃ a, ((v.fetch.step runId s₁ true).step runId s₂ true).step runId s₃ true = .answered a := by
  have hknown : Known s := run_preserves Known (fun _ _ _ hs h => step_known hs h) known_init hrun
  obtain ⟨r, o, hr, ho, hname⟩ := hrecorded
  have hvalid := run_validIds hrun hminted i r runId hr (.inr (by rw [ho, ← hname]; rfl))
  have hslug := fsSlug_eq hvalid hid
  have hstart : Watching runId ⟨s, loadFinal runId⟩ :=
    ⟨hknown, run_unpruned hrun hkept, hknown.recorded i runId ⟨r, o, hr, ho, hname⟩, by simp [loadFinal, hvalid],
      by simp [loadFinal, hvalid]⟩
  have hlast := run_invariant (Watching runId) (watching_step hslug) (along_keeps fs hkept' _) hstart hwatch
  exact ⟨hlast.fetch, fun late r hbefore h => Fetch.found_eq hslug hbefore h, Fetch.answers runId v.fetch⟩

/-- One run that has begun. -/
def begunRun (runId : RunId) : List Event := [.restart [], .serve] ++ beginRun 0 (scriptRequest runId)

/-- The fetch does not find the record; the run is finalized and its open record removed; the fetch goes on. -/
def finalizedMeanwhile : List WatchEvent :=
  [.fetch false] ++ (finalizeRun 0 ++ collectRun 0).map .box ++ [.fetch false, .fetch false]

theorem recorded_run_known_finalizedMeanwhile :
    ∃ s v, run (step sampleWorld .collected) Sys.init (begunRun "r0") = some s ∧ RecordedAs s 0 "r0" ∧
      run (watchStep sampleWorld .collected "r0") ⟨s, loadFinal "r0"⟩ finalizedMeanwhile = some v ∧
      v.fetch ≠ .answered .unknown := by
  have hids : (run (step sampleWorld .collected) Sys.init (begunRun "r0")).map (fun s =>
      (s.recordedId 0, (run (watchStep sampleWorld .collected "r0") ⟨s, loadFinal "r0"⟩ finalizedMeanwhile).isSome)) =
        some (some "r0", true) := by decide +kernel
  obtain ⟨s, hs, heq⟩ := Option.map_eq_some_iff.mp hids
  obtain ⟨hrecorded, hsome⟩ := Prod.mk.inj heq
  obtain ⟨v, hv⟩ := Option.isSome_iff_exists.mp hsome
  have hminted : ∀ e ∈ begunRun "r0", ∀ uuid ∈ e.minted?, validRunId uuid = true := by decide +kernel
  refine ⟨s, v, hs, recordedAs_of_recordedId hrecorded, hv, ?_⟩
  refine (recorded_run_known _ _ _ _ s v 0 "r0" hs hminted (recordedAs_of_recordedId hrecorded) hv ?_ ?_ ?_).1
  · rintro (_ | i) ok <;> simp [begunRun, beginRun, publishEvent]
  · intro e he
    simp only [finalizedMeanwhile, finalizeRun, collectRun] at he
    intro a ok heq
    subst heq
    cases a <;> simp [publishEvent] at he
  · decide +kernel

/-- A run whose id ends in a newline is recorded, and reported unknown. -/
theorem newline_id_unknown :
    ∃ s, run (step sampleWorld .collected) Sys.init (begunRun "r0\n") = some s ∧ RecordedAs s 0 "r0\n" ∧
      (run (watchStep sampleWorld .collected "r0\n") ⟨s, loadFinal "r0\n"⟩
        [.fetch false, .fetch false, .fetch false]).map (·.fetch) = some (.answered .unknown) := by
  have hids : (run (step sampleWorld .collected) Sys.init (begunRun "r0\n")).map (fun s =>
      (s.recordedId 0, (run (watchStep sampleWorld .collected "r0\n") ⟨s, loadFinal "r0\n"⟩
        [.fetch false, .fetch false, .fetch false]).map (·.fetch))) =
        some (some "r0\n", some (.answered .unknown)) := by decide +kernel
  obtain ⟨s, hs, heq⟩ := Option.map_eq_some_iff.mp hids
  obtain ⟨hrecorded, hunknown⟩ := Prod.mk.inj heq
  exact ⟨s, hs, recordedAs_of_recordedId hrecorded, hunknown⟩

end Lager.RunRecord
