import Lager.RunRecord.Final

/-!
# Requests with the same id

`begin` takes the id it is given unless `open/` or `final/` has a file of that name; then it mints one. The
look at the directories and the write that takes the id are far apart. If the id is still free at the write,
the runs are recorded under different ids, the first to open has the one it was given, and each keeps its own
final record (`step_attributed`). Two requests with one id that arrive together can both find it free.
-/

namespace Lager.RunRecord

open Lager.Py Lager.Lib

variable {w : World} {mode : Mode} {s t : Sys} {e : Event}

/-- The run has written an open record under the id. -/
def RecordedAs (s : Sys) (i : Nat) (runId : RunId) : Prop :=
  ∃ r o, s.runs i = some r ∧ r.phase.opened = some o ∧ o.record.runId = runId

/-- What it means that the first run owns its id, for the runs in a state and the events that led to it. -/
structure FirstOwnsId (es : List Event) (s : Sys) : Prop where
  distinct : ∀ i j runId, RecordedAs s i runId → RecordedAs s j runId → i = j
  /-- A run that is about to open under another id than it was given is not the first one. -/
  first : ∀ i r o c, s.runs i = some r → r.phase = .persist o c → validRunId r.request.runId = true →
    (∀ j, ¬RecordedAs s j r.request.runId) → o.record.runId = r.request.runId
  /-- A run that ended has published a record of its own, and no other is in `final/` under its id; its own is
  there as long as nothing was pruned. -/
  ends : ∀ i r o, s.runs i = some r → r.phase = .done o →
    ∃ q ∈ s.store.written, q.runId = o.record.runId ∧ q.boxSequence = o.record.boxSequence ∧
      (∀ q', s.store.final.lookup o.record.runId = some q' → q' = q) ∧
      ((∀ a ok, publishEvent a (.prune ok) ∉ es) → s.store.final.lookup o.record.runId = some q)

/-! ### The id of a run -/

/-- The id a run has chosen so far in `begin`. -/
def Phase.chosen : Phase → Option RunId
  | .testOpen runId | .testFinal runId | .bump runId | .build runId _ => some runId
  | .openLog o | .persist o _ => some o.record.runId
  | _ => none

theorem settle_chosen {req : Request} {runId runId' : RunId} (h : (settle req runId).chosen = some runId') :
    runId = runId' := by
  rw [settle] at h
  split at h
  · cases h
  · exact Option.some.inj h

/-- A run starts with the id it is given, if that is a valid one, and leaves it only for a file of that
name. -/
theorem runStep_chosen {s s' : Store} {r : Run} {re : RunEvent} {p : Phase} {runId : RunId}
    (h : runStep w mode s r re = some (s', p)) (hid : p.chosen = some runId) :
    (r.phase = .accepted ∧ (validRunId r.request.runId = true → runId = r.request.runId) ∧
      (validRunId runId = true ∨ re.uuid? = some runId)) ∨
    r.phase.chosen = some runId ∨
    (re.uuid? = some runId ∧ ∃ given, r.phase.chosen = some given ∧ (given ∈ s.opens ∨ given ∈ s.final)) := by
  cases re with
  | check spaceOk uuid =>
    simp only [runStep] at h
    split at h
    · rename_i hphase
      split_ifs at h with hspace hvalid
      · cases h
        cases hid
      · obtain ⟨-, rfl⟩ := Prod.mk.inj (Option.some.inj h)
        cases hid
        exact .inl ⟨hphase, fun _ => rfl, .inl hvalid⟩
      · obtain ⟨-, rfl⟩ := Prod.mk.inj (Option.some.inj h)
        cases hid
        exact .inl ⟨hphase, fun h => absurd h hvalid, .inr rfl⟩
    · cases h
  | testOpen uuid =>
    simp only [runStep] at h
    split at h
    · rename_i given hphase
      split_ifs at h with hmem
      · obtain ⟨-, rfl⟩ := Prod.mk.inj (Option.some.inj h)
        exact .inr (.inr ⟨congrArg some (settle_chosen hid), given, by rw [hphase]; rfl, .inl hmem⟩)
      · obtain ⟨-, rfl⟩ := Prod.mk.inj (Option.some.inj h)
        exact .inr (.inl (by rw [hphase]; exact hid))
    · cases h
  | testFinal uuid =>
    simp only [runStep] at h
    split at h
    · rename_i given hphase
      obtain ⟨-, rfl⟩ := Prod.mk.inj (Option.some.inj h)
      by_cases hmem : given ∈ s.final
      · rw [if_pos hmem] at hid
        exact .inr (.inr ⟨congrArg some (settle_chosen hid), given, by rw [hphase]; rfl, .inr hmem⟩)
      · rw [if_neg hmem] at hid
        exact .inr (.inl (by rw [hphase, ← settle_chosen hid]; rfl))
    · cases h
  | bump ok =>
    simp only [runStep] at h
    split at h
    · rename_i given hphase
      split_ifs at h
      · obtain ⟨-, rfl⟩ := Prod.mk.inj (Option.some.inj h)
        exact .inr (.inl (by rw [hphase]; exact hid))
      · obtain ⟨-, rfl⟩ := Prod.mk.inj (Option.some.inj h)
        cases hid
    · cases h
  | build startedAt =>
    simp only [runStep] at h
    split at h
    · rename_i given n hphase
      split at h
      · rename_i o hbuild
        obtain ⟨-, rfl⟩ := Prod.mk.inj (Option.some.inj h)
        refine .inr (.inl ?_)
        rw [hphase, ← hid]
        exact congrArg some (buildRecord_ok hbuild).1.symm
      · obtain ⟨-, rfl⟩ := Prod.mk.inj (Option.some.inj h)
        cases hid
    · cases h
  | openLog ok =>
    simp only [runStep] at h
    split at h
    · rename_i o hphase
      refine .inr (.inl ?_)
      rw [hphase]
      split_ifs at h
      all_goals obtain ⟨-, rfl⟩ := Prod.mk.inj (Option.some.inj h)
      · exact hid
      · cases hid
      · exact hid
    · cases h
  | persist ok =>
    simp only [runStep] at h
    split at h
    · split_ifs at h
      all_goals obtain ⟨-, rfl⟩ := Prod.mk.inj (Option.some.inj h)
      all_goals cases hid
    · cases h
  | logFrame disk fileno chunk =>
    simp only [runStep] at h
    split at h
    · obtain ⟨-, rfl⟩ := Prod.mk.inj (Option.some.inj h)
      cases hid
    · cases h
  | flush n =>
    simp only [runStep] at h
    split at h
    · split at h
      · obtain ⟨-, rfl⟩ := Prod.mk.inj (Option.some.inj h)
        cases hid
      · cases h
    · cases h
  | finalize returncode ended late =>
    simp only [runStep] at h
    split at h
    · obtain ⟨-, rfl⟩ := Prod.mk.inj (Option.some.inj h)
      cases hid
    · cases h
  | closeLog ok =>
    simp only [runStep] at h
    split at h
    · split_ifs at h
      all_goals obtain ⟨-, rfl⟩ := Prod.mk.inj (Option.some.inj h)
      all_goals cases hid
    · cases h
  | assemble ok finishedAt outputs scriptAsserted =>
    simp only [runStep] at h
    split at h
    · split_ifs at h
      all_goals obtain ⟨-, rfl⟩ := Prod.mk.inj (Option.some.inj h)
      all_goals cases hid
    · cases h
  | job je =>
    simp only [runStep] at h
    split at h
    · obtain ⟨⟨s₁, after⟩, -, heq⟩ := Option.map_eq_some_iff.mp h
      obtain ⟨-, rfl⟩ := Prod.mk.inj heq
      cases after <;> cases hid
    · cases h

/-! ### Files and runs -/

/-- Files come from runs, every recorded run has left one, and no two runs are recorded under one id. -/
structure Attributed (s : Sys) : Prop where
  settled : Settled s
  opens : ∀ runId ∈ s.store.opens, ∃ j, RecordedAs s j runId
  written : ∀ q ∈ s.store.written, ∃ j, RecordedAs s j q.runId
  kept : ∀ j runId, RecordedAs s j runId → runId ∈ s.store.opens ∨ ∃ q ∈ s.store.written, q.runId = runId
  distinct : ∀ i j runId, RecordedAs s i runId → RecordedAs s j runId → i = j
  /-- A run leaves the id it was given to the run that is recorded under it. -/
  chosen : ∀ i r runId, s.runs i = some r → r.phase.chosen = some runId → validRunId r.request.runId = true →
    runId = r.request.runId ∨ ∃ j, RecordedAs s j r.request.runId
  finished : ∀ i r o, s.runs i = some r → r.phase = .done o →
    ∃ q ∈ s.store.written, q.runId = o.record.runId ∧ q.boxSequence = o.record.boxSequence

theorem recordedAs_mono (h : Effect w mode s t e) {i : Nat} {runId : RunId} (hi : RecordedAs s i runId) :
    RecordedAs t i runId := by
  obtain ⟨r, o, hr, ho, hid⟩ := hi
  obtain ⟨r', hr', ho'⟩ := h.opened_next hr ho
  exact ⟨r', o, hr', ho', hid⟩

theorem recordedAs_cases (h : Effect w mode s t e) {i : Nat} {runId : RunId} (hi : RecordedAs t i runId) :
    RecordedAs s i runId ∨ ∃ o, e = .run i (.persist true) ∧ s.opening? e = some o ∧ o.record.runId = runId ∧
      t.store.opens = s.store.opens.insert o.record.runId o := by
  obtain ⟨r', o, hr', ho, hid⟩ := hi
  rcases h.opened_cases hr' ho with ⟨r, hr, ho⟩ | ⟨he, hopening, hopens⟩
  · exact .inl ⟨r, o, hr, ho, hid⟩
  · exact .inr ⟨o, he, hopening, hid, hopens⟩

theorem opens_attributed (hs : Attributed s) (h : Effect w mode s t e) :
    ∀ runId ∈ t.store.opens, ∃ j, RecordedAs t j runId := by
  intro runId hmem
  have hold : runId ∈ s.store.opens → ∃ j, RecordedAs t j runId := fun hmem =>
    let ⟨j, hj⟩ := hs.opens runId hmem
    ⟨j, recordedAs_mono h hj⟩
  rcases h.opens_cases hs.settled.owned with hsame | ⟨i, r, o, c, -, -, -, hrun, hinsert⟩ |
    ⟨a, job, rest, -, -, -, herase⟩
  · exact hold (hsame ▸ hmem)
  · rw [hinsert] at hmem
    rcases AList.mem_insert _ |>.mp hmem with rfl | hmem
    · exact ⟨i, _, o, hrun, rfl, rfl⟩
    · exact hold hmem
  · rw [herase] at hmem
    exact hold (AList.mem_erase.mp hmem).2

theorem written_attributed (hs : Attributed s) (h : Effect w mode s t e) :
    ∀ q ∈ t.store.written, ∃ j, RecordedAs t j q.runId := by
  intro q hq
  by_cases hold : q ∈ s.store.written
  · obtain ⟨j, hj⟩ := hs.written q hold
    exact ⟨j, recordedAs_mono h hj⟩
  · obtain ⟨a, job, je, -, hj, hstage, -, rfl⟩ := h.written_new hq hold
    obtain ⟨-, hfile, hopen⟩ := hs.settled.owned.job_open hj
    obtain ⟨o, hlook, -⟩ := hopen (by rw [hstage]; rfl)
    obtain ⟨j, hj⟩ := hs.opens job.file (AList.lookup_isSome.mp (by rw [hlook]; rfl))
    exact ⟨j, recordedAs_mono h (hfile ▸ hj)⟩

theorem recorded_kept (hs : Attributed s) (h : Effect w mode s t e) {runId : RunId}
    (hold : runId ∈ s.store.opens ∨ ∃ q ∈ s.store.written, q.runId = runId) :
    runId ∈ t.store.opens ∨ ∃ q ∈ t.store.written, q.runId = runId := by
  rcases hold with hmem | ⟨q, hq, hid⟩
  · rcases h.opens_cases hs.settled.owned with hsame | ⟨i, r, o, c, -, -, -, -, hinsert⟩ |
      ⟨a, job, rest, hj, -, hstage, herase⟩
    · exact .inl (hsame ▸ hmem)
    · exact .inl (by rw [hinsert]; exact (AList.mem_insert _).mpr (.inr hmem))
    · by_cases hid : runId = job.file
      · obtain ⟨-, hfile, -⟩ := hs.settled.owned.job_open hj
        have hwritten := hs.settled.published a job hj (by simp [hstage])
        exact .inr ⟨job.record, h.written_subset hwritten, hfile.trans hid.symm⟩
      · exact .inl (by rw [herase]; exact AList.mem_erase.mpr ⟨hid, hmem⟩)
  · exact .inr ⟨q, h.written_subset hq, hid⟩

/-- A run does not leave an id that no run is recorded under. -/
theorem step_chosen (hs : Attributed s) (h : Effect w mode s t e) :
    ∀ i r runId, t.runs i = some r → r.phase.chosen = some runId → validRunId r.request.runId = true →
      runId = r.request.runId ∨ ∃ j, RecordedAs t j r.request.runId := by
  intro i r' runId hr' hid hvalid
  have hmono : ∀ {given}, (∃ j, RecordedAs s j given) → ∃ j, RecordedAs t j given :=
    fun ⟨j, hj⟩ => ⟨j, recordedAs_mono h hj⟩
  rcases h.run_cases hr' with hsame | ⟨r, -, rfl, -⟩ | ⟨req, rfl, -⟩ | ⟨r, re, p, -, hr, hstep, rfl⟩
  · exact (hs.chosen i r' runId hsame hid hvalid).imp_right hmono
  · cases hid
  · cases hid
  · rcases runStep_chosen hstep hid with ⟨-, hgiven, -⟩ | hbefore | ⟨-, given, hbefore, hfile⟩
    · exact .inl (hgiven hvalid)
    · exact (hs.chosen i r runId hr hbefore hvalid).imp_right hmono
    · right
      -- the file that is in the way was left by a recorded run
      have hrecorded : ∃ j, RecordedAs s j given := by
        rcases hfile with hopen | hfinal
        · exact hs.opens given hopen
        · obtain ⟨q, hq⟩ := Option.isSome_iff_exists.mp (AList.lookup_isSome.mpr hfinal)
          obtain ⟨hwritten, rfl⟩ := hs.settled.files.final given q hq
          exact hs.written q hwritten
      rcases hs.chosen i r given hr hbefore hvalid with rfl | hother
      · exact hmono hrecorded
      · exact hmono hother

/-- A run that ends has published. -/
theorem step_finished (hs : Attributed s) (h : Effect w mode s t e) :
    ∀ i r o, t.runs i = some r → r.phase = .done o →
      ∃ q ∈ t.store.written, q.runId = o.record.runId ∧ q.boxSequence = o.record.boxSequence := by
  intro i r' o hr' hdone
  rcases h.run_cases hr' with hsame | ⟨r, -, rfl, -⟩ | ⟨req, rfl, -⟩ | ⟨r, re, p, -, hr, hstep, rfl⟩
  · obtain ⟨q, hq, hown⟩ := hs.finished i r' o hsame hdone
    exact ⟨q, h.written_subset hq, hown⟩
  · cases hdone
  · cases hdone
  · cases hdone
    rcases runStep_cases hstep with ⟨-, -, hnone, -⟩ | ⟨runId, -, -, -, hphase⟩ | ⟨o', c, -, -, -, hphase⟩ |
      ⟨o', -, -, hcap | hphase | ⟨job, hphase, -⟩⟩ | ⟨o', job, je, after, -, hphase, hjob, hafter⟩
    · cases hnone
    · cases hphase
    · cases hphase
    · cases hcap
    · cases hphase
    · cases hphase
    · cases after with
      | goOn job' => cases hafter
      | raised => cases hafter
      | done =>
        cases hafter
        obtain ⟨hof, -⟩ := hs.settled.owned.job i r o job hr hphase
        obtain ⟨rest, hst⟩ := jobStep_done hjob
        have hq := hs.settled.published (some i) job (job?_run hr hphase) (by simp [hst])
        exact ⟨job.record, h.written_subset hq, hof.runId, hof.boxSequence⟩

theorem step_attributed (hs : Attributed s) (hok : PublishedOnce w s e) (h : step w mode s e = some t) :
    Attributed t := by
  have heff := step_effect h
  refine ⟨step_settled hs.settled hok h, opens_attributed hs heff, written_attributed hs heff, ?_, ?_,
    step_chosen hs heff, step_finished hs heff⟩
  · intro j runId hj
    rcases recordedAs_cases heff hj with hj | ⟨o, -, -, rfl, hopens⟩
    · exact recorded_kept hs heff (hs.kept j runId hj)
    · exact .inl (by rw [hopens]; exact (AList.mem_insert _).mpr (.inl rfl))
  · -- an id that is free when it is written has no recorded run
    have hfree : ∀ o j, s.opening? e = some o → ¬RecordedAs s j o.record.runId := by
      intro o j ho hj
      obtain ⟨hopens, hwritten⟩ := hok.1 o ho
      rcases hs.kept j _ hj with hmem | ⟨q, hq, hid⟩
      · exact hopens hmem
      · exact hwritten q hq hid
    intro i j runId hi hj
    rcases recordedAs_cases heff hi with hi | ⟨o, he, ho, rfl, -⟩ <;>
      rcases recordedAs_cases heff hj with hj | ⟨o', he', ho', hid', -⟩
    · exact hs.distinct i j runId hi hj
    · exact absurd (hid' ▸ hi) (hfree o' i ho')
    · exact absurd hj (hfree o j ho)
    · rw [he] at he'
      cases he'
      rfl

theorem attributed_init : Attributed Sys.init := by
  refine ⟨settled_init, ?_, ?_, ?_, ?_, ?_, ?_⟩
  · intro runId hmem
    exact absurd hmem (AList.notMem_empty runId)
  · intro q hq
    cases hq
  · rintro j runId ⟨r, o, hr, -⟩
    cases hr
  · rintro i j runId ⟨r, o, hr, -⟩
    cases hr
  · intro i r runId hr
    cases hr
  · intro i r o hr
    cases hr

theorem run_attributed {es : List Event} (hok : Along (step w mode) (PublishedOnce w) Sys.init es)
    (hrun : run (step w mode) Sys.init es = some t) : Attributed t :=
  run_invariant Attributed (fun _ _ _ hok hs h => step_attributed hs hok h) hok attributed_init hrun

/-! ### Pruning -/

/-- What was published is in `final/` until something is pruned. -/
def Unpruned (es : List Event) (s : Sys) : Prop :=
  (∀ a ok, publishEvent a (.prune ok) ∉ es) → ∀ q ∈ s.store.written, q.runId ∈ s.store.final

theorem step_unpruned {es : List Event} (hs : Unpruned es s) (h : step w mode s e = some t) :
    Unpruned (es ++ [e]) t := by
  have heff := step_effect h
  intro hnone q hq
  have hbefore := hs fun a ok hmem => hnone a ok (List.mem_append_left _ hmem)
  by_cases hold : q ∈ s.store.written
  · rcases heff.final_cases with hsame | ⟨a, job, je, -, -, -, hfinal⟩ | ⟨a, ok, v, rfl, -⟩
    · rw [hsame]
      exact hbefore q hold
    · rw [hfinal]
      exact (AList.mem_insert _).mpr (.inr (hbefore q hold))
    · exact absurd (List.mem_append_right _ (List.mem_singleton_self _)) (hnone a ok)
  · obtain ⟨a, job, je, -, -, -, hfinal, rfl⟩ := heff.written_new hq hold
    rw [hfinal]
    exact (AList.mem_insert _).mpr (.inl rfl)

theorem run_unpruned {es : List Event} (hrun : run (step w mode) Sys.init es = some t) : Unpruned es t :=
  run_history Unpruned (fun _ _ _ _ hs h => step_unpruned hs h) (fun _ q hq => by cases hq) hrun

/-- **The first run owns its id.** In every run of the store whose open records are written under ids that are
free at that time, with any interleaving of requests with the same ids: no two runs are recorded under one
id, the first to open keeps the id it was given, and every run that ended has its own final record. -/
theorem first_owns_id (w : World) (mode : Mode) (es : List Event) (t : Sys)
    (hrun : run (step w mode) Sys.init es = some t)
    (honce : Along (step w mode) (PublishedOnce w) Sys.init es) : FirstOwnsId es t := by
  have hs := run_attributed honce hrun
  have hunpruned := run_unpruned hrun
  refine ⟨hs.distinct, fun i r o c hr hphase hvalid hnone => ?_, fun i r o hr hdone => ?_⟩
  · rcases hs.chosen i r o.record.runId hr (by rw [hphase]; rfl) hvalid with hkeeps | ⟨j, hj⟩
    · exact hkeeps
    · exact absurd hj (hnone j)
  · obtain ⟨q, hq, hid, hnum⟩ := hs.finished i r o hr hdone
    have hown : ∀ q', t.store.final.lookup o.record.runId = some q' → q' = q := by
      intro q' hlook
      obtain ⟨hq', hid'⟩ := hs.settled.files.final _ q' hlook
      exact hs.settled.files.unique q' hq' q hq (hid'.trans hid.symm)
    refine ⟨q, hq, hid, hnum, hown, fun hkept => ?_⟩
    obtain ⟨q', hlook⟩ := Option.isSome_iff_exists.mp (AList.lookup_isSome.mpr (hunpruned hkept q hq))
    rw [hid] at hlook
    rw [hlook, hown q' hlook]

/-- Two requests with one id, the second of which comes when the first is open; both run to their end. -/
def retriedRun : List Event :=
  [.restart [], .serve] ++ beginRun 0 (scriptRequest "r0") ++ (beginRun 1 (scriptRequest "r0")).eraseIdx 3 ++
    finalizeRun 1 ++ finalizeRun 0 ++ collectRun 0 ++ collectRun 1

theorem first_owns_id_retriedRun :
    ∃ t, run (step sampleWorld .collected) Sys.init retriedRun = some t ∧ FirstOwnsId retriedRun t := by
  have hruns : (run (step sampleWorld .collected) Sys.init retriedRun).isSome = true := by decide +kernel
  obtain ⟨t, ht⟩ := Option.isSome_iff_exists.mp hruns
  exact ⟨t, ht, first_owns_id _ _ _ t ht (by decide +kernel)⟩

/-- The id a run is recorded under. -/
def Sys.recordedId (s : Sys) (i : Nat) : Option RunId :=
  ((s.runs i).bind fun r => r.phase.opened).map fun o => o.record.runId

theorem recordedAs_of_recordedId {i : Nat} {runId : RunId} (h : s.recordedId i = some runId) :
    RecordedAs s i runId := by
  obtain ⟨o, ho, hid⟩ := Option.map_eq_some_iff.mp h
  obtain ⟨r, hr, hopened⟩ := Option.bind_eq_some_iff.mp ho
  exact ⟨r, o, hr, hopened, hid⟩

/-- Two requests with one id that arrive together are both recorded under it. -/
theorem id_shared_racingBegins :
    ¬ ∀ (w : World) (mode : Mode) (es : List Event) (t : Sys), run (step w mode) Sys.init es = some t →
        FirstOwnsId es t := by
  intro h
  have hids : (run (step sampleWorld .collected) Sys.init racingBegins).map (fun t =>
      (t.recordedId 0, t.recordedId 1)) = some (some "r0", some "r0") := by decide +kernel
  obtain ⟨t, ht, heq⟩ := Option.map_eq_some_iff.mp hids
  obtain ⟨h0, h1⟩ := Prod.mk.inj heq
  have hsame := (h _ _ _ t ht).distinct 0 1 "r0" (recordedAs_of_recordedId h0) (recordedAs_of_recordedId h1)
  cases hsame

end Lager.RunRecord
