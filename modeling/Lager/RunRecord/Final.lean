import Lager.RunRecord.Publication

/-!
# Final records do not change

A final record is written by the run's own `finalize`, or by the sweep that finds the run's open record after
a restart. As long as these two do not both happen for one id, whatever is in `final/` or the outbox under an
id is the one record that was ever published under it (`step_settled`). They can both happen: the open record
is removed after the final one is written, so a service that dies in between leaves a run for the next sweep
that has already been published.
-/

namespace Lager.RunRecord

open Lager.Py Lager.Lib

variable {w : World} {mode : Mode} {s t : Sys} {e : Event}

/-! ### Who can publish an id -/

/-- The record of a run that has still to be published. -/
def Phase.unpublished : Phase → Option OpenRecord
  | .publishing o job => if job.stage = .writeFinal then some o else none
  | p => p.capturing

theorem holds_of_unpublished {p : Phase} {o : OpenRecord} (h : p.unpublished = some o) : p.holds = some o := by
  cases p with
  | publishing o' job =>
    simp only [Phase.unpublished] at h
    split_ifs at h with hstage
    simp only [Phase.holds, hstage]
    exact h
  | _ => exact h

theorem unpublished_of_capturing {p : Phase} {o : OpenRecord} (h : p.capturing = some o) :
    p.unpublished = some o := by
  cases p <;> cases h <;> rfl

/-- A run that publishes is past that afterwards; no other step of a run adds a published record. -/
theorem runStep_unpublished {s s' : Store} {r : Run} {re : RunEvent} {p : Phase}
    (h : runStep w mode s r re = some (s', p)) :
    (s'.written = s.written ∧ ∀ o, p.unpublished = some o →
        r.phase.unpublished = some o ∨ ∃ c, re = .persist true ∧ r.phase = .persist o c) ∨
      (∃ o job, r.phase = .publishing o job ∧ job.stage = .writeFinal ∧ s'.written = job.record :: s.written ∧
        p.unpublished = none) := by
  rcases runStep_cases h with ⟨hfiles, -, hnone, -⟩ | ⟨runId, -, -, rfl, rfl⟩ | ⟨o, c, rfl, hphase, rfl, rfl⟩ |
    ⟨o, hfiles, hcap, hnext⟩ | ⟨o, job, je, after, -, hphase, hjob, rfl⟩
  · refine .inl ⟨hfiles.written, fun o ho => ?_⟩
    rw [opened_of_holds (holds_of_unpublished ho)] at hnone
    cases hnone
  · exact .inl ⟨rfl, fun o ho => by cases ho⟩
  · refine .inl ⟨rfl, fun o' ho' => ?_⟩
    cases ho'
    exact .inr ⟨c, rfl, hphase⟩
  · refine .inl ⟨hfiles.written, fun o' ho' => .inl ?_⟩
    have hsame : p.opened = some o := by
      rcases hnext with hcap' | rfl | ⟨job, rfl, -⟩
      · exact opened_of_capturing hcap'
      · rfl
      · rfl
    rw [opened_of_holds (holds_of_unpublished ho')] at hsame
    cases hsame
    exact unpublished_of_capturing hcap
  · obtain ⟨hwritten, hgoOn⟩ := jobStep_written hjob
    have hpast : (publishingPhase o after).unpublished = none := by
      cases after with
      | goOn job' => exact if_neg (hgoOn job' rfl).2
      | done => rfl
      | raised => rfl
    rcases hwritten with ⟨hsame, -⟩ | ⟨hstage, hcons⟩
    · refine .inl ⟨hsame, fun o' ho' => ?_⟩
      rw [hpast] at ho'
      cases ho'
    · exact .inr ⟨o, job, hphase, hstage, hcons, hpast⟩

/-! ### One record for an id -/

/-- The publication a sweep sets up in this step. -/
def Sys.taking? (w : World) (s : Sys) : Event → Option Job
  | .sweepTake true json =>
    match s.service with
    | .sweeping (name :: _) none => (s.store.opens.lookup name).map fun o => sweepJobOf w s.store name o json
    | _ => none
  | _ => none

/-- An open record is written only under an id that has none and under which nothing was published, and a
sweep takes up a run only if it was not published, or with the same record. -/
def PublishedOnce (w : World) (s : Sys) (e : Event) : Prop :=
  (∀ o ∈ s.opening? e, o.record.runId ∉ s.store.opens ∧ ∀ r ∈ s.store.written, r.runId ≠ o.record.runId) ∧
    ∀ job ∈ s.taking? w e, ∀ r ∈ s.store.written, r.runId = job.record.runId → r = job.record

instance (w : World) (s : Sys) (e : Event) : Decidable (PublishedOnce w s e) :=
  inferInstanceAs (Decidable (_ ∧ _))

theorem PublishedOnce.freeOpen (h : PublishedOnce w s e) : FreeOpen s e := fun o ho => (h.1 o ho).1

/-- Every file in `final/` and the outbox holds the one record published under its name. -/
structure Store.Settled (s : Store) : Prop where
  unique : ∀ r ∈ s.written, ∀ r' ∈ s.written, r.runId = r'.runId → r = r'
  final : ∀ runId r, s.final.lookup runId = some r → r ∈ s.written ∧ r.runId = runId
  outbox : ∀ runId r, s.outbox.lookup runId = some r → r ∈ s.written ∧ r.runId = runId

theorem Store.Settled.congr {s s' : Store} (h : s.Settled) (hw : s'.written = s.written) (hf : s'.final = s.final)
    (ho : s'.outbox = s.outbox) : s'.Settled := by
  refine ⟨?_, ?_, ?_⟩
  · rw [hw]
    exact h.unique
  · rw [hf, hw]
    exact h.final
  · rw [ho, hw]
    exact h.outbox

/-- A publication keeps the files settled if its record is new, or the one published before. -/
theorem jobStep_settled {s s' : Store} {job : Job} {je : JobEvent} {after : After} (hs : s.Settled)
    (h : jobStep mode s job je = some (s', after))
    (hnew : job.stage = .writeFinal → ∀ q ∈ s.written, q.runId = job.record.runId → q = job.record)
    (hpub : job.stage ≠ .writeFinal → job.record ∈ s.written) : s'.Settled := by
  rcases jobStep_cases h with ⟨rfl, -⟩ | ⟨hst, rfl, -⟩ | ⟨-, rfl, -⟩ | ⟨-, -, ⟨r, hr, rfl⟩, -⟩ | ⟨-, rfl, -⟩ |
    ⟨hst, rfl, -⟩ | ⟨-, rfl, -⟩ | ⟨v, vs, -, rfl | rfl, -⟩ | ⟨l, ls, -, rfl | rfl, -⟩
  · exact hs
  · refine ⟨?_, ?_, ?_⟩
    · intro r hr r' hr' hid
      rcases List.mem_cons.mp hr with rfl | hr <;> rcases List.mem_cons.mp hr' with rfl | hr'
      · rfl
      · exact (hnew hst r' hr' hid.symm).symm
      · exact hnew hst r hr hid
      · exact hs.unique r hr r' hr' hid
    · intro runId r hlook
      rcases lookup_of_insert rfl hlook with ⟨rfl, rfl⟩ | ⟨-, hlook⟩
      · exact ⟨List.mem_cons_self, rfl⟩
      · obtain ⟨hmem, hid⟩ := hs.final runId r hlook
        exact ⟨List.mem_cons_of_mem _ hmem, hid⟩
    · intro runId r hlook
      obtain ⟨hmem, hid⟩ := hs.outbox runId r hlook
      exact ⟨List.mem_cons_of_mem _ hmem, hid⟩
  · exact hs
  · refine ⟨hs.unique, hs.final, fun runId q hlook => ?_⟩
    rcases lookup_of_insert rfl hlook with ⟨rfl, rfl⟩ | ⟨-, hlook⟩
    · exact hs.final _ q hr
    · exact hs.outbox runId q hlook
  · exact hs
  · refine ⟨hs.unique, hs.final, fun runId q hlook => ?_⟩
    rcases lookup_of_insert rfl hlook with ⟨rfl, rfl⟩ | ⟨-, hlook⟩
    · exact ⟨hpub (by simp [hst]), rfl⟩
    · exact hs.outbox runId q hlook
  · exact hs
  · exact hs
  · exact ⟨hs.unique, fun runId q hlook => hs.final runId q (lookup_of_erase rfl hlook).2, hs.outbox⟩
  · exact hs
  · cases l <;> exact hs.congr rfl rfl rfl

structure Settled (s : Sys) : Prop where
  owned : Owned s
  published : Published s
  files : s.store.Settled
  live : ∀ i r o, s.runs i = some r → r.phase.unpublished = some o →
    ∀ q ∈ s.store.written, q.runId ≠ o.record.runId
  sweep : ∀ job, s.job? none = some job → job.stage = .writeFinal →
    ∀ q ∈ s.store.written, q.runId = job.record.runId → q = job.record

/-- What a publication is about to write is new, or the same as before. -/
theorem Settled.record_new (hs : Settled s) {a : Option Nat} {job : Job} (hj : s.job? a = some job)
    (hstage : job.stage = .writeFinal) :
    ∀ q ∈ s.store.written, q.runId = job.record.runId → q = job.record := by
  cases a with
  | none => exact hs.sweep job hj hstage
  | some i =>
    obtain ⟨r, o, hr, hp⟩ := job?_eq_some hj
    obtain ⟨hof, -⟩ := hs.owned.job i r o job hr hp
    intro q hq hid
    have hunpub : r.phase.unpublished = some o := by rw [hp, Phase.unpublished, if_pos hstage]
    exact absurd (hid.trans hof.runId) (hs.live i r o hr hunpub q hq)

theorem step_files_settled (hs : Settled s) (h : Effect w mode s t e) : t.store.Settled := by
  rcases h.store_cases with hfiles | ⟨i, r, id, -, -, -, -, hstore⟩ | ⟨i, r, o', c, -, -, -, -, hstore⟩ |
    ⟨a, job, je, after, -, hj, hjob⟩ | ⟨id, -, hstore⟩
  · exact hs.files.congr hfiles.written hfiles.final hfiles.outbox
  · rw [hstore]
    exact hs.files.congr rfl rfl rfl
  · rw [hstore]
    exact hs.files.congr rfl rfl rfl
  · exact jobStep_settled hs.files hjob (hs.record_new hj) (hs.published a job hj)
  · rw [hstore]
    exact ⟨hs.files.unique, hs.files.final,
      fun runId r hlook => hs.files.outbox runId r (lookup_of_erase rfl hlook).2⟩

/-- A run that has still to publish has an id under which nothing was published. -/
theorem step_live (hs : Settled s) (hok : PublishedOnce w s e) (h : Effect w mode s t e) :
    ∀ i r o, t.runs i = some r → r.phase.unpublished = some o →
      ∀ q ∈ t.store.written, q.runId ≠ o.record.runId := by
  intro i r' o hr' ho q hq
  rcases h.run_cases hr' with hsame | ⟨r, -, rfl, -⟩ | ⟨req, rfl, -⟩ | ⟨r, re, p, rfl, hr, hstep, rfl⟩
  · intro hid
    have hold : q ∉ s.store.written := fun hq => hs.live i r' o hsame ho q hq hid
    obtain ⟨a, job, je, rfl, hj, hstage, -, rfl⟩ := h.written_new hq hold
    -- the open record of the id is held by this run, so the run itself published
    obtain ⟨-, hfile, -⟩ := hs.owned.job_open hj
    have ha := hs.owned.job_unique hj (by rw [hstage]; rfl) hsame (holds_of_unpublished ho) (hfile.symm.trans hid)
    subst ha
    obtain ⟨r, p, -, hr, hstep, hr''⟩ := h.of_run
    rw [hr'] at hr''
    cases hr''
    rcases runStep_unpublished hstep with ⟨hwritten, -⟩ | ⟨o', job', -, -, -, hnone⟩
    · exact hold (hwritten ▸ hq)
    · rw [hnone] at ho
      cases ho
  · cases ho
  · cases ho
  · rcases runStep_unpublished hstep with ⟨hwritten, hbefore⟩ | ⟨o', job, -, -, -, hnone⟩
    · rw [hwritten] at hq
      rcases hbefore o ho with ho | ⟨c, rfl, hphase⟩
      · exact hs.live i r o hr ho q hq
      · exact (hok.1 o (opening?_persist hr hphase)).2 q hq
    · rw [hnone] at ho
      cases ho

theorem taking?_eq {name : RunId} {rest : List RunId} {o : OpenRecord} {json : Json}
    (hservice : s.service = .sweeping (name :: rest) none) (hlook : s.store.opens.lookup name = some o) :
    s.taking? w (.sweepTake true json) = some (sweepJobOf w s.store name o json) := by
  rw [Sys.taking?, hservice]
  dsimp only
  rw [hlook]
  rfl

/-- The sweep is about to write a record that is new, or the same as before. -/
theorem step_sweep (hs : Settled s) (hok : PublishedOnce w s e) (h : Effect w mode s t e) :
    ∀ job, t.job? none = some job → job.stage = .writeFinal →
      ∀ q ∈ t.store.written, q.runId = job.record.runId → q = job.record := by
  intro job' hj' hstage q hq hid
  rcases h.job_cases hj' with hsame | ⟨-, ⟨i, r, o, ha, -⟩ | ⟨name, rest, o, json, -, rfl, hservice, hlook, rfl⟩⟩ |
    ⟨job, je, -, hj, hstep⟩
  · by_cases hold : q ∈ s.store.written
    · exact hs.sweep job' hsame hstage q hold hid
    · -- no run publishes while the sweep does
      obtain ⟨a, job, je, rfl, hj, -, -, rfl⟩ := h.written_new hq hold
      cases a with
      | none =>
        rw [hsame] at hj
        cases hj
        rfl
      | some i =>
        obtain ⟨r, p, hserving, -⟩ := h.of_run
        rw [Sys.job?, hserving] at hsame
        cases hsame
  · cases ha
  · by_cases hold : q ∈ s.store.written
    · exact hok.2 _ (taking?_eq hservice hlook) q hold hid
    · obtain ⟨a, job, je, he, -⟩ := h.written_new hq hold
      cases a <;> cases he
  · exact absurd hstage ((jobStep_written hstep).2 job' rfl).2

theorem settled_init : Settled Sys.init := by
  refine ⟨owned_init, published_init, ⟨?_, ?_, ?_⟩, ?_, ?_⟩
  · intro r hr
    cases hr
  · intro runId r hlook
    exact absurd hlook (by simp [Sys.init, Store.empty])
  · intro runId r hlook
    exact absurd hlook (by simp [Sys.init, Store.empty])
  · intro i r o hr
    cases hr
  · intro job hj
    cases hj

theorem step_settled (hs : Settled s) (hok : PublishedOnce w s e) (h : step w mode s e = some t) : Settled t :=
  have heff := step_effect h
  ⟨step_owned hs.owned hok.freeOpen h, step_published hs.published h, step_files_settled hs heff,
    step_live hs hok heff, step_sweep hs hok heff⟩

theorem run_settled {es : List Event} (hok : Along (step w mode) (PublishedOnce w) s es) (hs : Settled s)
    (hrun : run (step w mode) s es = some t) : Settled t :=
  run_invariant Settled (fun _ _ _ hok hs h => step_settled hs hok h) hok hs hrun

theorem run_written_subset {es : List Event} (hrun : run (step w mode) s es = some t) :
    s.store.written ⊆ t.store.written :=
  run_preserves (fun t => s.store.written ⊆ t.store.written)
    (fun _ _ _ hs h => List.Subset.trans hs (step_effect h).written_subset) (List.Subset.refl _) hrun

/-- **A final record does not change.** In every run, with any crashes and sweeps, in which an open record is
written only under an id that is new to `open/` and to what was published, and a sweep does not take up a run
that was published with another record: once `final/<runId>.json` holds a record, every later state has the
same record there, or none, and the same for the outbox. -/
theorem final_record_kept (w : World) (mode : Mode) (es fs : List Event) (s t : Sys) (runId : RunId) (r : Record)
    (hrun : run (step w mode) Sys.init es = some s) (hlater : run (step w mode) s fs = some t)
    (honce : Along (step w mode) (PublishedOnce w) Sys.init (es ++ fs))
    (hfinal : s.store.final.lookup runId = some r) :
    (∀ r', t.store.final.lookup runId = some r' → r' = r) ∧
      ∀ r', t.store.outbox.lookup runId = some r' → r' = r := by
  obtain ⟨hes, hfs⟩ := honce.append hrun
  have hs := run_settled hes settled_init hrun
  have ht := run_settled hfs hs hlater
  obtain ⟨hmem, hid⟩ := hs.files.final runId r hfinal
  have hmem' := run_written_subset hlater hmem
  refine ⟨fun r' hlook => ?_, fun r' hlook => ?_⟩
  · obtain ⟨hmem₂, hid₂⟩ := ht.files.final runId r' hlook
    exact ht.files.unique r' hmem₂ r hmem' (hid₂.trans hid.symm)
  · obtain ⟨hmem₂, hid₂⟩ := ht.files.outbox runId r' hlook
    exact ht.files.unique r' hmem₂ r hmem' (hid₂.trans hid.symm)

/-- A run that is published, and what can follow: a crash, a sweep with nothing to do, another run. -/
def publishedRun : List Event := [.restart [], .serve] ++ beginRun 0 (scriptRequest "r0") ++ finalizeRun 0

def afterPublished : List Event :=
  collectRun 0 ++ [.crash, .restart [], .serve] ++ beginRun 1 (scriptRequest "r0") ++ finalizeRun 1 ++ collectRun 1

theorem final_record_kept_publishedRun :
    ∃ s t r, run (step sampleWorld .collected) Sys.init publishedRun = some s ∧
      run (step sampleWorld .collected) s afterPublished = some t ∧ s.store.final.lookup "r0" = some r ∧
      ∀ r', t.store.final.lookup "r0" = some r' → r' = r := by
  have hruns : (run (step sampleWorld .collected) Sys.init (publishedRun ++ afterPublished)).isSome = true := by
    decide +kernel
  obtain ⟨t, ht⟩ := Option.isSome_iff_exists.mp hruns
  obtain ⟨s, hs, hlater⟩ := run_append_some ht
  have hfinal : ((run (step sampleWorld .collected) Sys.init publishedRun).bind fun s =>
      s.store.final.lookup "r0").isSome = true := by decide +kernel
  rw [hs, Option.bind_some] at hfinal
  obtain ⟨r, hr⟩ := Option.isSome_iff_exists.mp hfinal
  exact ⟨s, t, r, hs, hlater, hr, (final_record_kept _ _ _ _ s t "r0" r hs hlater (by decide +kernel) hr).1⟩

/-- The service dies after the run's record is in `final/` and before its open record is removed. -/
def crashAfterFinal : List Event :=
  [.crash, .restart ["r0"], .sweepTake true .null, .sweepJob (.write true)]

/-- The next sweep then publishes the run again, as lost. -/
theorem final_record_changed_crashAfterFinal :
    ¬ ∀ (w : World) (mode : Mode) (es fs : List Event) (s t : Sys) (runId : RunId) (r : Record),
        run (step w mode) Sys.init es = some s → run (step w mode) s fs = some t →
        s.store.final.lookup runId = some r →
        (∀ r', t.store.final.lookup runId = some r' → r' = r) ∧
          ∀ r', t.store.outbox.lookup runId = some r' → r' = r := by
  intro h
  have hbefore : ((run (step sampleWorld .collected) Sys.init publishedRun).bind fun s =>
      s.store.final.lookup "r0").bind (fun r => r.exit.map (·.reason)) = some .exited := by decide +kernel
  have hafter : ((run (step sampleWorld .collected) Sys.init (publishedRun ++ crashAfterFinal)).bind fun s =>
      s.store.final.lookup "r0").bind (fun r => r.exit.map (·.reason)) = some .lost := by decide +kernel
  obtain ⟨r, hr, hexited⟩ := Option.bind_eq_some_iff.mp hbefore
  obtain ⟨s, hs, hfinal⟩ := Option.bind_eq_some_iff.mp hr
  obtain ⟨r', hr', hlost⟩ := Option.bind_eq_some_iff.mp hafter
  obtain ⟨t, ht, hfinal'⟩ := Option.bind_eq_some_iff.mp hr'
  obtain ⟨s', hs', hlater⟩ := run_append_some ht
  rw [hs] at hs'
  cases hs'
  have heq := (h _ _ _ _ s t "r0" r hs hlater hfinal).1 r' hfinal'
  rw [heq, hexited] at hlost
  cases hlost

end Lager.RunRecord
