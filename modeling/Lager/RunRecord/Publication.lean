import Lager.RunRecord.Ownership

/-!
# Publications

A record is published by a run or by the sweep. Here is what such a publication does to the files
(`Effect.store_cases`, `Effect.final_cases`), where it comes from (`Effect.job_cases`), and that only one at a
time has the open record of an id (`Owned.job_unique`, `Owned.actor_unique`).
-/

namespace Lager.RunRecord

open Lager.Py Lager.Lib

variable {w : World} {mode : Mode} {s t : Sys} {e : Event}

/-! ### Published records -/

theorem Store.unlink_written (s : Store) (runId : RunId) (l : Leftover) :
    (s.unlink runId l).written = s.written := by
  cases l <;> rfl

/-- A publication starts with the write to `final/`. -/
theorem jobStep_written {s s' : Store} {job : Job} {je : JobEvent} {after : After}
    (h : jobStep mode s job je = some (s', after)) :
    (s'.written = s.written ∧ (job.stage = .writeFinal → after = .raised) ∨
        job.stage = .writeFinal ∧ s'.written = job.record :: s.written) ∧
      ∀ job', after = .goOn job' → job'.record = job.record ∧ job'.stage ≠ .writeFinal := by
  have hreturned : ∀ job', job.returned = .goOn job' → job'.record = job.record ∧ job'.stage ≠ .writeFinal := by
    rintro job' ⟨⟩
    exact ⟨rfl, by simp⟩
  rcases jobStep_cases h with ⟨rfl, rfl, -⟩ | ⟨hst, rfl, rfl⟩ | ⟨hst, rfl, -, rfl⟩ |
    ⟨hst, -, ⟨r, -, rfl⟩, rfl⟩ | ⟨hst, rfl, rfl⟩ | ⟨hst, rfl, rfl⟩ | ⟨hst, rfl, rfl | ⟨-, v, vs, rfl⟩⟩ |
    ⟨v, vs, hst, hs', rfl | rfl⟩ | ⟨l, ls, hst, hs', ⟨-, rfl⟩ | rfl⟩
  · exact ⟨.inl ⟨rfl, fun _ => rfl⟩, fun job' h => by cases h⟩
  · refine ⟨.inr ⟨hst, rfl⟩, ?_⟩
    rintro job' ⟨⟩
    exact ⟨rfl, by split_ifs <;> simp⟩
  · refine ⟨.inl ⟨rfl, by simp [hst]⟩, ?_⟩
    rintro job' ⟨⟩
    exact ⟨rfl, by simp⟩
  · refine ⟨.inl ⟨rfl, by simp [hst]⟩, ?_⟩
    rintro job' ⟨⟩
    exact ⟨rfl, by simp⟩
  · refine ⟨.inl ⟨rfl, by simp [hst]⟩, ?_⟩
    rintro job' ⟨⟩
    exact ⟨rfl, by simp⟩
  · refine ⟨.inl ⟨rfl, by simp [hst]⟩, ?_⟩
    rintro job' ⟨⟩
    exact ⟨rfl, by simp⟩
  · exact ⟨.inl ⟨rfl, by simp [hst]⟩, hreturned⟩
  · refine ⟨.inl ⟨rfl, by simp [hst]⟩, ?_⟩
    rintro job' ⟨⟩
    exact ⟨rfl, by simp⟩
  · exact ⟨.inl ⟨by rcases hs' with rfl | rfl <;> rfl, by simp [hst]⟩, hreturned⟩
  · refine ⟨.inl ⟨by rcases hs' with rfl | rfl <;> rfl, by simp [hst]⟩, ?_⟩
    rintro job' ⟨⟩
    exact ⟨rfl, by simp⟩
  · refine ⟨.inl ⟨?_, by simp [hst]⟩, fun job' h => by cases h⟩
    rcases hs' with rfl | rfl
    · rfl
    · exact s.unlink_written _ _
  · refine ⟨.inl ⟨?_, by simp [hst]⟩, ?_⟩
    · rcases hs' with rfl | rfl
      · rfl
      · exact s.unlink_written _ _
    · rintro job' ⟨⟩
      exact ⟨rfl, by simp⟩

theorem jobStep_done {s s' : Store} {job : Job} {je : JobEvent} (h : jobStep mode s job je = some (s', .done)) :
    ∃ rest, job.stage = .unlink rest := by
  rcases jobStep_cases h with ⟨-, h, -⟩ | ⟨-, -, h⟩ | ⟨-, -, -, h⟩ | ⟨-, -, -, h⟩ | ⟨-, -, h⟩ | ⟨-, -, h⟩ |
    ⟨-, -, h | ⟨-, v, vs, h⟩⟩ | ⟨v, vs, -, -, h | h⟩ | ⟨l, ls, hst, -⟩
  all_goals first | cases h | exact ⟨_, hst⟩

/-- A publication writes to `final/` with its first step and prunes with later ones. -/
theorem jobStep_final {s s' : Store} {job : Job} {je : JobEvent} {after : After}
    (h : jobStep mode s job je = some (s', after)) :
    (job.stage = .writeFinal ∧ s'.final = s.final.insert job.record.runId job.record ∧
        after = .goOn { job with stage := if mode = .collected then .link else .scan }) ∨
      (s'.final = s.final ∧ ∀ job', after = .goOn job' → job'.stage ≠ .link) ∨
      (∃ v vs, job.stage = .prune (v :: vs) ∧ s'.final = s.final.erase v ∧
        ∀ job', after = .goOn job' → job'.stage ≠ .link) := by
  rcases jobStep_cases h with ⟨rfl, rfl, -⟩ | ⟨hst, rfl, rfl⟩ | ⟨-, rfl, -, rfl⟩ | ⟨-, -, ⟨r, -, rfl⟩, rfl⟩ |
    ⟨-, rfl, rfl⟩ | ⟨-, rfl, rfl⟩ | ⟨-, rfl, rfl | ⟨-, v, vs, rfl⟩⟩ | ⟨v, vs, hst, hs', hafter⟩ |
    ⟨l, ls, -, hs', hafter⟩
  · exact .inr (.inl ⟨rfl, fun job' h => by cases h⟩)
  · exact .inl ⟨hst, rfl, rfl⟩
  · exact .inr (.inl ⟨rfl, by rintro job' ⟨⟩; simp⟩)
  · exact .inr (.inl ⟨rfl, by rintro job' ⟨⟩; simp⟩)
  · exact .inr (.inl ⟨rfl, by rintro job' ⟨⟩; simp⟩)
  · exact .inr (.inl ⟨rfl, by rintro job' ⟨⟩; simp⟩)
  · exact .inr (.inl ⟨rfl, by rintro job' ⟨⟩; simp⟩)
  · exact .inr (.inl ⟨rfl, by rintro job' ⟨⟩; simp⟩)
  · have hstage : ∀ job', after = .goOn job' → job'.stage ≠ .link := by
      rcases hafter with rfl | rfl <;> · rintro job' ⟨⟩; simp
    rcases hs' with rfl | rfl
    · exact .inr (.inl ⟨rfl, hstage⟩)
    · exact .inr (.inr ⟨v, vs, hst, rfl, hstage⟩)
  · refine .inr (.inl ⟨?_, ?_⟩)
    · rcases hs' with rfl | rfl
      · rfl
      · cases l <;> rfl
    · rcases hafter with ⟨-, rfl⟩ | rfl
      · intro job' h
        cases h
      · rintro job' ⟨⟩
        simp

theorem jobStep_written_final {s s' : Store} {job : Job} {je : JobEvent} {after : After}
    (h : jobStep mode s job je = some (s', after)) (hwritten : s'.written ≠ s.written) :
    s'.final = s.final.insert job.record.runId job.record := by
  rcases jobStep_cases h with ⟨rfl, -⟩ | ⟨-, rfl, -⟩ | ⟨-, rfl, -⟩ | ⟨-, -, ⟨r, -, rfl⟩, -⟩ | ⟨-, rfl, -⟩ |
    ⟨-, rfl, -⟩ | ⟨-, rfl, -⟩ | ⟨v, vs, -, rfl | rfl, -⟩ | ⟨l, ls, -, rfl | rfl, -⟩
  all_goals first | rfl | exact absurd rfl hwritten | exact absurd (s.unlink_written _ _) hwritten

theorem prune_of_stage {s s' : Store} {job : Job} {je : JobEvent} {after : After} {victims : List RunId}
    (h : jobStep mode s job je = some (s', after)) (hst : job.stage = .prune victims) : ∃ ok, je = .prune ok := by
  cases je with
  | prune ok => exact ⟨ok, rfl⟩
  | _ => simp [jobStep, hst] at h

/-- The publication of a run or, for `none`, of the sweep. -/
def Sys.job? (s : Sys) : Option Nat → Option Job
  | none => s.service.job?
  | some i => (s.runs i).bind fun r => r.phase.job?

theorem job?_run {i : Nat} {r : Run} {o : OpenRecord} {job : Job} (hr : s.runs i = some r)
    (hp : r.phase = .publishing o job) : s.job? (some i) = some job := by
  rw [Sys.job?, hr, Option.bind_some, hp]
  rfl

theorem job?_eq_some {i : Nat} {job : Job} (h : s.job? (some i) = some job) :
    ∃ r o, s.runs i = some r ∧ r.phase = .publishing o job := by
  obtain ⟨r, hr, hjob⟩ := Option.bind_eq_some_iff.mp h
  cases hp : r.phase with
  | publishing o job' =>
    rw [hp] at hjob
    cases hjob
    exact ⟨r, o, hr, hp⟩
  | _ =>
    rw [hp] at hjob
    cases hjob

theorem job?_sweep {rest : List RunId} {job : Option Job} (h : s.service = .sweeping rest job) :
    s.job? none = job := by
  rw [Sys.job?, h]
  rfl

/-- An operation of the sweep's publication or of a run's, as an event. -/
def publishEvent : Option Nat → JobEvent → Event
  | none, je => .sweepJob je
  | some i, je => .run i (.job je)

/-- What a step does to the shared files, and which publication does it. -/
theorem Effect.store_cases (h : Effect w mode s t e) :
    SameFiles s.store t.store ∨
    (∃ i r runId, e = .run i (.bump true) ∧ s.runs i = some r ∧ r.phase = .bump runId ∧
      t.runs i = some { r with phase := .build runId (s.store.sequence + 1) } ∧
      t.store = { s.store with sequence := s.store.sequence + 1 }) ∨
    (∃ i r o c, e = .run i (.persist true) ∧ s.runs i = some r ∧ r.phase = .persist o c ∧
      t.runs i = some { r with phase := .running o c } ∧
      t.store = { s.store with opens := s.store.opens.insert o.record.runId o }) ∨
    (∃ a job je after, e = publishEvent a je ∧ s.job? a = some job ∧
      jobStep mode s.store job je = some (t.store, after)) ∨
    (∃ runId, e = .collect runId ∧ t.store = s.store.collect runId) := by
  cases h with
  | other hev hruns hfiles => exact .inl hfiles
  | mark hev hruns hfiles => exact .inl hfiles
  | take name rest o hservice hopen ht => exact .inl (ht ▸ .refl _)
  | sweepJob rest job store after hservice hjob ht =>
    subst ht
    exact .inr (.inr (.inr (.inl ⟨none, job, _, after, rfl, job?_sweep hservice, hjob⟩)))
  | crash ht => exact .inl (ht ▸ .refl _)
  | accept hservice hnone ht => exact .inl (ht ▸ .refl _)
  | @run i re r store p hservice hrun huuid hstep ht =>
    subst ht
    rcases runStep_cases hstep with ⟨hfiles, -⟩ | ⟨runId, rfl, hphase, rfl, rfl⟩ |
      ⟨o, c, rfl, hphase, rfl, rfl⟩ | ⟨o, hfiles, -⟩ | ⟨o, job, je, after, rfl, hphase, hjob, -⟩
    · exact .inl hfiles
    · exact .inr (.inl ⟨i, r, runId, rfl, hrun, hphase, Function.update_self _ _ _, rfl⟩)
    · exact .inr (.inr (.inl ⟨i, r, o, c, rfl, hrun, hphase, Function.update_self _ _ _, rfl⟩))
    · exact .inl hfiles
    · exact .inr (.inr (.inr (.inl ⟨some i, job, je, after, rfl, job?_run hrun hphase, hjob⟩)))
  | collect ht => exact .inr (.inr (.inr (.inr ⟨_, rfl, by rw [ht]⟩)))

theorem Effect.final_cases (h : Effect w mode s t e) :
    t.store.final = s.store.final ∨
    (∃ a job je, e = publishEvent a je ∧ s.job? a = some job ∧ job.stage = .writeFinal ∧
      t.store.final = s.store.final.insert job.record.runId job.record) ∨
    (∃ a ok v, e = publishEvent a (.prune ok) ∧ t.store.final = s.store.final.erase v) := by
  rcases h.store_cases with hfiles | ⟨i, r, runId, -, -, -, -, hstore⟩ | ⟨i, r, o, c, -, -, -, -, hstore⟩ |
    ⟨a, job, je, after, he, hj, hjob⟩ | ⟨runId, -, hstore⟩
  · exact .inl hfiles.final
  · exact .inl (by rw [hstore])
  · exact .inl (by rw [hstore])
  · rcases jobStep_final hjob with ⟨hst, hfinal, -⟩ | ⟨hsame, -⟩ | ⟨v, vs, hst, hfinal, -⟩
    · exact .inr (.inl ⟨a, job, je, he, hj, hst, hfinal⟩)
    · exact .inl hsame
    · obtain ⟨ok, rfl⟩ := prune_of_stage hjob hst
      exact .inr (.inr ⟨a, ok, v, he, hfinal⟩)
  · exact .inl (by rw [hstore]; rfl)

/-- A publication of the next state is the same as before, was just set up, or made one step. -/
theorem Effect.job_cases (h : Effect w mode s t e) {a : Option Nat} {job' : Job} (hj : t.job? a = some job') :
    s.job? a = some job' ∨
    (job'.stage = .writeFinal ∧
      ((∃ i r o, a = some i ∧ s.runs i = some r ∧ r.phase.capturing = some o ∧ JobOf o job') ∨
        (∃ name rest o json, a = none ∧ e = .sweepTake true json ∧ s.service = .sweeping (name :: rest) none ∧
          s.store.opens.lookup name = some o ∧ job' = sweepJobOf w s.store name o json))) ∨
    (∃ job je, e = publishEvent a je ∧ s.job? a = some job ∧
      jobStep mode s.store job je = some (t.store, .goOn job')) := by
  cases a with
  | none =>
    have hrun : t.service = s.service → s.job? none = some job' := fun hservice => by
      rw [Sys.job?, hservice] at hj
      exact hj
    cases h with
    | other hev hruns hfiles hids hservice hjob =>
      rw [Sys.job?, hjob] at hj
      cases hj
    | mark hev hruns hfiles hids hservice => exact .inl (hrun hservice)
    | @take json name rest o hservice hopen ht =>
      subst ht
      cases hj
      exact .inr (.inl ⟨rfl, .inr ⟨name, rest, o, json, rfl, rfl, hservice, hopen, rfl⟩⟩)
    | @sweepJob je rest job store after hservice hjob ht =>
      subst ht
      cases after with
      | goOn job'' =>
        cases hj
        exact .inr (.inr ⟨job, je, rfl, job?_sweep hservice, hjob⟩)
      | done => cases hj
      | raised => cases hj
    | crash ht =>
      subst ht
      cases hj
    | accept hservice hnone ht => exact .inl (hrun (by rw [ht]))
    | run r store p hservice hrun' huuid hstep ht => exact .inl (hrun (by rw [ht]))
    | collect ht => exact .inl (hrun (by rw [ht]))
  | some i =>
    obtain ⟨r', o, hr', hp'⟩ := job?_eq_some hj
    rcases h.run_cases hr' with hsame | ⟨r, -, rfl, -⟩ | ⟨req, rfl, -⟩ | ⟨r, re, p, rfl, hr, hstep, rfl⟩
    · exact .inl (job?_run hsame hp')
    · cases hp'
    · cases hp'
    · cases hp'
      rcases runStep_cases hstep with ⟨-, -, hnone, -⟩ | ⟨runId, -, -, -, hphase⟩ | ⟨o', c, -, -, -, hphase⟩ |
        ⟨o', -, hcap, hcap' | hphase | ⟨job, hphase, hof, hstage⟩⟩ |
        ⟨o', job, je, after, rfl, hphase, hjob, hafter⟩
      · cases hnone
      · cases hphase
      · cases hphase
      · cases hcap'
      · cases hphase
      · cases hphase
        exact .inr (.inl ⟨hstage, .inl ⟨i, r, _, rfl, hr, hcap, hof⟩⟩)
      · cases after with
        | goOn job'' =>
          cases hafter
          exact .inr (.inr ⟨job, je, rfl, job?_run hr hphase, hjob⟩)
        | done => cases hafter
        | raised => cases hafter

/-- While a publication has the open record still to remove, it is there, with the number of the record that
is published. -/
theorem Owned.job_open (hs : Owned s) {a : Option Nat} {job : Job} (hj : s.job? a = some job) :
    job.Shaped ∧ job.record.runId = job.file ∧ (job.stage.holdsOpen = true →
      ∃ o, s.store.opens.lookup job.file = some o ∧ o.record.boxSequence = job.record.boxSequence) := by
  cases a with
  | none =>
    cases hservice : s.service with
    | sweeping rest job' =>
      rw [job?_sweep hservice] at hj
      subst hj
      exact hs.sweep rest job hservice
    | down =>
      rw [Sys.job?, hservice] at hj
      cases hj
    | serving =>
      rw [Sys.job?, hservice] at hj
      cases hj
  | some i =>
    obtain ⟨r, o, hr, hp⟩ := job?_eq_some hj
    obtain ⟨hof, hshape⟩ := hs.job i r o job hr hp
    refine ⟨hshape, hof.runId.trans hof.file.symm, fun hon => ⟨o, ?_, hof.boxSequence.symm⟩⟩
    rw [hof.file]
    exact hs.holds i r o hr (by rw [hp, Phase.holds, if_pos hon])

/-- What a step does to the open records: a run writes its own, or a publication that is over removes its
own. -/
theorem Effect.opens_cases (hs : Owned s) (h : Effect w mode s t e) :
    t.store.opens = s.store.opens ∨
    (∃ i r o c, e = .run i (.persist true) ∧ s.runs i = some r ∧ r.phase = .persist o c ∧
      t.runs i = some { r with phase := .running o c } ∧
      t.store.opens = s.store.opens.insert o.record.runId o) ∨
    (∃ a job rest, s.job? a = some job ∧ job.stage.holdsOpen = true ∧ job.stage = .unlink rest ∧
      t.store.opens = s.store.opens.erase job.file) := by
  rcases h.store_cases with hfiles | ⟨i, r, id, -, -, -, -, hstore⟩ | ⟨i, r, o, c, he, hr, hphase, hrun, hstore⟩ |
    ⟨a, job, je, after, -, hj, hjob⟩ | ⟨id, -, hstore⟩
  · exact .inl hfiles.opens
  · exact .inl (by rw [hstore])
  · exact .inr (.inl ⟨i, r, o, c, he, hr, hphase, hrun, by rw [hstore]⟩)
  · obtain ⟨hshape, -⟩ := hs.job_open hj
    rcases (jobStep_opens hjob hshape).2 with hsame | ⟨herase, hon, -, rest, hstage⟩
    · exact .inl hsame
    · exact .inr (.inr ⟨a, job, rest, hj, hon, hstage, herase⟩)
  · exact .inl (by rw [hstore]; rfl)

/-- Only one run or sweep at a time has the open record of an id still to remove. -/
theorem Owned.job_unique (hs : Owned s) {a : Option Nat} {job : Job} (hj : s.job? a = some job)
    (hon : job.stage.holdsOpen = true) {i : Nat} {r : Run} {o : OpenRecord} (hr : s.runs i = some r)
    (ho : r.phase.holds = some o) (hid : job.file = o.record.runId) : a = some i := by
  cases a with
  | none =>
    have hne : s.service ≠ .serving := by
      intro hserving
      rw [Sys.job?, hserving] at hj
      cases hj
    rw [not_holds_of_isDead (hs.idle hne i r hr)] at ho
    cases ho
  | some j =>
    obtain ⟨r', o', hr', hp⟩ := job?_eq_some hj
    obtain ⟨hof, -⟩ := hs.job j r' o' job hr' hp
    have ho' : r'.phase.holds = some o' := by rw [hp, Phase.holds, if_pos hon]
    exact congrArg some (hs.holds_inj hr' hr ho' ho (hof.file.symm.trans hid))

/-- Two publications under one id, both with the open record still to remove, are the same. -/
theorem Owned.actor_unique (hs : Owned s) {a b : Option Nat} {job job' : Job} (hj : s.job? a = some job)
    (hj' : s.job? b = some job') (hon : job.stage.holdsOpen = true) (hon' : job'.stage.holdsOpen = true)
    (hid : job.record.runId = job'.record.runId) : a = b := by
  obtain ⟨-, hfile, -⟩ := hs.job_open hj
  obtain ⟨-, hfile', -⟩ := hs.job_open hj'
  cases b with
  | some i =>
    obtain ⟨r, o, hr, hp⟩ := job?_eq_some hj'
    obtain ⟨hof, -⟩ := hs.job i r o job' hr hp
    refine hs.job_unique hj hon hr (by rw [hp, Phase.holds, if_pos hon']) ?_
    rw [← hfile, hid, hof.runId]
  | none =>
    cases a with
    | none => rfl
    | some i =>
      obtain ⟨r, o, hr, hp⟩ := job?_eq_some hj
      obtain ⟨hof, -⟩ := hs.job i r o job hr hp
      refine (hs.job_unique hj' hon' hr (by rw [hp, Phase.holds, if_pos hon]) ?_).symm
      rw [← hfile', ← hid, hof.runId]

/-- A publication that is past its first step has written its record to `final/`. -/
def Published (s : Sys) : Prop :=
  ∀ a job, s.job? a = some job → job.stage ≠ .writeFinal → job.record ∈ s.store.written

theorem Effect.written_subset (h : Effect w mode s t e) : s.store.written ⊆ t.store.written := by
  rcases h.store_cases with hfiles | ⟨i, r, runId, -, -, -, -, hstore⟩ | ⟨i, r, o, c, -, -, -, -, hstore⟩ |
    ⟨a, job, je, after, -, -, hjob⟩ | ⟨runId, -, hstore⟩
  · rw [hfiles.written]
    exact List.Subset.refl _
  · rw [hstore]
    exact List.Subset.refl _
  · rw [hstore]
    exact List.Subset.refl _
  · rcases (jobStep_written hjob).1 with ⟨hsame, -⟩ | ⟨-, hcons⟩
    · rw [hsame]
      exact List.Subset.refl _
    · rw [hcons]
      exact List.subset_cons_self _ _
  · rw [hstore]
    exact List.Subset.refl _

/-- A record that a step adds is that of a publication at its first step. -/
theorem Effect.written_new (h : Effect w mode s t e) {q : Record} (hq : q ∈ t.store.written)
    (hold : q ∉ s.store.written) :
    ∃ a job je, e = publishEvent a je ∧ s.job? a = some job ∧ job.stage = .writeFinal ∧
      t.store.final = s.store.final.insert job.record.runId job.record ∧ q = job.record := by
  rcases h.store_cases with hfiles | ⟨i, r, id, -, -, -, -, hstore⟩ | ⟨i, r, o', c, -, -, -, -, hstore⟩ |
    ⟨a, job, je, after, he, hj, hjob⟩ | ⟨id, -, hstore⟩
  · exact absurd (hfiles.written ▸ hq) hold
  · rw [hstore] at hq
    exact absurd hq hold
  · rw [hstore] at hq
    exact absurd hq hold
  · rcases (jobStep_written hjob).1 with ⟨hsame, -⟩ | ⟨hstage, hcons⟩
    · exact absurd (hsame ▸ hq) hold
    · have hfinal := jobStep_written_final hjob (by simp [hcons])
      rw [hcons] at hq
      rcases List.mem_cons.mp hq with rfl | hq
      · exact ⟨a, job, je, he, hj, hstage, hfinal, rfl⟩
      · exact absurd hq hold
  · rw [hstore] at hq
    exact absurd hq hold

theorem step_published (hs : Published s) (h : step w mode s e = some t) : Published t := by
  have heff := step_effect h
  intro a job' hj hstage
  rcases heff.job_cases hj with hsame | ⟨hnew, -⟩ | ⟨job, je, -, hbefore, hstep⟩
  · exact heff.written_subset (hs a job' hsame hstage)
  · exact absurd hnew hstage
  · obtain ⟨hwritten, hgoOn⟩ := jobStep_written hstep
    rw [(hgoOn job' rfl).1]
    rcases hwritten with ⟨hsame, hraised⟩ | ⟨-, hcons⟩
    · rw [hsame]
      exact hs a job hbefore fun hfirst => by cases hraised hfirst
    · rw [hcons]
      exact List.mem_cons_self

theorem published_init : Published Sys.init := by
  rintro (_ | i) job hj
  · cases hj
  · cases hj

end Lager.RunRecord
