import Lager.RunRecord.System

/-!
# What a step can do

The inversion lemmas of the record store: `jobStep_cases` for an operation of a publication, `runStep_cases`
for a run, and `step_effect` for the system. Every invariant is proved from `Effect`, which lists the steps
by what they do to the files that matter to more than one run.
-/

namespace Lager.RunRecord

open Lager.Py Lager.Lib

/-! ### A publication -/

theorem jobStep_cases {mode : Mode} {s s' : Store} {job : Job} {e : JobEvent} {after : After}
    (h : jobStep mode s job e = some (s', after)) :
    (s' = s ∧ after = .raised ∧ ∀ rest, job.stage ≠ .unlink rest) ∨
    (job.stage = .writeFinal ∧
      s' = { s with
        final := s.final.insert job.record.runId job.record
        written := job.record :: s.written } ∧
      after = .goOn { job with stage := if mode = .collected then .link else .scan }) ∨
    (job.stage = .link ∧ s' = s ∧ (∃ r, s.outbox.lookup job.record.runId = some r) ∧
      after = .goOn { job with stage := .scan }) ∨
    (job.stage = .link ∧ s.outbox.lookup job.record.runId = none ∧
      (∃ r, s.final.lookup job.record.runId = some r ∧
        s' = { s with outbox := s.outbox.insert job.record.runId r }) ∧
      after = .goOn { job with stage := .scan }) ∨
    (job.stage = .link ∧ s' = s ∧ after = .goOn { job with stage := .writeOutbox }) ∨
    (job.stage = .writeOutbox ∧ s' = { s with outbox := s.outbox.insert job.record.runId job.record } ∧
      after = .goOn { job with stage := .scan }) ∨
    (job.stage = .scan ∧ s' = s ∧
      (after = job.returned ∨
        finalKeep < s.final.entries.length ∧ ∃ v vs, after = .goOn { job with stage := .prune (v :: vs) })) ∨
    (∃ v vs, job.stage = .prune (v :: vs) ∧ (s' = s ∨ s' = { s with final := s.final.erase v }) ∧
      (after = job.returned ∨ after = .goOn { job with stage := .prune vs })) ∨
    (∃ l ls, job.stage = .unlink (l :: ls) ∧ (s' = s ∨ s' = s.unlink job.file l) ∧
      (ls = [] ∧ after = .done ∨ after = .goOn { job with stage := .unlink ls })) := by
  cases e with
  | write ok =>
    simp only [jobStep] at h
    split at h
    · rename_i hstage
      split_ifs at h <;> cases h
      · exact .inr (.inl ⟨hstage, rfl, by simp [*]⟩)
      · exact .inr (.inl ⟨hstage, rfl, by simp [*]⟩)
      · exact .inl ⟨rfl, rfl, by simp [hstage]⟩
    · cases h
  | link outcome =>
    simp only [jobStep] at h
    split at h
    · rename_i hstage
      split at h
      · rename_i r hout
        cases h
        exact .inr (.inr (.inl ⟨hstage, rfl, ⟨_, hout⟩, rfl⟩))
      · rename_i r hout hfinal
        cases h
        exact .inr (.inr (.inr (.inl ⟨hstage, hout, ⟨r, hfinal, rfl⟩, rfl⟩)))
      · cases h
        exact .inl ⟨rfl, rfl, by simp [hstage]⟩
    · rename_i hstage
      cases h
      exact .inr (.inr (.inr (.inr (.inl ⟨hstage, rfl, rfl⟩))))
    · rename_i hstage
      cases h
      exact .inl ⟨rfl, rfl, by simp [hstage]⟩
    · cases h
  | writeOutbox ok =>
    simp only [jobStep] at h
    split at h
    · rename_i hstage
      split_ifs at h <;> cases h
      · exact .inr (.inr (.inr (.inr (.inr (.inl ⟨hstage, rfl, rfl⟩)))))
      · exact .inl ⟨rfl, rfl, by simp [hstage]⟩
    · cases h
  | scan victims =>
    refine .inr (.inr (.inr (.inr (.inr (.inr (.inl ?_))))))
    simp only [jobStep] at h
    split at h
    · rename_i hstage
      cases h
      exact ⟨hstage, rfl, .inl rfl⟩
    · rename_i hstage
      split_ifs at h
      cases h
      exact ⟨hstage, rfl, .inl rfl⟩
    · rename_i hstage
      split_ifs at h with hkeep
      cases h
      exact ⟨hstage, rfl, .inr ⟨hkeep.1, _, _, rfl⟩⟩
    · cases h
  | statFails =>
    simp only [jobStep] at h
    split at h
    · rename_i hstage
      split_ifs at h
      cases h
      exact .inl ⟨rfl, rfl, by simp [hstage]⟩
    · cases h
  | prune ok =>
    refine .inr (.inr (.inr (.inr (.inr (.inr (.inr (.inl ?_)))))))
    simp only [jobStep] at h
    split at h
    · rename_i v vs hstage
      cases h
      refine ⟨v, vs, hstage, ?_, ?_⟩
      · cases ok <;> simp
      · split_ifs <;> simp
    · cases h
  | unlink ok =>
    refine .inr (.inr (.inr (.inr (.inr (.inr (.inr (.inr ?_)))))))
    simp only [jobStep] at h
    split at h
    · rename_i l ls hstage
      cases h
      refine ⟨l, ls, hstage, ?_, ?_⟩
      · cases ok <;> simp
      · split_ifs with hls
        · exact .inl ⟨hls, rfl⟩
        · exact .inr rfl
    · cases h

/-! ### A run -/

/-- The files that more than one run can touch are the same. -/
structure SameFiles (s s' : Store) : Prop where
  opens : s'.opens = s.opens
  final : s'.final = s.final
  outbox : s'.outbox = s.outbox
  sequence : s'.sequence = s.sequence
  written : s'.written = s.written
  taken : s'.taken = s.taken

theorem SameFiles.refl (s : Store) : SameFiles s s := ⟨rfl, rfl, rfl, rfl, rfl, rfl⟩

/-- The open record of a run that captures its output or is on its way to publishing. -/
def Phase.capturing : Phase → Option OpenRecord
  | .running o _ | .closing o _ _ | .assembling o _ _ => some o
  | _ => none

/-- A publication of the run's record, as `finalize` sets it up. -/
structure JobOf (o : OpenRecord) (job : Job) : Prop where
  runId : job.record.runId = o.record.runId
  boxSequence : job.record.boxSequence = o.record.boxSequence
  file : job.file = o.record.runId
  leftovers : job.leftovers = [.json, .cancel, .script]

theorem settle_opened (req : Request) (runId : RunId) : (settle req runId).opened = none := by
  rw [settle]
  split <;> rfl

theorem settle_number (req : Request) (runId : RunId) : (settle req runId).number = none := by
  rw [settle]
  split <;> rfl

theorem runStep_cases {w : World} {mode : Mode} {s s' : Store} {r : Run} {e : RunEvent} {p : Phase}
    (h : runStep w mode s r e = some (s', p)) :
    (SameFiles s s' ∧ r.phase.opened = none ∧ p.opened = none ∧ p.number = r.phase.number) ∨
    (∃ runId, e = .bump true ∧ r.phase = .bump runId ∧ s' = { s with sequence := s.sequence + 1 } ∧
      p = .build runId (s.sequence + 1)) ∨
    (∃ o c, e = .persist true ∧ r.phase = .persist o c ∧
      s' = { s with opens := s.opens.insert o.record.runId o } ∧ p = .running o c) ∨
    (∃ o, SameFiles s s' ∧ r.phase.capturing = some o ∧
      (p.capturing = some o ∨ p = .failed o ∨
        ∃ job, p = .publishing o job ∧ JobOf o job ∧ job.stage = .writeFinal)) ∨
    (∃ o job je after, e = .job je ∧ r.phase = .publishing o job ∧
      jobStep mode s job je = some (s', after) ∧ p = publishingPhase o after) := by
  cases e with
  | job je =>
    simp only [runStep] at h
    split at h
    · rename_i o job hphase
      obtain ⟨⟨s₁, after⟩, hjob, heq⟩ := Option.map_eq_some_iff.mp h
      cases heq
      exact .inr (.inr (.inr (.inr ⟨o, job, je, after, rfl, hphase, hjob, rfl⟩)))
    · cases h
  | bump ok =>
    simp only [runStep] at h
    split at h
    · rename_i runId hphase
      split_ifs at h with hok <;> cases h
      · exact .inr (.inl ⟨runId, by rw [hok], hphase, rfl, rfl⟩)
      · exact .inl ⟨.refl _, by simp [hphase, Phase.opened], rfl, by simp [hphase, Phase.number]⟩
    · cases h
  | persist ok =>
    simp only [runStep] at h
    split at h
    · rename_i o c hphase
      split_ifs at h with hok <;> cases h
      · exact .inr (.inr (.inl ⟨o, c, by rw [hok], hphase, rfl, rfl⟩))
      · exact .inl ⟨.refl _, by simp [hphase, Phase.opened], rfl, by simp [hphase, Phase.number]⟩
    · cases h
  | logFrame disk fileno chunk =>
    simp only [runStep] at h
    split at h
    · rename_i o c hphase
      cases h
      refine .inr (.inr (.inr (.inl ⟨o, ?_, by simp [hphase, Phase.capturing], .inl rfl⟩)))
      split_ifs <;> exact ⟨rfl, rfl, rfl, rfl, rfl, rfl⟩
    · cases h
  | flush n =>
    simp only [runStep] at h
    split at h
    · rename_i o c hphase
      split at h <;> cases h
      exact .inr (.inr (.inr (.inl ⟨o, ⟨rfl, rfl, rfl, rfl, rfl, rfl⟩, by simp [hphase, Phase.capturing], .inl rfl⟩)))
    · cases h
  | finalize returncode ended late =>
    simp only [runStep] at h
    split at h
    · rename_i o c hphase
      cases h
      exact .inr (.inr (.inr (.inl ⟨o, .refl _, by simp [hphase, Phase.capturing], .inl rfl⟩)))
    · cases h
  | closeLog ok =>
    simp only [runStep] at h
    split at h
    · rename_i o c exit hphase
      split_ifs at h <;> cases h
      · exact .inr (.inr (.inr (.inl ⟨o, ⟨rfl, rfl, rfl, rfl, rfl, rfl⟩, by simp [hphase, Phase.capturing], .inl rfl⟩)))
      · exact .inr (.inr (.inr (.inl ⟨o, .refl _, by simp [hphase, Phase.capturing], .inr (.inl rfl)⟩)))
    · cases h
  | assemble ok finishedAt outputs scriptAsserted =>
    simp only [runStep] at h
    split at h
    · rename_i o exit log hphase
      split_ifs at h <;> cases h
      · refine .inr (.inr (.inr (.inl ⟨o, .refl _, by simp [hphase, Phase.capturing], .inr (.inr ?_)⟩)))
        exact ⟨_, rfl, ⟨rfl, rfl, rfl, rfl⟩, rfl⟩
      · exact .inr (.inr (.inr (.inl ⟨o, .refl _, by simp [hphase, Phase.capturing], .inr (.inl rfl)⟩)))
    · cases h
  | build startedAt =>
    refine .inl ?_
    simp only [runStep] at h
    split at h
    · rename_i runId n hphase
      split at h <;> cases h
      · rename_i o hbuild
        refine ⟨.refl _, by simp [hphase, Phase.opened], rfl, ?_⟩
        simp [hphase, Phase.number, (buildRecord_ok hbuild).2]
      · exact ⟨.refl _, by simp [hphase, Phase.opened], rfl, by simp [hphase, Phase.number]⟩
    · cases h
  | openLog ok =>
    refine .inl ?_
    simp only [runStep] at h
    split at h
    · rename_i o hphase
      split_ifs at h <;> cases h <;>
        exact ⟨⟨rfl, rfl, rfl, rfl, rfl, rfl⟩, by simp [hphase, Phase.opened], rfl, by simp [hphase, Phase.number]⟩
    · cases h
  | check spaceOk uuid =>
    refine .inl ?_
    simp only [runStep] at h
    split at h
    · rename_i hphase
      split_ifs at h <;> cases h <;>
        exact ⟨.refl _, by simp [hphase, Phase.opened], rfl, by simp [hphase, Phase.number]⟩
    · cases h
  | testOpen uuid =>
    refine .inl ?_
    simp only [runStep] at h
    split at h
    · rename_i runId hphase
      split_ifs at h <;> cases h
      · exact ⟨.refl _, by simp [hphase, Phase.opened], settle_opened _ _, by rw [settle_number, hphase]; rfl⟩
      · exact ⟨.refl _, by simp [hphase, Phase.opened], rfl, by simp [hphase, Phase.number]⟩
    · cases h
  | testFinal uuid =>
    refine .inl ?_
    simp only [runStep] at h
    split at h
    · rename_i runId hphase
      cases h
      exact ⟨.refl _, by simp [hphase, Phase.opened], settle_opened _ _, by rw [settle_number, hphase]; rfl⟩
    · cases h

/-! ### The system -/

/-- The publication an actor is at: the sweep (`none`), or a run. -/
def Phase.job? : Phase → Option Job
  | .publishing _ job => some job
  | _ => none

def Service.job? : Service → Option Job
  | .sweeping _ job => job
  | _ => none

/-- What a step did. -/
inductive Effect (w : World) (mode : Mode) (s t : Sys) : Event → Prop
  /-- Nothing that a run or another step depends on, apart from where the sweep stands. -/
  | other {e : Event} (hev : ∀ i re, e ≠ .run i re) (hruns : t.runs = s.runs)
      (hfiles : SameFiles s.store t.store) (hids : t.ids = s.ids)
      (hservice : t.service ≠ .serving → s.service ≠ .serving) (hjob : t.service.job? = none) : Effect w mode s t e
  /-- `mark_cancelled` touches neither the runs nor the shared files. -/
  | mark {e : Event} (hev : ∀ i re, e ≠ .run i re) (hruns : t.runs = s.runs)
      (hfiles : SameFiles s.store t.store) (hids : t.ids = s.ids) (hservice : t.service = s.service) :
      Effect w mode s t e
  | take {json : Json} (name : RunId) (rest : List RunId) (o : OpenRecord)
      (hservice : s.service = .sweeping (name :: rest) none) (hopen : s.store.opens.lookup name = some o)
      (ht : t = { s with service := .sweeping rest (some (sweepJobOf w s.store name o json)) }) :
      Effect w mode s t (.sweepTake true json)
  | sweepJob {e : JobEvent} (rest : List RunId) (job : Job) (store : Store) (after : After)
      (hservice : s.service = .sweeping rest (some job)) (hjob : jobStep mode s.store job e = some (store, after))
      (ht : t = { s with store, service := .sweeping rest (sweptJob after) }) : Effect w mode s t (.sweepJob e)
  | crash (ht : t = { s with service := .down, runs := fun i => (s.runs i).map Run.kill, marking := [] }) :
      Effect w mode s t .crash
  | accept {i : Nat} {req : Request} (hservice : s.service = .serving) (hnone : s.runs i = none)
      (ht : t = { s with runs := Function.update s.runs i (some ⟨req, .accepted⟩), ids := req.runId :: s.ids }) :
      Effect w mode s t (.accept i req)
  | run {i : Nat} {e : RunEvent} (r : Run) (store : Store) (p : Phase) (hservice : s.service = .serving)
      (hrun : s.runs i = some r) (huuid : ∀ uuid ∈ e.uuid?, uuid ∉ s.ids)
      (hstep : runStep w mode s.store r e = some (store, p))
      (ht : t = { s with
        store
        runs := Function.update s.runs i (some { r with phase := p })
        ids := e.uuid?.toList ++ s.ids }) : Effect w mode s t (.run i e)
  | collect {runId : RunId} (ht : t = { s with store := s.store.collect runId }) :
      Effect w mode s t (.collect runId)

theorem step_effect {w : World} {mode : Mode} {s t : Sys} {e : Event} (h : step w mode s e = some t) :
    Effect w mode s t e := by
  cases e with
  | restart names =>
    simp only [step] at h
    split at h
    · rename_i hservice
      split_ifs at h
      cases h
      exact .other (by simp) rfl (.refl _) rfl (by simp [hservice]) rfl
    · cases h
  | restartScanFails =>
    simp only [step] at h
    split at h
    · cases h
      exact .other (by simp) rfl (.refl _) rfl (fun hne => absurd rfl hne) rfl
    · cases h
  | sweepTake readable json =>
    simp only [step] at h
    split at h
    · rename_i name rest hservice
      split at h
      · rename_i o hopen
        exact .take name rest o hservice hopen (Option.some.inj h).symm
      · cases h
        exact .other (by simp) rfl (.refl _) rfl (by simp [hservice]) rfl
    · cases h
  | sweepJob je =>
    simp only [step] at h
    split at h
    · rename_i rest job hservice
      obtain ⟨⟨store, after⟩, hjob, heq⟩ := Option.map_eq_some_iff.mp h
      exact .sweepJob rest job store after hservice hjob heq.symm
    · cases h
  | serve =>
    simp only [step] at h
    split at h
    · cases h
      exact .other (by simp) rfl (.refl _) rfl (fun hne => absurd rfl hne) rfl
    · cases h
  | crash => exact .crash (Option.some.inj h).symm
  | accept i req =>
    obtain ⟨⟨hservice, hnone⟩, heq⟩ := Option.ite_none_right_eq_some.mp h
    exact .accept hservice hnone (Option.some.inj heq).symm
  | run i re =>
    simp only [step] at h
    split at h
    · rename_i r hservice hrun
      obtain ⟨huuid, heq⟩ := Option.ite_none_right_eq_some.mp h
      obtain ⟨⟨store, p⟩, hstep, heq⟩ := Option.map_eq_some_iff.mp heq
      exact .run r store p hservice hrun huuid hstep heq.symm
    · cases h
  | markCheck runId =>
    obtain ⟨-, ⟨⟩⟩ := Option.ite_none_right_eq_some.mp h
    exact .mark (by simp) rfl (.refl _) rfl rfl
  | markWrite runId now =>
    obtain ⟨-, ⟨⟩⟩ := Option.ite_none_right_eq_some.mp h
    exact .mark (by simp) rfl ⟨rfl, rfl, rfl, rfl, rfl, rfl⟩ rfl rfl
  | collect runId => exact .collect (Option.some.inj h).symm

end Lager.RunRecord
