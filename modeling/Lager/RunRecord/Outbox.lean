import Lager.RunRecord.Publication

/-!
# Records reach the outbox

In collected mode `publish_final` links the record it wrote to `final/` into the outbox, for a collector to
take. A name that exists in the outbox is left as it is, which is right only if the file there is a copy of
the same record. Apart from that and from input and output errors, a record is in the outbox when its
`publish_final` ends, or the collector has it already (`step_copied`): nobody else publishes under the id
meanwhile, as the publication still has the open record.
-/

namespace Lager.RunRecord

open Lager.Py Lager.Lib

variable {w : World} {s t : Sys} {e : Event}

/-! ### The end of a publication -/

/-- The publication an event belongs to, with the operation. -/
def Sys.operation? (s : Sys) : Event → Option (Job × JobEvent)
  | .sweepJob je => (s.job? none).map fun job => (job, je)
  | .run i (.job je) => (s.job? (some i)).map fun job => (job, je)
  | _ => none

theorem operation?_publishEvent {a : Option Nat} {job : Job} (hj : s.job? a = some job) (je : JobEvent) :
    s.operation? (publishEvent a je) = some (job, je) := by
  cases a with
  | none => exact congrArg (Option.map fun job => (job, je)) hj
  | some i => exact congrArg (Option.map fun job => (job, je)) hj

/-- `publish_final` has written its record to `final/` and has not ended. -/
def Stage.copying : Stage → Bool
  | .link | .writeOutbox | .scan | .prune _ => true
  | .writeFinal | .unlink _ => false

def After.copying : After → Bool
  | .goOn job => job.stage.copying
  | .done | .raised => false

/-- The publication whose `publish_final` ends in this step, by returning or by raising, after it has written
its record to `final/`. -/
def Sys.ending? (mode : Mode) (s : Sys) (e : Event) : Option Job :=
  (s.operation? e).bind fun (job, je) =>
    (jobStep mode s.store job je).bind fun (_, after) =>
      if job.stage.copying ∧ ¬after.copying then some job else none

/-! ### One copy for a record -/

/-- The operation does not fail, a file that is to be linked is there, and a name that is taken in the outbox
is taken by the same record. -/
def Copies (s : Store) (job : Job) (je : JobEvent) : Prop :=
  je ≠ .link .fails ∧ je ≠ .writeOutbox false ∧
    (je = .link .tried → job.record.runId ∈ s.final ∧ ∀ r ∈ s.outbox.lookup job.record.runId, r = job.record)

instance (s : Store) (job : Job) (je : JobEvent) : Decidable (Copies s job je) :=
  inferInstanceAs (Decidable (_ ∧ _ ∧ _))

/-- An open record is written only under an id that has none, and every record that is published can be
copied. -/
def CopiedOnce (s : Sys) (e : Event) : Prop :=
  FreeOpen s e ∧ ∀ p ∈ s.operation? e, Copies s.store p.1 p.2

instance (s : Sys) (e : Event) : Decidable (CopiedOnce s e) :=
  inferInstanceAs (Decidable (_ ∧ _))

/-- The record is in the outbox, or the collector has taken it from there. -/
def Store.Delivered (s : Store) (r : Record) : Prop :=
  s.outbox.lookup r.runId = some r ∨ r ∈ s.taken

structure Copied (s : Sys) : Prop where
  owned : Owned s
  linking : ∀ a job, s.job? a = some job → job.stage = .link →
    ∀ r, s.store.final.lookup job.record.runId = some r → r = job.record
  copied : ∀ a job, s.job? a = some job → (job.stage = .scan ∨ ∃ victims, job.stage = .prune victims) →
    s.store.Delivered job.record

/-- An operation of a publication changes the outbox only under its own id and only before its copy is
there. -/
theorem jobStep_outbox {mode : Mode} {s s' : Store} {job : Job} {je : JobEvent} {after : After}
    (h : jobStep mode s job je = some (s', after)) :
    s'.taken = s.taken ∧
      (s'.outbox = s.outbox ∨
        ((job.stage = .link ∧ s.outbox.lookup job.record.runId = none) ∨ job.stage = .writeOutbox) ∧
          ∃ r, s'.outbox = s.outbox.insert job.record.runId r) := by
  rcases jobStep_cases h with ⟨rfl, -⟩ | ⟨-, rfl, -⟩ | ⟨-, rfl, -⟩ | ⟨hst, hnone, ⟨r, -, rfl⟩, -⟩ | ⟨-, rfl, -⟩ |
    ⟨hst, rfl, -⟩ | ⟨-, rfl, -⟩ | ⟨v, vs, -, rfl | rfl, -⟩ | ⟨l, ls, -, rfl | rfl, -⟩
  · exact ⟨rfl, .inl rfl⟩
  · exact ⟨rfl, .inl rfl⟩
  · exact ⟨rfl, .inl rfl⟩
  · exact ⟨rfl, .inr ⟨.inl ⟨hst, hnone⟩, r, rfl⟩⟩
  · exact ⟨rfl, .inl rfl⟩
  · exact ⟨rfl, .inr ⟨.inr hst, _, rfl⟩⟩
  · exact ⟨rfl, .inl rfl⟩
  · exact ⟨rfl, .inl rfl⟩
  · exact ⟨rfl, .inl rfl⟩
  · exact ⟨rfl, .inl rfl⟩
  · cases l <;> exact ⟨rfl, .inl rfl⟩

theorem Store.Delivered.congr {s s' : Store} {r : Record} (h : s.Delivered r) (ho : s'.outbox = s.outbox)
    (ht : s'.taken = s.taken) : s'.Delivered r := by
  rw [Store.Delivered, ho, ht]
  exact h

theorem Store.Delivered.collect {s : Store} {r : Record} (h : s.Delivered r) (runId : RunId) :
    (s.collect runId).Delivered r := by
  rcases h with hlook | htaken
  · by_cases hid : r.runId = runId
    · refine .inr (List.mem_append_left _ ?_)
      rw [← hid, hlook]
      exact List.mem_singleton_self r
    · exact .inl ((AList.lookup_erase_ne hid).trans hlook)
  · exact .inr (List.mem_append_right _ htaken)

/-- A delivered record stays so, also while others publish: a name that is taken is not linked again, and a
second copy under the same id would be by the same publication. -/
theorem step_delivered (hs : Owned s) {mode : Mode} (h : Effect w mode s t e) {a : Option Nat} {job : Job}
    (hj : s.job? a = some job) (hstage : job.stage = .scan ∨ ∃ victims, job.stage = .prune victims)
    (hd : s.store.Delivered job.record) : t.store.Delivered job.record := by
  rcases h.store_cases with hfiles | ⟨i, r, id, -, -, -, -, hstore⟩ | ⟨i, r, o', c, -, -, -, -, hstore⟩ |
    ⟨b, job', je, after, -, hj', hjob⟩ | ⟨id, -, hstore⟩
  · exact hd.congr hfiles.outbox hfiles.taken
  · exact hstore ▸ hd
  · exact hstore ▸ hd
  · obtain ⟨htaken, hsame | ⟨hst, q, hinsert⟩⟩ := jobStep_outbox hjob
    · exact hd.congr hsame htaken
    · have hon : job.stage.holdsOpen = true := by
        rcases hstage with hst | ⟨victims, hst⟩ <;> rw [hst] <;> rfl
      have hon' : job'.stage.holdsOpen = true := by
        rcases hst with ⟨hst, -⟩ | hst <;> rw [hst] <;> rfl
      have hid : job.record.runId ≠ job'.record.runId := by
        intro hid
        obtain rfl := hs.actor_unique hj hj' hon hon' hid
        rw [hj] at hj'
        cases hj'
        rcases hstage with hst' | ⟨victims, hst'⟩ <;> rw [hst'] at hst <;> simp at hst
      rcases hd with hlook | hmem
      · exact .inl (by rw [hinsert, AList.lookup_insert_ne hid]; exact hlook)
      · exact .inr (htaken ▸ hmem)
  · exact hstore ▸ hd.collect id

/-- What is about to be linked is the record that was written. -/
theorem step_linking (hs : Copied s) {mode : Mode} (h : Effect w mode s t e) :
    ∀ a job, t.job? a = some job → job.stage = .link →
      ∀ r, t.store.final.lookup job.record.runId = some r → r = job.record := by
  intro a job' hj' hstage r hlook
  rcases h.job_cases hj' with hsame | ⟨hfirst, -⟩ | ⟨job, je, rfl, hj, hstep⟩
  · have hold := hs.linking a job' hsame hstage r
    rcases h.final_cases with hfinal | ⟨b, job, je, -, hj, hfirst, hfinal⟩ |
      ⟨b, ok, v, -, hfinal⟩
    · exact hold (hfinal ▸ hlook)
    · rcases lookup_of_insert hfinal hlook with ⟨hid, -⟩ | ⟨-, hlook⟩
      · -- the other one would be the same publication, which is past its first step
        obtain rfl := hs.owned.actor_unique hsame hj (by rw [hstage]; rfl) (by rw [hfirst]; rfl) hid
        rw [hsame] at hj
        cases hj
        rw [hstage] at hfirst
        cases hfirst
      · exact hold hlook
    · exact hold (lookup_of_erase hfinal hlook).2
  · rw [hstage] at hfirst
    cases hfirst
  · rcases jobStep_final hstep with ⟨-, hfinal, hafter⟩ | ⟨-, hnot⟩ | ⟨v, vs, -, -, hnot⟩
    · cases hafter
      rcases lookup_of_insert hfinal hlook with ⟨-, rfl⟩ | ⟨hne, -⟩
      · rfl
      · exact absurd rfl hne
    · exact absurd hstage (hnot job' rfl)
    · exact absurd hstage (hnot job' rfl)

/-- `os.link` was called and did not refuse, or is not tried at all. -/
theorem link_tried {mode : Mode} {s s' : Store} {job job' : Job} {je : JobEvent}
    (h : jobStep mode s job je = some (s', .goOn job')) (hst : job.stage = .link) :
    je = .link .tried ∨ job'.stage = .writeOutbox := by
  cases je with
  | link outcome =>
    cases outcome with
    | tried => exact .inl rfl
    | unsupported =>
      simp only [jobStep, hst, Option.some.injEq, Prod.mk.injEq, After.goOn.injEq] at h
      exact .inr (by rw [← h.2])
    | fails => simp [jobStep, hst] at h
  | _ => simp [jobStep, hst] at h

/-- A publication that raises although its copy can be made raises before or after the copy. -/
theorem Copies.raised {mode : Mode} {s s' : Store} {job : Job} {je : JobEvent} (hc : Copies s job je)
    (h : jobStep mode s job je = some (s', .raised)) : job.stage = .writeFinal ∨ job.stage = .scan := by
  obtain ⟨hfails, hwrite, htried⟩ := hc
  cases hst : job.stage with
  | writeFinal => exact .inl rfl
  | scan => exact .inr rfl
  | link =>
    cases je with
    | link outcome =>
      cases outcome with
      | tried =>
        obtain ⟨r, hr⟩ := Option.isSome_iff_exists.mp (AList.lookup_isSome.mpr (htried rfl).1)
        cases hlook : s.outbox.lookup job.record.runId <;> simp [jobStep, hst, hlook, hr] at h
      | unsupported => simp [jobStep, hst] at h
      | fails => exact absurd rfl hfails
    | _ => simp [jobStep, hst] at h
  | writeOutbox =>
    cases je with
    | writeOutbox ok =>
      cases ok with
      | true => simp [jobStep, hst] at h
      | false => exact absurd rfl hwrite
    | _ => simp [jobStep, hst] at h
  | prune victims =>
    cases victims with
    | nil => cases je <;> simp [jobStep, hst] at h
    | cons v vs =>
      cases je with
      | prune ok =>
        simp only [jobStep, hst] at h
        split_ifs at h <;> cases h
      | _ => simp [jobStep, hst] at h
  | unlink rest =>
    rcases jobStep_cases h with ⟨-, -, hnot⟩ | ⟨-, -, h⟩ | ⟨-, -, -, h⟩ | ⟨-, -, -, h⟩ | ⟨-, -, h⟩ | ⟨-, -, h⟩ |
      ⟨-, -, h | ⟨-, v, vs, h⟩⟩ | ⟨v, vs, -, -, h | h⟩ | ⟨l, ls, -, -, ⟨-, h⟩ | h⟩
    · exact absurd hst (hnot rest)
    all_goals cases h

/-- The step that leaves the copy behind has made it. -/
theorem jobStep_delivered {s s' : Store} {job job' : Job} {je : JobEvent}
    (h : jobStep .collected s job je = some (s', .goOn job')) (hcopies : Copies s job je)
    (hlink : job.stage = .link → ∀ r, s.final.lookup job.record.runId = some r → r = job.record)
    (hstage' : job'.stage = .scan ∨ ∃ victims, job'.stage = .prune victims) :
    job'.record = job.record ∧
      ((job.stage = .scan ∨ ∃ victims, job.stage = .prune victims) ∨ s'.Delivered job.record) := by
  rcases jobStep_cases h with ⟨-, hafter, -⟩ | ⟨-, -, hafter⟩ | ⟨hst, rfl, ⟨r, hlook⟩, hafter⟩ |
    ⟨hst, -, ⟨r, hfinal, rfl⟩, hafter⟩ | ⟨-, -, hafter⟩ | ⟨hst, rfl, hafter⟩ | ⟨hst, -, hafter⟩ |
    ⟨v, vs, hst, -, hafter⟩ | ⟨l, ls, hst, -, ⟨-, hafter⟩ | hafter⟩
  · cases hafter
  · cases hafter
    simp at hstage'
  · cases hafter
    obtain rfl | hst' := link_tried h hst
    · obtain rfl := (hcopies.2.2 rfl).2 r hlook
      exact ⟨rfl, .inr (.inl hlook)⟩
    · cases hst'
  · cases hafter
    obtain rfl := hlink hst r hfinal
    exact ⟨rfl, .inr (.inl (AList.lookup_insert _))⟩
  · cases hafter
    simp at hstage'
  · cases hafter
    exact ⟨rfl, .inr (.inl (AList.lookup_insert _))⟩
  · exact ⟨(jobStep_written h).2 job' rfl |>.1, .inl (.inl hst)⟩
  · exact ⟨(jobStep_written h).2 job' rfl |>.1, .inl (.inr ⟨_, hst⟩)⟩
  · cases hafter
  · cases hafter
    simp at hstage'

theorem step_copied (hs : Copied s) (hok : CopiedOnce s e) (h : step w .collected s e = some t) : Copied t := by
  have heff := step_effect h
  refine ⟨step_owned hs.owned hok.1 h, step_linking hs heff, fun a job' hj' hstage => ?_⟩
  rcases heff.job_cases hj' with hsame | ⟨hfirst, -⟩ | ⟨job, je, rfl, hj, hstep⟩
  · exact step_delivered hs.owned heff hsame hstage (hs.copied a job' hsame hstage)
  · rw [hfirst] at hstage
    simp at hstage
  · have hcopies := hok.2 _ (operation?_publishEvent hj je)
    obtain ⟨hrec, hbefore | hnow⟩ := jobStep_delivered hstep hcopies (hs.linking a job hj) hstage
    · rw [hrec]
      exact step_delivered hs.owned heff hj hbefore (hs.copied a job hj hbefore)
    · rw [hrec]
      exact hnow

theorem copied_init : Copied Sys.init := by
  refine ⟨owned_init, ?_, ?_⟩
  · rintro (_ | i) job hj
    · cases hj
    · cases hj
  · rintro (_ | i) job hj
    · cases hj
    · cases hj

theorem run_copied {es : List Event} (hok : Along (step w .collected) CopiedOnce Sys.init es)
    (hrun : run (step w .collected) Sys.init es = some t) : Copied t :=
  run_invariant Copied (fun _ _ _ hok hs h => step_copied hs hok h) hok copied_init hrun

/-- The publication that ends is one that an actor is at, and the step is its own. -/
theorem ending?_eq_some {mode : Mode} {job : Job} (h : s.ending? mode e = some job) :
    ∃ a je s' after, e = publishEvent a je ∧ s.job? a = some job ∧
      jobStep mode s.store job je = some (s', after) ∧ job.stage.copying = true ∧ after.copying = false := by
  obtain ⟨⟨job', je⟩, hop, h⟩ := Option.bind_eq_some_iff.mp h
  obtain ⟨⟨s', after⟩, hstep, h⟩ := Option.bind_eq_some_iff.mp h
  obtain ⟨⟨hcopy, hend⟩, heq⟩ := Option.ite_none_right_eq_some.mp h
  cases heq
  have hfalse : after.copying = false := by simpa using hend
  have hactor : ∃ a, e = publishEvent a je ∧ s.job? a = some job := by
    cases e with
    | sweepJob je' =>
      obtain ⟨j, hj, heq⟩ := Option.map_eq_some_iff.mp hop
      cases heq
      exact ⟨none, rfl, hj⟩
    | run i re =>
      cases re with
      | job je' =>
        obtain ⟨j, hj, heq⟩ := Option.map_eq_some_iff.mp hop
        cases heq
        exact ⟨some i, rfl, hj⟩
      | _ => cases hop
    | _ => cases hop
  obtain ⟨a, he, hj⟩ := hactor
  exact ⟨a, je, s', after, he, hj, hstep, hcopy, hfalse⟩

/-- `publish_final` ends in `_prune_final`. -/
theorem ending_stage {s s' : Store} {job : Job} {je : JobEvent} {after : After}
    (h : jobStep .collected s job je = some (s', after)) (hc : Copies s job je) (hcopy : job.stage.copying = true)
    (hend : after.copying = false) : job.stage = .scan ∨ ∃ victims, job.stage = .prune victims := by
  cases after with
  | raised =>
    rcases hc.raised h with hst | hst
    · rw [hst] at hcopy
      cases hcopy
    · exact .inl hst
  | done =>
    obtain ⟨rest, hst⟩ := jobStep_done h
    rw [hst] at hcopy
    cases hcopy
  | goOn job' =>
    rcases jobStep_cases h with ⟨-, h, -⟩ | ⟨hst, -⟩ | ⟨-, -, -, h⟩ | ⟨-, -, -, h⟩ | ⟨-, -, h⟩ | ⟨-, -, h⟩ |
      ⟨hst, -⟩ | ⟨v, vs, hst, -⟩ | ⟨l, ls, hst, -⟩
    · cases h
    · rw [hst] at hcopy
      cases hcopy
    · cases h
      cases hend
    · cases h
      cases hend
    · cases h
      cases hend
    · cases h
      cases hend
    · exact .inl hst
    · exact .inr ⟨_, hst⟩
    · rw [hst] at hcopy
      cases hcopy

/-- **Collected mode loses no record.** In every run in collected mode, with any crashes, sweeps, pruning and
a collector that takes records at any point: if open records are only written under ids that have none, and a
name that is taken in the outbox when a record is linked there is taken by the same record, and the outbox can
be written, then every record that `publish_final` wrote to `final/` is in the outbox when that
`publish_final` ends, or the collector has taken it from there. -/
theorem outbox_has_record (w : World) (es : List Event) (e : Event) (s t : Sys) (job : Job)
    (hrun : run (step w .collected) Sys.init es = some s) (hstep : step w .collected s e = some t)
    (hok : Along (step w .collected) CopiedOnce Sys.init (es ++ [e])) (hend : s.ending? .collected e = some job) :
    t.store.outbox.lookup job.record.runId = some job.record ∨ job.record ∈ t.store.taken := by
  obtain ⟨hes, hlast, -⟩ := hok.append hrun
  have hs := run_copied hes hrun
  obtain ⟨a, je, s', after, rfl, hj, hjob, hcopy, hafter⟩ := ending?_eq_some hend
  have hstage := ending_stage hjob (hlast.2 _ (operation?_publishEvent hj je)) hcopy hafter
  exact step_delivered hs.owned (step_effect hstep) hj hstage (hs.copied a job hj hstage)

/-- A publication up to its last operation, with a collector that is faster. -/
def collectedEarly : List Event :=
  [.restart [], .serve] ++ beginRun 0 (scriptRequest "r0") ++ finalizeRun 0 ++
    [.run 0 (.job (.link .tried)), .collect "r0"]

theorem outbox_has_record_collectedEarly :
    ∃ s t job, run (step sampleWorld .collected) Sys.init collectedEarly = some s ∧
      step sampleWorld .collected s (.run 0 (.job (.scan (some [])))) = some t ∧
      s.ending? .collected (.run 0 (.job (.scan (some [])))) = some job ∧
      (t.store.outbox.lookup job.record.runId = some job.record ∨ job.record ∈ t.store.taken) := by
  have hruns : ((run (step sampleWorld .collected) Sys.init collectedEarly).bind fun s =>
      (step sampleWorld .collected s (.run 0 (.job (.scan (some []))))).bind fun _ =>
        s.ending? .collected (.run 0 (.job (.scan (some []))))).isSome = true := by decide +kernel
  obtain ⟨job, hjob⟩ := Option.isSome_iff_exists.mp hruns
  obtain ⟨s, hs, h⟩ := Option.bind_eq_some_iff.mp hjob
  obtain ⟨t, ht, hend⟩ := Option.bind_eq_some_iff.mp h
  exact ⟨s, t, job, hs, ht, hend, outbox_has_record _ _ _ s t job hs ht (by decide +kernel) hend⟩

/-- Two runs under one id, both published; the second record finds the first in the outbox. -/
def racingPublished : List Event :=
  racingBegins ++ finalizeRun 1 ++ collectRun 1 ++ finalizeRun 0 ++ [.run 0 (.job (.link .tried))]

theorem outbox_lacks_record_racingPublished :
    ¬ ∀ (w : World) (es : List Event) (e : Event) (s t : Sys) (job : Job),
        run (step w .collected) Sys.init es = some s → step w .collected s e = some t →
        s.ending? .collected e = some job →
        t.store.outbox.lookup job.record.runId = some job.record ∨ job.record ∈ t.store.taken := by
  intro h
  have hruns : ((run (step sampleWorld .collected) Sys.init racingPublished).bind fun s =>
      (step sampleWorld .collected s (.run 0 (.job (.scan (some []))))).bind fun t =>
        (s.ending? .collected (.run 0 (.job (.scan (some []))))).map fun job =>
          decide (t.store.outbox.lookup job.record.runId = some job.record ∨ job.record ∈ t.store.taken)) =
      some false := by decide +kernel
  obtain ⟨s, hs, hruns⟩ := Option.bind_eq_some_iff.mp hruns
  obtain ⟨t, ht, hruns⟩ := Option.bind_eq_some_iff.mp hruns
  obtain ⟨job, hend, hfalse⟩ := Option.map_eq_some_iff.mp hruns
  exact of_decide_eq_false hfalse (h _ _ _ s t job hs ht hend)

end Lager.RunRecord
