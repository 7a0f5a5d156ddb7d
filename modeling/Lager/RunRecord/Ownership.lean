import Lager.RunRecord.Effect

/-!
# Numbers and open records

Two facts about every run of the store. A sequence number is handed to one run only, whatever fails or
crashes (`run_numbered`). And as long as an open record is only written under an id that has none, a run's
open record stays where it is, and stays the run's own, until the run has published and removes it
(`run_owned`).
-/

namespace Lager.RunRecord

open Lager.Py Lager.Lib

variable {w : World} {mode : Mode} {s t : Sys} {e : Event}

/-! ### Where a run comes from -/

theorem update_eq_some {f : Nat → Option Run} {i j : Nat} {q r : Run}
    (h : Function.update f j (some r) i = some q) : (i = j ∧ q = r) ∨ (i ≠ j ∧ f i = some q) := by
  by_cases hij : i = j
  · subst hij
    rw [Function.update_self] at h
    exact .inl ⟨rfl, (Option.some.inj h).symm⟩
  · rw [Function.update_of_ne hij] at h
    exact .inr ⟨hij, h⟩

/-- A run of the next state is the same run of the state before, untouched, killed or moved on, or it was
just accepted. -/
theorem Effect.run_cases (h : Effect w mode s t e) {i : Nat} {r' : Run} (hr : t.runs i = some r') :
    s.runs i = some r' ∨ (∃ r, s.runs i = some r ∧ r' = r.kill ∧ e = .crash) ∨
    (∃ req, r' = ⟨req, .accepted⟩ ∧ s.runs i = none) ∨
    (∃ r re p, e = .run i re ∧ s.runs i = some r ∧ runStep w mode s.store r re = some (t.store, p) ∧
      r' = { r with phase := p }) := by
  cases h with
  | other hev hruns hfiles hids hservice hjob => exact .inl (hruns ▸ hr)
  | mark hev hruns => exact .inl (hruns ▸ hr)
  | take name rest o hservice hopen ht =>
    subst ht
    exact .inl hr
  | sweepJob rest job store after hservice hjob ht =>
    subst ht
    exact .inl hr
  | crash ht =>
    subst ht
    obtain ⟨r, hr₀, rfl⟩ := Option.map_eq_some_iff.mp hr
    exact .inr (.inl ⟨r, hr₀, rfl, rfl⟩)
  | @accept j req hservice hnone ht =>
    subst ht
    rcases update_eq_some hr with ⟨rfl, rfl⟩ | ⟨-, hr⟩
    · exact .inr (.inr (.inl ⟨req, rfl, hnone⟩))
    · exact .inl hr
  | @run j re r store p hservice hrun huuid hstep ht =>
    subst ht
    rcases update_eq_some hr with ⟨rfl, rfl⟩ | ⟨-, hr⟩
    · exact .inr (.inr (.inr ⟨r, re, p, rfl, hrun, hstep, rfl⟩))
    · exact .inl hr
  | collect ht =>
    subst ht
    exact .inl hr

/-- No run is forgotten. -/
theorem Effect.run_next (h : Effect w mode s t e) {i : Nat} {r : Run} (hr : s.runs i = some r) :
    ∃ r', t.runs i = some r' ∧ (r' = r ∨ r' = r.kill ∨
      ∃ re p, e = .run i re ∧ runStep w mode s.store r re = some (t.store, p) ∧ r' = { r with phase := p }) := by
  cases h with
  | other hev hruns => exact ⟨r, by rw [hruns, hr], .inl rfl⟩
  | mark hev hruns => exact ⟨r, by rw [hruns, hr], .inl rfl⟩
  | take name rest o hservice hopen ht => exact ⟨r, by rw [ht, hr], .inl rfl⟩
  | sweepJob rest job store after hservice hjob ht => exact ⟨r, by rw [ht, hr], .inl rfl⟩
  | crash ht =>
    subst ht
    exact ⟨r.kill, congrArg (Option.map Run.kill) hr, .inr (.inl rfl)⟩
  | @accept j req hservice hnone ht =>
    have hij : i ≠ j := by
      rintro rfl
      rw [hnone] at hr
      cases hr
    exact ⟨r, by rw [ht, ← hr]; exact Function.update_of_ne hij _ _, .inl rfl⟩
  | @run j re r₀ store p hservice hrun huuid hstep ht =>
    by_cases hij : i = j
    · subst hij
      rw [hrun] at hr
      cases hr
      subst ht
      exact ⟨{ r with phase := p }, Function.update_self _ _ _, .inr (.inr ⟨re, p, rfl, hstep, rfl⟩)⟩
    · exact ⟨r, by rw [ht, ← hr]; exact Function.update_of_ne hij _ _, .inl rfl⟩
  | collect ht => exact ⟨r, by rw [ht, hr], .inl rfl⟩

/-! ### Sequence numbers -/

theorem number_of_capturing {p : Phase} {o : OpenRecord} (h : p.capturing = some o) :
    p.number = some o.record.boxSequence := by
  cases p <;> cases h <;> rfl

theorem opened_of_capturing {p : Phase} {o : OpenRecord} (h : p.capturing = some o) : p.opened = some o := by
  cases p <;> cases h <;> rfl

theorem publishingPhase_number (o : OpenRecord) (after : After) :
    (publishingPhase o after).number = some o.record.boxSequence := by
  cases after <;> rfl

theorem publishingPhase_opened (o : OpenRecord) (after : After) : (publishingPhase o after).opened = some o := by
  cases after <;> rfl

theorem Store.unlink_sequence (s : Store) (runId : RunId) (l : Leftover) :
    (s.unlink runId l).sequence = s.sequence := by
  cases l <;> rfl

theorem jobStep_sequence {s s' : Store} {job : Job} {je : JobEvent} {after : After}
    (h : jobStep mode s job je = some (s', after)) : s'.sequence = s.sequence := by
  rcases jobStep_cases h with ⟨rfl, -⟩ | ⟨-, rfl, -⟩ | ⟨-, rfl, -⟩ | ⟨-, -, ⟨r, -, rfl⟩, -⟩ | ⟨-, rfl, -⟩ |
    ⟨-, rfl, -⟩ | ⟨-, rfl, -⟩ | ⟨v, vs, -, rfl | rfl, -⟩ | ⟨l, ls, -, rfl | rfl, -⟩
  all_goals first | rfl | exact s.unlink_sequence _ _

/-- A run keeps its number, or is handed the next one. -/
theorem runStep_number {s s' : Store} {r : Run} {re : RunEvent} {p : Phase}
    (h : runStep w mode s r re = some (s', p)) :
    (s'.sequence = s.sequence ∧ p.number = r.phase.number) ∨
      (re = .bump true ∧ s'.sequence = s.sequence + 1 ∧ r.phase.number = none ∧
        p.number = some (s.sequence + 1)) := by
  rcases runStep_cases h with ⟨hfiles, -, -, hnum⟩ | ⟨runId, rfl, hphase, rfl, rfl⟩ | ⟨o, c, -, hphase, rfl, rfl⟩ |
    ⟨o, hfiles, hcap, hnext⟩ | ⟨o, job, je, after, -, hphase, hjob, rfl⟩
  · exact .inl ⟨hfiles.sequence, hnum⟩
  · exact .inr ⟨rfl, rfl, by rw [hphase]; rfl, rfl⟩
  · exact .inl ⟨rfl, by rw [hphase]; rfl⟩
  · refine .inl ⟨hfiles.sequence, ?_⟩
    rw [number_of_capturing hcap]
    rcases hnext with hcap' | rfl | ⟨job, rfl, -⟩
    · exact number_of_capturing hcap'
    · rfl
    · rfl
  · exact .inl ⟨jobStep_sequence hjob, by rw [publishingPhase_number, hphase]; rfl⟩

theorem Effect.sequence_le (h : Effect w mode s t e) : s.store.sequence ≤ t.store.sequence := by
  cases h with
  | other hev hruns hfiles => rw [hfiles.sequence]
  | mark hev hruns hfiles => rw [hfiles.sequence]
  | take name rest o hservice hopen ht => rw [ht]
  | sweepJob rest job store after hservice hjob ht => rw [ht]; exact (jobStep_sequence hjob).ge
  | crash ht => rw [ht]
  | accept hservice hnone ht => rw [ht]
  | run r store p hservice hrun huuid hstep ht =>
    rw [ht]
    rcases runStep_number hstep with ⟨hseq, -⟩ | ⟨-, hseq, -⟩
    · exact hseq.ge
    · exact hseq ▸ Nat.le_succ _
  | collect ht => exact ht ▸ Nat.le_refl s.store.sequence

/-- A number of the next state is a number of the same run before, or the next one. -/
theorem Effect.number_cases (h : Effect w mode s t e) {i : Nat} {r' : Run} {n : Nat} (hr : t.runs i = some r')
    (hn : r'.phase.number = some n) :
    (∃ r, s.runs i = some r ∧ r.phase.number = some n) ∨
      (n = s.store.sequence + 1 ∧ t.store.sequence = s.store.sequence + 1 ∧ e = .run i (.bump true)) := by
  rcases h.run_cases hr with hsame | ⟨r, hr₀, rfl, -⟩ | ⟨req, rfl, -⟩ | ⟨r, re, p, rfl, hr₀, hstep, rfl⟩
  · exact .inl ⟨r', hsame, hn⟩
  · exact .inl ⟨r, hr₀, hn⟩
  · cases hn
  · rcases runStep_number hstep with ⟨-, hnum⟩ | ⟨rfl, hseq, -, hnum⟩
    · exact .inl ⟨r, hr₀, hnum ▸ hn⟩
    · exact .inr ⟨Option.some.inj (hn.symm.trans hnum), hseq, rfl⟩

/-- Numbers run from 1 to the one last handed out, and no two runs have the same. -/
structure Numbered (s : Sys) : Prop where
  range : ∀ i r n, s.runs i = some r → r.phase.number = some n → 1 ≤ n ∧ n ≤ s.store.sequence
  inj : ∀ i j r r' n, s.runs i = some r → s.runs j = some r' → r.phase.number = some n →
    r'.phase.number = some n → i = j
  opened : ∀ i r o, s.runs i = some r → r.phase.opened = some o → r.phase.number = some o.record.boxSequence

theorem opened_number {s s' : Store} {r : Run} {re : RunEvent} {p : Phase} {o : OpenRecord}
    (h : runStep w mode s r re = some (s', p)) (hopen : p.opened = some o) :
    p.number = some o.record.boxSequence := by
  rcases runStep_cases h with ⟨-, -, hnone, -⟩ | ⟨runId, -, -, -, rfl⟩ | ⟨o', c, -, -, -, rfl⟩ |
    ⟨o', -, -, hnext⟩ | ⟨o', job, je, after, -, -, -, rfl⟩
  · rw [hnone] at hopen
    cases hopen
  · cases hopen
  · cases hopen
    rfl
  · rcases hnext with hcap' | rfl | ⟨job, rfl, -⟩
    · rw [opened_of_capturing hcap'] at hopen
      cases hopen
      exact number_of_capturing hcap'
    · cases hopen
      rfl
    · cases hopen
      rfl
  · rw [publishingPhase_opened] at hopen
    cases hopen
    exact publishingPhase_number _ _

/-- An open record, once written, is the run's for good. -/
theorem runStep_opened {s s' : Store} {r : Run} {re : RunEvent} {p : Phase}
    (h : runStep w mode s r re = some (s', p)) (o : OpenRecord) :
    p.opened = some o ↔ r.phase.opened = some o ∨ ∃ c, re = .persist true ∧ r.phase = .persist o c := by
  rcases runStep_cases h with ⟨-, hnone, hnone', -⟩ | ⟨runId, -, hphase, -, rfl⟩ | ⟨o', c, rfl, hphase, -, rfl⟩ |
    ⟨o', -, hcap, hnext⟩ | ⟨o', job, je, after, rfl, hphase, -, rfl⟩
  · rw [hnone, hnone']
    refine ⟨(fun ho => by cases ho), ?_⟩
    rintro (ho | ⟨c, rfl, hphase⟩)
    · cases ho
    · rw [runStep, hphase] at h
      cases h
      cases hnone'
  · rw [hphase]
    refine ⟨(fun ho => by cases ho), ?_⟩
    rintro (ho | ⟨c, -, hp⟩)
    · cases ho
    · cases hp
  · rw [hphase]
    constructor
    · rintro ⟨⟩
      exact .inr ⟨c, rfl, rfl⟩
    · rintro (ho | ⟨c', -, hp⟩)
      · cases ho
      · cases hp
        rfl
  · have hsame : p.opened = some o' := by
      rcases hnext with hcap' | rfl | ⟨job, rfl, -⟩
      · exact opened_of_capturing hcap'
      · rfl
      · rfl
    rw [hsame, opened_of_capturing hcap]
    refine ⟨.inl, ?_⟩
    rintro (ho | ⟨c, -, hp⟩)
    · exact ho
    · rw [hp] at hcap
      cases hcap
  · rw [publishingPhase_opened, hphase]
    refine ⟨.inl, ?_⟩
    rintro (ho | ⟨c, hev, -⟩)
    · exact ho
    · cases hev

theorem numbered_init : Numbered Sys.init := by
  refine ⟨?_, ?_, ?_⟩ <;> · intros; contradiction

theorem step_numbered (hs : Numbered s) (h : step w mode s e = some t) : Numbered t := by
  have heff := step_effect h
  have hle := heff.sequence_le
  refine ⟨?_, ?_, ?_⟩
  · intro i r' n hr hn
    rcases heff.number_cases hr hn with ⟨r, hr₀, hn₀⟩ | ⟨rfl, hseq, -⟩
    · have := hs.range i r n hr₀ hn₀
      omega
    · omega
  · intro i j r r' n hr hr' hn hn'
    rcases heff.number_cases hr hn with ⟨q, hq, hqn⟩ | ⟨hnew, -, rfl⟩ <;>
      rcases heff.number_cases hr' hn' with ⟨q', hq', hqn'⟩ | ⟨hnew', -, hev⟩
    · exact hs.inj i j q q' n hq hq' hqn hqn'
    · have := hs.range i q n hq hqn
      omega
    · have := hs.range j q' n hq' hqn'
      omega
    · cases hev
      rfl
  · intro i r' o hr hopen
    rcases heff.run_cases hr with hsame | ⟨r, hr₀, rfl, -⟩ | ⟨req, rfl, -⟩ | ⟨r, re, p, -, hr₀, hstep, rfl⟩
    · exact hs.opened i r' o hsame hopen
    · exact hs.opened i r o hr₀ hopen
    · cases hopen
    · exact opened_number hstep hopen

theorem run_numbered {es : List Event} (hrun : run (step w mode) Sys.init es = some t) : Numbered t :=
  run_preserves Numbered (fun _ _ _ hs h => step_numbered hs h) numbered_init hrun

/-- The step of a run, by its event. -/
theorem Effect.of_run {i : Nat} {re : RunEvent} (h : Effect w mode s t (.run i re)) :
    ∃ r p, s.service = .serving ∧ s.runs i = some r ∧ runStep w mode s.store r re = some (t.store, p) ∧
      t.runs i = some { r with phase := p } := by
  cases h with
  | other hev => exact absurd rfl (hev i re)
  | mark hev => exact absurd rfl (hev i re)
  | run r store p hservice hrun huuid hstep ht =>
    subst ht
    exact ⟨r, p, hservice, hrun, hstep, Function.update_self _ _ _⟩

/-! ### A publication and the open record -/

/-- The open record has still to be removed. -/
def Stage.holdsOpen : Stage → Bool
  | .unlink rest => decide (.json ∈ rest)
  | _ => true

def After.holdsOpen : After → Bool
  | .goOn job => job.stage.holdsOpen
  | .done | .raised => false

/-- The open record is the first of the files that are removed. -/
structure Job.Shaped (job : Job) : Prop where
  leftovers : ∃ others, job.leftovers = .json :: others ∧ .json ∉ others
  rest : ∀ rest, job.stage = .unlink rest → rest <:+ job.leftovers

theorem Job.Shaped.tail_notMem {job : Job} (h : job.Shaped) {l : Leftover} {ls : List Leftover}
    (hstage : job.stage = .unlink (l :: ls)) : .json ∉ ls := by
  obtain ⟨others, hleft, hnot⟩ := h.leftovers
  obtain ⟨front, hfront⟩ := h.rest _ hstage
  rw [hleft] at hfront
  cases front with
  | nil =>
    cases hfront
    exact hnot
  | cons x front =>
    obtain ⟨-, rfl⟩ := List.cons.inj hfront
    exact fun hmem => hnot (List.mem_append_right _ (List.mem_cons_of_mem _ hmem))

theorem jobStep_goOn {s s' : Store} {job job' : Job} {je : JobEvent}
    (h : jobStep mode s job je = some (s', .goOn job')) (hshape : job.Shaped) :
    job'.record = job.record ∧ job'.file = job.file ∧ job'.leftovers = job.leftovers ∧ job'.Shaped := by
  have hkeep : ∀ stage, (∀ rest, stage = .unlink rest → rest <:+ job.leftovers) →
      ({ job with stage } : Job).Shaped := fun stage hrest => ⟨hshape.leftovers, hrest⟩
  have hreturned : ∀ job', job.returned = .goOn job' →
      job'.record = job.record ∧ job'.file = job.file ∧ job'.leftovers = job.leftovers ∧ job'.Shaped := by
    rintro job' ⟨⟩
    refine ⟨rfl, rfl, rfl, hkeep _ ?_⟩
    rintro rest ⟨⟩
    exact List.suffix_refl _
  rcases jobStep_cases h with ⟨-, hafter, -⟩ | ⟨-, -, hafter⟩ | ⟨-, -, -, hafter⟩ | ⟨-, -, -, hafter⟩ |
    ⟨-, -, hafter⟩ | ⟨-, -, hafter⟩ | ⟨-, -, hafter | ⟨-, v, vs, hafter⟩⟩ | ⟨v, vs, -, -, hafter | hafter⟩ |
    ⟨l, ls, hstage, -, ⟨-, hafter⟩ | hafter⟩
  · cases hafter
  · cases hafter
    exact ⟨rfl, rfl, rfl, hkeep _ (by intro rest; split_ifs <;> simp)⟩
  · cases hafter
    exact ⟨rfl, rfl, rfl, hkeep _ (by simp)⟩
  · cases hafter
    exact ⟨rfl, rfl, rfl, hkeep _ (by simp)⟩
  · cases hafter
    exact ⟨rfl, rfl, rfl, hkeep _ (by simp)⟩
  · cases hafter
    exact ⟨rfl, rfl, rfl, hkeep _ (by simp)⟩
  · exact hreturned job' hafter.symm
  · cases hafter
    exact ⟨rfl, rfl, rfl, hkeep _ (by simp)⟩
  · exact hreturned job' hafter.symm
  · cases hafter
    exact ⟨rfl, rfl, rfl, hkeep _ (by simp)⟩
  · cases hafter
  · cases hafter
    refine ⟨rfl, rfl, rfl, hkeep _ ?_⟩
    rintro rest ⟨⟩
    exact (List.suffix_cons l ls).trans (hshape.rest _ hstage)

/-- A publication leaves the open records alone until it removes its own, and then holds it no more. -/
theorem jobStep_opens {s s' : Store} {job : Job} {je : JobEvent} {after : After}
    (h : jobStep mode s job je = some (s', after)) (hshape : job.Shaped) :
    (after.holdsOpen → job.stage.holdsOpen) ∧
      (s'.opens = s.opens ∨
        s'.opens = s.opens.erase job.file ∧ job.stage.holdsOpen = true ∧ after.holdsOpen = false ∧
          (∃ rest, job.stage = .unlink rest)) := by
  by_cases hunlink : ∃ l ls, job.stage = .unlink (l :: ls)
  · obtain ⟨l, ls, hstage⟩ := hunlink
    have hnot := hshape.tail_notMem hstage
    rcases jobStep_cases h with ⟨-, -, hst⟩ | ⟨hst, -⟩ | ⟨hst, -⟩ | ⟨hst, -⟩ | ⟨hst, -⟩ | ⟨hst, -⟩ | ⟨hst, -⟩ |
      ⟨v, vs, hst, -⟩ | ⟨l', ls', hst, hs', hafter⟩
    · exact absurd hstage (hst _)
    all_goals rw [hstage] at hst
    all_goals cases hst
    have hfalse : after.holdsOpen = false := by
      rcases hafter with ⟨-, rfl⟩ | rfl
      · rfl
      · simp [After.holdsOpen, Stage.holdsOpen, hnot]
    refine ⟨by simp [hfalse], ?_⟩
    rcases hs' with rfl | rfl
    · exact .inl rfl
    · cases l with
      | json => exact .inr ⟨rfl, by simp [hstage, Stage.holdsOpen], hfalse, _, hstage⟩
      | log => exact .inl rfl
      | cancel => exact .inl rfl
      | script => exact .inl rfl
  · rcases jobStep_cases h with ⟨rfl, rfl, -⟩ | ⟨hst, rfl, -⟩ | ⟨hst, rfl, -⟩ | ⟨hst, -, ⟨r, -, rfl⟩, -⟩ |
      ⟨hst, rfl, -⟩ | ⟨hst, rfl, -⟩ | ⟨hst, rfl, -⟩ | ⟨v, vs, hst, rfl | rfl, -⟩ | ⟨l, ls, hst, -⟩
    · exact ⟨by simp [After.holdsOpen], .inl rfl⟩
    all_goals try exact ⟨fun _ => by rw [hst]; rfl, .inl rfl⟩
    exact absurd ⟨l, ls, hst⟩ hunlink

/-! ### Open records and their runs -/

/-- The open record the run has in `open/`. -/
def Phase.holds : Phase → Option OpenRecord
  | .publishing o job => if job.stage.holdsOpen then some o else none
  | p => p.capturing

def Phase.persisting? : Phase → Option OpenRecord
  | .persist o _ => some o
  | _ => none

def Phase.isDead : Phase → Bool
  | .dead _ _ => true
  | _ => false

theorem holds_of_capturing {p : Phase} {o : OpenRecord} (h : p.capturing = some o) : p.holds = some o := by
  cases p <;> cases h <;> rfl

theorem opened_of_holds {p : Phase} {o : OpenRecord} (h : p.holds = some o) : p.opened = some o := by
  cases p with
  | publishing o' job =>
    simp only [Phase.holds] at h
    split_ifs at h
    exact h
  | running | closing | assembling => exact h
  | _ => cases h

theorem holds_publishingPhase (o : OpenRecord) (after : After) :
    (publishingPhase o after).holds = if after.holdsOpen then some o else none := by
  cases after <;> rfl

theorem not_holds_of_isDead {p : Phase} (h : p.isDead = true) : p.holds = none := by
  cases p <;> first | rfl | cases h

theorem shaped_of_jobOf {o : OpenRecord} {job : Job} (h : JobOf o job) (hstage : job.stage = .writeFinal) :
    job.Shaped :=
  ⟨⟨[.cancel, .script], h.leftovers, by simp⟩, by simp [hstage]⟩

/-- A run writes its open record, removes the one it holds, or leaves the open records alone. -/
theorem runStep_holds {s s' : Store} {r : Run} {re : RunEvent} {p : Phase}
    (h : runStep w mode s r re = some (s', p))
    (hjob : ∀ o job, r.phase = .publishing o job → JobOf o job ∧ job.Shaped) :
    (s'.opens = s.opens ∧ ∀ o, p.holds = some o → r.phase.holds = some o) ∨
      (∃ o c, re = .persist true ∧ r.phase = .persist o c ∧ s'.opens = s.opens.insert o.record.runId o ∧
        p.holds = some o) ∨
      (∃ o, r.phase.holds = some o ∧ s'.opens = s.opens.erase o.record.runId ∧ p.holds = none) := by
  rcases runStep_cases h with ⟨hfiles, -, hnone, -⟩ | ⟨runId, -, hphase, rfl, rfl⟩ | ⟨o, c, rfl, hphase, rfl, rfl⟩ |
    ⟨o, hfiles, hcap, hnext⟩ | ⟨o, job, je, after, -, hphase, hstep, rfl⟩
  · refine .inl ⟨hfiles.opens, fun o ho => ?_⟩
    rw [opened_of_holds ho] at hnone
    cases hnone
  · exact .inl ⟨rfl, fun o ho => by cases ho⟩
  · exact .inr (.inl ⟨o, c, rfl, hphase, rfl, rfl⟩)
  · refine .inl ⟨hfiles.opens, fun o' ho' => ?_⟩
    have hsame : p.opened = some o := by
      rcases hnext with hcap' | rfl | ⟨job, rfl, -⟩
      · exact opened_of_capturing hcap'
      · rfl
      · rfl
    rw [opened_of_holds ho'] at hsame
    cases hsame
    exact holds_of_capturing hcap
  · obtain ⟨hof, hshape⟩ := hjob o job hphase
    obtain ⟨hholds, hopens⟩ := jobStep_opens hstep hshape
    rw [holds_publishingPhase, hphase, Phase.holds]
    rcases hopens with hsame | ⟨herase, hbefore, hafter, -⟩
    · refine .inl ⟨hsame, fun o' ho' => ?_⟩
      split_ifs at ho' with hon
      rw [if_pos (hholds hon)]
      exact ho'
    · rw [hof.file] at herase
      exact .inr (.inr ⟨o, if_pos hbefore, herase, by rw [hafter]; rfl⟩)

/-- What a run publishes after a step is its own record. -/
theorem runStep_job {s s' : Store} {r : Run} {re : RunEvent} {p : Phase}
    (h : runStep w mode s r re = some (s', p))
    (hjob : ∀ o job, r.phase = .publishing o job → JobOf o job ∧ job.Shaped) {o : OpenRecord} {job : Job}
    (hp : p = .publishing o job) : JobOf o job ∧ job.Shaped := by
  subst hp
  rcases runStep_cases h with ⟨-, -, hnone, -⟩ | ⟨runId, -, -, -, hphase⟩ | ⟨o', c, -, -, -, hphase⟩ |
    ⟨o', -, -, hcap | hphase | ⟨job', hphase, hof, hstage⟩⟩ | ⟨o', job', je, after, -, hphase, hstep, hafter⟩
  · cases hnone
  · cases hphase
  · cases hphase
  · cases hcap
  · cases hphase
  · cases hphase
    exact ⟨hof, shaped_of_jobOf hof hstage⟩
  · obtain ⟨hof, hshape⟩ := hjob o' job' hphase
    cases after with
    | goOn job'' =>
      cases hafter
      obtain ⟨hrec, hfile, hleft, hshape'⟩ := jobStep_goOn hstep hshape
      exact ⟨⟨hrec ▸ hof.runId, hrec ▸ hof.boxSequence, hfile ▸ hof.file, hleft ▸ hof.leftovers⟩, hshape'⟩
    | done => cases hafter
    | raised => cases hafter

/-- The open record that is written in this step. -/
def Sys.opening? (s : Sys) : Event → Option OpenRecord
  | .run i (.persist true) => (s.runs i).bind fun r => r.phase.persisting?
  | _ => none

theorem opening?_persist {i : Nat} {r : Run} {o : OpenRecord} {c : LogCapture} (hr : s.runs i = some r)
    (hphase : r.phase = .persist o c) : o ∈ s.opening? (.run i (.persist true)) := by
  rw [Sys.opening?, hr, Option.bind_some, hphase]
  rfl

/-- An open record, once written, is the run's in every later state. -/
theorem Effect.opened_next (h : Effect w mode s t e) {i : Nat} {r : Run} {o : OpenRecord}
    (hr : s.runs i = some r) (ho : r.phase.opened = some o) :
    ∃ r', t.runs i = some r' ∧ r'.phase.opened = some o := by
  obtain ⟨r', hr', rfl | rfl | ⟨re, p, -, hstep, rfl⟩⟩ := h.run_next hr
  · exact ⟨r', hr', ho⟩
  · exact ⟨_, hr', ho⟩
  · exact ⟨_, hr', (runStep_opened hstep o).mpr (.inl ho)⟩

/-- A run that has an open record after a step had it before, or wrote it in this step. -/
theorem Effect.opened_cases (h : Effect w mode s t e) {i : Nat} {r' : Run} {o : OpenRecord}
    (hr' : t.runs i = some r') (ho : r'.phase.opened = some o) :
    (∃ r, s.runs i = some r ∧ r.phase.opened = some o) ∨
      (e = .run i (.persist true) ∧ s.opening? e = some o ∧
        t.store.opens = s.store.opens.insert o.record.runId o) := by
  rcases h.run_cases hr' with hsame | ⟨r, hr, rfl, -⟩ | ⟨req, rfl, -⟩ | ⟨r, re, p, rfl, hr, hstep, rfl⟩
  · exact .inl ⟨r', hsame, ho⟩
  · exact .inl ⟨r, hr, ho⟩
  · cases ho
  · rcases (runStep_opened hstep o).mp ho with ho | ⟨c, rfl, hphase⟩
    · exact .inl ⟨r, hr, ho⟩
    · refine .inr ⟨rfl, opening?_persist hr hphase, ?_⟩
      simp only [runStep, hphase, if_true, Option.some.injEq, Prod.mk.injEq] at hstep
      rw [← hstep.1]

/-- An open record is written only under an id that has none. -/
def FreeOpen (s : Sys) (e : Event) : Prop := ∀ o ∈ s.opening? e, o.record.runId ∉ s.store.opens

instance (s : Sys) (e : Event) : Decidable (FreeOpen s e) :=
  inferInstanceAs (Decidable (∀ o ∈ s.opening? e, o.record.runId ∉ s.store.opens))

structure Owned (s : Sys) : Prop where
  numbered : Numbered s
  fileName : ∀ runId o, s.store.opens.lookup runId = some o → o.record.runId = runId
  /-- Runs live in the service's memory only. -/
  idle : s.service ≠ .serving → ∀ i r, s.runs i = some r → r.phase.isDead = true
  holds : ∀ i r o, s.runs i = some r → r.phase.holds = some o → s.store.opens.lookup o.record.runId = some o
  job : ∀ i r o job, s.runs i = some r → r.phase = .publishing o job → JobOf o job ∧ job.Shaped
  /-- The sweep publishes what it found in the open record it is at. -/
  sweep : ∀ rest job, s.service = .sweeping rest (some job) → job.Shaped ∧ job.record.runId = job.file ∧
    (job.stage.holdsOpen = true → ∃ o, s.store.opens.lookup job.file = some o ∧
      o.record.boxSequence = job.record.boxSequence)

/-- Two runs do not hold the same open record. -/
theorem Owned.holds_inj (hs : Owned s) {i j : Nat} {r r' : Run} {o o' : OpenRecord} (hr : s.runs i = some r)
    (hr' : s.runs j = some r') (ho : r.phase.holds = some o) (ho' : r'.phase.holds = some o')
    (hid : o.record.runId = o'.record.runId) : i = j := by
  have hlook := hs.holds i r o hr ho
  have hlook' := hs.holds j r' o' hr' ho'
  rw [hid, hlook'] at hlook
  cases hlook
  exact hs.numbered.inj i j r r' _ hr hr' (hs.numbered.opened i r o hr (opened_of_holds ho))
    (hs.numbered.opened j r' o hr' (opened_of_holds ho'))

theorem owned_init : Owned Sys.init := by
  have hruns : ∀ (i : Nat) (r : Run), Sys.init.runs i ≠ some r := fun _ _ h => Option.some_ne_none _ h.symm
  refine ⟨numbered_init, ?_, fun _ i r hr => absurd hr (hruns i r), fun i r _ hr => absurd hr (hruns i r),
    fun i r _ _ hr => absurd hr (hruns i r), ?_⟩
  · intro runId o hlook
    exact absurd hlook (by simp [Sys.init, Store.empty])
  · intro rest job hsweep
    cases hsweep

theorem lookup_of_erase {α : Type} {d d' : Dir α} {x y : RunId} {a : α} (h : d' = d.erase x)
    (hlook : d'.lookup y = some a) : y ≠ x ∧ d.lookup y = some a := by
  subst h
  by_cases hyx : y = x
  · rw [hyx, AList.lookup_erase] at hlook
    cases hlook
  · rw [AList.lookup_erase_ne hyx] at hlook
    exact ⟨hyx, hlook⟩

theorem lookup_of_insert {α : Type} {d d' : Dir α} {x y : RunId} {a b : α} (h : d' = d.insert x b)
    (hlook : d'.lookup y = some a) : (y = x ∧ a = b) ∨ (y ≠ x ∧ d.lookup y = some a) := by
  subst h
  by_cases hyx : y = x
  · rw [hyx, AList.lookup_insert] at hlook
    exact .inl ⟨hyx, (Option.some.inj hlook).symm⟩
  · rw [AList.lookup_insert_ne hyx] at hlook
    exact .inr ⟨hyx, hlook⟩

theorem idle_of_runs (hs : Owned s) (hruns : t.runs = s.runs) (hservice : t.service ≠ .serving → s.service ≠ .serving) :
    t.service ≠ .serving → ∀ i r, t.runs i = some r → r.phase.isDead = true := by
  intro hne i r hr
  exact hs.idle (hservice hne) i r (hruns ▸ hr)

/-- The case of a run's own step. -/
theorem run_owned_step (hs : Owned s) {j : Nat} {re : RunEvent} {r : Run} {store : Store} {p : Phase}
    {ids : List RunId}
    (hnum : Numbered { s with store, runs := Function.update s.runs j (some { r with phase := p }), ids })
    (hok : FreeOpen s (.run j re)) (hservice : s.service = .serving) (hrun : s.runs j = some r)
    (hstep : runStep w mode s.store r re = some (store, p)) :
    Owned { s with store, runs := Function.update s.runs j (some { r with phase := p }), ids } := by
  have hjob : ∀ o job, r.phase = .publishing o job → JobOf o job ∧ job.Shaped := fun o job => hs.job j r o job hrun
  refine ⟨hnum, fun runId o hlook => ?_, fun hne => absurd hservice hne, fun i q o hq ho => ?_,
    fun i q o job hq hp => ?_, fun rest job hsweep => ?_⟩
  · rcases runStep_holds hstep hjob with ⟨hsame, -⟩ | ⟨o', c, -, -, hins, -⟩ | ⟨o', -, herase, -⟩
    · exact hs.fileName runId o (hsame ▸ hlook)
    · rcases lookup_of_insert hins hlook with ⟨rfl, rfl⟩ | ⟨-, hlook⟩
      · rfl
      · exact hs.fileName runId o hlook
    · exact hs.fileName runId o (lookup_of_erase herase hlook).2
  · dsimp only
    rcases runStep_holds hstep hjob with ⟨hsame, hkeep⟩ | ⟨o', c, rfl, hphase, hins, hp⟩ | ⟨o', hp, herase, hp'⟩
    · rw [hsame]
      rcases update_eq_some hq with ⟨rfl, rfl⟩ | ⟨-, hq⟩
      · exact hs.holds i r o hrun (hkeep o ho)
      · exact hs.holds i q o hq ho
    · rw [hins]
      rcases update_eq_some hq with ⟨rfl, rfl⟩ | ⟨-, hq⟩
      · rw [hp] at ho
        cases ho
        exact AList.lookup_insert _
      · have hlook := hs.holds i q o hq ho
        have hne : o.record.runId ≠ o'.record.runId := by
          intro heq
          rw [heq] at hlook
          exact hok o' (opening?_persist hrun hphase) (AList.lookup_isSome.mp (by rw [hlook]; rfl))
        rw [AList.lookup_insert_ne hne]
        exact hlook
    · rw [herase]
      rcases update_eq_some hq with ⟨rfl, rfl⟩ | ⟨hij, hq⟩
      · rw [hp'] at ho
        cases ho
      · have hne : o.record.runId ≠ o'.record.runId := fun heq => hij (hs.holds_inj hq hrun ho hp heq)
        rw [AList.lookup_erase_ne hne]
        exact hs.holds i q o hq ho
  · rcases update_eq_some hq with ⟨rfl, rfl⟩ | ⟨-, hq⟩
    · exact runStep_job hstep hjob hp
    · exact hs.job i q o job hq hp
  · rw [hservice] at hsweep
    cases hsweep

/-- **A step keeps open records with their runs**, if it writes one only where there is none. -/
theorem step_owned (hs : Owned s) (hok : FreeOpen s e) (h : step w mode s e = some t) : Owned t := by
  have hnum := step_numbered hs.numbered h
  cases step_effect h with
  | other hev hruns hfiles hids hservice hjob =>
    refine ⟨hnum, ?_, idle_of_runs hs hruns hservice, ?_, ?_, ?_⟩
    · rw [hfiles.opens]
      exact hs.fileName
    · rw [hruns, hfiles.opens]
      exact hs.holds
    · rw [hruns]
      exact hs.job
    · intro rest job hsweep
      rw [hsweep] at hjob
      cases hjob
  | mark hev hruns hfiles hids hservice =>
    refine ⟨hnum, ?_, idle_of_runs hs hruns (hservice ▸ id), ?_, ?_, ?_⟩
    · rw [hfiles.opens]
      exact hs.fileName
    · rw [hruns, hfiles.opens]
      exact hs.holds
    · rw [hruns]
      exact hs.job
    · rw [hservice, hfiles.opens]
      exact hs.sweep
  | take name rest o hservice hopen ht =>
    subst ht
    refine ⟨hnum, hs.fileName, idle_of_runs hs rfl (by simp [hservice]), hs.holds, hs.job, ?_⟩
    rintro rest' job ⟨⟩
    refine ⟨⟨⟨_, rfl, by simp⟩, by simp [sweepJobOf]⟩, hs.fileName name o hopen, fun _ => ⟨o, hopen, rfl⟩⟩
  | sweepJob rest job store after hservice hjob ht =>
    subst ht
    obtain ⟨hshape, hid, hopen⟩ := hs.sweep rest job hservice
    obtain ⟨hholds, hopens⟩ := jobStep_opens hjob hshape
    have hdead := hs.idle (by simp [hservice])
    have hnone : ∀ i r o, s.runs i = some r → r.phase.holds ≠ some o := by
      intro i r o hr ho
      rw [not_holds_of_isDead (hdead i r hr)] at ho
      cases ho
    refine ⟨hnum, ?_, idle_of_runs hs rfl (by simp [hservice]), ?_, hs.job, ?_⟩
    · intro runId o hlook
      rcases hopens with hsame | ⟨herase, -⟩
      · exact hs.fileName runId o (hsame ▸ hlook)
      · exact hs.fileName runId o (lookup_of_erase herase hlook).2
    · intro i r o hr ho
      exact absurd ho (hnone i r o hr)
    · intro rest' job' hsweep
      cases after with
      | goOn job'' =>
        cases hsweep
        obtain ⟨hrec, hfile, hleft, hshape'⟩ := jobStep_goOn hjob hshape
        refine ⟨hshape', by rw [hrec, hfile, hid], fun hon => ?_⟩
        rcases hopens with hsame | ⟨-, -, hoff, -⟩
        · rw [hsame, hfile, hrec]
          exact hopen (hholds hon)
        · rw [After.holdsOpen, hon] at hoff
          cases hoff
      | done => cases hsweep
      | raised => cases hsweep
  | crash ht =>
    subst ht
    have hkilled : ∀ i r, (s.runs i).map Run.kill = some r → r.phase.isDead = true := by
      intro i r hr
      obtain ⟨q, -, rfl⟩ := Option.map_eq_some_iff.mp hr
      rfl
    refine ⟨hnum, hs.fileName, fun _ => hkilled, fun i r o hr ho => ?_, fun i r o job hr hp => ?_,
      fun rest job hsweep => by cases hsweep⟩
    · rw [not_holds_of_isDead (hkilled i r hr)] at ho
      cases ho
    · have hdead := hkilled i r hr
      rw [hp] at hdead
      cases hdead
  | @accept j req hservice hnone ht =>
    subst ht
    refine ⟨hnum, hs.fileName, fun hne => absurd hservice hne, fun i r o hr ho => ?_,
      fun i r o job hr hp => ?_, fun rest job hsweep => ?_⟩
    · rcases update_eq_some hr with ⟨-, rfl⟩ | ⟨-, hr⟩
      · cases ho
      · exact hs.holds i r o hr ho
    · rcases update_eq_some hr with ⟨-, rfl⟩ | ⟨-, hr⟩
      · cases hp
      · exact hs.job i r o job hr hp
    · rw [hservice] at hsweep
      cases hsweep
  | run r store p hservice hrun huuid hstep ht =>
    subst ht
    exact run_owned_step hs hnum hok hservice hrun hstep
  | collect ht =>
    subst ht
    exact ⟨hnum, hs.fileName, hs.idle, hs.holds, hs.job, hs.sweep⟩

theorem run_owned {es : List Event} (hok : Along (step w mode) FreeOpen Sys.init es)
    (hrun : run (step w mode) Sys.init es = some t) : Owned t :=
  run_invariant Owned (fun _ _ _ hok hs h => step_owned hs hok h) hok owned_init hrun

end Lager.RunRecord
