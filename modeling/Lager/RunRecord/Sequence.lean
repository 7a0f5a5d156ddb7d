import Lager.RunRecord.Publication

/-!
# Sequence numbers and gaps

`begin` takes a sequence number before it has the rest of the record, so a number is without a record while
a `begin` is on its way from one to the other, and for good if it fails or is killed there. These are the
only gaps: once an open record is written, its number is carried by a record in `open/` or by one that was
written to `final/`, through every failure, crash and restart (`step_carried`).
-/

namespace Lager.RunRecord

open Lager.Py Lager.Lib

variable {w : World} {mode : Mode} {s t : Sys} {e : Event}

/-- The number belongs to a record in `open/` or to one that was written to `final/`. -/
def Carried (s : Sys) (n : Nat) : Prop :=
  (∃ runId o, s.store.opens.lookup runId = some o ∧ o.record.boxSequence = n) ∨
    ∃ r ∈ s.store.written, r.boxSequence = n

def HasNumber (s : Sys) (i n : Nat) : Prop := ∃ r, s.runs i = some r ∧ r.phase.number = some n

def HasOpened (s : Sys) (i n : Nat) : Prop :=
  ∃ r o, s.runs i = some r ∧ r.phase.opened = some o ∧ o.record.boxSequence = n

/-! ### Numbers stay with records -/

/-- **A step loses no number.** An open record is removed only after a record with its number was
published. -/
theorem step_carried (hs : Owned s) (hp : Published s) (hok : FreeOpen s e) (h : Effect w mode s t e) {n : Nat}
    (hc : Carried s n) : Carried t n := by
  rcases hc with ⟨runId, o, hlook, hn⟩ | ⟨r, hr, hn⟩
  · rcases h.opens_cases hs with hsame | ⟨i, r, o', c, rfl, hr, hphase, -, hinsert⟩ |
      ⟨a, job, rest, hj, hon, hstage, herase⟩
    · exact .inl ⟨runId, o, hsame ▸ hlook, hn⟩
    · have hne : runId ≠ o'.record.runId := by
        rintro rfl
        exact hok o' (opening?_persist hr hphase) (AList.lookup_isSome.mp (by rw [hlook]; rfl))
      exact .inl ⟨runId, o, by rw [hinsert, AList.lookup_insert_ne hne]; exact hlook, hn⟩
    · by_cases hfile : runId = job.file
      · -- the record that goes is the one whose number was published
        obtain ⟨-, -, hopen⟩ := hs.job_open hj
        obtain ⟨o', hlook', hn'⟩ := hopen hon
        rw [hfile, hlook'] at hlook
        cases hlook
        have hwritten := hp a job hj (by simp [hstage])
        exact .inr ⟨job.record, h.written_subset hwritten, hn' ▸ hn⟩
      · exact .inl ⟨runId, o, by rw [herase, AList.lookup_erase_ne hfile]; exact hlook, hn⟩
  · exact .inr ⟨r, h.written_subset hr, hn⟩

/-- Records carry only numbers of runs that wrote an open record, and every such number is carried. -/
structure Accounted (s : Sys) : Prop where
  owned : Owned s
  published : Published s
  /-- Every number up to the last was handed to a run. -/
  handed : ∀ n, 1 ≤ n → n ≤ s.store.sequence → ∃ i, HasNumber s i n
  carried : ∀ i n, HasOpened s i n → Carried s n
  opened : ∀ n, Carried s n → ∃ i, HasOpened s i n

theorem hasNumber_mono (h : Effect w mode s t e) {i n : Nat} (hi : HasNumber s i n) : HasNumber t i n := by
  obtain ⟨r, hr, hn⟩ := hi
  obtain ⟨r', hr', rfl | rfl | ⟨re, p, -, hstep, rfl⟩⟩ := h.run_next hr
  · exact ⟨r', hr', hn⟩
  · exact ⟨_, hr', hn⟩
  · rcases runStep_number hstep with ⟨-, hnum⟩ | ⟨-, -, hnone, -⟩
    · exact ⟨_, hr', hnum.trans hn⟩
    · rw [hn] at hnone
      cases hnone

theorem hasOpened_mono (h : Effect w mode s t e) {i n : Nat} (hi : HasOpened s i n) : HasOpened t i n := by
  obtain ⟨r, o, hr, ho, hn⟩ := hi
  obtain ⟨r', hr', ho'⟩ := h.opened_next hr ho
  exact ⟨r', o, hr', ho', hn⟩

theorem hasOpened_cases (h : Effect w mode s t e) {i n : Nat} (hi : HasOpened t i n) :
    HasOpened s i n ∨ ∃ o, e = .run i (.persist true) ∧
      t.store.opens = s.store.opens.insert o.record.runId o ∧ o.record.boxSequence = n := by
  obtain ⟨r', o, hr', ho, hn⟩ := hi
  rcases h.opened_cases hr' ho with ⟨r, hr, ho⟩ | ⟨he, -, hopens⟩
  · exact .inl ⟨r, o, hr, ho, hn⟩
  · exact .inr ⟨o, he, hopens, hn⟩

/-- A record that a step wrote has the number of an open record that was there before. -/
theorem Effect.carried_cases (hs : Owned s) (h : Effect w mode s t e) {n : Nat} (hc : Carried t n) :
    Carried s n ∨ ∃ i, HasOpened t i n := by
  rcases hc with ⟨runId, o, hlook, hn⟩ | ⟨r, hr, hn⟩
  · rcases h.opens_cases hs with hsame | ⟨i, r, o', c, -, -, -, hrun, hinsert⟩ | ⟨a, job, rest, -, -, -, herase⟩
    · exact .inl (.inl ⟨runId, o, hsame ▸ hlook, hn⟩)
    · rcases lookup_of_insert hinsert hlook with ⟨-, rfl⟩ | ⟨-, hlook⟩
      · exact .inr ⟨i, _, o, hrun, rfl, hn⟩
      · exact .inl (.inl ⟨runId, o, hlook, hn⟩)
    · exact .inl (.inl ⟨runId, o, (lookup_of_erase herase hlook).2, hn⟩)
  · by_cases hold : r ∈ s.store.written
    · exact .inl (.inr ⟨r, hold, hn⟩)
    · obtain ⟨a, job, je, -, hj, hstage, -, rfl⟩ := h.written_new hr hold
      obtain ⟨-, -, hopen⟩ := hs.job_open hj
      obtain ⟨o, hlook, hnum⟩ := hopen (by rw [hstage]; rfl)
      exact .inl (.inl ⟨job.file, o, hlook, hnum.trans hn⟩)

/-- The number a step takes is handed to the run that takes it. -/
theorem Effect.handed_new (h : Effect w mode s t e) {n : Nat} (hold : s.store.sequence < n)
    (hn : n ≤ t.store.sequence) : ∃ i, HasNumber t i n := by
  rcases h.store_cases with hfiles | ⟨i, r, id, -, -, -, hrun, hstore⟩ | ⟨i, r, o', c, -, -, -, -, hstore⟩ |
    ⟨a, job, je, after, -, hj, hjob⟩ | ⟨id, -, hstore⟩
  · rw [hfiles.sequence] at hn
    omega
  · rw [hstore] at hn
    have heq : n = s.store.sequence + 1 := by
      dsimp only at hn
      omega
    exact ⟨i, _, hrun, by rw [heq]; rfl⟩
  · rw [hstore] at hn
    exact absurd hn (Nat.not_le.mpr hold)
  · rw [jobStep_sequence hjob] at hn
    omega
  · rw [hstore] at hn
    exact absurd hn (Nat.not_le.mpr hold)

theorem step_accounted (hs : Accounted s) (hok : FreeOpen s e) (h : step w mode s e = some t) : Accounted t := by
  have heff := step_effect h
  refine ⟨step_owned hs.owned hok h, step_published hs.published h, ?_, ?_, ?_⟩
  · intro n h1 hn
    by_cases hold : n ≤ s.store.sequence
    · obtain ⟨i, hi⟩ := hs.handed n h1 hold
      exact ⟨i, hasNumber_mono heff hi⟩
    · exact heff.handed_new (by omega) hn
  · intro i n hi
    rcases hasOpened_cases heff hi with hi | ⟨o, -, hopens, hn⟩
    · exact step_carried hs.owned hs.published hok heff (hs.carried i n hi)
    · exact .inl ⟨o.record.runId, o, by rw [hopens, AList.lookup_insert], hn⟩
  · intro n hc
    rcases heff.carried_cases hs.owned hc with hc | hi
    · obtain ⟨i, hi⟩ := hs.opened n hc
      exact ⟨i, hasOpened_mono heff hi⟩
    · exact hi

theorem accounted_init : Accounted Sys.init := by
  refine ⟨owned_init, published_init, ?_, ?_, ?_⟩
  · intro n h1 hn
    have hzero : n ≤ 0 := hn
    omega
  · rintro i n ⟨r, o, hr, -⟩
    cases hr
  · rintro n (⟨runId, o, hlook, -⟩ | ⟨r, hr, -⟩)
    · exact absurd hlook (by simp [Sys.init, Store.empty])
    · cases hr

theorem run_accounted {es : List Event} (hok : Along (step w mode) FreeOpen Sys.init es)
    (hrun : run (step w mode) Sys.init es = some t) : Accounted t :=
  run_invariant Accounted (fun _ _ _ hok hs h => step_accounted hs hok h) hok accounted_init hrun

/-! ### Numbers and events -/

theorem hasNumber_bump {i : Nat} (h : Effect w mode s t (.run i (.bump true))) : ∃ n, HasNumber t i n := by
  obtain ⟨r, p, -, -, hstep, hr'⟩ := h.of_run
  simp only [runStep, if_true] at hstep
  split at hstep
  · obtain ⟨-, rfl⟩ := Prod.mk.inj (Option.some.inj hstep)
    exact ⟨_, _, hr', rfl⟩
  · cases hstep

theorem hasOpened_persist {i : Nat} (h : Effect w mode s t (.run i (.persist true))) : ∃ n, HasOpened t i n := by
  obtain ⟨r, p, -, -, hstep, hr'⟩ := h.of_run
  simp only [runStep, if_true] at hstep
  split at hstep
  · obtain ⟨-, rfl⟩ := Prod.mk.inj (Option.some.inj hstep)
    exact ⟨_, _, _, hr', rfl, rfl⟩
  · cases hstep

/-- A run has a number if it took one, and an open record if it wrote one. -/
def Recalls (es : List Event) (s : Sys) : Prop :=
  ∀ i, (.run i (.bump true) ∈ es ↔ ∃ n, HasNumber s i n) ∧ (.run i (.persist true) ∈ es ↔ ∃ n, HasOpened s i n)

theorem step_recalls {es : List Event} (hs : Recalls es s) (h : step w mode s e = some t) :
    Recalls (es ++ [e]) t := by
  have heff := step_effect h
  intro i
  obtain ⟨hnum, hopen⟩ := hs i
  simp only [List.mem_append, List.mem_singleton]
  refine ⟨⟨?_, ?_⟩, ⟨?_, ?_⟩⟩
  · rintro (hmem | rfl)
    · obtain ⟨n, hn⟩ := hnum.mp hmem
      exact ⟨n, hasNumber_mono heff hn⟩
    · exact hasNumber_bump heff
  · rintro ⟨n, r', hr', hn⟩
    rcases heff.number_cases hr' hn with ⟨r, hr, hn⟩ | ⟨-, -, rfl⟩
    · exact .inl (hnum.mpr ⟨n, r, hr, hn⟩)
    · exact .inr rfl
  · rintro (hmem | rfl)
    · obtain ⟨n, hn⟩ := hopen.mp hmem
      exact ⟨n, hasOpened_mono heff hn⟩
    · exact hasOpened_persist heff
  · rintro ⟨n, hn⟩
    rcases hasOpened_cases heff hn with hn | ⟨o, rfl, -⟩
    · exact .inl (hopen.mpr ⟨n, hn⟩)
    · exact .inr rfl

theorem run_recalls {es : List Event} (hrun : run (step w mode) Sys.init es = some t) : Recalls es t := by
  refine run_history Recalls (fun _ _ _ _ hs h => step_recalls hs h) (fun i => ?_) hrun
  refine ⟨⟨(fun hmem => by cases hmem), ?_⟩, ⟨(fun hmem => by cases hmem), ?_⟩⟩
  · rintro ⟨n, r, hr, -⟩
    cases hr
  · rintro ⟨n, r, o, hr, -⟩
    cases hr

/-- **No gaps.** In every run of the store, with any failures, crashes and sweeps, no number belongs to two
runs. If open records are only written under ids that have none, then every number from 1 to the one in the
sequence file belongs to a record in `open/` or to one that was written to `final/` if and only if every
`begin` that took a number went on to write its open record. -/
theorem sequence_no_gap_iff (w : World) (mode : Mode) (es : List Event) (t : Sys)
    (hrun : run (step w mode) Sys.init es = some t) :
    (∀ i j n, HasNumber t i n → HasNumber t j n → i = j) ∧
      (Along (step w mode) FreeOpen Sys.init es →
        ((∀ n, 1 ≤ n → n ≤ t.store.sequence → Carried t n) ↔
          ∀ i, .run i (.bump true) ∈ es → .run i (.persist true) ∈ es)) := by
  have hnum := run_numbered hrun
  have hinj : ∀ i j n, HasNumber t i n → HasNumber t j n → i = j := by
    rintro i j n ⟨r, hr, hn⟩ ⟨r', hr', hn'⟩
    exact hnum.inj i j r r' n hr hr' hn hn'
  have hopened : ∀ i n, HasOpened t i n → HasNumber t i n := by
    rintro i n ⟨r, o, hr, ho, rfl⟩
    exact ⟨r, hr, hnum.opened i r o hr ho⟩
  refine ⟨hinj, fun hfree => ?_⟩
  have hacc := run_accounted hfree hrun
  have hrec := run_recalls hrun
  refine ⟨fun hgap i hbump => ?_, fun hall n h1 hn => ?_⟩
  · obtain ⟨n, hi⟩ := (hrec i).1.mp hbump
    obtain ⟨r, hr, hrn⟩ := hi
    have hrange := hnum.range i r n hr hrn
    obtain ⟨j, hj⟩ := hacc.opened n (hgap n hrange.1 hrange.2)
    have hij := hinj i j n ⟨r, hr, hrn⟩ (hopened j n hj)
    exact (hrec i).2.mpr ⟨n, hij ▸ hj⟩
  · obtain ⟨i, hi⟩ := hacc.handed n h1 hn
    obtain ⟨m, hm⟩ := (hrec i).2.mp (hall i ((hrec i).1.mpr ⟨n, hi⟩))
    -- the number of the open record is the one the run was handed
    obtain ⟨r, hr, hrn⟩ := hi
    obtain ⟨r', hr', hrm⟩ := hopened i m hm
    rw [hr] at hr'
    cases hr'
    rw [hrn] at hrm
    cases hrm
    exact hacc.carried i n hm

/-- A module upload that is not a zip archive. -/
def badZipRun : List Event :=
  [.accept 0 { scriptRequest "r0" with moduleZip := some (encode "not a zip".toList) }, .run 0 (.check true "u0"),
    .run 0 (.testOpen "u1"), .run 0 (.testFinal "u2"), .run 0 (.bump true), .run 0 (.build "t0")]

/-- Two requests, the second of them refused before it takes a number. -/
def oneRecorded : List Event :=
  beginRun 0 (scriptRequest "r0") ++ [.accept 1 (scriptRequest "r1"), .run 1 (.check false "u1")]

theorem sequence_no_gap_iff_oneRecorded :
    ∃ t, run (step sampleWorld .collected) Sys.init ([.restart [], .serve] ++ oneRecorded) = some t ∧
      ∀ n, 1 ≤ n → n ≤ t.store.sequence → Carried t n := by
  obtain ⟨t, ht⟩ : ∃ t, run (step sampleWorld .collected) Sys.init ([.restart [], .serve] ++ oneRecorded) = some t :=
    Option.isSome_iff_exists.mp (by decide +kernel)
  refine ⟨t, ht, ((sequence_no_gap_iff _ _ _ t ht).2 (by decide +kernel)).mpr ?_⟩
  intro i hi
  have hzero : i = 0 := by simpa [oneRecorded, beginRun] using hi
  simp [hzero, oneRecorded, beginRun]

/-- A request whose module is not a zip archive uses up a number. -/
theorem sequence_gap_bad_zip :
    ¬ ∀ (w : World) (mode : Mode) (es : List Event) (t : Sys), run (step w mode) Sys.init es = some t →
        ∀ n, 1 ≤ n → n ≤ t.store.sequence → Carried t n := by
  intro h
  obtain ⟨t, ht⟩ : ∃ t, run (step sampleWorld .collected) Sys.init ([.restart [], .serve] ++ badZipRun) = some t :=
    Option.isSome_iff_exists.mp (by decide +kernel)
  have hstore : (run (step sampleWorld .collected) Sys.init ([.restart [], .serve] ++ badZipRun)).map (fun t =>
      (t.store.sequence, t.store.opens.keys, t.store.written)) = some (1, [], []) := by decide +kernel
  simp only [ht, Option.map_some, Option.some.injEq, Prod.mk.injEq] at hstore
  obtain ⟨hseq, hkeys, hwritten⟩ := hstore
  rcases h _ _ _ t ht 1 le_rfl hseq.ge with ⟨runId, o, hlook, -⟩ | ⟨r, hr, -⟩
  · have hmem : runId ∈ t.store.opens.keys := AList.mem_keys.mp (AList.lookup_isSome.mp (by rw [hlook]; rfl))
    rw [hkeys] at hmem
    cases hmem
  · rw [hwritten] at hr
    cases hr

end Lager.RunRecord
