import Lager.Lock.Ownership

/-!
# The hand-over of a detached run

A detached run takes a lock that does not expire, launches its job, and then asks for the lock again, with a TTL, by
the same `acquire_box_lock` that took it. That function looks at the lock first, and returns at once when it finds
it its own. So the TTL is armed only when that look fails; and when the job has ended and released the lock before
it, a new lock is taken, which nobody is left to release.
-/

namespace Lager.Lock.World

open Lager.Py

variable {casefold : List Char → List Char} {party : Nat → Party}

/-! ### The record of a launch -/

/-- The stored record is one of the party, which every read understands. -/
structure Readably (party : Nat → Party) (i : Nat) (lock : Dict) : Prop where
  holder : Dict.get lock "user" = .str (party i).holder
  named : (party i).holder ≠ ""
  typed : TtlTyped (Dict.get lock "ttl_seconds")
  readable : Readable lock

/-- What the party made, and is stored, reads as it was made. -/
def Traced (party : Nat → Party) (i : Nat) (w : World) : Prop :=
  w.origin.any (Maker.isOf i) = true → ∃ lock, Stores w.file lock ∧ Readably party i lock

theorem any_keptOrigin {w : World} {p : Maker → Bool} (h : w.keptOrigin.any p = true) : w.origin.any p = true := by
  unfold keptOrigin at h
  split at h
  · cases h
  · exact h

theorem Readably.beat {i : Nat} {lock : Dict} (h : Readably party i lock) (now : Time) :
    Readably party i (Dict.set lock "last_heartbeat" (nowUtcIso now)) := by
  have httl : TtlTyped (Dict.get (Dict.set lock "last_heartbeat" (nowUtcIso now)) "ttl_seconds") := by
    rw [Dict.get_set_ne _ _ (by decide)]
    exact h.typed
  refine ⟨?_, h.named, httl, readable_of_stamped httl (Dict.get_set_self _ _ _)⟩
  rw [Dict.get_set_ne _ _ (by decide)]
  exact h.holder

theorem Readably.refresh {i : Nat} {lock : Dict} (h : Readably party i lock) {user : String}
    (huser : Dict.get lock "user" = .str user) (now : Time) (holderType : String) (ttl : Option Int) :
    Readably party i (refreshed lock (.str user) now holderType ttl) := by
  have httl := ttlTyped_refreshed h.typed (.str user) now holderType ttl
  refine ⟨?_, h.named, httl, readable_of_stamped httl (refreshed_heartbeat _ _ _ _ _)⟩
  rw [refreshed_user, ← huser]
  exact h.holder

theorem readably_fresh {i : Nat} (hne : (party i).holder ≠ "") (now : Time) (holderType : String) (ttl : Option Int) :
    Readably party i (freshLock (.str (party i).holder) now holderType ttl) := by
  have httl : TtlTyped (Dict.get (freshLock (.str (party i).holder) now holderType ttl) "ttl_seconds") := by
    rw [freshLock_ttl]
    exact ttlTyped_ttlJson ttl
  exact ⟨freshLock_user _ _ _ _, hne, httl, readable_of_stamped httl rfl⟩

theorem Asked.traced {w w' : World} {now : Time} {i : Nat} (hasked : Asked w now w') (h : Traced party i w) :
    Traced party i w' := by
  cases hasked with
  | kept => exact fun horigin => h (any_keptOrigin horigin)
  | cleared => exact nofun
  | @beaten lock hstores =>
    intro horigin
    obtain ⟨lock', hstores', hlock⟩ := h horigin
    obtain rfl := hstores.unique hstores'
    exact ⟨_, stores_heartbeat hstores.2 _, hlock.beat now⟩

theorem Posted.traced {w : World} {maker : Maker} {now : Time} {user : String} {holderType ttlSeconds : Field}
    {r : World × Answer} {i : Nat} (hposted : Posted w maker now user holderType ttlSeconds r)
    (h : Traced party i w) (hmaker : maker.isOf i = true → user = (party i).holder) : Traced party i r.1 := by
  cases hposted with
  | refused hanswer => exact fun horigin => h (any_keptOrigin horigin)
  | fresh hnorm hne hfree =>
    intro horigin
    obtain rfl := hmaker (by simpa using horigin)
    exact ⟨_, stores_fresh _ _ _ _, readably_fresh hne _ _ _⟩
  | renewed hnorm hlive hne huser =>
    intro horigin
    obtain ⟨lock', hstores', hlock⟩ := h horigin
    obtain rfl := hlive.1.unique hstores'
    exact ⟨_, stores_refreshed _ _ _ _ _, hlock.refresh huser _ _ _⟩

theorem Freed.traced {w w' : World} {i j : Nat} {now : Time} {holder : String} (hfreed : Freed w j now holder w')
    (h : Traced party i w) : Traced party i w' := by
  cases hfreed with
  | nothing hasked hremoved => exact hasked.traced h
  | taken hlive huser => exact nofun

/-- A release by its holder ends a record that reads well, whether it has expired or not. -/
theorem free_gone {w : World} {i : Nat} {lock : Dict} (hstores : Stores w.file lock) (hlock : Readably party i lock)
    (now : Time) : (w.free i now (party i).holder).origin = none := by
  have htruthy : (Json.str (party i).holder).truthy = true := by simp [Json.truthy, hlock.named]
  obtain ⟨expired, hexpired⟩ := hlock.readable now
  cases expired with
  | false =>
    have hread := readLock_live ⟨hstores, hexpired⟩
    simp [free, ask, exec, release, htruthy, hread, hlock.holder, Json.pyEq_str.mpr]
  | true =>
    have hread : readLock now w.file = (.absent, .ok none) := by
      simp only [readLock, readLockRaw_eq_some.mpr hstores, hexpired]
    simp [free, ask, exec, release, htruthy, hread]

/-! ### After the job -/

theorem Asked.origin {w w' : World} {now : Time} {p : Maker → Bool} (hasked : Asked w now w')
    (h : w'.origin.any p = true) : w.origin.any p = true := by
  cases hasked with
  | kept => exact any_keptOrigin h
  | cleared => cases h
  | beaten hstores => exact h

theorem Posted.origin {w : World} {maker : Maker} {now : Time} {user : String} {holderType ttlSeconds : Field}
    {r : World × Answer} {p : Maker → Bool} (hposted : Posted w maker now user holderType ttlSeconds r)
    (h : r.1.origin.any p = true) : p maker = true ∨ w.origin.any p = true := by
  cases hposted with
  | refused hanswer => exact .inr (any_keptOrigin h)
  | fresh hnorm hne hfree => exact .inl (by simpa using h)
  | renewed hnorm hlive hne huser => exact .inr h

theorem Freed.origin {w w' : World} {i : Nat} {now : Time} {holder : String} {p : Maker → Bool}
    (hfreed : Freed w i now holder w') (h : w'.origin.any p = true) : w.origin.any p = true := by
  cases hfreed with
  | nothing hasked hremoved => exact hasked.origin h
  | taken hlive huser => cases h

theorem Freed.cli {w w' : World} {i : Nat} {now : Time} {holder : String} (hfreed : Freed w i now holder w') :
    w'.cli = w.cli ∧ w'.job = w.job := by
  cases hfreed with
  | nothing hasked hremoved => exact hasked.cli
  | taken hlive huser => exact ⟨rfl, rfl⟩

/-- Nothing that the party made is stored once its job has ended. -/
structure Finished (party : Nat → Party) (i : Nat) (w : World) : Prop where
  traced : Traced party i w
  late : w.job i ≠ .none → Cli.Late (w.cli i)
  gone : w.job i = .ended → ¬ w.origin.any (Maker.isOf i) = true

/-- The hand-over asks for the lock before the job has ended. -/
def Timely (i : Nat) (w : World) : Event → Prop
  | .handPost j _ => j = i → w.job i ≠ .ended
  | _ => True

/-- A step that makes nothing for the party, and leaves its job alone. -/
theorem Finished.other {w w' : World} {i : Nat} (h : Finished party i w) (htraced : Traced party i w')
    (horigin : w'.origin.any (Maker.isOf i) = true → w.origin.any (Maker.isOf i) = true) (hjob : w'.job i = w.job i)
    (hlate : Cli.Late (w.cli i) → Cli.Late (w'.cli i)) : Finished party i w' := by
  refine ⟨htraced, fun hsome => hlate (h.late (hjob ▸ hsome)), fun hended hmade => ?_⟩
  exact h.gone (hjob ▸ hended) (horigin hmade)

theorem setCli_cli {w : World} {i j : Nat} {c : Cli} {P : Cli → Prop} (hother : P (w.cli i)) (hsame : j = i → P c) :
    P ((w.setCli j c).cli i) := by
  by_cases hj : j = i
  · subst hj
    simpa [setCli] using hsame rfl
  · simpa [setCli, Function.update_of_ne (Ne.symm hj)] using hother

theorem late_setCli {w : World} {i j : Nat} {c : Cli} (hc : Cli.Late (w.cli j) → Cli.Late c)
    (h : Cli.Late (w.cli i)) : Cli.Late ((w.setCli j c).cli i) :=
  setCli_cli h fun hj => hc (hj ▸ h)

theorem not_late {w : World} {i : Nat} (h : Finished party i w) (hcli : ¬ Cli.Late (w.cli i)) : w.job i = .none := by
  by_contra hjob
  exact hcli (h.late hjob)

/-- A request by a party: either it is not this one, or its job has not ended. -/
theorem Finished.posted {w w' : World} {maker : Maker} {now : Time} {user : String} {holderType ttlSeconds : Field}
    {r : World × Answer} {i : Nat} (h : Finished party i w)
    (hposted : Posted w maker now user holderType ttlSeconds r) (hfile : w'.file = r.1.file)
    (horigin : w'.origin = r.1.origin) (hjobs : w'.job = w.job)
    (hmaker : maker.isOf i = true → user = (party i).holder ∧ w.job i ≠ .ended)
    (hlate : w.job i ≠ .none → Cli.Late (w.cli i) → Cli.Late (w'.cli i)) : Finished party i w' := by
  have htraced := hposted.traced h.traced fun hof => (hmaker hof).1
  refine ⟨?_, fun hsome => ?_, fun hended hmade => ?_⟩
  · rw [Traced, horigin, hfile]
    exact htraced
  · rw [hjobs] at hsome
    exact hlate hsome (h.late hsome)
  · rw [hjobs] at hended
    rw [horigin] at hmade
    rcases hposted.origin hmade with hof | hbefore
    · exact (hmaker hof).2 hended
    · exact h.gone hended hbefore

theorem finished_end {w : World} {i j : Nat} (h : Finished party i w) (now : Time) (hjob : w.job j = .running) :
    Finished party i ((w.free j now (party j).holder).setJob j .ended) := by
  have hfreed := free_cases w j now (party j).holder
  by_cases hj : j = i
  · subst hj
    refine ⟨hfreed.traced h.traced, fun _ => ?_, fun _ hmade => ?_⟩
    · show Cli.Late ((w.free j now (party j).holder).cli j)
      rw [hfreed.cli.1]
      exact h.late (by simp [hjob])
    · have hmade' : (w.free j now (party j).holder).origin.any (Maker.isOf j) = true := hmade
      obtain ⟨lock, hstores, hlock⟩ := h.traced (hfreed.origin hmade')
      rw [free_gone hstores hlock now] at hmade'
      cases hmade'
  · refine h.other (hfreed.traced h.traced) hfreed.origin ?_ fun hlate => ?_
    · simp [setJob, Function.update_of_ne (Ne.symm hj), hfreed.cli.2]
    · show Cli.Late ((w.free j now (party j).holder).cli i)
      rwa [hfreed.cli.1]

theorem finished_step {w w' : World} {e : Event} {i : Nat} (h : Finished party i w) (hok : Timely i w e)
    (hstep : w.step casefold party e = some w') : Finished party i w' := by
  cases step_moves hstep with
  | turns he hc hearly hlate hdone => exact h.other h.traced id rfl (late_setCli hlate)
  | asks he hask hc hearly hlate hdone =>
    have hasked := ask_cases w hask
    refine h.other (hasked.traced h.traced) hasked.origin (by rw [← hasked.cli.2]; rfl) fun hbefore => ?_
    rw [← hasked.cli.1] at hbefore hlate
    exact late_setCli hlate hbefore
  | beats he hask =>
    have hasked := ask_cases w hask
    exact h.other (hasked.traced h.traced) hasked.origin (by rw [hasked.cli.2]) (by rw [hasked.cli.1]; exact id)
  | @posts j now answered hcli =>
    have hposted := post_cases w (.session j) now (party j).holder (some (.str (party j).holderType))
      (some (ttlJson (party j).askedTtl))
    have hnone : j = i → w.job i = .none := fun hj => not_late h (by rw [← hj, hcli]; simp [Cli.Late])
    refine h.posted hposted rfl rfl hposted.cli.2.1 (fun hof => ?_) fun hsome hlate => ?_
    · have hj : i = j := by simpa [Maker.isOf] using hof
      exact ⟨by rw [hj], by rw [hnone hj.symm]; simp⟩
    · refine setCli_cli ?_ fun hj => absurd (hnone hj) hsome
      rwa [sessionPost, hposted.cli.1]
  | @rearms j now hcli =>
    have hposted := post_cases w (.handover j) now (party j).holder (some (.str (party j).holderType))
      (some (ttlJson (party j).rearmTtl))
    refine h.posted hposted rfl rfl hposted.cli.2.1 (fun hof => ?_) fun _ hlate => ?_
    · have hj : i = j := by simpa [Maker.isOf] using hof
      exact ⟨by rw [hj], hok hj.symm⟩
    · refine setCli_cli ?_ fun _ => .inr (.inr rfl)
      rwa [handoverPost, hposted.cli.1]
  | @reserves user ttlSeconds now =>
    have hposted := post_cases w .reservation now user (some (.str "user")) ttlSeconds
    refine h.posted hposted rfl rfl hposted.cli.2.1 (fun hof => by cases hof) fun _ hlate => ?_
    rwa [reservationPost, hposted.cli.1]
  | @exits j now answered hcli =>
    have hfreed := free_cases w j now (party j).holder
    have hlate : Cli.Late (w.cli i) → Cli.Late ((w.free j now (party j).holder).cli i) := by
      rw [hfreed.cli.1]
      exact id
    split
    · refine h.other (hfreed.traced h.traced) hfreed.origin (by rw [← hfreed.cli.2]; rfl) fun hbefore => ?_
      exact setCli_cli (hlate hbefore) fun _ => .inr (.inr rfl)
    · exact h.other (hfreed.traced h.traced) hfreed.origin (by rw [hfreed.cli.2]) hlate
  | @launches j confirmed hcli =>
    by_cases hj : j = i
    · subst hj
      refine ⟨h.traced, fun _ => ?_, fun hended => ?_⟩
      · show Cli.Late ((w.setCli j _).cli j)
        simp only [setCli, Function.update_self]
        split
        · exact .inl rfl
        · exact .inr (.inr rfl)
      · simp [setJob] at hended
    · refine h.other h.traced id ?_ fun hlate => ?_
      · simp [setJob, setCli, Function.update_of_ne (Ne.symm hj)]
      · exact setCli_cli hlate fun heq => absurd heq hj
  | ends hjob => exact finished_end h _ hjob

/-- **A detached run leaves no lock behind, when its hand-over comes before the end of its job.** In every run of a
detached launch with its job, and of any other sessions, reservations and forced releases around them: once the job
has ended and released, no record that the launch made is stored, as long as the hand-over did not ask for the lock
after that. -/
theorem no_lock_left_behind {file : LockFile} {es : List Event} {w : World} {i : Nat}
    (hrun : Lib.run (step casefold party) (start file) es = some w)
    (hok : Lib.Along (step casefold party) (Timely i) (start file) es) (hended : w.job i = .ended) :
    ¬ w.origin.any (Maker.isOf i) = true := by
  have hstart : Finished party i (start file) := ⟨nofun, fun hsome => absurd rfl hsome, nofun⟩
  exact (Lib.run_invariant (Finished party i) (fun _ _ _ hok h hstep => finished_step h hok hstep) hok hstart
    hrun).gone hended

/-- A detached command. -/
def detached : Party := ⟨"dev", "dev", false, some 1800, true, some 1800⟩

/-- The hand-over finds the lock, and then the job ends. -/
def ordinaryLaunch : List Event :=
  [.get 0 0 true, .post 0 0 true, .launch 0 true, .handGet 0 1 true, .jobBeat 0 2, .jobEnd 0 3]

theorem ordinaryLaunch_leaves_none :
    ∃ w, Lib.run (step id fun _ => detached) (start .absent) ordinaryLaunch = some w ∧ w.cli 0 = .exited ∧
      ¬ w.origin.any (Maker.isOf 0) = true := by
  have hrun : (Lib.run (step id fun _ => detached) (start .absent) ordinaryLaunch).map
      (fun w => (w.cli 0, w.job 0)) = some (.exited, .ended) := by
    decide +kernel
  obtain ⟨w, hw, hlast⟩ := Option.map_eq_some_iff.mp hrun
  simp only [Prod.mk.injEq] at hlast
  refine ⟨w, hw, hlast.1, no_lock_left_behind hw ?_ hlast.2⟩
  exact ⟨trivial, fun _ _ => ⟨trivial, fun _ _ => ⟨trivial, fun _ _ => ⟨trivial, fun _ _ => ⟨trivial, fun _ _ =>
    ⟨trivial, fun _ _ => trivial⟩⟩⟩⟩⟩⟩

/-- The job ends at once, before the hand-over. -/
def shortJob : List Event :=
  [.get 0 0 true, .post 0 0 true, .launch 0 true, .jobEnd 0 1, .handGet 0 2 true, .handPost 0 3]

/-- The command has exited and its job has ended, and a lock that the hand-over made stays. -/
theorem shortJob_leaves_lock :
    ∃ w, Lib.run (step id fun _ => detached) (start .absent) shortJob = some w ∧ w.cli 0 = .exited ∧
      w.job 0 = .ended ∧ w.origin.any (Maker.isOf 0) = true ∧ Dict.get w.stored "user" = .str "dev" := by
  have hrun : (Lib.run (step id fun _ => detached) (start .absent) shortJob).map
      (fun w => (w.cli 0, w.job 0, w.origin.any (Maker.isOf 0), Dict.get w.stored "user")) =
        some (.exited, .ended, true, .str "dev") := by
    decide +kernel
  obtain ⟨w, hw, hlast⟩ := Option.map_eq_some_iff.mp hrun
  simp only [Prod.mk.injEq] at hlast
  exact ⟨w, hw, hlast⟩

/-! ### The TTL of a lock that was handed over -/

/-- Who makes the request. -/
def Event.sender : Event → Option Nat
  | get i .. | noGet i | post i .. | noPost i | beat i .. | exit i .. | leave i | launch i .. | handGet i ..
  | noHandGet i | handPost i .. | noHandPost i | jobBeat i .. | jobEnd i .. => some i
  | reserve .. | force .. => none

/-- The hand-over's request for the lock has reached the box. -/
def Rearmed (i : Nat) (es : List Event) : Prop := ∃ now, .handPost i now ∈ es

/-- The record of a launch: it does not expire until the hand-over has asked for it. -/
structure LaunchLock (party : Nat → Party) (i : Nat) (es : List Event) (lock : Dict) : Prop where
  readably : Readably party i lock
  auto : ¬ Reservation lock
  armed : Rearmed i es → Dict.get lock "ttl_seconds" = ttlJson ((party i).rearmTtl.map (max 1))
  unarmed : ¬ Rearmed i es → Dict.get lock "ttl_seconds" = .null

structure Handed (party : Nat → Party) (i : Nat) (es : List Event) (w : World) : Prop where
  begun : w.origin = some (.session i) → ¬ Cli.Early (w.cli i)
  done : Rearmed i es → w.cli i = .exited
  stored : w.origin = some (.session i) → ∃ lock, Stores w.file lock ∧ LaunchLock party i es lock

theorem rearmed_append {i : Nat} {es : List Event} {e : Event} (he : ∀ now, e ≠ .handPost i now) :
    Rearmed i (es ++ [e]) ↔ Rearmed i es := by
  refine exists_congr fun now => ?_
  rw [List.mem_append, List.mem_singleton]
  exact or_iff_left (he now).symm

theorem ne_handPost {e : Event} (h : e.isPost = false) (i : Nat) (now : Time) : e ≠ .handPost i now := by
  rintro rfl
  cases h

theorem LaunchLock.congr {i : Nat} {es fs : List Event} {lock : Dict} (h : LaunchLock party i es lock)
    (hrearmed : Rearmed i fs ↔ Rearmed i es) : LaunchLock party i fs lock :=
  ⟨h.readably, h.auto, fun hr => h.armed (hrearmed.mp hr), fun hr => h.unarmed fun hes => hr (hrearmed.mpr hes)⟩

theorem LaunchLock.beat {i : Nat} {es : List Event} {lock : Dict} (h : LaunchLock party i es lock) (now : Time) :
    LaunchLock party i es (Dict.set lock "last_heartbeat" (nowUtcIso now)) := by
  have httl : Dict.get (Dict.set lock "last_heartbeat" (nowUtcIso now)) "ttl_seconds" = Dict.get lock "ttl_seconds" :=
    Dict.get_set_ne _ _ (by decide)
  refine ⟨h.readably.beat now, ?_, fun hr => httl.trans (h.armed hr), fun hr => httl.trans (h.unarmed hr)⟩
  rw [Reservation, Dict.get_set_ne _ _ (by decide)]
  exact h.auto

theorem origin_of_kept {w : World} {maker : Maker} (h : w.keptOrigin = some maker) : w.origin = some maker := by
  unfold keptOrigin at h
  split at h
  · cases h
  · exact h

theorem Posted.origin_eq {w : World} {maker maker' : Maker} {now : Time} {user : String}
    {holderType ttlSeconds : Field} {r : World × Answer} (hposted : Posted w maker now user holderType ttlSeconds r)
    (h : r.1.origin = some maker') : maker' = maker ∨ w.origin = some maker' := by
  cases hposted with
  | refused hanswer => exact .inr (origin_of_kept h)
  | fresh hnorm hne hfree => exact .inl (Option.some.inj h).symm
  | renewed hnorm hlive hne huser => exact .inr h

/-- A request that is not an acquire, and whatever it does to the command. -/
theorem Handed.asked {w w₁ w' : World} {now : Time} {i : Nat} {es fs : List Event} (h : Handed party i es w)
    (hasked : Asked w now w₁) (hfile : w'.file = w₁.file) (horigin : w'.origin = w₁.origin)
    (hrearmed : Rearmed i fs ↔ Rearmed i es) (hearly : Cli.Early (w'.cli i) → Cli.Early (w.cli i))
    (hdone : w.cli i = .exited → w'.cli i = .exited) : Handed party i fs w' := by
  have hbefore : w₁.origin = some (.session i) → w.origin = some (.session i) := by
    cases hasked with
    | kept => exact origin_of_kept
    | cleared => exact nofun
    | beaten hstores => exact id
  refine ⟨fun hmade hc => ?_, fun hr => hdone (h.done (hrearmed.mp hr)), fun hmade => ?_⟩
  · rw [horigin] at hmade
    exact h.begun (hbefore hmade) (hearly hc)
  · rw [horigin] at hmade
    obtain ⟨lock, hstores, hlock⟩ := h.stored (hbefore hmade)
    rw [hfile]
    cases hasked with
    | kept => exact ⟨lock, hstores, hlock.congr hrearmed⟩
    | cleared => cases hmade
    | beaten hstores' =>
      obtain rfl := hstores.unique hstores'
      exact ⟨_, stores_heartbeat hstores.2 _, (hlock.beat _).congr hrearmed⟩

theorem Handed.freed {w w₁ w' : World} {now : Time} {i j : Nat} {holder : String} {es fs : List Event}
    (h : Handed party i es w) (hfreed : Freed w j now holder w₁) (hfile : w'.file = w₁.file)
    (horigin : w'.origin = w₁.origin) (hrearmed : Rearmed i fs ↔ Rearmed i es)
    (hearly : Cli.Early (w'.cli i) → Cli.Early (w.cli i)) (hdone : w.cli i = .exited → w'.cli i = .exited) :
    Handed party i fs w' := by
  cases hfreed with
  | nothing hasked hremoved => exact h.asked hasked hfile horigin hrearmed hearly hdone
  | taken hlive huser =>
    have hnone : w'.origin ≠ some (.session i) := by
      rw [horigin]
      simp
    exact ⟨fun hmade => absurd hmade hnone, fun hr => hdone (h.done (hrearmed.mp hr)), fun hmade => absurd hmade hnone⟩

theorem early_setCli {w : World} {i j : Nat} {c : Cli} (hc : Cli.Early c → Cli.Early (w.cli j))
    (h : Cli.Early ((w.setCli j c).cli i)) : Cli.Early (w.cli i) := by
  by_cases hj : j = i
  · subst hj
    exact hc (by simpa [setCli] using h)
  · simpa [setCli, Function.update_of_ne (Ne.symm hj)] using h

theorem done_setCli {w : World} {i j : Nat} {c : Cli} (hc : w.cli j = .exited → c = .exited)
    (h : w.cli i = .exited) : (w.setCli j c).cli i = .exited :=
  @setCli_cli w i j c (· = .exited) h fun hj => hc (hj ▸ h)

/-- `acquired`, or the answer was lost. -/
theorem not_early_fresh {p : Party} {lock : Dict} {answered : Bool} :
    ¬ Cli.Early (if answered then
        onPost casefold p (.ok ⟨200, .record (Dict.set lock "previous_user" .null)⟩) else .exited) := by
  cases answered with
  | false => simp [Cli.Early]
  | true => simp [onPost, Dict.get_set_self, Cli.Early]

/-- The first request of a detached command. -/
theorem handed_post {w : World} {i : Nat} {now : Time} {answered : Bool} {es : List Event} {r : World × Answer}
    (h : Handed party i es w) (hdetach : (party i).detach = true) (hcli : w.cli i = .posting)
    (hposted : Posted w (.session i) now (party i).holder (some (.str (party i).holderType))
      (some (ttlJson (party i).askedTtl)) r) :
    Handed party i (es ++ [.post i now answered])
      (r.1.setCli i (if answered then onPost casefold (party i) r.2 else .exited)) := by
  have hnot : ¬ w.origin = some (.session i) := fun hmade => h.begun hmade (.inr hcli)
  have hidle : ¬ Rearmed i (es ++ [Event.post i now answered]) := by
    rw [rearmed_append (fun _ => by simp)]
    intro hr
    cases hcli.symm.trans (h.done hr)
  have hauto := isAuto_holderType (party i)
  refine ⟨fun hmade => ?_, fun hr => absurd hr hidle, fun hmade => ?_⟩
  · cases hposted with
    | refused hanswer => exact absurd (origin_of_kept hmade) hnot
    | fresh hnorm hne hfree =>
      simp only [setCli, Function.update_self]
      exact not_early_fresh
    | renewed hnorm hlive hne huser => exact absurd hmade hnot
  · cases hposted with
    | refused hanswer => exact absurd (origin_of_kept hmade) hnot
    | fresh hnorm hne hfree =>
      rw [normalize_auto hauto] at hnorm
      cases hnorm
      refine ⟨_, stores_fresh _ _ _ _, readably_fresh hne _ _ _, not_reservation hauto (freshLock_holderType _ _ _ _),
        fun hr => absurd hr hidle, fun _ => ?_⟩
      rw [freshLock_ttl, Party.askedTtl, if_pos hdetach]
      rfl
    | renewed hnorm hlive hne huser => exact absurd hmade hnot

theorem live_of_null {file : LockFile} {lock : Dict} (hstores : Stores file lock)
    (hnull : Dict.get lock "ttl_seconds" = .null) (now : Time) : Live file now lock :=
  ⟨hstores, by rw [isExpired, if_pos hnull]⟩

/-- The hand-over's request: a lock that does not expire is there to be renewed. -/
theorem handed_rearm {w : World} {i : Nat} {now : Time} {es : List Event} (h : Handed party i es w)
    (hcli : w.cli i = .rearming) :
    Handed party i (es ++ [.handPost i now]) ((w.handoverPost party i now).1.setCli i .exited) := by
  have hexited : ((w.handoverPost party i now).1.setCli i .exited).cli i = .exited := by simp [setCli]
  have hnow : Rearmed i (es ++ [Event.handPost i now]) := ⟨now, by simp⟩
  have hauto := isAuto_holderType (party i)
  refine ⟨fun _ hearly => ?_, fun _ => hexited, fun hmade => ?_⟩
  · rw [hexited] at hearly
    exact Cli.Late.not_early (.inr (.inr rfl)) hearly
  · have hbefore : w.origin = some (.session i) := by
      rcases (post_cases w (.handover i) now (party i).holder _ _).origin_eq hmade with hnew | hbefore
      · cases hnew
      · exact hbefore
    obtain ⟨lock, hstores, hlock⟩ := h.stored hbefore
    have hidle : ¬ Rearmed i es := by
      intro hr
      cases hcli.symm.trans (h.done hr)
    have hlive := live_of_null hstores (hlock.unarmed hidle) now
    have hpost := post_renewed hlock.readably.named (normalize_auto hauto (party i).rearmTtl) hlive
      hlock.readably.holder (.handover i)
    have hclass := refreshed_auto hlock.auto (.str (party i).holder) now (party i).holderType
      ((party i).rearmTtl.map (max 1))
    refine ⟨_, ?_, hlock.readably.refresh hlock.readably.holder now _ _, not_reservation hauto hclass.1,
      fun _ => hclass.2, fun hr => absurd hnow hr⟩
    show Stores (w.handoverPost party i now).1.file _
    rw [handoverPost, hpost]
    exact stores_refreshed _ _ _ _ _

theorem handed_step {w w' : World} {e : Event} {i : Nat} {es : List Event} (h : Handed party i es w)
    (hdetach : (party i).detach = true) (halone : e.sender = some i) (hstep : w.step casefold party e = some w') :
    Handed party i (es ++ [e]) w' := by
  cases step_moves hstep with
  | turns he hc hearly hlate hdone =>
    have hrearmed : Rearmed i (es ++ [e]) ↔ Rearmed i es := rearmed_append (ne_handPost he i)
    refine ⟨fun hmade hc => h.begun hmade (early_setCli hearly hc), fun hr => ?_, fun hmade => ?_⟩
    · exact done_setCli hdone (h.done (hrearmed.mp hr))
    · obtain ⟨lock, hstores, hlock⟩ := h.stored hmade
      exact ⟨lock, hstores, hlock.congr hrearmed⟩
  | asks he hask hc hearly hlate hdone =>
    have hasked := ask_cases w hask
    rw [← hasked.cli.1] at hearly hdone
    refine h.asked hasked rfl rfl (rearmed_append (ne_handPost he i)) (fun hc => ?_) fun hend => ?_
    · rw [← hasked.cli.1]
      exact early_setCli hearly hc
    · rw [← hasked.cli.1] at hend
      exact done_setCli hdone hend
  | beats he hask =>
    have hasked := ask_cases w hask
    refine h.asked hasked rfl rfl (rearmed_append (ne_handPost he i)) ?_ ?_ <;> rw [hasked.cli.1] <;> exact id
  | posts hcli =>
    cases halone
    exact handed_post h hdetach hcli (post_cases _ _ _ _ _ _)
  | rearms hcli =>
    cases halone
    exact handed_rearm h hcli
  | reserves => cases halone
  | @exits j now answered hcli =>
    cases halone
    have hfreed := free_cases w i now (party i).holder
    have hrearmed : Rearmed i (es ++ [Event.exit i now answered]) ↔ Rearmed i es := rearmed_append (by simp)
    split
    · refine h.freed hfreed rfl rfl hrearmed (fun hc => ?_) fun _ => by simp [setCli]
      simp [setCli, Cli.Early] at hc
    · refine h.freed hfreed rfl rfl hrearmed ?_ ?_ <;> rw [hfreed.cli.1] <;> exact id
  | @launches j confirmed hcli =>
    cases halone
    have hrearmed : Rearmed i (es ++ [Event.launch i confirmed]) ↔ Rearmed i es := rearmed_append (by simp)
    refine ⟨fun _ hc => ?_, fun hr => ?_, fun hmade => ?_⟩
    · cases confirmed <;> simp [setJob, setCli, Cli.Early] at hc
    · cases hcli.symm.trans (h.done (hrearmed.mp hr))
    · obtain ⟨lock, hstores, hlock⟩ := h.stored hmade
      exact ⟨lock, hstores, hlock.congr hrearmed⟩
  | @ends j now hjob =>
    cases halone
    have hfreed := free_cases w i now (party i).holder
    refine h.freed hfreed rfl rfl (rearmed_append (by simp)) ?_ ?_
    · show Cli.Early ((w.free i now (party i).holder).cli i) → _
      rw [hfreed.cli.1]
      exact id
    · show _ → (w.free i now (party i).holder).cli i = .exited
      rw [hfreed.cli.1]
      exact id

/-- **The lock of a detached run lapses exactly when its hand-over had to ask for it.** In every run of a detached
command with its hand-over, its heartbeats and its job, and in every state of it, after the hand-over as before: if
the stored lock is the one that the command took, it has a TTL if and only if the hand-over's `POST /lock` has
reached the box, with a TTL. A hand-over whose `GET /lock` finds the lock never sends that request. -/
theorem handed_over_ttl {file : LockFile} {es : List Event} {w : World} {i : Nat} {lock : Dict}
    (hdetach : (party i).detach = true) (halone : ∀ e ∈ es, e.sender = some i)
    (hrun : Lib.run (step casefold party) (start file) es = some w) (hstores : Stores w.file lock)
    (hmade : w.origin = some (.session i)) :
    Dict.get lock "ttl_seconds" ≠ .null ↔ (∃ now, .handPost i now ∈ es) ∧ (party i).rearmTtl ≠ none := by
  have hstart : (∀ e ∈ ([] : List Event), e.sender = some i) → Handed party i [] (start file) := fun _ =>
    ⟨nofun, fun ⟨_, hmem⟩ => by simp at hmem, nofun⟩
  have hnext : ∀ (es : List Event) (w : World) (e : Event) (w' : World),
      ((∀ e ∈ es, e.sender = some i) → Handed party i es w) → w.step casefold party e = some w' →
        (∀ d ∈ es ++ [e], d.sender = some i) → Handed party i (es ++ [e]) w' := by
    intro es w e w' h hstep hall
    rw [List.forall_mem_append, List.forall_mem_singleton] at hall
    exact handed_step (h hall.1) hdetach hall.2 hstep
  have hhanded := Lib.run_history (fun es w => (∀ e ∈ es, e.sender = some i) → Handed party i es w) hnext hstart hrun
    halone
  obtain ⟨lock', hstores', hlock⟩ := hhanded.stored hmade
  obtain rfl := hstores.unique hstores'
  by_cases hr : Rearmed i es
  · rw [hlock.armed hr]
    cases httl : (party i).rearmTtl with
    | none => simp [ttlJson]
    | some ttl => simpa [ttlJson] using show ∃ now, .handPost i now ∈ es from hr
  · rw [hlock.unarmed hr]
    exact ⟨fun hne => absurd rfl hne, fun hboth => absurd hboth.1 hr⟩

/-- The hand-over finds the lock, and the command returns. -/
def ordinaryHandover : List Event := [.get 0 0 true, .post 0 0 true, .launch 0 true, .handGet 0 1 true, .jobBeat 0 2]

/-- The lock is stored without a TTL after the hand-over. -/
theorem ordinaryHandover_never_lapses :
    ∃ w lock, Lib.run (step id fun _ => detached) (start .absent) ordinaryHandover = some w ∧ w.cli 0 = .exited ∧
      Stores w.file lock ∧ w.origin = some (.session 0) ∧ Dict.get lock "ttl_seconds" = .null := by
  have hrun : (Lib.run (step id fun _ => detached) (start .absent) ordinaryHandover).map
      (fun w => (w.cli 0, w.origin, w.file)) =
        some (.exited, some (.session 0), writeLock (freshLock (.str "dev") 2 "ephemeral" none)) := by
    decide +kernel
  obtain ⟨w, hw, hlast⟩ := Option.map_eq_some_iff.mp hrun
  simp only [Prod.mk.injEq] at hlast
  refine ⟨w, _, hw, hlast.1, ?_, hlast.2.1, freshLock_ttl (.str "dev") 2 "ephemeral" none⟩
  rw [hlast.2.2]
  exact stores_fresh _ _ _ _

/-- The answer to the hand-over's look is lost, and it asks. -/
def lostLook : List Event :=
  [.get 0 0 true, .post 0 0 true, .launch 0 true, .handGet 0 1 false, .handPost 0 2, .jobBeat 0 3]

theorem lostLook_lapses :
    ∃ w lock, Lib.run (step id fun _ => detached) (start .absent) lostLook = some w ∧ w.cli 0 = .exited ∧
      Stores w.file lock ∧ w.origin = some (.session 0) ∧ Dict.get lock "ttl_seconds" ≠ .null := by
  have hrun : (Lib.run (step id fun _ => detached) (start .absent) lostLook).map
      (fun w => (w.cli 0, w.origin, w.file)) =
        some (.exited, some (.session 0), writeLock (freshLock (.str "dev") 3 "ephemeral" (some 1800))) := by
    decide +kernel
  obtain ⟨w, hw, hlast⟩ := Option.map_eq_some_iff.mp hrun
  simp only [Prod.mk.injEq] at hlast
  have hstores : Stores w.file (freshLock (.str "dev") 3 "ephemeral" (some 1800)) := by
    rw [hlast.2.2]
    exact stores_fresh _ _ _ _
  refine ⟨w, _, hw, hlast.1, hstores, hlast.2.1, (handed_over_ttl rfl ?_ hw hstores hlast.2.1).mpr ⟨⟨2, ?_⟩, nofun⟩⟩
  · simp [lostLook, Event.sender]
  · simp [lostLook]

end Lager.Lock.World
