import Lager.Lock.Requests

/-!
# What the exit of a session takes away

A session that acquired the lock, and a detached job, release by the holder string alone. As long as such a release
is still to come, the record that is stored under its holder must be its own (`Kept`). A request for the same holder
breaks that in two ways: a reservation, which rewrites the class of the auto-lock that it finds, and any request that
comes when the lock has expired or was forced away, which makes a new record. Where neither happens while a release
is still to come, no release takes what is not its own.
-/

namespace Lager.Lock.World

open Lager.Py

variable (casefold : List Char → List Char) (party : Nat → Party)

/-- A release of the party is still to come. -/
def Owner (w : World) (j : Nat) : Prop := w.cli j = .owns ∨ w.job j = .running

/-- The record that is stored under the holder is an auto-lock that the party made. -/
def Mine (w : World) (j : Nat) : Prop :=
  ∀ lock, Stores w.file lock → Dict.get lock "user" = .str (party j).holder →
    w.origin.any (Maker.isOf j) = true ∧ ¬ Reservation lock

def Kept (w : World) : Prop := ∀ j, w.Owner j → w.Mine party j

/-- What a removal may take: an auto-lock that the party made itself. -/
def OwnRemoval (r : Removal) : Prop := r.origin.any (Maker.isOf r.party) = true ∧ ¬ Reservation r.lock

/-- A live lock is stored under the holder. -/
def Holds (w : World) (now : Time) (holder : String) : Prop :=
  ∃ lock, Live w.file now lock ∧ Dict.get lock "user" = .str holder

/-- While the release of another party with the same holder is still to come, the request finds the lock, and it is
not for a reservation. -/
def Respects (w : World) : Event → Prop
  | .post i now _ | .handPost i now =>
    ∀ j, j ≠ i → w.Owner j → (party j).holder = (party i).holder → w.Holds now (party i).holder
  | .reserve user _ _ => ∀ j, w.Owner j → (party j).holder ≠ user
  | _ => True

/-! ### One request -/

variable {casefold party}

theorem Mine.congr {w w' : World} {j : Nat} (h : w.Mine party j) (hfile : w'.file = w.file)
    (horigin : w'.origin = w.keptOrigin ∨ w'.origin = w.origin) : w'.Mine party j := by
  intro lock hstores huser
  rw [hfile] at hstores
  have hsame : w'.origin = w.origin := by
    rcases horigin with hkept | hsame
    · rw [hkept, keptOrigin, if_neg]
      rw [hstores.1]
      simp
    · exact hsame
  rw [hsame]
  exact h lock hstores huser

theorem mine_absent {w : World} (h : w.file = .absent) (j : Nat) : w.Mine party j := by
  intro lock hstores
  cases h.symm.trans hstores.1

theorem Asked.mine {w w' : World} {now : Time} {j : Nat} (hasked : Asked w now w') (h : w.Mine party j) :
    w'.Mine party j := by
  cases hasked with
  | kept => exact h.congr rfl (.inl rfl)
  | cleared => exact mine_absent rfl j
  | @beaten lock hstores =>
    intro lock' hstores' huser
    have heq : Dict.set lock "last_heartbeat" (nowUtcIso now) = lock' :=
      (stores_heartbeat hstores.2 _).unique hstores'
    subst heq
    rw [Dict.get_set_ne _ _ (by decide)] at huser
    obtain ⟨horigin, hauto⟩ := h lock hstores huser
    refine ⟨horigin, ?_⟩
    rw [Reservation, Dict.get_set_ne _ _ (by decide)]
    exact hauto

theorem Asked.cli {w w' : World} {now : Time} (h : Asked w now w') : w'.cli = w.cli ∧ w'.job = w.job := by
  cases h <;> exact ⟨rfl, rfl⟩

theorem Posted.cli {w : World} {maker : Maker} {now : Time} {user : String} {holderType ttlSeconds : Field}
    {r : World × Answer} (h : Posted w maker now user holderType ttlSeconds r) :
    r.1.cli = w.cli ∧ r.1.job = w.job ∧ r.1.removed = w.removed := by
  cases h <;> exact ⟨rfl, rfl, rfl⟩

/-- The class that a request of a party writes. -/
def IsAuto (holderType : String) : Prop := holderType = "ephemeral" ∨ holderType = "ci"

theorem isAuto_holderType (p : Party) : IsAuto p.holderType := by
  unfold Party.holderType IsAuto
  split <;> simp

theorem normalize_auto {holderType : String} (h : IsAuto holderType) (ttl : Option Int) :
    normalize (some (.str holderType)) (some (ttlJson ttl)) = .ok (holderType, ttl.map (max 1)) := by
  rcases h with rfl | rfl <;> cases ttl <;> simp [normalize, normalizeHolderType, normalizeTtl, ttlJson, Except.map]

theorem refreshed_auto {lock : Dict} (hauto : ¬ Reservation lock) (user : Json) (now : Time) (holderType : String)
    (ttl : Option Int) :
    Dict.get (refreshed lock user now holderType ttl) "holder_type" = .str holderType ∧
      Dict.get (refreshed lock user now holderType ttl) "ttl_seconds" = ttlJson ttl := by
  have hclass : Dict.get lock "holder_type" = .str "ephemeral" ∨ Dict.get lock "holder_type" = .str "ci" :=
    not_not.mp hauto
  unfold refreshed
  simp only [hclass, if_true]
  exact ⟨by rw [Dict.get_set_ne _ _ (by decide), Dict.get_set_self], Dict.get_set_self _ _ _⟩

theorem not_reservation {lock : Dict} {holderType : String} (h : IsAuto holderType)
    (hlock : Dict.get lock "holder_type" = .str holderType) : ¬ Reservation lock := by
  rw [Reservation, hlock, not_not]
  exact h.imp (congrArg Json.str) (congrArg Json.str)

theorem freshLock_user (user : Json) (now : Time) (holderType : String) (ttl : Option Int) :
    Dict.get (freshLock user now holderType ttl) "user" = user := rfl

theorem freshLock_holderType (user : Json) (now : Time) (holderType : String) (ttl : Option Int) :
    Dict.get (freshLock user now holderType ttl) "holder_type" = .str holderType := rfl

theorem freshLock_ttl (user : Json) (now : Time) (holderType : String) (ttl : Option Int) :
    Dict.get (freshLock user now holderType ttl) "ttl_seconds" = ttlJson ttl := rfl

theorem stores_fresh (user : Json) (now : Time) (holderType : String) (ttl : Option Int) :
    Stores (writeLock (freshLock user now holderType ttl)) (freshLock user now holderType ttl) :=
  ⟨rfl, rfl⟩

/-- A request for an auto-lock leaves every other party its own, unless it makes a record under its holder. -/
theorem Posted.mine {w : World} {maker : Maker} {now : Time} {user holderType : String} {ttl : Option Int}
    {r : World × Answer} (hauto : IsAuto holderType)
    (hposted : Posted w maker now user (some (.str holderType)) (some (ttlJson ttl)) r) {j : Nat}
    (h : w.Mine party j) (hok : maker.isOf j = true ∨ (party j).holder ≠ user ∨ w.Holds now user) :
    r.1.Mine party j := by
  cases hposted with
  | refused hanswer => exact h.congr rfl (.inl rfl)
  | fresh hnorm hne hfree =>
    rw [normalize_auto hauto] at hnorm
    cases hnorm
    intro lock hstores hholder
    obtain rfl := (stores_fresh _ _ _ _).unique hstores
    rw [freshLock_user, Json.str.injEq] at hholder
    rcases hok with hmaker | hother | ⟨lock, hlive, -⟩
    · exact ⟨hmaker, not_reservation hauto (freshLock_holderType _ _ _ _)⟩
    · exact absurd hholder.symm hother
    · exact absurd hlive (hfree lock)
  | @renewed lock _ _ hnorm hlive hne huser =>
    rw [normalize_auto hauto] at hnorm
    cases hnorm
    intro lock' hstores hholder
    obtain rfl := (stores_refreshed _ _ _ _ _).unique hstores
    rw [refreshed_user, Json.str.injEq] at hholder
    obtain ⟨horigin, hclass⟩ := h lock hlive.1 (by rw [huser, hholder])
    exact ⟨horigin, not_reservation hauto (refreshed_auto hclass _ _ _ _).1⟩

/-- A reservation leaves alone what is stored under another holder. -/
theorem Posted.mine_of_ne {w : World} {maker : Maker} {now : Time} {user : String} {holderType ttlSeconds : Field}
    {r : World × Answer} (hposted : Posted w maker now user holderType ttlSeconds r) {j : Nat}
    (h : w.Mine party j) (hother : (party j).holder ≠ user) : r.1.Mine party j := by
  cases hposted with
  | refused hanswer => exact h.congr rfl (.inl rfl)
  | fresh hnorm hne hfree =>
    intro lock hstores hholder
    obtain rfl := (stores_fresh _ _ _ _).unique hstores
    rw [freshLock_user, Json.str.injEq] at hholder
    exact absurd hholder.symm hother
  | renewed hnorm hlive hne huser =>
    intro lock' hstores hholder
    obtain rfl := (stores_refreshed _ _ _ _ _).unique hstores
    rw [refreshed_user, Json.str.injEq] at hholder
    exact absurd hholder.symm hother

theorem holderIsOurs_self (casefold : List Char → List Char) {holder : String} (hne : holder ≠ "") (user : String) :
    holderIsOurs casefold holder holder user = true := by
  unfold holderIsOurs
  rw [if_neg hne, if_pos ⟨hne, rfl⟩]

/-- `acquired` means that the request made the record. -/
theorem Posted.owns {w : World} {i : Nat} {now : Time} {ttl : Option Int} {r : World × Answer}
    (hposted : Posted w (.session i) now (party i).holder (some (.str (party i).holderType)) (some (ttlJson ttl)) r)
    (h : onPost casefold (party i) r.2 = .owns) : r.1.Mine party i := by
  have hauto := isAuto_holderType (party i)
  cases hposted with
  | refused hanswer =>
    unfold onPost at h
    split at h
    · rename_i heq
      exact absurd heq (hanswer _)
    · split at h <;> cases h
    · cases h
  | fresh hnorm hne hfree =>
    rw [normalize_auto hauto] at hnorm
    cases hnorm
    intro lock hstores hholder
    obtain rfl := (stores_fresh _ _ _ _).unique hstores
    refine ⟨by simp [Maker.isOf], not_reservation hauto (freshLock_holderType _ _ _ _)⟩
  | renewed hnorm hlive hne huser =>
    simp only [onPost, Dict.get_set_self] at h
    simp [ours, Json.truthy, hne, holderIsOurs_self casefold hne] at h

/-! ### Steps -/

variable (party)

/-- Every party that is to release keeps its own, and every release so far took its own. -/
structure Sound (w : World) : Prop where
  kept : w.Kept party
  removed : ∀ r ∈ w.removed, OwnRemoval r

variable {party}

theorem owner_setCli {w : World} {i j : Nat} {c : Cli} (h : (w.setCli i c).Owner j) :
    w.Owner j ∨ (j = i ∧ c = .owns) := by
  rcases h with hcli | hjob
  · by_cases hj : j = i
    · subst hj
      have hc : c = .owns := by simpa [setCli] using hcli
      exact .inr ⟨rfl, hc⟩
    · left
      left
      simpa [setCli, Function.update_of_ne hj] using hcli
  · exact .inl (.inr hjob)

theorem Sound.setCli {w : World} (h : Sound party w) {i : Nat} {c : Cli} (hc : c = .owns → w.Mine party i) :
    Sound party (w.setCli i c) := by
  refine ⟨fun j howner => ?_, h.removed⟩
  rcases owner_setCli howner with hbefore | ⟨rfl, heq⟩
  · exact h.kept j hbefore
  · exact hc heq

theorem Sound.asked {w w' : World} {now : Time} (h : Sound party w) (hasked : Asked w now w') : Sound party w' := by
  refine ⟨fun j howner => hasked.mine (h.kept j ?_), ?_⟩
  · rwa [Owner, hasked.cli.1, hasked.cli.2] at howner
  · rw [hasked.removed]
    exact h.removed

theorem Sound.posted {w : World} {maker : Maker} {now : Time} {user : String} {holderType ttlSeconds : Field}
    {r : World × Answer} (h : Sound party w) (hposted : Posted w maker now user holderType ttlSeconds r)
    (hmine : ∀ j, w.Owner j → r.1.Mine party j) : Sound party r.1 := by
  refine ⟨fun j howner => hmine j ?_, ?_⟩
  · rwa [Owner, hposted.cli.1, hposted.cli.2.1] at howner
  · rw [hposted.cli.2.2]
    exact h.removed

/-- The release of a party that was to release takes its own, or nothing. -/
theorem Sound.freed {w w' : World} {i : Nat} {now : Time} (h : Sound party w) (howner : w.Owner i)
    (hfreed : Freed w i now (party i).holder w') : Sound party w' := by
  cases hfreed with
  | nothing hasked hremoved => exact h.asked hasked
  | @taken lock hlive huser =>
    refine ⟨fun j _ => mine_absent rfl j, fun r hr => ?_⟩
    rcases List.mem_append.mp hr with hold | hnew
    · exact h.removed r hold
    · obtain rfl := List.mem_singleton.mp hnew
      exact h.kept i howner lock hlive.1 huser

theorem ask_sound {w : World} (h : Sound party w) (c : TimedCall) (hask : IsAsk c) : Sound party (w.ask c).1 :=
  h.asked (ask_cases w hask)

theorem freed_setJob {w : World} (h : Sound party w) {i : Nat} {now : Time} (hjob : w.job i = .running) :
    Sound party ((w.free i now (party i).holder).setJob i .ended) := by
  have hfree := h.freed (.inr hjob) (free_cases w i now (party i).holder)
  refine ⟨fun j howner => ?_, hfree.removed⟩
  refine hfree.kept j ?_
  rcases howner with hcli | hrunning
  · exact .inl hcli
  · right
    by_cases hj : j = i
    · subst hj
      simp [setJob] at hrunning
    · simpa [setJob, Function.update_of_ne hj] using hrunning

/-- A party's own request leaves every other release what it is to take. -/
theorem sessionPost_mine {w : World} {i : Nat} {now : Time} (h : Sound party w)
    (hok : ∀ j, j ≠ i → w.Owner j → (party j).holder = (party i).holder → w.Holds now (party i).holder)
    {maker : Maker} (hmaker : maker.isOf i = true) {ttl : Option Int} {r : World × Answer}
    (hposted : Posted w maker now (party i).holder (some (.str (party i).holderType)) (some (ttlJson ttl)) r)
    (j : Nat) (howner : w.Owner j) : r.1.Mine party j := by
  refine hposted.mine (isAuto_holderType (party i)) (h.kept j howner) ?_
  by_cases hj : j = i
  · subst hj
    exact .inl hmaker
  · by_cases hholder : (party j).holder = (party i).holder
    · exact .inr (.inr (hok j hj howner hholder))
    · exact .inr (.inl hholder)

theorem sound_step {w w' : World} {e : Event} (h : Sound party w) (hok : Respects party w e)
    (hstep : w.step casefold party e = some w') : Sound party w' := by
  cases step_moves hstep with
  | turns he hc hearly hlate hdone => exact h.setCli fun howns => absurd howns hc
  | asks he hask hc hearly hlate hdone => exact (ask_sound h _ hask).setCli fun howns => absurd howns hc
  | beats he hask => exact ask_sound h _ hask
  | @posts i now answered hcli =>
    have hposted := post_cases w (.session i) now (party i).holder (some (.str (party i).holderType))
      (some (ttlJson (party i).askedTtl))
    refine (h.posted hposted (sessionPost_mine h hok (by simp [Maker.isOf]) hposted)).setCli fun howns => ?_
    split at howns
    · exact hposted.owns howns
    · cases howns
  | @rearms i now hcli =>
    have hposted := post_cases w (.handover i) now (party i).holder (some (.str (party i).holderType))
      (some (ttlJson (party i).rearmTtl))
    exact (h.posted hposted (sessionPost_mine h hok (by simp [Maker.isOf]) hposted)).setCli nofun
  | @reserves user ttlSeconds now =>
    have hposted := post_cases w .reservation now user (some (.str "user")) ttlSeconds
    exact h.posted hposted fun j howner => hposted.mine_of_ne (h.kept j howner) (hok j howner)
  | @exits i now answered hcli =>
    have hfree := h.freed (.inl hcli) (free_cases w i now (party i).holder)
    split
    · exact hfree.setCli nofun
    · exact hfree
  | @launches i confirmed hcli =>
    refine ⟨fun j howner => h.kept j ?_, h.removed⟩
    by_cases hj : j = i
    · exact .inl (hj ▸ hcli)
    · simpa [Owner, setJob, setCli, Function.update_of_ne hj] using howner
  | ends hjob => exact freed_setJob h hjob

/-- **A release takes its own lock, unless its holder was used by another.** In every run of sessions, detached jobs,
reservations and forced releases, with holders that may be equal, locks that expire and requests whose answers are
lost: what the exit of a session or the end of a job removes is an auto-lock that it made itself, as long as no
reservation is made under a holder whose release is still to come, and no request under it comes from another party
when its lock is gone. -/
theorem release_takes_own {file : LockFile} {es : List Event} {w : World}
    (hrun : Lib.run (step casefold party) (start file) es = some w)
    (hok : Lib.Along (step casefold party) (Respects party) (start file) es) : ∀ r ∈ w.removed, OwnRemoval r := by
  have hstart : Sound party (start file) := by
    refine ⟨fun j howner => ?_, by simp [start]⟩
    rcases howner with hcli | hjob
    · cases hcli
    · cases hjob
  exact (Lib.run_invariant (Sound party) (fun _ _ _ hok h hstep => sound_step h hok hstep) hok hstart hrun).removed

/-- Commands of one developer. -/
def developer : Party := ⟨"dev", "dev", false, some 1800, false, some 1800⟩

/-- Two commands at once: the second one finds the lock of the first, and leaves it. -/
def twoCommands : List Event := [.get 0 0 true, .post 0 0 true, .get 1 1 true, .exit 0 2 true, .leave 1]

theorem twoCommands_take_own :
    ∃ w, Lib.run (step id fun _ => developer) (start .absent) twoCommands = some w ∧ w.removed.length = 1 ∧
      ∀ r ∈ w.removed, OwnRemoval r := by
  have hrun : (Lib.run (step id fun _ => developer) (start .absent) twoCommands).map (fun w => w.removed.length) =
      some 1 := by
    decide +kernel
  obtain ⟨w, hw, hlength⟩ := Option.map_eq_some_iff.mp hrun
  refine ⟨w, hw, hlength, release_takes_own hw ?_⟩
  refine ⟨trivial, fun w₁ h₁ => ⟨fun j hj howner => ?_, fun w₂ _ => ⟨trivial, fun w₃ _ => ⟨trivial, fun w₄ _ =>
    ⟨trivial, fun _ _ => trivial⟩⟩⟩⟩⟩
  -- no other command has begun
  cases h₁
  rcases howner with hcli | hjob
  · simp [setCli, Function.update_of_ne hj, ask, start] at hcli
  · cases hjob

/-- A command of the developer runs, and the developer reserves the box meanwhile. -/
def reservedMeanwhile : List Event := [.get 0 0 true, .post 0 0 true, .reserve "dev" none 1, .exit 0 2 true]

/-- The exit of the command removes the reservation. -/
theorem reservation_is_removed :
    ∃ w, Lib.run (step id fun _ => developer) (start .absent) reservedMeanwhile = some w ∧
      ∃ r ∈ w.removed, Dict.get r.lock "holder_type" = .str "user" ∧ ¬ OwnRemoval r := by
  have hrun : (Lib.run (step id fun _ => developer) (start .absent) reservedMeanwhile).map
      (fun w => w.removed.map fun r => Dict.get r.lock "holder_type") = some [.str "user"] := by
    decide +kernel
  obtain ⟨w, hw, htypes⟩ := Option.map_eq_some_iff.mp hrun
  obtain ⟨r, hr, htype⟩ := List.mem_map.mp (htypes ▸ List.mem_singleton_self (Json.str "user"))
  refine ⟨w, hw, r, hr, htype, fun hown => hown.2 ?_⟩
  rw [Reservation, htype]
  decide

end Lager.Lock.World
