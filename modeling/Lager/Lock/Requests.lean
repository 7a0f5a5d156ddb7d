import Lager.Lock.Sessions

/-!
# What a request does to the stored record

One inversion for each kind of request of a session: `POST /lock` is refused, makes a record or renews one
(`Posted`); every other request keeps the record, stamps it or clears it (`Asked`); and a release takes away a live
record of its holder, or nothing (`Freed`).
-/

namespace Lager.Lock

open Lager.Py

namespace World

/-- The origin of a file that nothing was written to. -/
def keptOrigin (w : World) : Option Maker := if w.file = .absent then none else w.origin

inductive Posted (w : World) (maker : Maker) (now : Time) (user : String) (holderType ttlSeconds : Field) :
    World × Answer → Prop
  | refused {answer : Answer} (hanswer : ∀ body, answer ≠ .ok ⟨200, body⟩) :
      Posted w maker now user holderType ttlSeconds ({ w with origin := w.keptOrigin }, answer)
  | fresh {normType : String} {ttl : Option Int} (hnorm : normalize holderType ttlSeconds = .ok (normType, ttl))
      (hne : user ≠ "") (hfree : ∀ lock, ¬ Live w.file now lock) :
      Posted w maker now user holderType ttlSeconds
        ({ w with file := writeLock (freshLock (.str user) now normType ttl), origin := some maker },
          .ok ⟨200, .record (Dict.set (freshLock (.str user) now normType ttl) "previous_user" .null)⟩)
  | renewed {lock : Dict} {normType : String} {ttl : Option Int}
      (hnorm : normalize holderType ttlSeconds = .ok (normType, ttl)) (hlive : Live w.file now lock)
      (hne : user ≠ "") (huser : Dict.get lock "user" = .str user) :
      Posted w maker now user holderType ttlSeconds
        ({ w with file := writeLock (refreshed lock (.str user) now normType ttl) },
          .ok ⟨200, .record (Dict.set (refreshed lock (.str user) now normType ttl) "previous_user" (.str user))⟩)

theorem made_eq_false {answer : Answer} (h : ∀ body, answer ≠ .ok ⟨200, body⟩) : made answer = false := by
  unfold made
  split
  · exact absurd rfl (h _)
  · rfl

theorem refuse_ne_ok {code : Nat} (hcode : code ≠ 200) (lock : Dict) (body : Body) :
    refuse code lock ≠ .ok ⟨200, body⟩ := by
  unfold refuse
  split <;> simp [hcode]

theorem post_refused {w : World} {maker : Maker} {now : Time} {user : String} {holderType ttlSeconds : Field}
    (answer : Answer) (h : acquire now (.str user) holderType ttlSeconds w.file = (w.file, answer))
    (hanswer : ∀ body, answer ≠ .ok ⟨200, body⟩) :
    Posted w maker now user holderType ttlSeconds (w.post maker now user holderType ttlSeconds) := by
  have hpost : w.post maker now user holderType ttlSeconds = ({ w with origin := w.keptOrigin }, answer) := by
    simp [post, h, made_eq_false hanswer, keptOrigin]
  rw [hpost]
  exact .refused hanswer

theorem post_fresh {w : World} {maker : Maker} {now : Time} {user : String} {holderType ttlSeconds : Field}
    {normType : String} {ttl : Option Int} (hne : user ≠ "")
    (hnorm : normalize holderType ttlSeconds = .ok (normType, ttl)) {file : LockFile}
    (hread : readLock now w.file = (file, .ok none)) (hfree : ∀ lock, ¬ Live w.file now lock) :
    Posted w maker now user holderType ttlSeconds (w.post maker now user holderType ttlSeconds) := by
  have hpost : w.post maker now user holderType ttlSeconds =
      ({ w with file := writeLock (freshLock (.str user) now normType ttl), origin := some maker },
        .ok ⟨200, .record (Dict.set (freshLock (.str user) now normType ttl) "previous_user" .null)⟩) := by
    simp [post, acquire, Json.truthy, hne, hnorm, hread, made]
  rw [hpost]
  exact .fresh hnorm hne hfree

theorem post_renewed {w : World} {now : Time} {lock : Dict} {user : String} {holderType ttlSeconds : Field}
    {normType : String} {ttl : Option Int} (hne : user ≠ "")
    (hnorm : normalize holderType ttlSeconds = .ok (normType, ttl)) (hlive : Live w.file now lock)
    (huser : Dict.get lock "user" = .str user) (maker : Maker) :
    w.post maker now user holderType ttlSeconds =
      ({ w with file := writeLock (refreshed lock (.str user) now normType ttl) },
        .ok ⟨200, .record (Dict.set (refreshed lock (.str user) now normType ttl) "previous_user" (.str user))⟩) := by
  simp [post, acquire, Json.truthy, hne, hnorm, readLock_live hlive, huser, made, writeLock, Json.pyEq_str.mpr]

theorem post_cases (w : World) (maker : Maker) (now : Time) (user : String) (holderType ttlSeconds : Field) :
    Posted w maker now user holderType ttlSeconds (w.post maker now user holderType ttlSeconds) := by
  by_cases hne : user = ""
  · exact post_refused (.ok ⟨400, .error "user is required"⟩) (by simp [acquire, hne, Json.truthy]) (by simp)
  have huser : (Json.str user).truthy = true := by simp [Json.truthy, hne]
  cases hnorm : normalize holderType ttlSeconds with
  | error e => exact post_refused (.error e) (by simp [acquire, huser, hnorm]) (by simp)
  | ok norm =>
    obtain ⟨normType, ttl⟩ := norm
    rcases readLock_cases now w.file with ⟨e, hread⟩ | ⟨hread, hnone⟩ | ⟨hread, lock, hstores, hexp⟩ |
      ⟨lock, hread, hlive⟩
    · exact post_refused (.error e) (by simp [acquire, huser, hnorm, hread]) (by simp)
    · exact post_fresh hne hnorm hread fun lock hlive => hnone lock hlive.1
    · refine post_fresh hne hnorm hread fun other hlive => ?_
      have hdead := hlive.2
      rw [hlive.1.unique hstores, hexp] at hdead
      cases hdead
    · by_cases hsame : (Dict.get lock "user").pyEq (.str user) = true
      · have hholder : Dict.get lock "user" = .str user := Json.pyEq_str.mp hsame
        rw [post_renewed hne hnorm hlive hholder maker]
        exact .renewed hnorm hlive hne hholder
      · exact post_refused (refuse 409 lock) (by simp [acquire, huser, hnorm, hread, hsame])
          (refuse_ne_ok (by decide) lock)

/-- Not an acquire. -/
def IsAsk (c : TimedCall) : Prop := ∀ user holderType ttlSeconds, c.call ≠ .acquire user holderType ttlSeconds

inductive Asked (w : World) (now : Time) : World → Prop
  | kept : Asked w now { w with origin := w.keptOrigin }
  | cleared : Asked w now { w with file := .absent, origin := none }
  | beaten {lock : Dict} (hstores : Stores w.file lock) :
      Asked w now { w with file := writeLock (Dict.set lock "last_heartbeat" (nowUtcIso now)) }

theorem ask_cases (w : World) {c : TimedCall} (hask : IsAsk c) : Asked w c.now (w.ask c).1 := by
  have hkept : (exec w.file c).1 = w.file → Asked w c.now (w.ask c).1 := by
    intro h
    have heq : (w.ask c).1 = { w with origin := w.keptOrigin } := by simp [ask, h, keptOrigin]
    rw [heq]
    exact .kept
  have hcleared : (exec w.file c).1 = .absent → Asked w c.now (w.ask c).1 := by
    intro h
    have heq : (w.ask c).1 = { w with file := .absent, origin := none } := by simp [ask, h]
    rw [heq]
    exact .cleared
  obtain ⟨now, call⟩ := c
  rcases readLock_cases now w.file with ⟨e, hread⟩ | ⟨hread, -⟩ | ⟨hread, -⟩ | ⟨lock, hread, hlive⟩
  · refine hkept ?_
    cases call with
    | acquire user holderType ttlSeconds => exact absurd rfl (hask user holderType ttlSeconds)
    | status => simp [exec, status, hread]
    | heartbeat user => by_cases huser : user.truthy = true <;> simp [exec, heartbeat, hread, huser]
    | release user force => by_cases huser : user.truthy = true <;> simp [exec, release, hread, huser]
  · refine hkept ?_
    cases call with
    | acquire user holderType ttlSeconds => exact absurd rfl (hask user holderType ttlSeconds)
    | status => simp [exec, status, hread]
    | heartbeat user => by_cases huser : user.truthy = true <;> simp [exec, heartbeat, hread, huser]
    | release user force => by_cases huser : user.truthy = true <;> simp [exec, release, hread, huser]
  · cases call with
    | acquire user holderType ttlSeconds => exact absurd rfl (hask user holderType ttlSeconds)
    | status => exact hcleared (by simp [exec, status, hread])
    | heartbeat user =>
      by_cases huser : user.truthy = true
      · exact hcleared (by simp [exec, heartbeat, hread, huser])
      · exact hkept (by simp [exec, heartbeat, huser])
    | release user force =>
      by_cases huser : user.truthy = true
      · exact hcleared (by simp [exec, release, hread, huser])
      · exact hkept (by simp [exec, release, huser])
  · cases call with
    | acquire user holderType ttlSeconds => exact absurd rfl (hask user holderType ttlSeconds)
    | status => exact hkept (by simp [exec, status, hread])
    | heartbeat user =>
      by_cases huser : user.truthy = true
      · by_cases hsame : (Dict.get lock "user").pyEq user = true
        · have heq : (w.ask ⟨now, .heartbeat user⟩).1 =
              { w with file := writeLock (Dict.set lock "last_heartbeat" (nowUtcIso now)) } := by
            simp [ask, exec, heartbeat, hread, huser, hsame, writeLock]
          rw [heq]
          exact .beaten hlive.1
        · exact hkept (by simp [exec, heartbeat, hread, huser, hsame])
      · exact hkept (by simp [exec, heartbeat, huser])
    | release user force =>
      by_cases huser : user.truthy = true
      · by_cases hgive : (!(Dict.get lock "user").pyEq user && !force) = true
        · exact hkept (by simp only [exec, release, hread, huser, hgive]; rfl)
        · exact hcleared (by simp only [exec, release, hread, huser, hgive]; rfl)
      · exact hkept (by simp [exec, release, huser])

/-- A release by a session or a job. -/
inductive Freed (w : World) (i : Nat) (now : Time) (holder : String) : World → Prop
  | nothing {w' : World} (hasked : Asked w now w') (hremoved : w'.removed = w.removed) : Freed w i now holder w'
  | taken {lock : Dict} (hlive : Live w.file now lock) (huser : Dict.get lock "user" = .str holder) :
      Freed w i now holder
        { w with file := .absent, origin := none, removed := w.removed ++ [⟨i, w.origin, lock⟩] }

theorem Asked.removed {w w' : World} {now : Time} (h : Asked w now w') : w'.removed = w.removed := by
  cases h <;> rfl

theorem stored_eq {w : World} {lock : Dict} (h : Stores w.file lock) : w.stored = lock := by
  unfold stored
  rw [readLockRaw_eq_some.mpr h]

theorem isAsk_release (now : Time) (user : Json) (force : Bool) : IsAsk ⟨now, .release user force⟩ := nofun

theorem free_cases (w : World) (i : Nat) (now : Time) (holder : String) : Freed w i now holder (w.free i now holder) := by
  have hasked := ask_cases w (isAsk_release now (.str holder) false)
  by_cases htaken : ∃ lock, Live w.file now lock ∧ Dict.get lock "user" = .str holder ∧ holder ≠ ""
  · obtain ⟨lock, hlive, huser, hholder⟩ := htaken
    have htruthy : (Json.str holder).truthy = true := by simp [Json.truthy, hholder]
    have heq : w.free i now holder =
        { w with file := .absent, origin := none, removed := w.removed ++ [⟨i, w.origin, lock⟩] } := by
      simp [free, ask, exec, release, htruthy, readLock_live hlive, huser, Json.pyEq_str.mpr, stored_eq hlive.1]
    rw [heq]
    exact .taken hlive huser
  · have hanswer : (w.ask ⟨now, .release (.str holder) false⟩).2 ≠ .ok ⟨200, .unlocked (some "Box unlocked")⟩ := by
      by_cases hholder : holder = ""
      · simp [ask, exec, release, hholder, Json.truthy]
      · have htruthy : (Json.str holder).truthy = true := by simp [Json.truthy, hholder]
        rcases readLock_cases now w.file with ⟨e, hread⟩ | ⟨hread, -⟩ | ⟨hread, -⟩ | ⟨lock, hread, hlive⟩
        · simp [ask, exec, release, htruthy, hread]
        · simp [ask, exec, release, htruthy, hread]
        · simp [ask, exec, release, htruthy, hread]
        · have hother : ¬ (Dict.get lock "user").pyEq (.str holder) = true := fun hsame =>
            htaken ⟨lock, hlive, Json.pyEq_str.mp hsame, hholder⟩
          have hrefused : (w.ask ⟨now, .release (.str holder) false⟩).2 = refuse 403 lock := by
            simp [ask, exec, release, htruthy, hread, hother]
          rw [hrefused]
          exact refuse_ne_ok (by decide) lock _
    have heq : w.free i now holder = (w.ask ⟨now, .release (.str holder) false⟩).1 := by
      simp [free, hanswer]
    rw [heq]
    exact .nothing hasked hasked.removed

/-! ### What a step can do -/

variable (casefold : List Char → List Char) (party : Nat → Party)

/-- The event is an acquire. -/
def Event.isPost : Event → Bool
  | post .. | handPost .. | reserve .. => true
  | _ => false

/-- The command does not have the lock yet. -/
def Cli.Early (c : Cli) : Prop := c = .start ∨ c = .posting

/-- The command has launched its job, or has ended. -/
def Cli.Late (c : Cli) : Prop := c = .launched ∨ c = .rearming ∨ c = .exited

/-- What an event does, by the request that it makes. -/
inductive Moves (w : World) : Event → World → Prop
  /-- Nothing reaches the box. -/
  | turns {e : Event} {i : Nat} {c : Cli} (he : e.isPost = false) (hc : c ≠ .owns)
      (hearly : Cli.Early c → Cli.Early (w.cli i)) (hlate : Cli.Late (w.cli i) → Cli.Late c)
      (hdone : w.cli i = .exited → c = .exited) : Moves w e (w.setCli i c)
  | asks {e : Event} {i : Nat} {c : Cli} {call : TimedCall} (he : e.isPost = false) (hask : IsAsk call)
      (hc : c ≠ .owns) (hearly : Cli.Early c → Cli.Early (w.cli i)) (hlate : Cli.Late (w.cli i) → Cli.Late c)
      (hdone : w.cli i = .exited → c = .exited) : Moves w e ((w.ask call).1.setCli i c)
  | beats {e : Event} {call : TimedCall} (he : e.isPost = false) (hask : IsAsk call) : Moves w e (w.ask call).1
  | posts {i : Nat} {now : Time} {answered : Bool} (hcli : w.cli i = .posting) :
      Moves w (.post i now answered) ((w.sessionPost party i now).1.setCli i
        (if answered then onPost casefold (party i) (w.sessionPost party i now).2 else .exited))
  | rearms {i : Nat} {now : Time} (hcli : w.cli i = .rearming) :
      Moves w (.handPost i now) ((w.handoverPost party i now).1.setCli i .exited)
  | reserves {user : String} {ttlSeconds : Field} {now : Time} :
      Moves w (.reserve user ttlSeconds now) (w.reservationPost user ttlSeconds now).1
  | exits {i : Nat} {now : Time} {answered : Bool} (hcli : w.cli i = .owns) :
      Moves w (.exit i now answered) (if answered then (w.free i now (party i).holder).setCli i .exited
        else w.free i now (party i).holder)
  | launches {i : Nat} {confirmed : Bool} (hcli : w.cli i = .owns) :
      Moves w (.launch i confirmed)
        ((w.setCli i (if confirmed then .launched else .exited)).setJob i .running)
  | ends {i : Nat} {now : Time} (hjob : w.job i = .running) :
      Moves w (.jobEnd i now) ((w.free i now (party i).holder).setJob i .ended)

variable {casefold party}

theorem onGet_ne_owns (p : Party) (answer : Answer) : onGet casefold p answer ≠ .owns := by
  unfold onGet
  split
  · split <;> simp
  · simp

theorem onHandGet_late (p : Party) (answer : Answer) : Cli.Late (onHandGet casefold p answer) := by
  unfold onHandGet Cli.Late
  split <;> simp

theorem Cli.Late.ne_owns {c : Cli} (h : Cli.Late c) : c ≠ .owns := by
  rcases h with rfl | rfl | rfl <;> nofun

theorem Cli.Late.not_early {c : Cli} (h : Cli.Late c) : ¬ Cli.Early c := by
  rcases h with rfl | rfl | rfl <;> simp [Cli.Early]

theorem step_moves {w w' : World} {e : Event} (hstep : w.step casefold party e = some w') :
    Moves casefold party w e w' := by
  have hexited : Cli.Late .exited := .inr (.inr rfl)
  have hrearming : Cli.Late .rearming := .inr (.inl rfl)
  cases e with
  | get i now answered =>
    simp only [step, Option.ite_none_right_eq_some] at hstep
    obtain ⟨hcli, heq⟩ := hstep
    cases heq
    refine .asks rfl nofun ?_ (fun _ => .inl hcli) (by simp [hcli, Cli.Late]) (by simp [hcli])
    split
    · exact onGet_ne_owns _ _
    · simp
  | noGet i =>
    simp only [step, Option.ite_none_right_eq_some] at hstep
    obtain ⟨hcli, heq⟩ := hstep
    cases heq
    exact .turns rfl (by simp) (fun _ => .inl hcli) (by simp [hcli, Cli.Late]) (by simp [hcli])
  | post i now answered =>
    simp only [step, Option.ite_none_right_eq_some] at hstep
    obtain ⟨hcli, heq⟩ := hstep
    cases heq
    exact .posts hcli
  | noPost i =>
    simp only [step, Option.ite_none_right_eq_some] at hstep
    obtain ⟨hcli, heq⟩ := hstep
    cases heq
    exact .turns rfl (by simp) (fun hearly => absurd hearly hexited.not_early) (fun _ => hexited) fun _ => rfl
  | beat i now =>
    obtain ⟨holder, -, rfl⟩ := Option.map_eq_some_iff.mp hstep
    exact .beats rfl nofun
  | exit i now answered =>
    simp only [step, Option.ite_none_right_eq_some] at hstep
    obtain ⟨hcli, heq⟩ := hstep
    cases heq
    exact .exits hcli.1
  | leave i =>
    simp only [step, Option.ite_none_right_eq_some] at hstep
    obtain ⟨-, heq⟩ := hstep
    cases heq
    exact .turns rfl (by simp) (fun hearly => absurd hearly hexited.not_early) (fun _ => hexited) fun _ => rfl
  | launch i confirmed =>
    simp only [step, Option.ite_none_right_eq_some] at hstep
    obtain ⟨hcli, heq⟩ := hstep
    cases heq
    exact .launches hcli.1
  | handGet i now answered =>
    simp only [step, Option.ite_none_right_eq_some] at hstep
    obtain ⟨hcli, heq⟩ := hstep
    cases heq
    have hlate : Cli.Late (if answered then onHandGet casefold (party i) (w.ask ⟨now, .status⟩).2 else .rearming) := by
      split
      · exact onHandGet_late _ _
      · exact hrearming
    exact .asks rfl nofun hlate.ne_owns (fun hearly => absurd hearly hlate.not_early) (fun _ => hlate) (by simp [hcli])
  | noHandGet i =>
    simp only [step, Option.ite_none_right_eq_some] at hstep
    obtain ⟨hcli, heq⟩ := hstep
    cases heq
    exact .turns rfl (by simp) (fun hearly => absurd hearly hrearming.not_early) (fun _ => hrearming) (by simp [hcli])
  | handPost i now =>
    simp only [step, Option.ite_none_right_eq_some] at hstep
    obtain ⟨hcli, heq⟩ := hstep
    cases heq
    exact .rearms hcli
  | noHandPost i =>
    simp only [step, Option.ite_none_right_eq_some] at hstep
    obtain ⟨-, heq⟩ := hstep
    cases heq
    exact .turns rfl (by simp) (fun hearly => absurd hearly hexited.not_early) (fun _ => hexited) fun _ => rfl
  | jobBeat i now =>
    simp only [step, Option.ite_none_right_eq_some] at hstep
    obtain ⟨-, heq⟩ := hstep
    cases heq
    exact .beats rfl nofun
  | jobEnd i now =>
    simp only [step, Option.ite_none_right_eq_some] at hstep
    obtain ⟨hjob, heq⟩ := hstep
    cases heq
    exact .ends hjob
  | reserve user ttlSeconds now =>
    cases hstep
    exact .reserves
  | force user now =>
    cases hstep
    exact .beats rfl nofun

end World

end Lager.Lock
