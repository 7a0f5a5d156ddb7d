import Lager.Lock.Exclusion

/-!
# A reservation never turns into an auto-lock

Only `ephemeral` and `ci` records may have their class and TTL rewritten by a re-acquire. Everything else is
a reservation: a `user` lock, the origin token of another service, a legacy record with no `holder_type` at
all. A reservation keeps its user, class, TTL and start through every run of calls that does not release it
or outlive it, and one whose TTL is null cannot be outlived.
-/

namespace Lager.Lock

open Lager.Py

/-- The record is not an auto-lock. -/
def Reservation (lock : Dict) : Prop :=
  ¬(Dict.get lock "holder_type" = .str "ephemeral" ∨ Dict.get lock "holder_type" = .str "ci")

/-- `lock'` keeps the reservation `lock`: class, TTL and start as they were (absent if they were absent), and
the same user, up to Python's `==`. -/
structure Keeps (lock lock' : Dict) : Prop where
  user : (Dict.get lock' "user").canon = (Dict.get lock "user").canon
  holderType : Dict.get? lock' "holder_type" = Dict.get? lock "holder_type"
  ttl : Dict.get? lock' "ttl_seconds" = Dict.get? lock "ttl_seconds"
  lockedAt : Dict.get? lock' "locked_at" = Dict.get? lock "locked_at"

theorem Keeps.refl (lock : Dict) : Keeps lock lock := ⟨rfl, rfl, rfl, rfl⟩

theorem Keeps.trans {a b c : Dict} (hab : Keeps a b) (hbc : Keeps b c) : Keeps a c :=
  ⟨hbc.user.trans hab.user, hbc.holderType.trans hab.holderType, hbc.ttl.trans hab.ttl,
    hbc.lockedAt.trans hab.lockedAt⟩

theorem Keeps.reservation {lock lock' : Dict} (h : Keeps lock lock') (hres : Reservation lock) :
    Reservation lock' := by
  rw [Reservation, Dict.get, h.holderType]
  exact hres

theorem keeps_heartbeat (lock : Dict) (value : Json) : Keeps lock (Dict.set lock "last_heartbeat" value) where
  user := by rw [Dict.get_set_ne _ _ (by decide)]
  holderType := Dict.get?_set_ne _ _ (by decide)
  ttl := Dict.get?_set_ne _ _ (by decide)
  lockedAt := Dict.get?_set_ne _ _ (by decide)

theorem keeps_refreshed {lock : Dict} (hres : Reservation lock) {user : Json}
    (hsame : (Dict.get lock "user").pyEq user = true) (now : Time) (holderType : String) (ttl : Option Int) :
    Keeps lock (refreshed lock user now holderType ttl) where
  user := by rw [refreshed_user, (Json.pyEq_iff.mp hsame).2]
  holderType := refreshed_reservation_get? (by decide) hres
  ttl := refreshed_reservation_get? (by decide) hres
  lockedAt := refreshed_reservation_get? (by decide) hres

/-! ### One call, then a run -/

theorem reservation_exec {file : LockFile} {lock : Dict} {c : TimedCall} (hstores : Stores file lock)
    (hres : Reservation lock) (hends : ¬Ends (Dict.get lock "user") file c) :
    ∃ lock', Stores (exec file c).1 lock' ∧ Keeps lock lock' := by
  cases exec_cases c hstores fun hx => hends (Or.inl hx) with
  | kept heq => rw [heq]; exact ⟨lock, hstores, .refl lock⟩
  | refreshed user holderType ttl hsame heq =>
    rw [heq]
    exact ⟨_, stores_refreshed _ _ _ _ _, keeps_refreshed hres hsame _ _ _⟩
  | beaten heq =>
    rw [heq]
    exact ⟨_, stores_heartbeat hstores.2 _, keeps_heartbeat _ _⟩
  | released hrel _ => exact absurd (Or.inr hrel) hends

theorem reservation_after {file : LockFile} {lock : Dict} {user : Json} {calls : List TimedCall}
    (hstores : Stores file lock) (hres : Reservation lock) (huser : (Dict.get lock "user").canon = user.canon)
    (hquiet : Undisturbed user file calls) :
    ∃ lock', Stores (after file calls) lock' ∧ Keeps lock lock' := by
  induction calls generalizing file lock with
  | nil => exact ⟨lock, hstores, .refl lock⟩
  | cons c calls ih =>
    obtain ⟨hends, hrest⟩ := hquiet
    obtain ⟨next, hnext, hkeep⟩ := reservation_exec hstores hres
      fun h => hends (h.imp id fun hrel => hrel.congr huser)
    obtain ⟨last, hlast, hkeep'⟩ := ih hnext (hkeep.reservation hres) (hkeep.user.trans huser) hrest
    exact ⟨last, hlast, hkeep.trans hkeep'⟩

/-- A record without a TTL does not expire. -/
theorem not_expired_of_null {file : LockFile} {lock : Dict} (hstores : Stores file lock)
    (hnull : Dict.get lock "ttl_seconds" = .null) (now : Time) : ¬Expired file now := by
  rintro ⟨lock', h', hx⟩
  rw [← hstores.unique h', isExpired, if_pos hnull] at hx
  simp at hx

/-- An eternal reservation is ended by nothing but a release. -/
theorem undisturbed_of_null {file : LockFile} {lock : Dict} {user : Json} {calls : List TimedCall}
    (hstores : Stores file lock) (hres : Reservation lock) (hnull : Dict.get lock "ttl_seconds" = .null)
    (huser : (Dict.get lock "user").canon = user.canon) (hrel : ∀ c ∈ calls, ¬Releases user c) :
    Undisturbed user file calls := by
  induction calls generalizing file lock with
  | nil => trivial
  | cons c calls ih =>
    have hends : ¬Ends user file c := by
      rintro (hx | hr)
      · exact not_expired_of_null hstores hnull _ hx
      · exact hrel c List.mem_cons_self hr
    refine ⟨hends, ?_⟩
    obtain ⟨next, hnext, hkeep⟩ := reservation_exec hstores hres
      fun h => hends (h.imp id fun hrel => hrel.congr huser)
    refine ih hnext (hkeep.reservation hres) ?_ (hkeep.user.trans huser)
      fun d hd => hrel d (List.mem_cons_of_mem _ hd)
    rw [Dict.get, hkeep.ttl]
    exact hnull

/-- **A reservation never turns into an auto-lock.** From any file that stores a reservation, and through any
calls with any payloads at any clock readings, the stored record keeps the reservation as long as no call is a
release by its user or a forced one and no call finds it expired; and a reservation whose TTL is null keeps
through every call that is not such a release, so it is never reaped. -/
theorem reservation_kept (file : LockFile) (lock : Dict) (hstores : Stores file lock) (hres : Reservation lock)
    (calls : List TimedCall) :
    (Undisturbed (Dict.get lock "user") file calls →
      ∃ lock', Stores (after file calls) lock' ∧ Keeps lock lock') ∧
    (Dict.get lock "ttl_seconds" = .null → (∀ c ∈ calls, ¬Releases (Dict.get lock "user") c) →
      ∃ lock', Stores (after file calls) lock' ∧ Keeps lock lock') :=
  ⟨reservation_after hstores hres rfl, fun hnull hrel =>
    reservation_after hstores hres rfl (undisturbed_of_null hstores hres hnull rfl hrel)⟩

/-- An eternal dashboard reservation, re-acquired an hour later by its own holder as an auto-lock of one
second and then looked at a year later, is still there. -/
theorem reservation_kept_dashboard :
    Stores (writeLock (freshLock (.str "alice") 0 "dashboard" none)) (freshLock (.str "alice") 0 "dashboard" none) ∧
      ∃ lock', Stores (after (writeLock (freshLock (.str "alice") 0 "dashboard" none))
        [⟨3600000000, .acquire (.str "alice") (some (.str "ephemeral")) (some (.int 1))⟩,
          ⟨31536000000000, .status⟩]) lock' ∧
        Keeps (freshLock (.str "alice") 0 "dashboard" none) lock' := by
  have hstores : Stores (writeLock (freshLock (.str "alice") 0 "dashboard" none))
      (freshLock (.str "alice") 0 "dashboard" none) := ⟨rfl, by decide +kernel⟩
  refine ⟨hstores, (reservation_kept _ _ hstores (by rw [Reservation]; decide +kernel) _).2 (by decide +kernel) ?_⟩
  rintro c hc ⟨v, force, hcall, -⟩
  simp only [List.mem_cons, List.not_mem_nil, or_false] at hc
  rcases hc with rfl | rfl <;> simp at hcall

end Lager.Lock
