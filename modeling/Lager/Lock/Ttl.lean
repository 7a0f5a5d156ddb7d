import Lager.Lock.Exclusion
import Lager.Py.Calendar
import Mathlib.Algebra.Order.Floor.Ring
import Mathlib.Algebra.Order.Archimedean.Real.Basic

/-!
# How long a lock is kept

Calls at exact instants. A renewal writes the clock to the second, and a later read compares the clock, to the
microsecond, with the text it reads back (`fromisoformat_strftimeZ`). So a record's age is counted from the whole second
in which it was renewed: it is kept for its TTL from there, and may go up to a second early.
-/

namespace Lager.Lock

open Lager.Py

/-! ### Instants -/

/-- An instant the box's clock can show, in seconds since 1970. -/
structure Instant where
  seconds : ℝ
  nonneg : 0 ≤ seconds
  bounded : seconds < 253402300800

/-- `datetime.now(timezone.utc)`, which cuts to the microsecond. -/
noncomputable def Instant.reading (i : Instant) : Time := ⌊i.seconds * 1000000⌋

/-- A call at an instant. -/
structure InstantCall where
  instant : Instant
  call : Call

noncomputable def InstantCall.timed (c : InstantCall) : TimedCall := ⟨c.instant.reading, c.call⟩

/-- The file after a run of calls. -/
noncomputable def afterRun (file : LockFile) (calls : List InstantCall) : LockFile :=
  after file (calls.map InstantCall.timed)

/-- An acquire or a heartbeat. -/
def Call.Renews : Call → Prop
  | .acquire _ _ _ | .heartbeat _ => True
  | .status | .release _ _ => False

/-- No more than the TTL has gone by. No TTL, an infinite one and NaN never go by. -/
def WithinTtl (elapsed : ℝ) : Json → Prop
  | .bool b => elapsed ≤ if b then 1 else 0
  | .int n => elapsed ≤ n
  | .float (.fin q) => elapsed ≤ q
  | .float .negInf => False
  | .null | .float .posInf | .float .nan | .str _ | .arr _ | .obj _ => True

/-- In every run, a record that a call renewed is not expired for any later call as long as it is the stored one and no
more than its TTL has gone by since `start`, which is counted from the renewal. -/
def KeptSince (start : ℝ → ℝ) : Prop :=
  ∀ (init : LockFile) (before : List InstantCall) (renewal : InstantCall) (between : List InstantCall)
    (later : InstantCall) (lock : Dict) (r : Reply), renewal.call.Renews →
    (exec (afterRun init before) renewal.timed).2 = .ok r → r.code = 200 →
    Stores (afterRun init (before ++ [renewal])) lock → Stores (afterRun init (before ++ renewal :: between)) lock →
    WithinTtl (later.instant.seconds - start renewal.instant.seconds) (Dict.get lock "ttl_seconds") →
    ¬Expired (afterRun init (before ++ renewal :: between)) later.instant.reading

/-! ### The stamp of a renewal -/

theorem Instant.reading_bounds (i : Instant) : 0 ≤ i.reading ∧ i.reading < 253402300800000000 := by
  have hnonneg := i.nonneg
  have hbounded := i.bounded
  constructor
  · apply Int.floor_nonneg.mpr
    positivity
  · apply Int.floor_lt.mpr
    push_cast
    linarith

/-- The whole seconds of a reading are those of the instant. -/
theorem Instant.reading_seconds (i : Instant) : i.reading / 1000000 = ⌊i.seconds⌋ := by
  have hfloor := Int.floor_div_natCast (i.seconds * 1000000) 1000000
  rw [Nat.cast_ofNat, mul_div_cancel_right₀ _ (by norm_num)] at hfloor
  exact hfloor.symm

/-- A renewal writes the time it is made at. -/
theorem renewed_stamp {file : LockFile} {c : TimedCall} {r : Reply} (hrenews : c.call.Renews)
    (hok : (exec file c).2 = .ok r) (hcode : r.code = 200) :
    ∃ lock, (exec file c).1 = writeLock lock ∧ Dict.get lock "last_heartbeat" = nowUtcIso c.now := by
  obtain ⟨now, call⟩ := c
  have hrefused : ∀ {code lock}, code ≠ 200 → refuse code lock ≠ .ok r := fun {code lock} hne h => by
    unfold refuse at h
    cases hget : Dict.get? lock "user" with
    | none =>
      rw [hget] at h
      cases h
    | some user =>
      rw [hget] at h
      cases h
      exact hne hcode
  cases call with
  | status | release user force => cases hrenews
  | acquire user holderType ttlSeconds =>
    dsimp only [exec, acquire] at hok ⊢
    cases htruthy : user.truthy with
    | false =>
      rw [htruthy] at hok
      cases hok
      cases hcode
    | true =>
      rw [htruthy] at hok
      rw [if_neg (by decide)] at hok ⊢
      cases hnormalize : normalize holderType ttlSeconds with
      | error e =>
        rw [hnormalize] at hok
        cases hok
      | ok asked =>
        obtain ⟨normHolderType, normTtl⟩ := asked
        rw [hnormalize] at hok
        dsimp only at hok ⊢
        rcases readLock_cases now file with ⟨e, hread⟩ | ⟨hread, -⟩ | ⟨hread, -⟩ | ⟨lock, hread, -⟩
        · rw [hread] at hok
          cases hok
        · rw [hread]
          exact ⟨_, rfl, rfl⟩
        · rw [hread]
          exact ⟨_, rfl, rfl⟩
        · rw [hread] at hok ⊢
          dsimp only at hok ⊢
          cases hsame : (Dict.get lock "user").pyEq user with
          | false =>
            rw [hsame] at hok
            exact absurd hok (hrefused (by decide))
          | true => exact ⟨_, rfl, refreshed_heartbeat _ _ _ _ _⟩
  | heartbeat user =>
    dsimp only [exec, heartbeat] at hok ⊢
    cases htruthy : user.truthy with
    | false =>
      rw [htruthy] at hok
      cases hok
      cases hcode
    | true =>
      rw [htruthy] at hok
      rw [if_neg (by decide)] at hok ⊢
      rcases readLock_cases now file with ⟨e, hread⟩ | ⟨hread, -⟩ | ⟨hread, -⟩ | ⟨lock, hread, -⟩
      · rw [hread] at hok
        cases hok
      · rw [hread] at hok
        cases hok
        cases hcode
      · rw [hread] at hok
        cases hok
        cases hcode
      · rw [hread] at hok ⊢
        dsimp only at hok ⊢
        cases hsame : (Dict.get lock "user").pyEq user with
        | false =>
          rw [hsame] at hok
          exact absurd hok (hrefused (by decide))
        | true => exact ⟨_, rfl, Dict.get_set_self _ _ _⟩

/-- A renewed record's age is counted from the whole second of the renewal. -/
theorem isExpired_renewed {lock : Dict} {i now : Instant}
    (hstamp : Dict.get lock "last_heartbeat" = nowUtcIso i.reading) (hnull : Dict.get lock "ttl_seconds" ≠ .null) :
    isExpired lock now.reading = exceeds (now.reading - ⌊i.seconds⌋ * 1000000) (Dict.get lock "ttl_seconds") := by
  obtain ⟨hmin, hmax⟩ := i.reading_bounds
  obtain ⟨text, htext, hparse⟩ := fromisoformat_strftimeZ (le_trans (by decide) hmin) hmax
  have htruthy := nowUtcIso_truthy i.reading
  have hread : parseIso (nowUtcIso i.reading) = .ok (some ⟨⌊i.seconds⌋ * 1000000, some 0⟩) := by
    rw [i.reading_seconds] at hparse
    unfold parseIso
    rw [htruthy]
    simp only [nowUtcIso, htext, Bool.not_true, Bool.false_eq_true, if_false, List.getLast?_concat, if_true,
      List.dropLast_concat, hparse]
  unfold isExpired
  dsimp only
  rw [if_neg hnull, hstamp, if_pos htruthy, hread]
  dsimp only
  rw [sub_zero]

/-- What is within the TTL does not exceed it. -/
theorem exceeds_within {ttl : Json} {elapsed : ℝ} {micros : Int} (hle : (micros : ℝ) ≤ elapsed * 1000000)
    (h : WithinTtl elapsed ttl) : exceeds micros ttl ≠ .ok true := by
  have hbound : ∀ n : Int, elapsed ≤ n → ¬micros > n * 1000000 := fun n hn hgt => by
    have hcast : ((n * 1000000 : Int) : ℝ) < micros := Int.cast_lt.mpr hgt
    push_cast at hcast
    linarith
  match ttl, h with
  | .bool b, h =>
    intro hexceeds
    have hcast : elapsed ≤ ((if b then 1 else 0 : Int) : ℝ) := by
      cases b <;> simpa [WithinTtl] using h
    exact hbound _ hcast (of_decide_eq_true (Except.ok.inj hexceeds))
  | .int n, h =>
    intro hexceeds
    exact hbound n h (of_decide_eq_true (Except.ok.inj hexceeds))
  | .float (.fin q), h =>
    intro hexceeds
    have hgt := of_decide_eq_true (Except.ok.inj hexceeds)
    have hcast : ((q * 1000000 : ℚ) : ℝ) < ((micros : ℚ) : ℝ) := Rat.cast_lt.mpr hgt
    push_cast at hcast
    have hq : elapsed ≤ q := h
    linarith
  | .float .posInf, _ | .float .nan, _ | .null, _ | .str _, _ | .arr _, _ | .obj _, _ => nofun

/-- **A lock is kept for its TTL.** Counted from the whole second of the renewal, no call finds a renewed record expired
before more than its TTL has gone by. -/
theorem kept_since_whole_second : KeptSince fun t => ⌊t⌋ := by
  intro init before renewal between later lock r hrenews hok hcode hrenewed hstored hwithin
  have hafter : afterRun init (before ++ [renewal]) = (exec (afterRun init before) renewal.timed).1 := by
    rw [afterRun, List.map_append, after_append]
    rfl
  obtain ⟨written, hfile, hstamp⟩ := renewed_stamp hrenews hok hcode
  have hlock : lock = written := by
    rw [hafter, hfile] at hrenewed
    exact (Json.obj.inj (LockFile.json.inj hrenewed.1)).symm
  rw [← hlock] at hstamp
  rintro ⟨found, hfound, hexpired⟩
  rw [hfound.unique hstored] at hexpired
  by_cases hnull : Dict.get lock "ttl_seconds" = .null
  · rw [isExpired, if_pos hnull] at hexpired
    cases hexpired
  · rw [isExpired_renewed hstamp hnull] at hexpired
    refine exceeds_within ?_ hwithin hexpired
    have hfloor := Int.floor_le (later.instant.seconds * 1000000)
    push_cast
    unfold Instant.reading
    linarith

/-! ### A renewal between two seconds -/

/-- 0.9 s. -/
noncomputable def renewedAt : Instant := ⟨9 / 10, by norm_num, by norm_num⟩

/-- 0.6 s later. -/
noncomputable def askedAt : Instant := ⟨3 / 2, by norm_num, by norm_num⟩

theorem renewedAt_reading : renewedAt.reading = 900000 := by
  apply Int.floor_eq_iff.mpr
  norm_num [renewedAt]

theorem askedAt_reading : askedAt.reading = 1500000 := by
  apply Int.floor_eq_iff.mpr
  norm_num [askedAt]

/-- Counted from the renewal itself, a lock with a TTL of 1 s is not kept for 0.6 s. -/
theorem not_kept_since_renewal : ¬KeptSince id := by
  intro h
  let renewal : InstantCall := ⟨renewedAt, .acquire (.str "alice") none (some (.int 1))⟩
  have htimed : renewal.timed = ⟨900000, .acquire (.str "alice") none (some (.int 1))⟩ := by
    rw [InstantCall.timed, renewedAt_reading]
  have hstored : Stores (exec .absent renewal.timed).1 (freshLock (.str "alice") 900000 "ephemeral" (some 1)) := by
    rw [htimed]
    exact ⟨rfl, rfl⟩
  have hok : (exec .absent renewal.timed).2 = .ok ⟨200, .record
      (Dict.set (freshLock (.str "alice") 900000 "ephemeral" (some 1)) "previous_user" .null)⟩ := by
    rw [htimed]
    rfl
  have hwithin : WithinTtl (askedAt.seconds - id renewedAt.seconds) (.int 1) := by
    show (3 / 2 : ℝ) - 9 / 10 ≤ ((1 : Int) : ℝ)
    norm_num
  have hexpired : isExpired (freshLock (.str "alice") 900000 "ephemeral" (some 1)) 1500000 = .ok true := by
    decide +kernel
  refine h .absent [] renewal [] ⟨askedAt, .status⟩ _ _ trivial hok rfl hstored hstored hwithin ⟨_, hstored, ?_⟩
  rw [askedAt_reading]
  exact hexpired

end Lager.Lock
