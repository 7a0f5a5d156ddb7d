import Lager.Lock.Exclusion

/-!
# Which requests the lock API answers

A call answers with one of its documented codes, or an exception escapes. It escapes from a payload TTL that is an
infinity, from a file that cannot be decoded, from a record whose age cannot be compared with its TTL, and from a
refusal in the name of a record without a user.
-/

namespace Lager.Lock

open Lager.Py

/-- The codes in a call's docstring. -/
def Call.codes : Call → List Nat
  | .status => [200]
  | .acquire _ _ _ => [200, 409, 400]
  | .heartbeat _ => [200, 404, 403, 400]
  | .release _ _ => [200, 403, 400]

/-- An answer with one of the documented codes. -/
def Answered (call : Call) (answer : Answer) : Prop := ∃ r, answer = .ok r ∧ r.code ∈ call.codes

/-! ### The condition -/

/-- The stamp a record's age is counted from. -/
def stamp (lock : Dict) : Json :=
  if (Dict.get lock "last_heartbeat").truthy then Dict.get lock "last_heartbeat" else Dict.get lock "locked_at"

/-- The record has no TTL, or no stamp, or a text for a stamp: one that is no time, or a time with a zone beside a TTL
that is a number. -/
def Comparable (lock : Dict) : Prop :=
  Dict.get lock "ttl_seconds" = .null ∨ (stamp lock).truthy = false ∨
    ∃ text, stamp lock = .str text ∧ ∀ d, parseIso (stamp lock) = .ok (some d) →
      d.utcoffset ≠ none ∧ TtlTyped (Dict.get lock "ttl_seconds")

/-- The call carries a user that `if not user` refuses. -/
def Call.Nameless : Call → Prop
  | .status => False
  | .acquire user _ _ | .heartbeat user | .release user _ => user.truthy = false

/-- The TTL of the payload is no infinity. -/
def Call.Finite : Call → Prop
  | .acquire _ _ ttlSeconds => ttlSeconds ≠ some (.float .posInf) ∧ ttlSeconds ≠ some (.float .negInf)
  | .status | .heartbeat _ | .release _ _ => True

/-- The call is answered whoever holds the lock. -/
def Call.HeedsNobody : Call → Prop
  | .status => True
  | .release _ force => force = true
  | .acquire _ _ _ | .heartbeat _ => False

/-- The file can be decoded, and a locked record in it is comparable. -/
def Legible (file : LockFile) : Prop := file ≠ .undecodable ∧ ∀ lock, Stores file lock → Comparable lock

/-- The call is refused for its user, or its TTL is finite, the file is legible, and a live record has a user, if the
call heeds it. -/
def Answerable (file : LockFile) (c : TimedCall) : Prop :=
  c.call.Nameless ∨ (c.call.Finite ∧ Legible file ∧ ∀ lock, Live file c.now lock →
    c.call.HeedsNobody ∨ Dict.get? lock "user" ≠ none)

/-! ### Reading -/

theorem parseIso_ok_iff {value : Json} :
    (∃ d, parseIso value = .ok d) ↔ value.truthy = false ∨ ∃ text, value = .str text := by
  unfold parseIso
  by_cases htruthy : value.truthy = true
  · rw [htruthy]
    cases value with
    | str s =>
      refine ⟨fun _ => Or.inr ⟨s, rfl⟩, fun _ => ?_⟩
      by_cases hz : s.toList.getLast? = some 'Z'
      · exact ⟨_, if_pos hz⟩
      · exact ⟨_, if_neg hz⟩
    | _ => simp
  · rw [Bool.not_eq_true] at htruthy
    rw [htruthy]
    exact ⟨fun _ => Or.inl rfl, fun _ => ⟨none, rfl⟩⟩

theorem exceeds_ok_iff {ttl : Json} (hnull : ttl ≠ .null) (elapsed : Int) :
    (∃ b, exceeds elapsed ttl = .ok b) ↔ TtlTyped ttl := by
  refine ⟨?_, fun h => exceeds_ok h hnull elapsed⟩
  rintro ⟨b, h⟩
  cases ttl with
  | null => exact absurd rfl hnull
  | bool _ | int _ | float _ => trivial
  | str _ | arr _ | obj _ => cases h

/-- Whether a record has run out can be told when its age can be compared with its TTL. -/
theorem isExpired_ok_iff (lock : Dict) (now : Time) : (∃ b, isExpired lock now = .ok b) ↔ Comparable lock := by
  rw [Comparable]
  by_cases hnull : Dict.get lock "ttl_seconds" = .null
  · exact ⟨fun _ => Or.inl hnull, fun _ => ⟨false, if_pos hnull⟩⟩
  · rw [or_iff_right hnull]
    unfold isExpired
    dsimp only
    rw [if_neg hnull]
    have hstamp := @parseIso_ok_iff (stamp lock)
    cases hparse : parseIso (stamp lock) with
    | error e =>
      have hread : parseIso (if (Dict.get lock "last_heartbeat").truthy then Dict.get lock "last_heartbeat"
        else Dict.get lock "locked_at") = .error e := hparse
      rw [hparse] at hstamp
      rw [hread]
      constructor
      · rintro ⟨b, h⟩
        cases h
      · rintro (hfalsy | ⟨text, htext, -⟩)
        · obtain ⟨d, h⟩ := hstamp.mpr (Or.inl hfalsy)
          cases h
        · obtain ⟨d, h⟩ := hstamp.mpr (Or.inr ⟨text, htext⟩)
          cases h
    | ok found =>
      have hread : parseIso (if (Dict.get lock "last_heartbeat").truthy then Dict.get lock "last_heartbeat"
        else Dict.get lock "locked_at") = .ok found := hparse
      rw [hparse] at hstamp
      rw [hread]
      cases found with
      | none =>
        refine ⟨fun _ => (hstamp.mp ⟨_, rfl⟩).imp_right fun ⟨text, htext⟩ => ⟨text, htext, nofun⟩, fun _ => ⟨_, rfl⟩⟩
      | some last =>
        dsimp only
        have htruthy : (stamp lock).truthy = true := by
          by_contra hfalsy
          unfold parseIso at hparse
          rw [if_pos (by simpa using hfalsy)] at hparse
          cases hparse
        obtain ⟨text, htext⟩ := (hstamp.mp ⟨_, rfl⟩).resolve_left (by rw [htruthy]; nofun)
        constructor
        · rintro ⟨b, h⟩
          refine Or.inr ⟨text, htext, fun d hd => ?_⟩
          cases hd
          cases hoffset : last.utcoffset with
          | none =>
            rw [hoffset] at h
            cases h
          | some offset =>
            rw [hoffset] at h
            exact ⟨nofun, (exceeds_ok_iff hnull _).mp ⟨b, h⟩⟩
        · rintro (hfalsy | ⟨text, -, hzone⟩)
          · rw [htruthy] at hfalsy
            cases hfalsy
          · obtain ⟨hoffset, htyped⟩ := hzone last rfl
            obtain ⟨offset, hoffset⟩ := Option.ne_none_iff_exists'.mp hoffset
            rw [hoffset]
            exact exceeds_ok htyped hnull _

theorem readLockRaw_error {file : LockFile} {e : PyErr} (h : readLockRaw file = .error e) : file = .undecodable := by
  match file, h with
  | .undecodable, _ => rfl
  | .json (.obj data), h => cases h

/-- What a read finds, by whether the file is legible and a live record is there. -/
theorem readLock_legible (now : Time) (file : LockFile) :
    (¬Legible file ∧ ∃ e, readLock now file = (file, .error e)) ∨
      (Legible file ∧ (∀ lock, ¬Live file now lock) ∧ ∃ left, readLock now file = (left, .ok none)) ∨
      (Legible file ∧ ∃ lock, Live file now lock ∧ readLock now file = (file, .ok (some lock))) := by
  cases hraw : readLockRaw file with
  | error e =>
    refine Or.inl ⟨fun h => h.1 (readLockRaw_error hraw), e, ?_⟩
    simp only [readLock, hraw]
  | ok found =>
    have hdecodable : file ≠ .undecodable := by
      rintro rfl
      cases hraw
    cases found with
    | none =>
      have hnone : ∀ lock, ¬Stores file lock := fun lock h => by
        rw [readLockRaw_eq_some.mpr h] at hraw
        cases hraw
      refine Or.inr (Or.inl ⟨⟨hdecodable, fun lock h => absurd h (hnone lock)⟩, fun lock h => hnone lock h.1, file, ?_⟩)
      simp only [readLock, hraw]
    | some lock =>
      have hstores := readLockRaw_eq_some.mp hraw
      have hlegible : Legible file ↔ Comparable lock := by
        refine ⟨fun h => h.2 lock hstores, fun h => ⟨hdecodable, fun lock' h' => ?_⟩⟩
        rwa [h'.unique hstores]
      rw [hlegible]
      cases hexpired : isExpired lock now with
      | error e =>
        refine Or.inl ⟨fun h => ?_, e, by simp only [readLock, hraw, hexpired]⟩
        obtain ⟨b, hb⟩ := (isExpired_ok_iff lock now).mpr h
        rw [hexpired] at hb
        cases hb
      | ok expired =>
        have hcomparable := (isExpired_ok_iff lock now).mp ⟨expired, hexpired⟩
        cases expired with
        | false => exact Or.inr (Or.inr ⟨hcomparable, lock, ⟨hstores, hexpired⟩, readLock_live ⟨hstores, hexpired⟩⟩)
        | true =>
          refine Or.inr (Or.inl ⟨hcomparable, fun lock' h' => ?_, .absent, by simp only [readLock, hraw, hexpired]⟩)
          have hlive := h'.2
          rw [h'.1.unique hstores, hexpired] at hlive
          cases hlive

/-! ### Answering -/

theorem answered_ok {call : Call} {r : Reply} (h : r.code ∈ call.codes) : Answered call (.ok r) := ⟨r, rfl, h⟩

theorem not_answered_error {call : Call} {e : PyErr} : ¬Answered call (.error e) := by
  rintro ⟨r, h, -⟩
  cases h

/-- A refusal names the holder. -/
theorem answered_refuse {call : Call} {code : Nat} {lock : Dict} (h : code ∈ call.codes) :
    Answered call (refuse code lock) ↔ Dict.get? lock "user" ≠ none := by
  unfold refuse
  cases hget : Dict.get? lock "user" with
  | none => exact ⟨fun h => absurd h not_answered_error, fun h => absurd rfl h⟩
  | some user => exact ⟨fun _ => nofun, fun _ => answered_ok h⟩

/-- A record that a named user owns has a user. -/
theorem get?_user_ne_none {lock : Dict} {user : Json} (htruthy : user.truthy = true)
    (h : (Dict.get lock "user").pyEq user = true) : Dict.get? lock "user" ≠ none := by
  intro hnone
  rw [Dict.get, hnone, Option.getD_none, Json.pyEq_iff] at h
  obtain ⟨-, hcanon⟩ := h
  cases user with
  | null => cases htruthy
  | _ => cases hcanon

/-- A held record: its holder is served, and for anybody else the refusal names the holder. -/
theorem answered_held {call : Call} {code : Nat} {lock : Dict} {user : Json} {left : LockFile}
    {served : LockFile × Answer} (htruthy : user.truthy = true) (hcode : code ∈ call.codes) (hserved : Answered call served.2) :
    Answered call (if !(Dict.get lock "user").pyEq user then (left, refuse code lock) else served).2 ↔
      Dict.get? lock "user" ≠ none := by
  cases hsame : (Dict.get lock "user").pyEq user with
  | true => exact ⟨fun _ => get?_user_ne_none htruthy hsame, fun _ => hserved⟩
  | false => exact answered_refuse hcode

/-- The last part of the condition, for a live record. -/
theorem forall_live_iff {file : LockFile} {now : Time} {lock : Dict} {p : Dict → Prop} (hlive : Live file now lock) :
    (∀ lock, Live file now lock → p lock) ↔ p lock := by
  refine ⟨fun h => h lock hlive, fun h lock' hlive' => ?_⟩
  rwa [hlive'.1.unique hlive.1]

theorem normalize_ok_iff {holderType ttlSeconds : Field} : (∃ r, normalize holderType ttlSeconds = .ok r) ↔
    ttlSeconds ≠ some (.float .posInf) ∧ ttlSeconds ≠ some (.float .negInf) := by
  cases ttlSeconds with
  | none =>
    refine ⟨fun _ => ⟨nofun, nofun⟩, fun _ => ?_⟩
    cases holderType with
    | none => exact ⟨_, rfl⟩
    | some value => exact ⟨_, rfl⟩
  | some ttl =>
    have hnormalize : normalize holderType (some ttl) =
        (normalizeTtl ttl (some 1800)).map fun t => (normalizeHolderType (holderType.getD .null) "ephemeral", t) := by
      cases holderType with
      | none => rfl
      | some value => rfl
    rw [hnormalize]
    cases ttl with
    | float x =>
      cases x with
      | posInf => exact ⟨fun ⟨r, h⟩ => (nomatch h), fun h => absurd rfl h.1⟩
      | negInf => exact ⟨fun ⟨r, h⟩ => (nomatch h), fun h => absurd rfl h.2⟩
      | fin q => exact ⟨fun _ => ⟨nofun, nofun⟩, fun _ => ⟨_, rfl⟩⟩
      | nan => exact ⟨fun _ => ⟨nofun, nofun⟩, fun _ => ⟨_, rfl⟩⟩
    | str text =>
      refine ⟨fun _ => ⟨nofun, nofun⟩, fun _ => ?_⟩
      unfold normalizeTtl
      dsimp only
      split_ifs
      · exact ⟨_, rfl⟩
      · cases intOfTextLimited text.toList with
        | none => exact ⟨_, rfl⟩
        | some n => exact ⟨_, rfl⟩
    | _ => exact ⟨fun _ => ⟨nofun, nofun⟩, fun _ => ⟨_, rfl⟩⟩

theorem answered_status (now : Time) (file : LockFile) :
    Answered .status (status now file).2 ↔ Answerable file ⟨now, .status⟩ := by
  unfold status Answerable
  dsimp only [Call.Nameless, Call.Finite, Call.HeedsNobody]
  rw [or_iff_right id, and_iff_right trivial]
  rcases readLock_legible now file with ⟨hnot, e, hread⟩ | ⟨hlegible, -, left, hread⟩ | ⟨hlegible, lock, -, hread⟩
  · rw [hread]
    exact ⟨fun h => absurd h not_answered_error, fun h => absurd h.1 hnot⟩
  · rw [hread]
    exact ⟨fun _ => ⟨hlegible, fun _ _ => Or.inl trivial⟩, fun _ => answered_ok List.mem_cons_self⟩
  · rw [hread]
    exact ⟨fun _ => ⟨hlegible, fun _ _ => Or.inl trivial⟩, fun _ => answered_ok List.mem_cons_self⟩

theorem answered_acquire (now : Time) (user : Json) (holderType ttlSeconds : Field) (file : LockFile) :
    Answered (.acquire user holderType ttlSeconds) (acquire now user holderType ttlSeconds file).2 ↔
      Answerable file ⟨now, .acquire user holderType ttlSeconds⟩ := by
  unfold acquire Answerable
  dsimp only [Call.Nameless, Call.Finite, Call.HeedsNobody]
  cases htruthy : user.truthy with
  | false => exact ⟨fun _ => Or.inl rfl, fun _ => answered_ok (by simp [Call.codes])⟩
  | true =>
    rw [or_iff_right (by nofun), ← @normalize_ok_iff holderType ttlSeconds]
    cases hnormalize : normalize holderType ttlSeconds with
    | error e => exact ⟨fun h => absurd h not_answered_error, fun ⟨⟨r, h⟩, _⟩ => (nomatch h)⟩
    | ok asked =>
      obtain ⟨normHolderType, normTtl⟩ := asked
      rw [and_iff_right ⟨_, rfl⟩]
      rcases readLock_legible now file with ⟨hnot, e, hread⟩ | ⟨hlegible, hnone, left, hread⟩ |
        ⟨hlegible, lock, hlive, hread⟩
      · rw [hread]
        exact ⟨fun h => absurd h not_answered_error, fun h => absurd h.1 hnot⟩
      · rw [hread]
        exact ⟨fun _ => ⟨hlegible, fun lock h => absurd h (hnone lock)⟩, fun _ => answered_ok (by simp [Call.codes])⟩
      · rw [hread, and_iff_right hlegible, forall_live_iff hlive, or_iff_right id]
        exact answered_held htruthy (by simp [Call.codes]) (answered_ok (by simp [Call.codes]))

theorem answered_heartbeat (now : Time) (user : Json) (file : LockFile) :
    Answered (.heartbeat user) (heartbeat now user file).2 ↔ Answerable file ⟨now, .heartbeat user⟩ := by
  unfold heartbeat Answerable
  dsimp only [Call.Nameless, Call.Finite, Call.HeedsNobody]
  cases htruthy : user.truthy with
  | false => exact ⟨fun _ => Or.inl rfl, fun _ => answered_ok (by simp [Call.codes])⟩
  | true =>
    rw [or_iff_right (by nofun), and_iff_right trivial]
    rcases readLock_legible now file with ⟨hnot, e, hread⟩ | ⟨hlegible, hnone, left, hread⟩ |
      ⟨hlegible, lock, hlive, hread⟩
    · rw [hread]
      exact ⟨fun h => absurd h not_answered_error, fun h => absurd h.1 hnot⟩
    · rw [hread]
      exact ⟨fun _ => ⟨hlegible, fun lock h => absurd h (hnone lock)⟩, fun _ => answered_ok (by simp [Call.codes])⟩
    · rw [hread, and_iff_right hlegible, forall_live_iff hlive, or_iff_right id]
      exact answered_held htruthy (by simp [Call.codes]) (answered_ok (by simp [Call.codes]))

theorem answered_release (now : Time) (user : Json) (force : Bool) (file : LockFile) :
    Answered (.release user force) (release now user force file).2 ↔ Answerable file ⟨now, .release user force⟩ := by
  unfold release Answerable
  dsimp only [Call.Nameless, Call.Finite, Call.HeedsNobody]
  cases htruthy : user.truthy with
  | false => exact ⟨fun _ => Or.inl rfl, fun _ => answered_ok (by simp [Call.codes])⟩
  | true =>
    rw [or_iff_right (by nofun), and_iff_right trivial]
    rcases readLock_legible now file with ⟨hnot, e, hread⟩ | ⟨hlegible, hnone, left, hread⟩ |
      ⟨hlegible, lock, hlive, hread⟩
    · rw [hread]
      exact ⟨fun h => absurd h not_answered_error, fun h => absurd h.1 hnot⟩
    · rw [hread]
      exact ⟨fun _ => ⟨hlegible, fun lock h => absurd h (hnone lock)⟩, fun _ => answered_ok (by simp [Call.codes])⟩
    · rw [hread, and_iff_right hlegible, forall_live_iff hlive]
      cases force with
      | true =>
        dsimp only
        rw [Bool.not_true, Bool.and_false]
        exact ⟨fun _ => Or.inl rfl, fun _ => answered_ok (by simp [Call.codes])⟩
      | false =>
        dsimp only
        rw [Bool.not_false, Bool.and_true, or_iff_right (by nofun)]
        exact answered_held htruthy (by simp [Call.codes]) (answered_ok (by simp [Call.codes]))

/-- **Every request is answered**, with one of its documented codes, unless its TTL is an infinity, the lock file
cannot be decoded or holds a record whose age cannot be compared with its TTL, or it would be refused in the name of a
record without a user. -/
theorem lock_api_answers_iff (file : LockFile) (c : TimedCall) :
    Answered c.call (exec file c).2 ↔ Answerable file c := by
  obtain ⟨now, call⟩ := c
  cases call with
  | status => exact answered_status now file
  | acquire user holderType ttlSeconds => exact answered_acquire now user holderType ttlSeconds file
  | heartbeat user => exact answered_heartbeat now user file
  | release user force => exact answered_release now user force file

/-- A record with a TTL whose stamp has no zone. -/
def zoneless : Dict :=
  [("locked", .bool true), ("user", .str "alice"), ("last_heartbeat", .str "2024-06-01T12:34:56"),
    ("ttl_seconds", .int 1800)]

/-- Not even the state of the lock can be asked for while such a record is stored. -/
theorem zoneless_not_answered : ¬∀ value c, Answered c.call (exec (.json value) c).2 := by
  intro h
  have hraises : (exec (.json (.obj zoneless)) ⟨0, .status⟩).2 = .error .typeError := by decide +kernel
  have hanswered := h (.obj zoneless) ⟨0, .status⟩
  rw [hraises] at hanswered
  exact not_answered_error hanswered

end Lager.Lock
