import Lager.Py.Datetime
import Lager.Py.Json

/-!
# The box lock (`box/lager/lock_state.py`)

The lock file holds one JSON record. `acquire`, `heartbeat`, `release` and `status` each run under
`FileGuard`, so a call is one step on the file: it takes the file as it finds it and returns the file it
leaves together with its answer. An exception that escapes a call is an answer too (`Except.error`).
Every read goes through `readLock`, which removes a record whose TTL has run out.
-/

namespace Lager.Lock

open Lager.Py

/-- `/etc/lager/lock.json`: missing, text that is not JSON, bytes that are not UTF-8, or a JSON value. -/
inductive LockFile where
  | absent
  | invalid
  | undecodable
  | json (value : Json)
  deriving DecidableEq

/-- The body of an answer. The f-string of a refusal keeps the holder as the record has it. -/
inductive Body where
  /-- a lock record, with `previous_user` for an acquire -/
  | record (lock : Dict)
  /-- `{'locked': False}`, with a `message` for a release -/
  | unlocked (message : Option String)
  /-- `{'error': text}` -/
  | error (text : String)
  /-- `{'error': f'Box is locked by {user}', 'lock': lock}` -/
  | lockedBy (user : Json) (lock : Dict)
  deriving DecidableEq

/-- `(http_status_code, body_dict)`. -/
structure Reply where
  code : Nat
  body : Body
  deriving DecidableEq

abbrev Answer := Except PyErr Reply

/-! ### Reading and reaping -/

/-- `_now_utc_iso`: the clock to the second. -/
def nowUtcIso (now : Time) : Json := .str (strftimeZ now)

/-- `_parse_iso`. Only `TypeError` and `ValueError` are caught: a truthy value that is not a string has no
`endswith`. -/
def parseIso (value : Json) : Except PyErr (Option Datetime) :=
  if !value.truthy then .ok none
  else match value with
    | .str s =>
      let text := s.toList
      if text.getLast? = some 'Z' then .ok (fromisoformat (text.dropLast ++ "+00:00".toList))
      else .ok (fromisoformat text)
    | _ => .error .attributeError

/-- `_read_lock_raw`: the record, or `None` if it is missing, not JSON, not an object, or not locked. -/
def readLockRaw : LockFile → Except PyErr (Option Dict)
  | .absent => .ok none
  | .invalid => .ok none
  | .undecodable => .error .unicodeDecodeError
  | .json (.obj data) => .ok (if (Dict.get data "locked").truthy then some data else none)
  | .json _ => .ok none

/-- `elapsed > ttl`, with `elapsed` in microseconds and `ttl` in seconds. -/
def exceeds (elapsed : Int) : Json → Except PyErr Bool
  | .bool b => .ok (decide (elapsed > (if b then 1 else 0) * 1000000))
  | .int n => .ok (decide (elapsed > n * 1000000))
  | .float (.fin q) => .ok (decide ((elapsed : ℚ) > q * 1000000))
  | .float .posInf => .ok false
  | .float .negInf => .ok true
  | .float .nan => .ok false
  | _ => .error .typeError

/-- `_is_expired`. -/
def isExpired (lock : Dict) (now : Time) : Except PyErr Bool :=
  let ttl := Dict.get lock "ttl_seconds"
  if ttl = .null then .ok false
  else
    let heartbeat := Dict.get lock "last_heartbeat"
    match parseIso (if heartbeat.truthy then heartbeat else Dict.get lock "locked_at") with
    | .error e => .error e
    | .ok none => .ok false
    | .ok (some last) =>
      match last.utcoffset with
      | none => .error .typeError
      | some offset => exceeds (now - (last.wall - offset)) ttl

/-- `_read_lock`: the live record, reaping an expired one. -/
def readLock (now : Time) (file : LockFile) : LockFile × Except PyErr (Option Dict) :=
  match readLockRaw file with
  | .error e => (file, .error e)
  | .ok none => (file, .ok none)
  | .ok (some lock) =>
    match isExpired lock now with
    | .error e => (file, .error e)
    | .ok true => (.absent, .ok none)
    | .ok false => (file, .ok (some lock))

/-- `_write_lock`. -/
def writeLock (lock : Dict) : LockFile := .json (.obj lock)

/-! ### Payload normalization -/

/-- A payload field: `none` is `_UNSET`, the field was not in the request. -/
abbrev Field := Option Json

/-- `_normalize_holder_type`. -/
def normalizeHolderType (value : Json) (default : String) : String :=
  match value with
  | .str s => if s ≠ "" then s else default
  | _ => default

/-- `_normalize_ttl`: `int(value)` for a number, truncated; `int` of an infinity is an `OverflowError`, which
is not caught. -/
def normalizeTtl (value : Json) (default : Option Int) : Except PyErr (Option Int) :=
  match value with
  | .null => .ok none
  | .str s =>
    let lower := s.toList.map Char.toLower
    if lower = "null".toList ∨ lower = "none".toList ∨ lower = [] then .ok none
    else match intOfTextLimited s.toList with
      | some n => .ok (some (max 1 n))
      | none => .ok default
  | .bool b => .ok (some (max 1 (if b then 1 else 0)))
  | .int n => .ok (some (max 1 n))
  | .float (.fin q) => .ok (some (max 1 (q.num.tdiv q.den)))
  | .float .posInf => .error .overflowError
  | .float .negInf => .error .overflowError
  | .float .nan => .ok default
  | .arr _ => .ok default
  | .obj _ => .ok default

/-- The holder type and TTL an acquire asks for. Both fields absent is a legacy payload. -/
def normalize (holderType ttlSeconds : Field) : Except PyErr (String × Option Int) :=
  match holderType, ttlSeconds with
  | none, none => .ok ("user", none)
  | _, _ =>
    let normHolderType := normalizeHolderType (holderType.getD .null) "ephemeral"
    match ttlSeconds with
    | none => .ok (normHolderType, if normHolderType = "user" then none else some 1800)
    | some ttl => (normalizeTtl ttl (some 1800)).map fun t => (normHolderType, t)

def ttlJson : Option Int → Json
  | none => .null
  | some n => .int n

/-! ### The four calls -/

/-- `GET /lock`. -/
def status (now : Time) (file : LockFile) : LockFile × Answer :=
  match readLock now file with
  | (file, .error e) => (file, .error e)
  | (file, .ok (some lock)) => (file, .ok ⟨200, .record lock⟩)
  | (file, .ok none) => (file, .ok ⟨200, .unlocked none⟩)

/-- The f-string `f'Box is locked by {lock["user"]}'` fails when the record has no user. -/
def refuse (code : Nat) (lock : Dict) : Answer :=
  match Dict.get? lock "user" with
  | none => .error (.keyError "user")
  | some user => .ok ⟨code, .lockedBy user lock⟩

/-- A same-holder refresh: only an auto-lock's class and TTL are rewritten. -/
def refreshed (existing : Dict) (user : Json) (now : Time) (holderType : String) (ttl : Option Int) : Dict :=
  let newLock := Dict.update existing
    [("locked", .bool true), ("user", user), ("last_heartbeat", nowUtcIso now)]
  let existingType := Dict.get existing "holder_type"
  if existingType = .str "ephemeral" ∨ existingType = .str "ci" then
    Dict.set (Dict.set newLock "holder_type" (.str holderType)) "ttl_seconds" (ttlJson ttl)
  else newLock

def freshLock (user : Json) (now : Time) (holderType : String) (ttl : Option Int) : Dict :=
  [("locked", .bool true), ("user", user), ("holder_type", .str holderType), ("locked_at", nowUtcIso now),
    ("last_heartbeat", nowUtcIso now), ("ttl_seconds", ttlJson ttl)]

/-- `POST /lock`. -/
def acquire (now : Time) (user : Json) (holderType ttlSeconds : Field) (file : LockFile) :
    LockFile × Answer :=
  if !user.truthy then (file, .ok ⟨400, .error "user is required"⟩)
  else match normalize holderType ttlSeconds with
    | .error e => (file, .error e)
    | .ok (normHolderType, normTtl) =>
      match readLock now file with
      | (file, .error e) => (file, .error e)
      | (_, .ok none) =>
        let newLock := freshLock user now normHolderType normTtl
        (writeLock newLock, .ok ⟨200, .record (Dict.set newLock "previous_user" .null)⟩)
      | (file, .ok (some existing)) =>
        let previousUser := Dict.get existing "user"
        if !previousUser.pyEq user then (file, refuse 409 existing)
        else
          let newLock := refreshed existing user now normHolderType normTtl
          (writeLock newLock, .ok ⟨200, .record (Dict.set newLock "previous_user" previousUser)⟩)

/-- `POST /lock/heartbeat`. -/
def heartbeat (now : Time) (user : Json) (file : LockFile) : LockFile × Answer :=
  if !user.truthy then (file, .ok ⟨400, .error "user is required"⟩)
  else match readLock now file with
    | (file, .error e) => (file, .error e)
    | (file, .ok none) => (file, .ok ⟨404, .error "Box is not locked"⟩)
    | (file, .ok (some existing)) =>
      if !(Dict.get existing "user").pyEq user then (file, refuse 403 existing)
      else
        let newLock := Dict.set existing "last_heartbeat" (nowUtcIso now)
        (writeLock newLock, .ok ⟨200, .record newLock⟩)

/-- `POST /unlock`. -/
def release (now : Time) (user : Json) (force : Bool) (file : LockFile) : LockFile × Answer :=
  if !user.truthy then (file, .ok ⟨400, .error "user is required"⟩)
  else match readLock now file with
    | (file, .error e) => (file, .error e)
    | (file, .ok none) => (file, .ok ⟨200, .unlocked (some "Box is already unlocked")⟩)
    | (file, .ok (some lock)) =>
      if !(Dict.get lock "user").pyEq user && !force then (file, refuse 403 lock)
      else (.absent, .ok ⟨200, .unlocked (some "Box unlocked")⟩)

/-! ### Runs of calls -/

/-- A call as the HTTP layer makes it. -/
inductive Call where
  | status
  | acquire (user : Json) (holderType ttlSeconds : Field)
  | heartbeat (user : Json)
  | release (user : Json) (force : Bool)

/-- A call and the clock at which it runs. -/
structure TimedCall where
  now : Time
  call : Call

/-- The file a call leaves and its answer. -/
def exec (file : LockFile) (c : TimedCall) : LockFile × Answer :=
  match c.call with
  | .status => status c.now file
  | .acquire user holderType ttlSeconds => acquire c.now user holderType ttlSeconds file
  | .heartbeat user => heartbeat c.now user file
  | .release user force => release c.now user force file

/-- The file after a run of calls. -/
def after (file : LockFile) (calls : List TimedCall) : LockFile :=
  calls.foldl (fun f c => (exec f c).1) file

@[simp] theorem after_nil (file : LockFile) : after file [] = file := rfl

@[simp] theorem after_cons (file : LockFile) (c : TimedCall) (calls : List TimedCall) :
    after file (c :: calls) = after (exec file c).1 calls := rfl

theorem after_append (file : LockFile) (a b : List TimedCall) : after file (a ++ b) = after (after file a) b :=
  List.foldl_append

end Lager.Lock
