import Lager.Py.Json
import Lager.RunRecord.LogHash
import Mathlib.Data.List.AList

/-!
# The record store

The files under the records root (`box/lager/python/run_record.py`): a directory is a finite map from run
ids to what the file of that id holds. `written` and `taken` are not files: they are every record that was
ever written to `final/`, and every record that a collector took out of the outbox, newest first.

`Job` is `publish_final` with the clean-up that its two callers do after it, one file operation a step.
`finalize` and `sweep_lost` differ in the record they publish and in what they remove.
-/

namespace Lager.RunRecord

open Lager.Py

/-! ### Records -/

/-- The name of a record's files. -/
abbrev RunId := String

inductive Mode
  | local_
  | collected
  deriving DecidableEq, Repr

inductive RecordState
  | open_
  | final
  deriving DecidableEq, Repr

inductive Reason
  | exited
  | disconnected
  | startFailed
  | cancelled
  | timeout
  | lost
  deriving DecidableEq, Repr

structure Exit where
  code : Option Int
  reason : Reason
  timeoutSeconds : Int
  cancelRequestedAt : Option String
  deriving DecidableEq, Repr

structure CodeFile where
  path : String
  size : Nat
  sha256 : String
  deriving DecidableEq, Repr

structure Code where
  kind : String
  archiveSha256 : Option String
  files : List CodeFile
  entrypoint : String
  args : List String
  deriving DecidableEq, Repr

structure OutputEntry where
  name : String
  size : Option Nat
  sha256 : Option String
  retained : Bool
  deriving DecidableEq, Repr

structure Retention where
  mode : Mode
  maxBlobBytes : Int
  deriving DecidableEq, Repr

/-- A run record; `schema` is the same in all of them. -/
structure Record where
  runId : RunId
  boxSequence : Nat
  state : RecordState
  startedAt : String
  finishedAt : Option String
  box : Json
  boxState : Json
  code : Code
  environmentPassed : List String
  exit : Option Exit
  outputs : List OutputEntry
  log : Option LogEntry
  retention : Retention
  clientAsserted : Json
  scriptAsserted : Json
  deriving DecidableEq

/-- What `_persist_open` writes: the record and `_effectiveTimeout`. -/
structure OpenRecord where
  record : Record
  effectiveTimeout : Int
  deriving DecidableEq

/-! ### The outside world -/

/-- What the store takes from libraries and the environment: SHA-256 as lowercase hex, the files of a zip
archive in archive order, and `blob_max()`. -/
structure World where
  sha256 : Bytes → String
  unzip : Bytes → Except PyErr (List (String × Bytes))
  blobMax : Int

/-- What `parse_client_field` makes of the client's field. -/
structure ClientField where
  passenv : List String
  downloads : List String
  asserted : Json
  deriving DecidableEq

/-- A `/python` request as `begin` sees it. `box` and `boxState` are what `read_box` and `read_box_state` find
on the box at the time, and `client` what `parse_client_field` returns, each unless it raises. -/
structure Request where
  runId : String
  scriptFile : Option Bytes
  scriptName : Option String
  moduleZip : Option Bytes
  args : List String
  timeoutSeconds : Int
  client : Except PyErr ClientField
  box : Except PyErr Json
  boxState : Except PyErr Json

/-- A character of a run id after the first. -/
def isRunIdChar (c : Char) : Bool := c.isAlphanum || c = '_' || c = '-'

/-- `^[A-Za-z0-9][A-Za-z0-9_-]{0,127}$` with `re.match`: the `$` also matches before a final newline. -/
def validRunId (runId : String) : Bool :=
  let text := if runId.toList.getLast? = some '\n' then runId.toList.dropLast else runId.toList
  match text with
  | [] => false
  | c :: rest => c.isAlphanum && rest.all isRunIdChar && decide (rest.length ≤ 127)

/-- `os.path.basename(name or '') or 'script.py'`. -/
def scriptBasename (name : Option String) : String :=
  let base := String.ofList (((name.getD "").toList.reverse.takeWhile (· ≠ '/')).reverse)
  if base = "" then "script.py" else base

def codeFile (w : World) (path : String) (data : Bytes) : CodeFile := ⟨path, data.length, w.sha256 data⟩

/-- The `code` section. A module archive that cannot be read raises. -/
def describeCode (w : World) (scriptFile : Option Bytes) (scriptName : Option String)
    (moduleZip : Option Bytes) (args : List String) : Except PyErr Code :=
  match moduleZip with
  | some (b :: bs) => do
    let entries ← w.unzip (b :: bs)
    let files := entries.map fun (path, data) => codeFile w path data
    .ok {
      kind := "module"
      archiveSha256 := some (w.sha256 (b :: bs))
      files := files.mergeSort fun f g => decide (¬g.path < f.path)
      entrypoint := "main.py"
      args }
  | _ =>
    let name := scriptBasename scriptName
    .ok {
      kind := "script"
      archiveSha256 := none
      files := [codeFile w name (scriptFile.getD [])]
      entrypoint := name
      args }

/-- The record `begin` builds once it has a sequence number, in the order the code evaluates it. -/
def buildRecord (w : World) (mode : Mode) (req : Request) (runId : RunId) (boxSequence : Nat)
    (startedAt : String) : Except PyErr OpenRecord := do
  let client ← req.client
  let box ← req.box
  let boxState ← req.boxState
  let code ← describeCode w req.scriptFile req.scriptName req.moduleZip req.args
  .ok {
    record := {
      runId
      boxSequence
      state := .open_
      startedAt
      finishedAt := none
      box
      boxState
      code
      environmentPassed := client.passenv
      exit := none
      outputs := []
      log := none
      retention := ⟨mode, if mode = .collected then w.blobMax else 0⟩
      clientAsserted := client.asserted
      scriptAsserted := .null }
    effectiveTimeout := req.timeoutSeconds }

theorem buildRecord_ok {w : World} {mode : Mode} {req : Request} {runId : RunId} {n : Nat}
    {startedAt : String} {o : OpenRecord} (h : buildRecord w mode req runId n startedAt = .ok o) :
    o.record.runId = runId ∧ o.record.boxSequence = n := by
  simp only [buildRecord, bind, Except.bind] at h
  repeat' split at h
  all_goals cases h
  all_goals exact ⟨rfl, rfl⟩

/-! ### The end of a run -/

/-- `normalize_exit_code`. -/
def normalizeExitCode (raw : Option Int) : Option Int :=
  raw.map fun code => if code < -1 then 128 + code.natAbs else code

/-- How the box saw a run end: the `ended` argument of `finalize`. -/
inductive Ended
  | exited
  | disconnected
  | startFailed
  deriving DecidableEq, Repr

/-- The `exit` section. `late` says that the run took at least `effective_timeout - 0.5` seconds, and `cancel`
is the text of the cancel marker, if there is one. -/
def exitOf (effectiveTimeout : Int) (returncode : Option Int) (ended : Ended) (late : Bool)
    (cancel : Option String) : Exit :=
  let code := normalizeExitCode returncode
  let reason :=
    if cancel.isSome then .cancelled
    else match ended with
      | .disconnected => .disconnected
      | .startFailed => .startFailed
      | .exited =>
        if 0 < effectiveTimeout ∧ (code = some 124 ∨ code = some 137) ∧ late then .timeout else .exited
  ⟨code, reason, effectiveTimeout, cancel.filter (· ≠ "")⟩

/-- The final record of a run that ended. -/
def finalRecord (o : OpenRecord) (exit : Exit) (finishedAt : String) (outputs : List OutputEntry)
    (log : LogEntry) (scriptAsserted : Json) : Record :=
  { o.record with state := .final, finishedAt := some finishedAt, exit := some exit, outputs, log := some log,
                  scriptAsserted }

/-- The final record of a run that a restart found open. -/
def lostRecord (w : World) (o : OpenRecord) (log : Option Bytes) (cancel : Option String)
    (scriptAsserted : Json) : Record :=
  { o.record with
    state := .final
    finishedAt := none
    exit := some ⟨none, .lost, o.effectiveTimeout, cancel.filter (· ≠ "")⟩
    outputs := []
    log := some ⟨w.sha256 (log.getD []), (log.getD []).length, false⟩
    scriptAsserted }

/-! ### The files -/

/-- A directory of files named by run ids. -/
abbrev Dir (α : Type) := AList fun _ : RunId => α

structure Store where
  opens : Dir OpenRecord
  logs : Dir Bytes
  cancels : Dir String
  final : Dir Record
  outbox : Dir Record
  /-- The `sequence` file; no file counts as zero. -/
  sequence : Nat
  written : List Record
  taken : List Record

def Store.empty : Store := ⟨∅, ∅, ∅, ∅, ∅, 0, [], []⟩

/-- A collector takes a record out of the outbox. -/
def Store.collect (s : Store) (runId : RunId) : Store :=
  { s with outbox := s.outbox.erase runId, taken := (s.outbox.lookup runId).toList ++ s.taken }

/-- `FINAL_KEEP`. -/
def finalKeep : Nat := 500

/-- The files of a run in `open/`. The script's own file is not modelled: what it holds is the script's
doing, and no other part of the store depends on it. -/
inductive Leftover
  | json
  | log
  | cancel
  | script
  deriving DecidableEq, Repr

def Store.unlink (s : Store) (runId : RunId) : Leftover → Store
  | .json => { s with opens := s.opens.erase runId }
  | .log => { s with logs := s.logs.erase runId }
  | .cancel => { s with cancels := s.cancels.erase runId }
  | .script => s

/-! ### Publishing -/

/-- Where a publication stands. -/
inductive Stage
  | writeFinal
  | link
  | writeOutbox
  | scan
  | prune (victims : List RunId)
  /-- `publish_final` has returned; its caller removes the run's files. -/
  | unlink (rest : List Leftover)
  deriving DecidableEq, Repr

/-- The record that is published, the name of its open files, and those its publisher removes. -/
structure Job where
  record : Record
  file : RunId
  leftovers : List Leftover
  stage : Stage
  deriving DecidableEq

inductive LinkOutcome
  | tried
  /-- `EXDEV`, `EPERM` or `EMLINK`: the record is written a second time instead. -/
  | unsupported
  | fails
  deriving DecidableEq, Repr

/-- `ok = false` is an operation that fails: a write that raises, an `unlink` that leaves the file there. -/
inductive JobEvent
  | write (ok : Bool)
  | link (outcome : LinkOutcome)
  | writeOutbox (ok : Bool)
  /-- The files to prune are the oldest by `st_mtime`, so which they are is up to the clock; `none` is a
  directory that cannot be scanned. -/
  | scan (victims : Option (List RunId))
  /-- An entry that went away between the scan and its `stat`. -/
  | statFails
  | prune (ok : Bool)
  | unlink (ok : Bool)
  deriving DecidableEq, Repr

inductive After
  | goOn (job : Job)
  | done
  | raised
  deriving DecidableEq

/-- `publish_final` returns and its caller goes on. -/
def Job.returned (job : Job) : After := .goOn { job with stage := .unlink job.leftovers }

/-- One file operation of a publication. -/
def jobStep (mode : Mode) (s : Store) (job : Job) : JobEvent → Option (Store × After)
  | .write ok =>
    match job.stage with
    | .writeFinal =>
      if ok then
        some ({ s with
            final := s.final.insert job.record.runId job.record
            written := job.record :: s.written },
          .goOn { job with stage := if mode = .collected then .link else .scan })
      else some (s, .raised)
    | _ => none
  | .link outcome =>
    match job.stage, outcome with
    | .link, .tried =>
      match s.outbox.lookup job.record.runId, s.final.lookup job.record.runId with
      | some _, _ => some (s, .goOn { job with stage := .scan })
      | none, some r =>
        some ({ s with outbox := s.outbox.insert job.record.runId r }, .goOn { job with stage := .scan })
      | none, none => some (s, .raised)
    | .link, .unsupported => some (s, .goOn { job with stage := .writeOutbox })
    | .link, .fails => some (s, .raised)
    | _, _ => none
  | .writeOutbox ok =>
    match job.stage with
    | .writeOutbox =>
      if ok then
        some ({ s with outbox := s.outbox.insert job.record.runId job.record }, .goOn { job with stage := .scan })
      else some (s, .raised)
    | _ => none
  | .scan victims =>
    match job.stage, victims with
    | .scan, none => some (s, job.returned)
    | .scan, some [] => if s.final.entries.length ≤ finalKeep then some (s, job.returned) else none
    | .scan, some (v :: vs) =>
      if finalKeep < s.final.entries.length ∧ (v :: vs).length = s.final.entries.length - finalKeep ∧
          (v :: vs).Nodup ∧ ∀ x ∈ v :: vs, x ∈ s.final.keys then
        some (s, .goOn { job with stage := .prune (v :: vs) })
      else none
    | _, _ => none
  | .statFails =>
    match job.stage with
    | .scan => if finalKeep < s.final.entries.length then some (s, .raised) else none
    | _ => none
  | .prune ok =>
    match job.stage with
    | .prune (v :: vs) =>
      some (if ok then { s with final := s.final.erase v } else s,
        if vs = [] then job.returned else .goOn { job with stage := .prune vs })
    | _ => none
  | .unlink ok =>
    match job.stage with
    | .unlink (l :: ls) =>
      some (if ok then s.unlink job.file l else s,
        if ls = [] then .done else .goOn { job with stage := .unlink ls })
    | _ => none

end Lager.RunRecord
