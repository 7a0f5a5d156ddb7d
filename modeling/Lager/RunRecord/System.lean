import Lager.Lib.Run
import Lager.Py.Sha256
import Lager.RunRecord.Store
import Mathlib.Data.List.Infix
import Mathlib.Logic.Function.Basic

/-!
# The record store over time

The execution service as a system: it sweeps the open records when it starts, then serves requests, each of
which goes through `begin`, `log_frame` and `finalize` one file operation at a time, in any interleaving with
the others. It can die at any point; the files stay. A collector takes files out of the outbox whenever it
likes.

A run keeps its place in `runs` for good, also after it has ended, so that a sequence number or an id can be
said to belong to a run. `ids` is every id that was ever requested or minted: `uuid.uuid4()` is taken to
return one that is not among them.
-/

namespace Lager.RunRecord

open Lager.Py Lager.Lib

/-! ### One run -/

/-- Where a run stands: in `begin`, capturing, in `finalize`, or over. -/
inductive Phase
  /-- Before the space check and the look at the id. -/
  | accepted
  /-- `os.path.exists(open/<runId>.json)` -/
  | testOpen (runId : RunId)
  /-- `os.path.exists(final/<runId>.json)` -/
  | testFinal (runId : RunId)
  /-- `next_sequence` -/
  | bump (runId : RunId)
  /-- The rest of the record. -/
  | build (runId : RunId) (boxSequence : Nat)
  /-- `RunRecorder.__init__`, which opens the log file. -/
  | openLog (o : OpenRecord)
  /-- `_persist_open` -/
  | persist (o : OpenRecord) (capture : LogCapture)
  | running (o : OpenRecord) (capture : LogCapture)
  /-- `finalize` knows how the run ended; the log is next. -/
  | closing (o : OpenRecord) (capture : LogCapture) (exit : Exit)
  /-- The outputs and the script's assertions. -/
  | assembling (o : OpenRecord) (exit : Exit) (log : LogEntry)
  | publishing (o : OpenRecord) (job : Job)
  | done (o : OpenRecord)
  /-- `begin` failed; it may have taken a sequence number. -/
  | refused (boxSequence : Option Nat)
  /-- `finalize` failed and logged it. -/
  | failed (o : OpenRecord)
  /-- The service died, with the number and the open record the run had by then. -/
  | dead (boxSequence : Option Nat) (opened : Option OpenRecord)

structure Run where
  request : Request
  phase : Phase

/-- The sequence number the run was handed. -/
def Phase.number : Phase → Option Nat
  | .accepted | .testOpen _ | .testFinal _ | .bump _ => none
  | .build _ n => some n
  | .openLog o | .persist o _ | .running o _ | .closing o _ _ | .assembling o _ _ | .publishing o _ | .done o
  | .failed o => some o.record.boxSequence
  | .refused n | .dead n _ => n

/-- The open record the run has written. -/
def Phase.opened : Phase → Option OpenRecord
  | .running o _ | .closing o _ _ | .assembling o _ _ | .publishing o _ | .done o | .failed o => some o
  | .dead _ o => o
  | .accepted | .testOpen _ | .testFinal _ | .bump _ | .build _ _ | .openLog _ | .persist _ _ | .refused _ => none

/-- What is left of a run when the service dies. -/
def Run.kill (r : Run) : Run := { r with phase := .dead r.phase.number r.phase.opened }

/-- What a run does or meets next. `ok = false` is an operation that raises. -/
inductive RunEvent
  | check (spaceOk : Bool) (uuid : RunId)
  | testOpen (uuid : RunId)
  | testFinal (uuid : RunId)
  | bump (ok : Bool)
  | build (startedAt : String)
  | openLog (ok : Bool)
  | persist (ok : Bool)
  | logFrame (disk : Disk) (fileno : Int) (chunk : Bytes)
  /-- The first `n` bytes of the log are on the disk. -/
  | flush (n : Nat)
  | finalize (returncode : Option Int) (ended : Ended) (late : Bool)
  | closeLog (ok : Bool)
  | assemble (ok : Bool) (finishedAt : String) (outputs : List OutputEntry) (scriptAsserted : Json)
  | job (e : JobEvent)

/-- The id `uuid.uuid4()` returns in this step, where it is called. -/
def RunEvent.uuid? : RunEvent → Option RunId
  | .check _ uuid | .testOpen uuid | .testFinal uuid => some uuid
  | _ => none

/-- The id is settled and the client's field is parsed, which can raise. -/
def settle (req : Request) (runId : RunId) : Phase :=
  match req.client with
  | .error _ => .refused none
  | .ok _ => .bump runId

/-- A collected-mode box keeps the log's bytes. -/
def Mode.retain (mode : Mode) : Bool := decide (mode = .collected)

/-- The phase after an operation of the publication. -/
def publishingPhase (o : OpenRecord) : After → Phase
  | .goOn job => .publishing o job
  | .done => .done o
  | .raised => .failed o

def runStep (w : World) (mode : Mode) (s : Store) (r : Run) : RunEvent → Option (Store × Phase)
  | .check spaceOk uuid =>
    match r.phase with
    | .accepted =>
      if mode = .collected ∧ ¬spaceOk then some (s, .refused none)
      else some (s, .testOpen (if validRunId r.request.runId then r.request.runId else uuid))
    | _ => none
  | .testOpen uuid =>
    match r.phase with
    | .testOpen runId =>
      if runId ∈ s.opens then some (s, settle r.request uuid) else some (s, .testFinal runId)
    | _ => none
  | .testFinal uuid =>
    match r.phase with
    | .testFinal runId => some (s, settle r.request (if runId ∈ s.final then uuid else runId))
    | _ => none
  | .bump ok =>
    match r.phase with
    | .bump runId =>
      if ok then some ({ s with sequence := s.sequence + 1 }, .build runId (s.sequence + 1))
      else some (s, .refused none)
    | _ => none
  | .build startedAt =>
    match r.phase with
    | .build runId n =>
      match buildRecord w mode r.request runId n startedAt with
      | .ok o => some (s, .openLog o)
      | .error _ => some (s, .refused (some n))
    | _ => none
  | .openLog ok =>
    match r.phase with
    | .openLog o =>
      if mode.retain then
        if ok then some ({ s with logs := s.logs.insert o.record.runId [] }, .persist o (.init true))
        else some (s, .refused (some o.record.boxSequence))
      else some (s, .persist o (.init false))
    | _ => none
  | .persist ok =>
    match r.phase with
    | .persist o capture =>
      if ok then some ({ s with opens := s.opens.insert o.record.runId o }, .running o capture)
      else some (s, .refused (some o.record.boxSequence))
    | _ => none
  | .logFrame disk fileno chunk =>
    match r.phase with
    | .running o capture =>
      let capture' := capture.logFrame w.blobMax disk fileno chunk
      let s := if capture.logFile.isSome ∧ capture'.logFile = none then
        { s with logs := s.logs.erase o.record.runId } else s
      some (s, .running o capture')
    | _ => none
  | .flush n =>
    match r.phase with
    | .running o capture =>
      match capture.logFile with
      | some bytes => some ({ s with logs := s.logs.insert o.record.runId (bytes.take n) }, .running o capture)
      | none => none
    | _ => none
  | .finalize returncode ended late =>
    match r.phase with
    | .running o capture =>
      let cancel := s.cancels.lookup o.record.runId
      some (s, .closing o capture (exitOf o.effectiveTimeout returncode ended late cancel))
    | _ => none
  | .closeLog ok =>
    match r.phase with
    | .closing o capture exit =>
      let log := capture.entry w.sha256 w.blobMax (o.record.runId ∈ s.logs)
      if ok then some ({ s with logs := s.logs.erase o.record.runId }, .assembling o exit log)
      else some (s, .failed o)
    | _ => none
  | .assemble ok finishedAt outputs scriptAsserted =>
    match r.phase with
    | .assembling o exit log =>
      if ok then
        let record := finalRecord o exit finishedAt outputs log scriptAsserted
        some (s, .publishing o ⟨record, o.record.runId, [.json, .cancel, .script], .writeFinal⟩)
      else some (s, .failed o)
    | _ => none
  | .job e =>
    match r.phase with
    | .publishing o job => (jobStep mode s job e).map fun (s, after) => (s, publishingPhase o after)
    | _ => none

/-! ### The system -/

inductive Service
  | down
  /-- `sweep_lost`: the names still to take up, and the record that is being published. -/
  | sweeping (rest : List RunId) (job : Option Job)
  | serving
  deriving DecidableEq

structure Sys where
  store : Store
  service : Service
  runs : Nat → Option Run
  /-- Runs that `mark_cancelled` found open and unmarked and is about to mark. -/
  marking : List RunId
  ids : List RunId

inductive Event
  /-- The service starts and lists the open records. -/
  | restart (names : List RunId)
  | restartScanFails
  | sweepTake (readable : Bool) (scriptAsserted : Json)
  | sweepJob (e : JobEvent)
  | serve
  | crash
  | accept (i : Nat) (req : Request)
  | run (i : Nat) (e : RunEvent)
  | markCheck (runId : RunId)
  | markWrite (runId : RunId) (now : String)
  | collect (runId : RunId)

/-- What is done with a swept record after an operation of its publication. -/
def sweptJob : After → Option Job
  | .goOn job => some job
  | .done | .raised => none

def sweepJobOf (w : World) (s : Store) (name : RunId) (o : OpenRecord) (scriptAsserted : Json) : Job :=
  { record := lostRecord w o (s.logs.lookup name) (s.cancels.lookup name) scriptAsserted
    file := name
    leftovers := [.json, .log, .cancel, .script]
    stage := .writeFinal }

def step (w : World) (mode : Mode) (s : Sys) : Event → Option Sys
  | .restart names =>
    match s.service with
    | .down => if names.Perm s.store.opens.keys then some { s with service := .sweeping names none } else none
    | _ => none
  | .restartScanFails =>
    match s.service with
    | .down => some { s with service := .serving }
    | _ => none
  | .sweepTake readable scriptAsserted =>
    match s.service with
    | .sweeping (name :: rest) none =>
      match s.store.opens.lookup name, readable with
      | some o, true =>
        some { s with service := .sweeping rest (some (sweepJobOf w s.store name o scriptAsserted)) }
      | _, _ => some { s with service := .sweeping rest none }
    | _ => none
  | .sweepJob e =>
    match s.service with
    | .sweeping rest (some job) =>
      (jobStep mode s.store job e).map fun (store, after) =>
        { s with store, service := .sweeping rest (sweptJob after) }
    | _ => none
  | .serve =>
    match s.service with
    | .sweeping [] none => some { s with service := .serving }
    | _ => none
  | .crash => some { s with service := .down, runs := fun i => (s.runs i).map Run.kill, marking := [] }
  | .accept i req =>
    if s.service = .serving ∧ s.runs i = none then
      some { s with runs := Function.update s.runs i (some ⟨req, .accepted⟩), ids := req.runId :: s.ids }
    else none
  | .run i e =>
    match s.service, s.runs i with
    | .serving, some r =>
      if ∀ uuid ∈ e.uuid?, uuid ∉ s.ids then
        (runStep w mode s.store r e).map fun (store, phase) =>
          { s with
            store
            runs := Function.update s.runs i (some { r with phase })
            ids := e.uuid?.toList ++ s.ids }
      else none
    | _, _ => none
  | .markCheck runId =>
    if s.service = .serving ∧ runId ∈ s.store.opens ∧ runId ∉ s.store.cancels then
      some { s with marking := runId :: s.marking }
    else none
  | .markWrite runId now =>
    if runId ∈ s.marking then
      some { s with
        store := { s.store with cancels := s.store.cancels.insert runId now }
        marking := s.marking.erase runId }
    else none
  | .collect runId => some { s with store := s.store.collect runId }

/-- A box that has never recorded a run, before its service starts. -/
def Sys.init : Sys := ⟨.empty, .down, fun _ => none, [], []⟩

/-! ### A sample box -/

/-- A box for concrete runs. The only archives in them are none: data without an end-of-central-directory
record, which `zipfile` refuses. -/
def sampleWorld : World where
  sha256 := sha256Hex
  unzip data := if [80, 75, 5, 6] <:+: data then .ok [] else .error .badZipFile
  blobMax := 100 * 1024 * 1024

/-- A request that runs a one-line script. -/
def scriptRequest (runId : RunId) : Request where
  runId := runId
  scriptFile := some (encode "print(1)".toList)
  scriptName := some "a.py"
  moduleZip := none
  args := []
  timeoutSeconds := 0
  client := .ok ⟨[], [], .null⟩
  box := .ok .null
  boxState := .ok .null

/-- A `begin` without a hitch, for the run with this index. -/
def beginRun (i : Nat) (req : Request) : List Event :=
  let uuid (k : Nat) := s!"uuid-{i}-{k}"
  [.accept i req, .run i (.check true (uuid 0)), .run i (.testOpen (uuid 1)), .run i (.testFinal (uuid 2)),
    .run i (.bump true), .run i (.build "2026-01-01T00:00:00.000000Z"), .run i (.openLog true),
    .run i (.persist true)]

/-- Two requests with one id: both look for files of the id before either has written one. -/
def racingBegins : List Event :=
  [.restart [], .serve] ++ (beginRun 0 (scriptRequest "r0")).take 4 ++ beginRun 1 (scriptRequest "r0") ++
    (beginRun 0 (scriptRequest "r0")).drop 4

/-- A `finalize` without a hitch, up to the write to `final/`. -/
def finalizeRun (i : Nat) : List Event :=
  [.run i (.finalize (some 0) .exited false), .run i (.closeLog true),
    .run i (.assemble true "2026-01-01T00:00:01.000000Z" [] .null), .run i (.job (.write true))]

/-- The rest of the publication in collected mode, with nothing to prune. -/
def collectRun (i : Nat) : List Event :=
  [.run i (.job (.link .tried)), .run i (.job (.scan (some []))), .run i (.job (.unlink true)),
    .run i (.job (.unlink true)), .run i (.job (.unlink true))]

end Lager.RunRecord
