import Lager.Lib.Run
import Lager.RunRecord.Store
import Mathlib.Logic.Function.Basic

/-!
# Retained bytes

In collected mode `finalize` keeps the log and the output files of a run under their hashes. The log is hashed while
it is streamed and its file is moved; an output file is hashed in one pass and copied in another. Any number of runs
do this at once, one file operation at a time, and the processes that a script left behind may do anything to its
output files in between.

A file is an inode with a content, and names refer to inodes: two runs under one id write to the same log file, and a
file that is open stays the same when its name goes to another. A temporary file has a fresh name, so it is known by
its inode alone.
-/

namespace Lager.RunRecord.Retention

open Lager.Py

/-! ### Files -/

abbrev Inode := Nat

/-- The files of the store that hold bytes: `open/<runId>.log` and `blobs/<sha256>`. -/
structure Files where
  content : Inode → Bytes
  next : Inode
  logs : RunId → Option Inode
  blobs : String → Option Inode

/-- The files of the scripts. -/
structure Outputs where
  inode : String → Option Inode
  content : Inode → Bytes

/-- A write at an offset; a gap is filled with zeros. -/
def overwrite (content : Bytes) (offset : Nat) (data : Bytes) : Bytes :=
  content.take offset ++ List.replicate (offset - content.length) 0 ++ data ++ content.drop (offset + data.length)

namespace Files

def empty : Files := ⟨fun _ => [], 0, fun _ => none, fun _ => none⟩

def setContent (f : Files) (m : Inode) (bytes : Bytes) : Files := { f with content := Function.update f.content m bytes }

/-- A new file, without a name in the store yet. -/
def create (f : Files) : Files × Inode := ({ f.setContent f.next [] with next := f.next + 1 }, f.next)

/-- `open(log_path, 'wb')`: a file that is there is truncated. -/
def openLog (f : Files) (runId : RunId) : Files × Inode :=
  match f.logs runId with
  | some m => (f.setContent m [], m)
  | none => ({ f.create.1 with logs := Function.update f.logs runId (some f.next) }, f.next)

/-- The bytes after the first `flushed` ones reach the file. -/
def pour (f : Files) (fd : Inode) (flushed : Nat) (written : Bytes) : Files :=
  f.setContent fd (overwrite (f.content fd) flushed (written.drop flushed))

def unlinkLog (f : Files) (runId : RunId) : Files := { f with logs := Function.update f.logs runId none }

/-- `os.replace(tmp, dest)` -/
def replace (f : Files) (tmp : Inode) (sha : String) : Files := { f with blobs := Function.update f.blobs sha (some tmp) }

end Files

/-! ### One run -/

/-- Where `hash_outputs` is with a file: the inode it opened, and what it has read of it. -/
inductive Copy
  | resolving
  | hashing (src : Inode) (seen : Bytes)
  /-- `os.path.exists(dest)` -/
  | testing (src : Inode) (seen : Bytes)
  /-- `shutil.copyfile` opens the file once more. -/
  | opening (src : Inode) (seen : Bytes)
  | copying (seen : Bytes) (src tmp : Inode) (copied : Nat)
  | placing (seen : Bytes) (tmp : Inode)

inductive Phase
  | capturing (log : LogCapture) (fd : Inode) (flushed : Nat)
  /-- `finalize` has closed the log. -/
  | closed (log : LogCapture)
  | testingLog (entry : LogEntry)
  | droppingLog (entry : LogEntry)
  | movingLog (entry : LogEntry)
  | placingLog (entry : LogEntry) (tmp : Inode)
  | listing (log : LogEntry)
  | output (log : LogEntry) (done : List OutputEntry) (name : String) (rest : List String) (copy : Copy)
  | assembled (log : LogEntry) (outputs : List OutputEntry)
  /-- The record is published, or `finalize` has failed. -/
  | finished

structure Run where
  runId : RunId
  phase : Phase

/-- `ok = false` is an operation that raises. -/
inductive RunEvent
  | frame (disk : Disk) (fileno : Int) (chunk : Bytes)
  /-- The first `n` bytes of the log have reached the file. -/
  | flush (n : Nat)
  | close (ok : Bool)
  /-- `os.path.exists(log_path)` -/
  | testLog
  | testLogBlob
  | dropLog (ok : Bool)
  | moveLog (ok : Bool)
  | placeLog (ok : Bool)
  /-- The names of the outputs. -/
  | list (names : List String)
  | resolve (ok : Bool)
  /-- At most `n + 1` bytes. -/
  | read (ok : Bool) (n : Nat)
  | testBlob
  | openCopy (ok : Bool)
  | copy (ok : Bool) (n : Nat)
  | place (ok : Bool)

/-- The entry of a file that could not be hashed. -/
def nullEntry (name : String) : OutputEntry := ⟨name, none, none, false⟩

def hashedEntry (w : World) (name : String) (seen : Bytes) (retained : Bool) : OutputEntry :=
  ⟨name, some seen.length, some (w.sha256 seen), retained⟩

/-- On to the next output. -/
def goOn (log : LogEntry) (done : List OutputEntry) : List String → Phase
  | [] => .assembled log done
  | name :: rest => .output log done name rest .resolving

/-- What `hash_outputs` does next with a file: another operation on it, or its entry. -/
inductive Next
  | stays (copy : Copy)
  | ends (entry : OutputEntry)

def Next.phase (log : LogEntry) (done : List OutputEntry) (name : String) (rest : List String) : Next → Phase
  | .stays copy => .output log done name rest copy
  | .ends entry => goOn log (done ++ [entry]) rest

/-- One operation of `hash_outputs` on the file of this name. -/
def copyStep (w : World) (f : Files) (outputs : Outputs) (name : String) (copy : Copy) : RunEvent → Option (Files × Next)
  | .resolve ok =>
    match copy, outputs.inode name with
    | .resolving, some src => some (f, if ok then .stays (.hashing src []) else .ends (nullEntry name))
    | .resolving, none => some (f, .ends (nullEntry name))
    | _, _ => none
  | .read ok n =>
    match copy with
    | .hashing src seen =>
      let chunk := ((outputs.content src).drop seen.length).take (n + 1)
      if !ok then some (f, .ends (nullEntry name))
      else if chunk ≠ [] then some (f, .stays (.hashing src (seen ++ chunk)))
      else if (seen.length : Int) ≤ w.blobMax then some (f, .stays (.testing src seen))
      else some (f, .ends (hashedEntry w name seen false))
    | _ => none
  | .testBlob =>
    match copy with
    | .testing src seen =>
      some (f, if (f.blobs (w.sha256 seen)).isSome then .ends (hashedEntry w name seen true)
        else .stays (.opening src seen))
    | _ => none
  | .openCopy ok =>
    match copy, outputs.inode name with
    | .opening _ seen, some src =>
      if ok then some (f.create.1, .stays (.copying seen src f.create.2 0))
      else some (f, .ends (hashedEntry w name seen false))
    | .opening _ seen, none => some (f, .ends (hashedEntry w name seen false))
    | _, _ => none
  | .copy ok n =>
    match copy with
    | .copying seen src tmp copied =>
      let chunk := ((outputs.content src).drop copied).take (n + 1)
      if !ok then some (f, .ends (hashedEntry w name seen false))
      else if chunk ≠ [] then
        some (f.setContent tmp (f.content tmp ++ chunk), .stays (.copying seen src tmp (copied + chunk.length)))
      else some (f, .stays (.placing seen tmp))
    | _ => none
  | .place ok =>
    match copy with
    | .placing seen tmp =>
      if ok then some (f.replace tmp (w.sha256 seen), .ends (hashedEntry w name seen true))
      else some (f, .ends (hashedEntry w name seen false))
    | _ => none
  | _ => none

/-- One operation on the log. -/
def logStep (w : World) (f : Files) (runId : RunId) : Phase → RunEvent → Option (Files × Phase)
  | .capturing log fd flushed, .frame disk fileno chunk =>
    let log' := log.logFrame w.blobMax disk fileno chunk
    match log.logFile, log'.logFile with
    | some written, none =>
      -- `_drop_log_bytes`
      let f := if disk = .ok then f.pour fd flushed written else f
      some (f.unlinkLog runId, .capturing log' fd flushed)
    | _, _ => some (f, .capturing log' fd flushed)
  | .capturing log fd flushed, .flush n =>
    match log.logFile with
    | some written =>
      if flushed ≤ n ∧ n ≤ written.length then
        some (f.pour fd flushed (written.take n), .capturing log fd n)
      else none
    | none => none
  | .capturing log fd flushed, .close ok =>
    match log.logFile with
    | some written => if ok then some (f.pour fd flushed written, .closed log) else some (f, .finished)
    | none => some (f, .closed log)
  | .closed log, .testLog =>
    let entry := log.entry w.sha256 w.blobMax (f.logs runId).isSome
    some (f, if entry.retained then .testingLog entry else .droppingLog entry)
  | .testingLog entry, .testLogBlob =>
    some (f, if (f.blobs entry.sha256).isSome then .droppingLog entry else .movingLog entry)
  | .droppingLog entry, .dropLog ok => some (if ok then f.unlinkLog runId else f, .listing entry)
  | .movingLog entry, .moveLog ok =>
    match f.logs runId, ok with
    | some m, true => some (f.unlinkLog runId, .placingLog entry m)
    | _, _ => some (f, .finished)
  | .placingLog entry tmp, .placeLog ok =>
    if ok then some (f.replace tmp entry.sha256, .listing entry) else some (f, .finished)
  | .listing entry, .list names => some (f, goOn entry [] names)
  | _, _ => none

-- the equations of the steps, for all the lemmas about them
section
attribute [local simp] copyStep logStep
end

def runStep (w : World) (f : Files) (outputs : Outputs) (r : Run) (e : RunEvent) : Option (Files × Phase) :=
  match r.phase with
  | .output log done name rest copy =>
    (copyStep w f outputs name copy e).map fun (f, next) => (f, next.phase log done name rest)
  | p => logStep w f r.runId p e

/-! ### The system -/

structure Bench where
  files : Files
  outputs : Outputs
  runs : Nat → Option Run
  /-- The `log` and the `outputs` of the final records. -/
  final : List (LogEntry × List OutputEntry)

inductive Event
  /-- A run is recorded, and opens its log. -/
  | begin (i : Nat) (runId : RunId)
  | run (i : Nat) (e : RunEvent)
  | publish (i : Nat) (ok : Bool)
  /-- The scripts and what they left behind change their files. -/
  | scripts (outputs : Outputs)
  | crash

def Bench.start (outputs : Outputs) : Bench := ⟨.empty, outputs, fun _ => none, []⟩

def step (w : World) (s : Bench) : Event → Option Bench
  | .begin i runId =>
    if s.runs i = none then
      let (files, fd) := s.files.openLog runId
      some { s with files, runs := Function.update s.runs i (some ⟨runId, .capturing (.init true) fd 0⟩) }
    else none
  | .run i e =>
    match s.runs i with
    | some r =>
      (runStep w s.files s.outputs r e).map fun (files, phase) =>
        { s with files, runs := Function.update s.runs i (some { r with phase }) }
    | none => none
  | .publish i ok =>
    match s.runs i with
    | some ⟨runId, .assembled log outputs⟩ =>
      some { s with
        runs := Function.update s.runs i (some ⟨runId, .finished⟩)
        final := if ok then (log, outputs) :: s.final else s.final }
    | _ => none
  | .scripts outputs => some { s with outputs }
  | .crash => some { s with runs := fun _ => none }

end Lager.RunRecord.Retention
