import Lager.Nets.Cache
import Lager.Nets.Unique

/-!
# Writing the saved nets

The operations of `Net` (`nets/net.py`) and the routes of port 9000 in a process with its cache. `get_local_nets`
hands out the records the cache holds: who changes one in place changes it for every later read, until the file is
loaded again. `rename_local_net` does that before it writes; the others write a list of their own.

A write replaces the whole file or raises and leaves it. The times of written files are after the epoch.
-/

namespace Lager.Nets.Writes

open Lager.Py
open Lager.Nets.Cache

structure Process where
  file : File
  memory : Memory
  /-- What becomes of the writes to come: `none` raises. -/
  writes : List (Option Nat)

/-- Why an operation fails: a write raised, or it was refused. -/
inductive Fault
  | write
  | refused (reason : Refusal)

/-! ### Reading and writing the table -/

/-- `NetsCache.get_nets`. -/
def getNets (s : Process) : Except Fault (List Nat) × Process :=
  match s.memory.reload s.file with
  | (.error e, m) => (.error (.refused (.raised e)), { s with memory := m })
  | (.ok _, m) => (.ok m.held, { s with memory := m })

/-- `save_local_nets`: `_atomic_write_json` and, if that did not raise, `invalidate`. -/
def saveLocalNets (nets : List Json) (s : Process) : Except Fault Unit × Process :=
  match s.writes with
  | [] => (.error .write, s)
  | none :: writes => (.error .write, { s with writes := writes })
  | some mtime :: writes =>
    (.ok (), ⟨⟨.json (.arr nets), mtime + 1⟩, { s.memory with mtime := 0 }, writes⟩)

/-- The items as dicts; `.get` raises on anything else. -/
def asDicts (items : List Json) : Except PyErr Table :=
  items.mapM fun
    | .obj net => .ok net
    | _ => .error .attributeError

/-- The list `migrate` returns: a channel is a copy, the new nets are new, all others are the records it was given. -/
def shared (refs : List Nat) (nets : Table) (fresh : List Nat) : List Nat :=
  List.zipWith (fun ref (net, copy) => if pinned net then copy else ref) refs (nets.zip fresh) ++ fresh.drop refs.length

/-- `get_local_nets`. That the migrated table cannot be written is a warning in the log. -/
def getLocalNets (env : Env) (s : Process) : Except Fault (List Nat) × Process :=
  match getNets s with
  | (.error f, s) => (.error f, s)
  | (.ok refs, s) =>
    match asDicts (Lib.Heap.readAll s.memory.objects refs) with
    | .error e => (.error (.refused (.raised e)), s)
    | .ok nets =>
      match migrate env.lower nets with
      | .error e => (.error (.refused (.raised e)), s)
      | .ok (_, false) => (.ok refs, s)
      | .ok (migrated, true) =>
        let items := migrated.map Json.obj
        let memory := { s.memory with objects := s.memory.objects ++ items }
        (.ok (shared refs nets (Lib.Heap.fresh s.memory.objects items)),
          (saveLocalNets items { s with memory := memory }).2)

/-- The records behind the references. -/
def records (s : Process) (refs : List Nat) : Table :=
  (Lib.Heap.readAll s.memory.objects refs).filterMap fun
    | .obj net => some net
    | _ => none

/-! ### The operations -/

/-- An operation that computes a new list from what it reads, once for each edit. -/
def runEdits (env : Env) : List Edit → Process → Except Fault Reply × Process
  | [], s => (.ok .ok, s)
  | edit :: rest, s =>
    match getLocalNets env s with
    | (.error f, s) => (.error f, s)
    | (.ok refs, s) =>
      match edit (records s refs), rest with
      | some newNets, _ =>
        match saveLocalNets (newNets.map Json.obj) s with
        | (.error f, s) => (.error f, s)
        | (.ok _, s) => runEdits env rest s
      | none, [] => (.ok .notFound, s)
      | none, _ :: _ => runEdits env rest s

/-- `n["name"] = new_name`, if that is its name. -/
def renamed (oldName newName : String) : Json → Json
  | .obj net => if Nets.hasName (.str oldName) net then .obj (Dict.set net "name" (.str newName)) else .obj net
  | item => item

/-- The loop of `rename_local_net`, in the records themselves. -/
def renameInPlace (oldName newName : String) (objects : List Json) (refs : List Nat) : List Json :=
  refs.foldl (fun objects ref => objects.set ref (renamed oldName newName (Lib.Heap.read objects ref))) objects

/-- `rename_local_net`; what it does to a webcam stream is left out. -/
def renameLocalNet (env : Env) (oldName newName : String) (s : Process) : Except Fault Reply × Process :=
  match getLocalNets env s with
  | (.error f, s) => (.error f, s)
  | (.ok refs, s) =>
    if (records s refs).any (Nets.hasName (.str oldName)) then
      let objects := renameInPlace oldName newName s.memory.objects refs
      match saveLocalNets (Lib.Heap.readAll objects refs) { s with memory := { s.memory with objects := objects } } with
      | (.error f, s) => (.error f, s)
      | (.ok _, s) => (.ok .ok, s)
    else (.ok .notFound, s)

inductive Operation
  | save (data : Dict)
  | rename (oldName newName : String)
  | delete (name role : Json)
  | update (name : String) (body : Json)
  | setSafetyLimits (name : String) (body : Json)

/-- A request by its edits. -/
def performEdits (env : Env) (r : Request) (s : Process) : Except Fault Reply × Process :=
  match r.edits env with
  | .error reason => (.error (.refused reason), s)
  | .ok edits => runEdits env edits s

def perform (env : Env) : Operation → Process → Except Fault Reply × Process
  | .save data, s => performEdits env (.save data) s
  | .rename oldName newName, s => renameLocalNet env oldName newName s
  | .delete name role, s => performEdits env (.delete name role) s
  | .update name body, s => performEdits env (.update name body) s
  | .setSafetyLimits name body, s => performEdits env (.setSafetyLimits name body) s

end Lager.Nets.Writes
