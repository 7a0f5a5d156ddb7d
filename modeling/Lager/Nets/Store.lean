import Lager.Nets.ScopeMigration

/-!
# The saved nets and the requests that change them

`nets/net.py`, the nets routes of port 9000 (`http_handlers/nets_handler.py`) and of port 5000
(`python/service.py`). A table is the list of records in `saved_nets.json`. Every request is a list of edits, and
an edit is a read of the whole table, a computation and a write of the whole table; an edit that finds nothing
to change writes nothing. Requests that go through `Net` migrate old scope nets on every read and write the
migrated table back at once.

What the records refer to outside the table is a parameter: `str.lower` and `str`, the USB identity of the
attached device, and the pin check of LabJack UD nets, which depends on the record alone.
-/

namespace Lager.Nets

open Lager.Py

abbrev Table := List Dict

structure Env where
  /-- `str.lower`. -/
  lower : String → String
  /-- `str(x)`. -/
  str : Json → String
  /-- `usb_identity_for_net_record`: a dict, or `None` when the device is not attached. -/
  usbIdentity : Dict → Json
  /-- `_ud_pin_span_error`. -/
  udPinSpanError : Dict → Option String

/-- Why a request ends without having found its net, or before it looked. -/
inductive Refusal where
  | badRequest (error : String)
  | raised (e : PyErr)
  deriving DecidableEq

/-- How a request ends. -/
inductive Reply where
  | ok
  | notFound
  | refused (reason : Refusal)
  deriving DecidableEq

/-- The computation of one read-modify-write: the table to write, or `none` to leave the file. -/
abbrev Edit := Table → Option Table

/-! ### The edits -/

def hasName (name : Json) (net : Dict) : Bool := (Dict.get net "name").pyEq name

def hasRole (role : Json) (net : Dict) : Bool := (Dict.get net "role").pyEq role

/-- `filter_nets`; `role` is `None` for all roles. -/
def filterNets (nets : Table) (name role : Json) : Table :=
  if role = .null then nets.filter fun net => !hasName name net
  else nets.filter fun net => !(hasName name net && hasRole role net)

/-- `delete_local_net`. -/
def deleteEdit (name role : Json) : Edit := fun nets =>
  let newNets := filterNets nets name role
  if newNets.length ≠ nets.length then some newNets else none

/-- `rename_local_net`: every record of that name, whatever its role. -/
def renameEdit (oldName newName : Json) : Edit := fun nets =>
  if nets.any (hasName oldName) then
    some (nets.map fun net => if hasName oldName net then Dict.set net "name" newName else net)
  else none

/-- `save_local_net` on a prepared record: it replaces the record of the same name and role. -/
def saveEdit (data : Dict) : Edit := fun nets =>
  some ((nets.filter fun net => !(hasName (Dict.get data "name") net && hasRole (Dict.get data "role") net)) ++
    [data])

/-- The body of `nets_set_safety_limits` after the checks: every record of that name. -/
def limitsEdit (name : Json) (limits : Dict) : Edit := fun nets =>
  if nets.any (hasName name) then
    some (nets.map fun net =>
      if hasName name net then
        if limits = [] then Dict.pop net "safety_limits" else Dict.set net "safety_limits" (.obj limits)
      else net)
  else none

/-- The body of port 5000's `do_PUT` on a prepared record. -/
def putEdit (name : Json) (data : Dict) : Edit := fun nets =>
  let nets := nets.filter fun net => !(hasName name net && hasRole (Dict.get data "role") net)
  let nets := if (Dict.get data "name").pyEq name then nets else nets.filter fun net => !hasName name net
  some (nets ++ [data])

/-! ### The records -/

/-- `data["mappings"] = [mapping]` and `data["scope_points"] = ...`, with the fields copied into the mapping. -/
def withMapping (env : Env) (data : Dict) (name : Json) (extra : Dict) : Dict :=
  let pin := (Dict.get? data "pin").getD (.int 0)
  let mapping : Dict := [("net", name), ("pin", pin), ("location", .str (env.str pin))] ++ extra
  Dict.set (Dict.set data "mappings" (.arr [.obj mapping])) "scope_points" (.arr [.arr [pin, .str (env.str pin)]])

/-- `if data.get(key): mapping[target] = data[key]`. -/
def copied (data : Dict) (key target : String) : Dict :=
  if (Dict.get data key).truthy then [(target, Dict.get data key)] else []

/-- `save_local_net` up to the read of the table. -/
def prepared (env : Env) (data : Dict) : Except PyErr Dict :=
  let ident := env.usbIdentity data
  let data := if Dict.get data "role" = .str "uart" ∧ (Dict.get data "usb_identity").truthy = false ∧
      ident.truthy = true then Dict.set data "usb_identity" ident else data
  let data := Dict.pop data "live_path"
  match Dict.get? data "name" with
  | none => .error (.keyError "name")
  | some name =>
    .ok (withMapping env data name (copied data "address" "device_override" ++
      (if Dict.get data "serial" ≠ .null then [("serial", Dict.get data "serial")] else []) ++
      copied data "port" "port" ++ copied data "channel_key" "channel_key"))

/-- The record port 5000's `do_PUT` stores. -/
def prepared5000 (env : Env) (data : Dict) : Dict :=
  withMapping env data (Dict.get data "name") (copied data "address" "device_override" ++
    (if Dict.get data "serial" ≠ .null then [("serial", Dict.get data "serial")] else []))

/-- The fields both PUT handlers insist on. -/
def missingRequired (data : Dict) : Bool :=
  !(Dict.get data "name").truthy || !(Dict.get data "role").truthy || !(Dict.get data "instrument").truthy

def requiredError : String := "name, role, and instrument are required"

/-- `_SAFETY_CEILING_KEYS`. -/
def safetyCeilingKeys : List String := ["max_voltage", "max_current"]

/-- `_SAFETY_LIMIT_KEYS`. -/
def safetyLimitKeys : List String := safetyCeilingKeys ++ ["allow_destructive"]

/-- `value <= 0`. -/
def notPositive : PyFloat → Bool
  | .fin q => decide (q ≤ 0)
  | .negInf => true
  | _ => false

/-- One item of `_validate_safety_limits`. -/
def validateLimit (limits : Dict) (item : String × Json) : Except Refusal Dict :=
  let (key, value) := item
  if key = "max_power" then
    .error (.badRequest ("max_power is not supported: one setter call establishes either " ++
      "voltage or current, never both, so a power ceiling could not be " ++
      "evaluated honestly. Use max_voltage and max_current."))
  else if key ∉ safetyLimitKeys then
    .error (.badRequest ("unknown key '" ++ key ++ "'; accepted: " ++ ", ".intercalate safetyLimitKeys))
  else match value with
    | .null => .ok limits
    | .bool b => if key = "allow_destructive" then .ok (Dict.set limits key (.bool b))
      else .error (.badRequest (key ++ " must be a number"))
    | .int n =>
      if key = "allow_destructive" then .error (.badRequest "allow_destructive must be a boolean")
      else if n ≤ 0 then .error (.badRequest (key ++ " must be greater than zero"))
      else match floatOfInt n with
        | .ok x => .ok (Dict.set limits key (.float x))
        | .error e => .error (.raised e)
    | .float x =>
      if key = "allow_destructive" then .error (.badRequest "allow_destructive must be a boolean")
      else if notPositive x then .error (.badRequest (key ++ " must be greater than zero"))
      else .ok (Dict.set limits key (.float x))
    | _ =>
      if key = "allow_destructive" then .error (.badRequest "allow_destructive must be a boolean")
      else .error (.badRequest (key ++ " must be a number"))

/-- `_validate_safety_limits`. An empty result clears the limits. -/
def validateSafetyLimits : Json → Except Refusal Dict
  | .null => .ok []
  | .obj payload => payload.foldlM validateLimit []
  | _ => .error (.badRequest "body must be a JSON object")

/-! ### Requests -/

inductive Request where
  /-- `Net.save_local_net`. -/
  | save (data : Dict)
  /-- `Net.delete_local_net`, and `DELETE /nets/<name>` on port 9000. -/
  | delete (name role : Json)
  /-- `Net.rename_local_net`. -/
  | rename (oldName newName : Json)
  /-- `PUT /nets/<name>` on port 9000 (`nets_update`). -/
  | update (name : String) (body : Json)
  /-- `PUT /nets/<name>/safety-limits` on port 9000. -/
  | setSafetyLimits (name : String) (body : Json)
  /-- `PUT /nets/<name>` on port 5000 (`do_PUT`). -/
  | put (name : String) (body : Json)
  /-- `DELETE /nets/<name>` on port 5000 (`do_DELETE`); an empty or absent role is `None`. -/
  | drop (name : String) (role : Option String)

/-- Port 5000 reads the file itself; all others read through `Net.get_local_nets`. -/
def Request.viaNet : Request → Bool
  | .put _ _ => false
  | .drop _ _ => false
  | _ => true

/-- The edits of a request, or why it ends before it reads the table. -/
def Request.edits (env : Env) : Request → Except Refusal (List Edit)
  | .save data =>
    match prepared env data with
    | .error e => .error (.raised e)
    | .ok data => .ok [saveEdit data]
  | .delete name role => .ok [deleteEdit name role]
  | .rename oldName newName => .ok [renameEdit oldName newName]
  | .update name body =>
    if body.truthy = false then .error (.badRequest "Invalid JSON body")
    else match body with
      | .obj data =>
        if missingRequired data then .error (.badRequest requiredError)
        else match env.udPinSpanError data, prepared env data with
          | some error, _ => .error (.badRequest error)
          | none, .error e => .error (.raised e)
          | none, .ok record =>
            -- a changed name is a deletion, of all roles, before the save
            .ok ((if (Dict.get data "name").pyEq (.str name) then [] else [deleteEdit (.str name) .null]) ++
              [saveEdit record])
      | _ => .error (.raised .attributeError)
  | .setSafetyLimits name body => (validateSafetyLimits body).map fun limits => [limitsEdit (.str name) limits]
  | .put name body =>
    match body with
    | .obj data =>
      if missingRequired data then .error (.badRequest requiredError)
      else .ok [putEdit (.str name) (prepared5000 env data)]
    | _ => .error (.raised .attributeError)
  | .drop name role =>
    .ok [deleteEdit (.str name) (match role with
      | some role => if role = "" then .null else .str role
      | none => .null)]

/-- What a request reads: `get_local_nets` migrates, the file itself does not. -/
def readTable (env : Env) (viaNet : Bool) (file : Table) : Except PyErr Table :=
  if viaNet then (migrate env.lower file).map Prod.fst else .ok file

/-- The edits one after the other, with nobody else around. A migrated table is on disk even when the edit then
finds nothing to change. -/
def execEdits (env : Env) (viaNet : Bool) : List Edit → Table → Table × Reply
  | [], file => (file, .ok)
  | edit :: rest, file =>
    match readTable env viaNet file with
    | .error e => (file, .refused (.raised e))
    | .ok nets =>
      match edit nets, rest with
      | some newNets, _ => execEdits env viaNet rest newNets
      | none, [] => (nets, .notFound)
      | none, _ :: _ => execEdits env viaNet rest nets

/-- A request executed alone. -/
def exec (env : Env) (r : Request) (file : Table) : Table × Reply :=
  match r.edits env with
  | .error reason => (file, .refused reason)
  | .ok edits => execEdits env r.viaNet edits file

end Lager.Nets
