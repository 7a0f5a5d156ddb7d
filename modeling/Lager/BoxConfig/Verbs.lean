import Lager.BoxConfig.Config
import Lager.Lib.Command

/-!
# The verbs of `box_config_cli`

Every invocation of the shim takes the lock, runs one verb of the dispatch table and writes one JSON reply; what
a verb raises becomes a reply with `ok: false` too. The box is the files the verbs read and write. What the outside
decides (which writes fail, the clock, fresh tokens, the legacy requirements file) comes with each invocation.
`json.loads` of an argument is a parameter; files hold decoded values, since what `json.dump` writes is what
`json.load` reads.
-/

namespace Lager.BoxConfig

open Lager.Py Lager.Lib

/-! ### The box and the outside -/

/-- A file that should hold JSON. -/
inductive File where
  | absent
  | corrupt
  | json (value : Json)

/-- The MCP token file. -/
inductive TokenFile where
  | absent
  | unreadable
  | empty
  | token (value : String)

/-- `user_requirements.txt`. -/
inductive Legacy where
  | absent
  | unreadable (error : String)
  | undecodable
  | text (content : String)

structure Box where
  /-- `box_config.json` -/
  config : File
  /-- `box_config.applied.json` -/
  applied : File
  appliedHash : Option String
  token : TokenFile
  /-- The lines of the audit log; `none` for one that is blank or torn. -/
  audit : List (Option Json)

/-- What the outside decides during one invocation. -/
structure World where
  lockFails : Bool
  saveFails : Bool
  snapshotFails : Bool
  hashFails : Bool
  auditFails : Bool
  /-- The error of writing or removing the token file, if it fails. -/
  tokenFails : Option String
  now : String
  newToken : String
  legacy : Legacy

/-- Text operations, `json.loads` (`none` with the text of the `JSONDecodeError`) and `str` of an exception. -/
structure CliOps extends TextOps where
  loads : String → Except String Json
  message : PyErr → String

abbrev Cmd (α : Type) := Command Box ConfigErr α

variable (T : CliOps) (w : World)

def raise {α : Type} (e : PyErr) : Cmd α := throw (.raised e)

/-- A computation that may raise, inside a verb. -/
def lift {α : Type} (r : Except ConfigErr α) : Cmd α :=
  match r with
  | .ok a => pure a
  | .error e => throw e

def liftPy {α : Type} (r : Except PyErr α) : Cmd α := lift (r.mapError .raised)

/-! ### Files -/

/-- `_load_raw`: `None` when there is no file. -/
def loadRaw : Cmd Json := do
  match (← get).config with
  | .absent => pure .null
  | .corrupt => raise .valueError
  | .json value => pure value

/-- `save`: the temporary file is written first, so that a failure leaves the file as it was. -/
def save (c : BoxConfig) : Cmd PUnit :=
  if w.saveFails then raise .osError else modify fun box => { box with config := .json (.obj c.toDict) }

def writeAppliedSnapshot (c : BoxConfig) : Cmd PUnit :=
  if w.snapshotFails then raise .osError else modify fun box => { box with applied := .json (.obj c.toDict) }

def writeAppliedHash (value : String) : Cmd PUnit :=
  if w.hashFails then raise .osError else modify fun box => { box with appliedHash := some value }

/-- `read_applied_snapshot`: a snapshot that does not parse or validate is none. -/
def readAppliedSnapshot : Cmd (Option BoxConfig) := do
  match (← get).applied with
  | .absent => pure none
  | .corrupt => pure none
  | .json value =>
    match fromDict T.toTextOps value with
    | .ok c => pure (some c)
    | .error (.validationError _) => pure none
    | .error (.raised e) => raise e

/-- `_audit`: best effort, it never raises. -/
def audit (verb : String) (args : Json) : Cmd PUnit :=
  if w.auditFails then pure ⟨⟩
  else modify fun box =>
    { box with audit := box.audit ++ [some (.obj [("ts", .str w.now), ("verb", .str verb), ("args", args)])] }

/-- `_load_or_init`. -/
def loadOrInit : Cmd BoxConfig := do
  let raw ← loadRaw
  if raw = .null then pure initDefault else lift (fromDict T.toTextOps raw)

/-- `_load_or_bare`. -/
def loadOrBare : Cmd BoxConfig := do
  let raw ← loadRaw
  if raw = .null then pure bareConfig else lift (fromDict T.toTextOps raw)

/-! ### Replies -/

def okReply (fields : Dict) : Json := .obj (("ok", .bool true) :: fields)

def errorsReply (errors : List String) (fields : Dict) : Json :=
  .obj (("ok", .bool false) :: ("errors", .arr (errors.map .str)) :: fields)

def errorReply (error : String) : Json := .obj [("ok", .bool false), ("error", .str error)]

/-- `json.loads(payload)` of the verbs that let the `JSONDecodeError` through. -/
def decodePayload (payload : String) : Cmd Json :=
  match T.loads payload with
  | .ok value => pure value
  | .error _ => raise .valueError

/-- The common end of the verbs that add: validate, load, save, log. -/
def validateAndSave (current : BoxConfig) (verb : String) (args : Json) (reply onError : Dict) : Cmd Json :=
  match validate T.toTextOps (.obj current.toDict) with
  | [] => do
    let c ← lift (fromDict T.toTextOps (.obj current.toDict))
    save w c
    audit w verb args
    pure (okReply reply)
  | errors => pure (errorsReply errors onError)

/-- The common end of the verbs that remove: save, and log when something was removed. -/
def saveRemoved (current : BoxConfig) (verb : String) (args : Json) (removed : Bool) (reply : Dict) : Cmd Json := do
  save w current
  if removed then audit w verb args
  pure (okReply reply)

/-! ### Reading -/

def cmdShow : Cmd Json := loadRaw

def cmdValidate : Cmd Json := do
  let raw ← loadRaw
  if raw = .null then
    pure (.obj [("ok", .bool true), ("errors", .arr []), ("exists", .bool false)])
  else
    let errors := validate T.toTextOps raw
    pure (.obj [("ok", .bool errors.isEmpty), ("errors", .arr (errors.map .str)), ("exists", .bool true)])

def cmdHash : Cmd Json := do
  let raw ← loadRaw
  if raw = .null then pure (.obj [("hash", .null)])
  else
    match fromDict T.toTextOps raw with
    | .ok c => pure (.obj [("hash", .str (c.computeHash T.toTextOps))])
    | .error (.validationError message) => pure (.obj [("hash", .null), ("error", .str message)])
    | .error (.raised e) => raise e

/-- `f.read().strip() or None`. -/
def readAppliedHash : Cmd Json := do
  match (← get).appliedHash with
  | none => pure .null
  | some value =>
    let stripped := strip value.toList
    pure (if stripped.isEmpty then .null else .str (String.ofList stripped))

def cmdAppliedHash : Cmd Json := do
  let hash ← readAppliedHash
  pure (.obj [("hash", hash)])

def cmdAppliedShow : Cmd Json := do
  match ← readAppliedSnapshot T with
  | none => pure .null
  | some c => pure (.obj c.toDict)

def cmdNetworkModeShow : Cmd Json := do
  let raw ← loadRaw
  let mode := match raw with
    | .obj d => Dict.get d "network_mode"
    | _ => .null
  let explicit := match mode with
    | .str _ => true
    | _ => false
  pure (okReply [("exists", .bool (raw ≠ .null)),
    ("mode", if explicit then mode else .str defaultNetworkMode), ("explicit", .bool explicit)])

/-- `lines[-n:]`, all of them for `n = 0`; lines that are blank or torn are skipped. -/
def cmdAuditTail (nArg : String) : Cmd Json := do
  let n := match intOfTextLimited nArg.toList with
    | some n => n.toNat
    | none => 20
  let lines := (← get).audit
  let tail := if n = 0 then lines else lines.drop (lines.length - n)
  pure (.obj [("entries", .arr (tail.filterMap id))])

/-! ### Initial, applied and raw configurations -/

/-- `str.splitlines`. -/
def isLineBreak (c : Char) : Bool :=
  c ∈ ['\n', '\r', '\x0b', '\x0c', '\x1c', '\x1d', '\x1e', '\u0085', '\u2028', '\u2029']

def splitlinesFrom (line : List Char) : List Char → List (List Char)
  | [] => if line.isEmpty then [] else [line]
  | '\r' :: '\n' :: rest => line :: splitlinesFrom [] rest
  | c :: rest => if isLineBreak c then line :: splitlinesFrom [] rest else splitlinesFrom (line ++ [c]) rest

/-- `_parse_legacy_requirements`. -/
def parseLegacyRequirements (content : String) : List String :=
  ((splitlinesFrom [] content.toList).map strip).filterMap fun line =>
    if line.isEmpty ∨ line.head? = some '#' then none else some (String.ofList line)

/-- The packages so far, with their normal forms, and what was imported and skipped. -/
structure Import where
  packages : List Json
  seen : List (String × String)
  imported : List Json
  skipped : List Json

def skippedEntry (package : String) (reason : String) : Json :=
  .obj [("package", .str package), ("reason", .str reason)]

def importOne (s : Import) (p : String) : Import :=
  match validatePipFormat p with
  | some reason => { s with skipped := s.skipped ++ [skippedEntry p reason] }
  | none =>
    match s.seen.lookup (normalizePipName T.toTextOps p) with
    | some before =>
      { s with skipped := s.skipped ++ [skippedEntry p s!"already in pip_packages as {T.quote before}"] }
    | none =>
      { s with
        packages := s.packages ++ [.str p]
        seen := (normalizePipName T.toTextOps p, p) :: s.seen
        imported := s.imported ++ [.str p] }

/-- The text `re.match` is given; anything else is a `TypeError`. -/
def matchable : Json → Except PyErr String
  | .str text => .ok text
  | _ => .error .typeError

/-- `_import_legacy_into`. -/
def importLegacyInto (current : BoxConfig) : Except PyErr (BoxConfig × List Json × List Json) :=
  match w.legacy with
  | .absent => .ok (current, [], [])
  | .unreadable error =>
    .ok (current, [], [.obj [("package", .null),
      ("reason", .str s!"could not read /etc/lager/user_requirements.txt: {error}")]])
  | .undecodable => .error .unicodeDecodeError
  | .text content => do
    let texts ← current.pipPackages.mapM matchable
    let start : Import :=
      ⟨current.pipPackages, (texts.map fun p => (normalizePipName T.toTextOps p, p)).reverse, [], []⟩
    let final := (parseLegacyRequirements content).foldl (importOne T) start
    return ({ current with pipPackages := final.packages }, final.imported, final.skipped)

def count (xs : List Json) : Json := .int xs.length

def cmdInit (force : Bool) : Cmd Json := do
  let present := match (← get).config with
    | .absent => false
    | _ => true
  if present && !force then
    pure (okReply [("created", .bool false), ("imported", .arr [])])
  else
    let (newCfg, imported, skipped) ← liftPy (importLegacyInto T w initDefault)
    save w newCfg
    audit w "init"
      (.obj [("force", .bool force), ("imported_count", count imported), ("skipped_count", count skipped)])
    pure (okReply [("created", .bool true), ("imported", .arr imported), ("skipped", .arr skipped)])

def cmdReset : Cmd Json := do
  save w bareConfig
  audit w "reset" (.obj [])
  pure (okReply [])

/-- The snapshot is skipped when the configuration does not validate. -/
def cmdSetAppliedHash (value : String) : Cmd Json := do
  let raw ← loadRaw
  if raw ≠ .null then
    match fromDict T.toTextOps raw with
    | .ok c => writeAppliedSnapshot w c
    | .error (.validationError _) => pure ⟨⟩
    | .error (.raised e) => raise e
  writeAppliedHash w value
  audit w "set-applied-hash" (.obj [("hash", .str value)])
  pure (okReply [])

def cmdRestoreApplied : Cmd Json := do
  match ← readAppliedSnapshot T with
  | none => pure (errorReply "no applied snapshot available")
  | some snap =>
    save w snap
    audit w "restore-applied" (.obj [])
    pure (okReply [])

def cmdSetRaw (payload : String) : Cmd Json :=
  match T.loads payload with
  | .error e => pure (errorsReply [s!"invalid JSON: {e}"] [])
  | .ok raw =>
    match validate T.toTextOps raw with
    | [] =>
      match fromDict T.toTextOps raw with
      | .error (.validationError message) => pure (errorsReply (message.splitOn "\n") [])
      | .error (.raised e) => raise e
      | .ok c => do
        save w c
        audit w "set-raw" (.obj [("hash", .str (c.computeHash T.toTextOps))])
        pure (okReply [("hash", .str (c.computeHash T.toTextOps))])
    | errors => pure (errorsReply errors [])

/-! ### Mounts and volumes -/

def cmdMountAdd (payload : String) : Cmd Json := do
  let data ← decodePayload T payload
  let current ← loadOrInit T
  let newMount ← liftPy (Mount.ofJson data)
  let others := current.mounts.filter fun m => !m.container.pyEq newMount.container
  validateAndSave T w { current with mounts := others ++ [newMount] } "mount-add" data [] []

def cmdMountRemove (host container : String) : Cmd Json := do
  let current ← loadOrInit T
  let kept := current.mounts.filter fun m => !(m.host.pyEq (.str host) && m.container.pyEq (.str container))
  let removed := decide (kept.length ≠ current.mounts.length)
  saveRemoved w { current with mounts := kept } "mount-remove"
    (.obj [("host", .str host), ("container", .str container)]) removed [("removed", .bool removed)]

def cmdVolumeAdd (payload : String) : Cmd Json := do
  let data ← decodePayload T payload
  let current ← loadOrInit T
  let newVol ← liftPy (Volume.ofJson data)
  let others := current.volumes.filter fun v => !v.name.pyEq newVol.name
  validateAndSave T w { current with volumes := others ++ [newVol] } "volume-add" data [] []

def cmdVolumeRemove (name : String) : Cmd Json := do
  let current ← loadOrInit T
  let kept := current.volumes.filter fun v => !v.name.pyEq (.str name)
  let removed := decide (kept.length ≠ current.volumes.length)
  saveRemoved w { current with volumes := kept } "volume-remove" (.obj [("name", .str name)]) removed
    [("removed", .bool removed)]

/-! ### Packages -/

/-- One of the four package sections: its check and normal form, what reading a package that is not a text raises,
and where it stands in the configuration. -/
structure PackageSection where
  name : String
  format : String → Option String
  canonical : String → String
  notText : PyErr
  get : BoxConfig → List Json
  set : BoxConfig → List Json → BoxConfig

def pipSection : PackageSection :=
  ⟨"pip", validatePipFormat, normalizePipName T.toTextOps, .typeError, (·.pipPackages),
    fun c ps => { c with pipPackages := ps }⟩

def aptSection : PackageSection :=
  ⟨"apt", validateAptFormat, T.lower, .attributeError, (·.aptPackages), fun c ps => { c with aptPackages := ps }⟩

def cargoSection : PackageSection :=
  ⟨"cargo", validateCargoFormat, normalizeCargoName T.toTextOps, .typeError, (·.cargoPackages),
    fun c ps => { c with cargoPackages := ps }⟩

def npmSection : PackageSection :=
  ⟨"npm", validateNpmFormat, normalizeNpmName T.toTextOps, .typeError, (·.npmPackages),
    fun c ps => { c with npmPackages := ps }⟩

/-- The normal form of a stored package. -/
def PackageSection.key (S : PackageSection) : Json → Except PyErr String
  | .str text => .ok (S.canonical text)
  | _ => .error S.notText

/-- The packages with the index of each normal form. -/
structure Upsert where
  packages : List Json
  seen : List (String × Nat)

/-- One turn of the loop: a package with a known normal form replaces the old one. The error is the reply that
ends the verb. -/
def PackageSection.addOne (S : PackageSection) (s : Upsert) : Json → Except Json Upsert
  | .str p =>
    match S.format p with
    | some reason => .error (errorsReply [s!"{T.quote p}: {reason}"] [])
    | none =>
      match s.seen.lookup (S.canonical p) with
      | some i => .ok { s with packages := s.packages.set i (.str p) }
      | none => .ok ⟨s.packages ++ [.str p], (S.canonical p, s.packages.length) :: s.seen⟩
  | p => .error (errorsReply [s!"non-string package: {T.repr p}"] [])

/-- `_cmd_pip_add`, `_cmd_apt_add`, `_cmd_cargo_add`, `_cmd_npm_add`. -/
def cmdPackagesAdd (S : PackageSection) (payload : String) : Cmd Json := do
  let data ← decodePayload T payload
  let newPkgs ← liftPy (data.getOr "packages" (.arr []))
  match newPkgs with
  | .arr newPkgs =>
    let current ← loadOrInit T
    let keys ← liftPy ((S.get current).mapM S.key)
    match newPkgs.foldlM (S.addOne T) ⟨S.get current, keys.zipIdx.reverse⟩ with
    | .error reply => pure reply
    | .ok s =>
      validateAndSave T w (S.set current s.packages) (S.name ++ "-add") (.obj [("added", .arr newPkgs)])
        [("added", .arr newPkgs)] []
  | _ => pure (errorsReply ["payload.packages must be an array"] [])

/-- `_cmd_pip_remove`, `_cmd_apt_remove`, `_cmd_cargo_remove`, `_cmd_npm_remove`. -/
def cmdPackagesRemove (S : PackageSection) (names : List String) : Cmd Json := do
  let current ← loadOrInit T
  let targets := names.map S.canonical
  let keyed ← liftPy ((S.get current).mapM fun p => (S.key p).map fun key => (key, p))
  let removed := (keyed.filter fun kp => kp.1 ∈ targets).map Prod.snd
  let kept := (keyed.filter fun kp => kp.1 ∉ targets).map Prod.snd
  saveRemoved w (S.set current kept) (S.name ++ "-remove") (.obj [("removed", .arr removed)]) (!removed.isEmpty)
    [("removed", .arr removed), ("removed_count", count removed)]

def cmdPipImportLegacy : Cmd Json := do
  let current ← loadOrInit T
  let (merged, imported, skipped) ← liftPy (importLegacyInto T w current)
  if imported.isEmpty then pure (okReply [("imported", .arr []), ("skipped", .arr skipped)])
  else
    validateAndSave T w merged "pip-import-legacy"
      (.obj [("imported", .arr imported), ("skipped_count", count skipped)])
      [("imported", .arr imported), ("skipped", .arr skipped)] [("imported", .arr []), ("skipped", .arr skipped)]

/-! ### Environment and sysctl -/

structure EntrySection where
  name : String
  checkKey : String → Option String
  get : BoxConfig → Dict
  set : BoxConfig → Dict → BoxConfig

def sysctlSection : EntrySection := ⟨"sysctl", validateSysctlKey, (·.sysctl), fun c d => { c with sysctl := d }⟩

def envSection : EntrySection := ⟨"env", validateEnvKey, (·.env), fun c d => { c with env := d }⟩

def EntrySection.setOne (S : EntrySection) (d : Dict) (kv : String × Json) : Except Json Dict :=
  match S.checkKey kv.1 with
  | some reason => .error (errorsReply [s!"{T.quote kv.1}: {reason}"] [])
  | none =>
    match kv.2 with
    | .str _ => .ok (Dict.set d kv.1 kv.2)
    | _ => .error (errorsReply [s!"{S.name}[{T.quote kv.1}] value must be a string"] [])

/-- `_cmd_sysctl_set`, `_cmd_env_set`. -/
def cmdEntriesSet (S : EntrySection) (payload : String) : Cmd Json := do
  let data ← decodePayload T payload
  let entries ← liftPy (data.getOr "entries" (.obj []))
  match entries with
  | .obj entries =>
    let current ← loadOrInit T
    match entries.foldlM (S.setOne T) (S.get current) with
    | .error reply => pure reply
    | .ok d =>
      validateAndSave T w (S.set current d) (S.name ++ "-set") (.obj [("entries", .obj entries)])
        [("set", .arr (entries.map fun kv => .str kv.1))] []
  | _ => pure (errorsReply ["payload.entries must be an object"] [])

/-- `del d[k]`. -/
def delete (d : Dict) (k : String) : Except PyErr Dict :=
  if Dict.has d k then .ok (Dict.pop d k) else .error (.keyError k)

/-- `_cmd_sysctl_unset`, `_cmd_env_unset`: a key that is given twice is deleted twice. -/
def cmdEntriesUnset (S : EntrySection) (keys : List String) : Cmd Json := do
  let current ← loadOrInit T
  let removed := keys.filter fun k => Dict.has (S.get current) k
  let d ← liftPy (removed.foldlM delete (S.get current))
  saveRemoved w (S.set current d) (S.name ++ "-unset") (.obj [("removed", .arr (removed.map .str))])
    (!removed.isEmpty) [("removed", .arr (removed.map .str))]

/-! ### Network mode and udev rules -/

def cmdNetworkModeSet (payload : String) : Cmd Json := do
  let data ← decodePayload T payload
  let mode ← liftPy (data.getOr "mode" .null)
  match mode with
  | .str mode =>
    if mode ∈ networkModes then
      let current ← loadOrBare T
      validateAndSave T w { current with networkMode := .str mode } "network-mode-set"
        (.obj [("mode", .str mode), ("previous", current.networkMode)])
        [("mode", .str mode), ("previous", current.networkMode)] []
    else pure (errorsReply [s!"network_mode must be one of: {String.intercalate sep networkModes}"] [])
  | _ => pure (errorsReply ["payload.mode must be a string"] [])
where
  sep := ", "

def cmdNetworkModeUnset : Cmd Json := do
  let current ← loadOrBare T
  validateAndSave T w { current with networkMode := .str defaultNetworkMode } "network-mode-unset"
    (.obj [("previous", current.networkMode)])
    [("mode", .str defaultNetworkMode), ("previous", current.networkMode)] []

structure UdevUpsert where
  rules : List UdevRule
  seen : List ((Json × Json) × Nat)
  added : List Json

def addRule (s : UdevUpsert) : Json → Except Json UdevUpsert
  | .obj r =>
    let rule := UdevRule.ofDict T.toTextOps r
    match validateUdevFormat T.toTextOps rule.vid rule.pid rule.mode with
    | some reason =>
      .error (errorsReply [s!"{T.str (Dict.get r vidKey)}:{T.str (Dict.get r pidKey)}: {reason}"] [])
    | none =>
      let added := s.added ++ [.str s!"{T.str rule.vid}:{T.str rule.pid}"]
      match s.seen.lookup (rule.vid, rule.pid) with
      | some i => .ok { s with rules := s.rules.set i rule, added }
      | none => .ok ⟨s.rules ++ [rule], ((rule.vid, rule.pid), s.rules.length) :: s.seen, added⟩
  | r => .error (errorsReply [s!"non-object rule: {T.repr r}"] [])
where
  vidKey := "vid"
  pidKey := "pid"

def cmdUdevAdd (payload : String) : Cmd Json := do
  let data ← decodePayload T payload
  let newRules ← liftPy (data.getOr "rules" (.arr []))
  match newRules with
  | .arr newRules =>
    let current ← loadOrInit T
    let seen := ((current.udevRules.map fun r => (r.vid, r.pid)).zipIdx).reverse
    match newRules.foldlM (addRule T) ⟨current.udevRules, seen, []⟩ with
    | .error reply => pure reply
    | .ok s =>
      validateAndSave T w { current with udevRules := s.rules } "udev-add" (.obj [("added", .arr s.added)])
        [("added", .arr s.added)] []
  | _ => pure (errorsReply ["payload.rules must be an array"] [])

/-- `t.split(":", 1)` of a token with a colon, both halves in normal form. -/
def udevTarget (token : String) : Option (Json × Json) :=
  if ':' ∈ token.toList then
    let vid := token.toList.takeWhile (· != ':')
    let pid := token.toList.drop (vid.length + 1)
    some (.str (normalizeUdevText T.toTextOps (String.ofList vid)),
      .str (normalizeUdevText T.toTextOps (String.ofList pid)))
  else none

def cmdUdevRemove (tokens : List String) : Cmd Json := do
  let targets := tokens.filterMap (udevTarget T)
  let current ← loadOrInit T
  let removed := (current.udevRules.filter fun r => (r.vid, r.pid) ∈ targets).map fun r =>
    Json.str s!"{T.str r.vid}:{T.str r.pid}"
  let kept := current.udevRules.filter fun r => (r.vid, r.pid) ∉ targets
  saveRemoved w { current with udevRules := kept } "udev-remove" (.obj [("removed", .arr removed)])
    (!removed.isEmpty) [("removed", .arr removed)]

/-! ### The MCP token -/

def mcpTokenPath : String := "/etc/lager/mcp_token"

/-- `mcp_token.state`. -/
def TokenFile.state : TokenFile → String
  | .absent => "disabled"
  | .unreadable => "unreadable"
  | .empty => "empty"
  | .token _ => "enabled"

def cmdMcpTokenStatus : Cmd Json := do
  pure (okReply [("state", .str (← get).token.state)])

def tokenRefusal (code message : String) : Json :=
  .obj [("ok", .bool false), ("code", .str code), ("errors", .arr [.str message])]

/-- `_mcp_token_mint` once nothing stands in its way: the new token is written, or nothing is. -/
def mintToken (verb previous : String) : Cmd Json :=
  match w.tokenFails with
  | some error => pure (tokenRefusal "write-failed" s!"Cannot write {mcpTokenPath}: {error}")
  | none => do
    modify fun box => { box with token := .token w.newToken }
    audit w verb (.obj [])
    pure (okReply [("state", .str "enabled"), ("previous", .str previous), ("token", .str w.newToken)])

def cmdMcpTokenEnable : Cmd Json := do
  match (← get).token with
  | .absent => mintToken w "mcp-token-enable" "disabled"
  | _ => pure (tokenRefusal "already-enabled" ("An MCP token already exists on this box, and its value cannot be " ++
      "shown again. Use rotate to replace it."))

def cmdMcpTokenRotate : Cmd Json := do
  match (← get).token with
  | .absent => pure (tokenRefusal "not-enabled" "No MCP token exists on this box. Use enable to create one.")
  | file => mintToken w "mcp-token-rotate" file.state

def cmdMcpTokenDisable : Cmd Json := do
  match (← get).token with
  | .absent => pure (okReply [("state", .str "disabled"), ("previous", .str "disabled")])
  | file =>
    match w.tokenFails with
    | some error => pure (tokenRefusal "write-failed" s!"Cannot remove {mcpTokenPath}: {error}")
    | none =>
      modify fun box => { box with token := .absent }
      audit w "mcp-token-disable" (.obj [])
      pure (okReply [("state", .str "disabled"), ("previous", .str file.state)])

/-! ### Dispatch -/

/-- `_require`: the positional argument `n` after the verb. -/
def require (args : List String) (n : Nat) : Cmd String :=
  match args[n]? with
  | some arg => pure arg
  | none => raise .valueError

/-- `_require_rest`: all arguments after the verb, at least one. -/
def requireRest (args : List String) : Cmd (List String) :=
  match args.tail with
  | [] => raise .valueError
  | rest => pure rest

/-- `_DISPATCH`. -/
def dispatchTable : List (String × (List String → Cmd Json)) :=
  [("show", fun _ => cmdShow),
    ("validate", fun _ => cmdValidate T),
    ("init", fun args => cmdInit T w (args.tail.contains "--force")),
    ("reset", fun _ => cmdReset w),
    ("hash", fun _ => cmdHash T),
    ("applied-hash", fun _ => cmdAppliedHash),
    ("applied-show", fun _ => cmdAppliedShow T),
    ("restore-applied", fun _ => cmdRestoreApplied T w),
    ("set-applied-hash", fun args => require args 1 >>= cmdSetAppliedHash T w),
    ("mount-add", fun args => require args 1 >>= cmdMountAdd T w),
    ("mount-remove", fun args => do cmdMountRemove T w (← require args 1) (← require args 2)),
    ("volume-add", fun args => require args 1 >>= cmdVolumeAdd T w),
    ("volume-remove", fun args => require args 1 >>= cmdVolumeRemove T w),
    ("pip-add", fun args => require args 1 >>= cmdPackagesAdd T w (pipSection T)),
    ("pip-remove", fun args => requireRest args >>= cmdPackagesRemove T w (pipSection T)),
    ("pip-import-legacy", fun _ => cmdPipImportLegacy T w),
    ("apt-add", fun args => require args 1 >>= cmdPackagesAdd T w (aptSection T)),
    ("apt-remove", fun args => requireRest args >>= cmdPackagesRemove T w (aptSection T)),
    ("sysctl-set", fun args => require args 1 >>= cmdEntriesSet T w sysctlSection),
    ("sysctl-unset", fun args => requireRest args >>= cmdEntriesUnset T w sysctlSection),
    ("env-set", fun args => require args 1 >>= cmdEntriesSet T w envSection),
    ("env-unset", fun args => requireRest args >>= cmdEntriesUnset T w envSection),
    ("cargo-add", fun args => require args 1 >>= cmdPackagesAdd T w (cargoSection T)),
    ("cargo-remove", fun args => requireRest args >>= cmdPackagesRemove T w (cargoSection T)),
    ("npm-add", fun args => require args 1 >>= cmdPackagesAdd T w (npmSection T)),
    ("npm-remove", fun args => requireRest args >>= cmdPackagesRemove T w (npmSection T)),
    ("udev-add", fun args => require args 1 >>= cmdUdevAdd T w),
    ("udev-remove", fun args => requireRest args >>= cmdUdevRemove T w),
    ("network-mode-show", fun _ => cmdNetworkModeShow),
    ("network-mode-set", fun args => require args 1 >>= cmdNetworkModeSet T w),
    ("network-mode-unset", fun _ => cmdNetworkModeUnset T w),
    ("mcp-token-status", fun _ => cmdMcpTokenStatus),
    ("mcp-token-enable", fun _ => cmdMcpTokenEnable w),
    ("mcp-token-rotate", fun _ => cmdMcpTokenRotate w),
    ("mcp-token-disable", fun _ => cmdMcpTokenDisable w),
    ("set-raw", fun args => require args 1 >>= cmdSetRaw T w),
    ("audit-tail", fun args => cmdAuditTail (args.tail.headD "20"))]

def dispatch (args : List String) : Cmd Json :=
  let cmd := args.headD "show"
  match (dispatchTable T w).lookup cmd with
  | none => pure (errorReply s!"unknown command: {cmd}")
  | some handler => handler args

/-- `_cli`: the reply of one invocation, and the box after it. -/
def cli (args : List String) (box : Box) : Json × Box :=
  if w.lockFails then (errorReply (T.message .osError), box)
  else
    match (dispatch T w args).exec box with
    | (.ok reply, after) => (reply, after)
    | (.error (.validationError message), after) => (errorsReply (message.splitOn "\n") [], after)
    | (.error (.raised e), after) => (errorReply (T.message e), after)

end Lager.BoxConfig
