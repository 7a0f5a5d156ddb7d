import Lager.BoxConfig.Validate
import Lager.Py.Number
import Lager.Py.Sha256

/-!
# `BoxConfig`: loading and writing back

The dataclasses of `box_config/config.py`, `migrate_raw`, `from_dict`, `to_dict`, and the two configurations the
code builds itself. Python does not check the types of dataclass fields, so a field holds whatever JSON value was
put there; what a loaded configuration holds follows from `validate`, which `from_dict` runs first.

The one thing every configuration in the code has by construction is a field here: its extra keys are not the
names of sections.
-/

namespace Lager

open Lager.Py

namespace BoxConfig

/-- The exceptions of the configuration code. -/
inductive ConfigErr where
  | validationError (message : String)
  | raised (e : PyErr)

structure Mount where
  host : Json
  container : Json
  readonly : Bool
  deriving DecidableEq

structure Volume where
  name : Json
  container : Json
  deriving DecidableEq

structure UdevRule where
  vid : Json
  pid : Json
  mode : Json
  usbtmc : Bool
  deriving DecidableEq

/-- `_FIRST_CLASS_KEYS`. -/
def firstClassKeys : List String :=
  ["version", "mounts", "volumes", "env", "pip_packages", "apt_packages", "sysctl", "cargo_packages",
    "npm_packages", "udev_rules", "network_mode"]

end BoxConfig

open BoxConfig in
@[ext]
structure BoxConfig where
  version : Int
  mounts : List Mount
  volumes : List Volume
  env : Dict
  pipPackages : List Json
  aptPackages : List Json
  sysctl : Dict
  cargoPackages : List Json
  npmPackages : List Json
  udevRules : List UdevRule
  networkMode : Json
  extras : Dict
  extras_apart : ∀ kv ∈ extras, kv.1 ∉ firstClassKeys

namespace BoxConfig

/-! ### Writing -/

def Mount.toJson (m : Mount) : Json :=
  .obj [("host", m.host), ("container", m.container), ("readonly", .bool m.readonly)]

def Volume.toJson (v : Volume) : Json := .obj [("name", v.name), ("container", v.container)]

def UdevRule.toJson (u : UdevRule) : Json :=
  .obj [("vid", u.vid), ("pid", u.pid), ("mode", u.mode), ("usbtmc", .bool u.usbtmc)]

/-- The sections that are always written. -/
def sections (c : BoxConfig) : Dict :=
  [("version", .int c.version), ("mounts", .arr (c.mounts.map Mount.toJson)),
    ("volumes", .arr (c.volumes.map Volume.toJson)), ("env", .obj c.env), ("pip_packages", .arr c.pipPackages),
    ("apt_packages", .arr c.aptPackages), ("sysctl", .obj c.sysctl), ("cargo_packages", .arr c.cargoPackages),
    ("npm_packages", .arr c.npmPackages), ("udev_rules", .arr (c.udevRules.map UdevRule.toJson))]

/-- `to_dict`: the network mode is written only when it is not the default. -/
def toDict (c : BoxConfig) : Dict :=
  Dict.update
    (if c.networkMode.pyEq (.str defaultNetworkMode) then c.sections
      else Dict.set c.sections "network_mode" c.networkMode)
    c.extras

/-! ### Loading -/

def schemaVersion : Int := 1

/-- `migrate_raw`, with no migrations registered: an older version comes back as it is, a newer one raises. -/
def migrateRaw (raw : Json) : Except ConfigErr Json :=
  match raw with
  | .obj d =>
    match Dict.get d "version" with
    | .int v =>
      if v > schemaVersion then
        .error (.validationError (s!"Config version {v} is newer than this CLI supports " ++
          s!"({schemaVersion}). Upgrade the lager CLI on the box."))
      else .ok raw
    -- a boolean is an `int` too, and at most 1
    | _ => .ok raw
  | _ => .ok raw

variable (T : TextOps)

def Mount.ofJson (m : Json) : Except PyErr Mount := do
  let host ← m.item "host"
  let container ← m.item "container"
  let readonly ← m.getOr "readonly" (.bool false)
  return ⟨host, container, readonly.truthy⟩

def Volume.ofJson (v : Json) : Except PyErr Volume := do
  let name ← v.item "name"
  let container ← v.item "container"
  return ⟨name, container⟩

def UdevRule.ofDict (u : Dict) : UdevRule :=
  ⟨normalizeUdevId T (Dict.getD u "vid" (.str "")), normalizeUdevId T (Dict.getD u "pid" (.str "")),
    Dict.getD u "mode" defaultUdevMode, (Dict.getD u "usbtmc" (.bool false)).truthy⟩

/-- A rule from an entry that is a dict; other entries are skipped. -/
def UdevRule.ofJson : Json → Option UdevRule
  | .obj u => some (UdevRule.ofDict T u)
  | _ => none

/-- `list(raw.get(key, []))`, or a loop over it. -/
def listSection (raw : Dict) (key : String) : Except PyErr (List Json) := iterate (Dict.getD raw key (.arr []))

/-- `dict(raw.get(key, {}))`. Past `validate` the value is a dict or `None`. -/
def dictSection (raw : Dict) (key : String) : Except PyErr Dict :=
  match Dict.getD raw key (.obj []) with
  | .obj kvs => .ok kvs
  | _ => .error .typeError

/-- The keys that are not sections, in order. -/
def extrasOf (raw : Dict) : Dict := raw.filter fun kv => kv.1 ∉ firstClassKeys

theorem extrasOf_apart (raw : Dict) : ∀ kv ∈ extrasOf raw, kv.1 ∉ firstClassKeys := by
  intro kv hkv
  simpa using (List.mem_filter.mp hkv).2

/-- The part of `from_dict` after the validation. -/
def build (raw : Dict) : Except PyErr BoxConfig := do
  let mounts ← (← listSection raw "mounts").mapM Mount.ofJson
  let volumes ← (← listSection raw "volumes").mapM Volume.ofJson
  let env ← dictSection raw "env"
  let pipPackages ← listSection raw "pip_packages"
  let aptPackages ← listSection raw "apt_packages"
  let sysctl ← dictSection raw "sysctl"
  let cargoPackages ← listSection raw "cargo_packages"
  let npmPackages ← listSection raw "npm_packages"
  let udevRules := (← listSection raw "udev_rules").filterMap (UdevRule.ofJson T)
  let networkMode := Dict.getD raw "network_mode" (.str defaultNetworkMode)
  let version ← intOf (← (Json.obj raw).item "version")
  return { version, mounts, volumes, env, pipPackages, aptPackages, sysctl, cargoPackages, npmPackages,
           udevRules, networkMode, extras := extrasOf raw, extras_apart := extrasOf_apart raw }

/-- `from_dict`. -/
def fromDict (raw : Json) : Except ConfigErr BoxConfig :=
  match migrateRaw raw with
  | .error e => .error e
  | .ok raw =>
    match validate T raw, raw with
    | [], .obj d => (build T d).mapError .raised
    | errors, _ => .error (.validationError (String.intercalate "\n" errors))

/-- The bytes `compute_hash` hashes. -/
def payload (c : BoxConfig) : Bytes := encode (dumps T.floats (.obj c.toDict))

def computeHash (c : BoxConfig) : String := sha256Hex (c.payload T)

/-! ### The configurations the code starts from -/

/-- `BoxConfig()`. -/
def bareConfig : BoxConfig where
  version := schemaVersion
  mounts := []
  volumes := []
  env := []
  pipPackages := []
  aptPackages := []
  sysctl := []
  cargoPackages := []
  npmPackages := []
  udevRules := []
  networkMode := .str defaultNetworkMode
  extras := []
  extras_apart := by simp

/-- `init_default()`. -/
def initDefault : BoxConfig := { bareConfig with volumes := [⟨.str "box-tools", .str "/opt/box-tools"⟩] }

/-! ### What is written under a key -/

theorem get?_update_of_not_mem {d items : Dict} {k : String} (h : ∀ kv ∈ items, kv.1 ≠ k) :
    Dict.get? (Dict.update d items) k = Dict.get? d k := by
  induction items generalizing d with
  | nil => rfl
  | cons kv items ih =>
    have hrest := ih (d := Dict.set d kv.1 kv.2) fun kv' hkv' => h kv' (List.mem_cons_of_mem _ hkv')
    rw [Dict.get?_set_ne d kv.2 (Ne.symm (h kv List.mem_cons_self))] at hrest
    exact hrest

variable (c : BoxConfig)

/-- Sections are read back from under their own names. -/
theorem get?_toDict {k : String} (hk : k ∈ firstClassKeys) (hmode : k ≠ "network_mode") :
    Dict.get? c.toDict k = Dict.get? c.sections k := by
  rw [toDict, get?_update_of_not_mem fun kv hkv heq => c.extras_apart kv hkv (heq ▸ hk)]
  split_ifs
  · rfl
  · exact Dict.get?_set_ne _ _ hmode

theorem get?_networkMode : Dict.get? c.toDict "network_mode" =
    if c.networkMode = .str defaultNetworkMode then none else some c.networkMode := by
  rw [toDict, get?_update_of_not_mem fun kv hkv heq => c.extras_apart kv hkv (heq ▸ by decide)]
  by_cases hmode : c.networkMode = .str defaultNetworkMode
  · rw [if_pos (Json.pyEq_str.mpr hmode), if_pos hmode]
    rfl
  · rw [if_neg fun h => hmode (Json.pyEq_str.mp h), if_neg hmode, Dict.get?_set_self]

end BoxConfig

end Lager
