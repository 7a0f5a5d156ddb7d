import Lager.BoxConfig.Format

/-!
# `validate`

`validate(raw)` of `box_config/config.py`: the list of everything that is wrong with a decoded configuration, in
the order and the words of the source. Each section is read with `raw.get`, so an absent section and one that is
`null` are the same to it.
-/

namespace Lager.BoxConfig

open Lager.Py Lager.Lib.Regex

def typename : Json → String
  | .null => "null"
  | .bool _ => "bool"
  | .int _ => "int"
  | .float _ => "float"
  | .str _ => "string"
  | .arr _ => "array"
  | .obj _ => "object"

/-- `RESERVED_CONTAINER_PATHS`: container paths that `start_box.sh` mounts itself, and what for. -/
def reservedContainerPaths : List (String × String) :=
  [("/tmp", "shared host /tmp"), ("/dev", "host device tree"), ("/sys/bus/usb", "USB device topology"),
    ("/sys/devices", "device topology"), ("/var/run/dbus", "host dbus socket"),
    ("/etc/lager", "lager config (where box_config.json itself lives)"),
    ("/home/www-data/.ssh", "lagerdata's authorized_keys (incoming SSH auth)"),
    ("/host/etc/hostname", "host hostname"), ("/opt/SEGGER", "SEGGER J-Link tools"),
    ("/opt/picoscope/lib", "PicoScope libraries"),
    ("/opt/rust/cargo", "named volume persisting user cargo crates"),
    ("/home/www-data/.npm-global", "named volume persisting user npm packages")]

/-- `suggest_alternative`. -/
def suggestAlternative (containerPath : String) : Option String :=
  if containerPath = "/home/www-data/.ssh" then some "/home/www-data/.ssh-git" else none

def networkModes : List String := ["lagernet", "host"]

def defaultNetworkMode : String := "lagernet"

variable (T : TextOps)

/-- `repr` of a text. -/
def TextOps.quote (text : String) : String := T.repr (.str text)

/-- `str(x)`. -/
def TextOps.str : Json → String
  | .str text => text
  | value => T.repr value

/-! ### Sections in general -/

/-- A section that must be an array, when it is there. -/
def validateArray (name : String) (items : List Json → List String) : Json → List String
  | .null => []
  | .arr xs => items xs
  | value => [s!"'{name}' must be an array, got {typename value}."]

/-- A section that must be an object, when it is there. -/
def validateObject (name : String) (items : Dict → List String) : Json → List String
  | .null => []
  | .obj kvs => items kvs
  | value => [s!"'{name}' must be an object, got {typename value}."]

/-- A required text under `key`. -/
def requiredText (name : String) (i : Nat) (key : String) : Json → List String
  | .null => [s!"{name}[{i}]: missing required key '{key}'."]
  | .str _ => []
  | value => [s!"{name}[{i}].{key} must be a string, got {typename value}."]

/-- A flag under `key` that must be a boolean, when it is there. -/
def optionalBool (name : String) (i : Nat) (key : String) (m : Dict) : List String :=
  match Dict.get? m key with
  | none => []
  | some (.bool _) => []
  | some value => [s!"{name}[{i}].{key} must be a boolean, got {typename value}."]

/-- Remember the first index a key was seen at. -/
def note {κ : Type} [BEq κ] (seen : List (κ × Nat)) (key : κ) (i : Nat) : List (κ × Nat) :=
  if (seen.lookup key).isSome then seen else (key, i) :: seen

/-! ### Mounts and volumes -/

def mountHostErrors (i : Nat) : Json → List String
  | .str host =>
    (if startsWith host "/" then []
      else [s!"mounts[{i}].host must be an absolute path (got {T.quote host})."]) ++
    (if host = "/" then
      [s!"mounts[{i}].host cannot be '/' — refusing to bind-mount the entire host filesystem."] else [])
  | _ => []

def mountContainerErrors (i : Nat) (seen : List (String × Nat)) : Json → List String
  | .str container =>
    (if startsWith container "/" then []
      else [s!"mounts[{i}].container must be an absolute path (got {T.quote container})."]) ++
    (if container = "/" then
      [s!"mounts[{i}].container cannot be '/' — refusing to overlay the entire container filesystem."] else []) ++
    (match seen.lookup container with
      | some j => [s!"mounts[{i}].container {T.quote container} duplicates mounts[{j}]."]
      | none => [])
  | _ => []

def mountErrors (i : Nat) (seen : List (String × Nat)) (m : Dict) : List String :=
  requiredText "mounts" i "host" (Dict.get m "host") ++
    requiredText "mounts" i "container" (Dict.get m "container") ++
    optionalBool "mounts" i "readonly" m ++ mountHostErrors T i (Dict.get m "host") ++
    mountContainerErrors T i seen (Dict.get m "container")

/-- The text under `container` of an entry, if it has one. -/
def containerOf : Json → Option String
  | .obj m =>
    match Dict.get m "container" with
    | .str container => some container
    | _ => none
  | _ => none

def mountsFrom (i : Nat) (seen : List (String × Nat)) : List Json → List String
  | [] => []
  | .obj m :: rest =>
    mountErrors T i seen m ++
      mountsFrom (i + 1) (match containerOf (.obj m) with | some c => note seen c i | none => seen) rest
  | m :: rest => s!"mounts[{i}] must be an object, got {typename m}." :: mountsFrom (i + 1) seen rest

def validateMounts (raw : Dict) : List String := validateArray "mounts" (mountsFrom T 0 []) (Dict.get raw "mounts")

def volumeNameErrors (i : Nat) (seen : List (String × Nat)) : Json → List String
  | .str name =>
    if matchLine volumeNameRe name = false then
      [s!"volumes[{i}].name {T.quote name} is not a valid Docker volume name " ++
        "(must match [a-zA-Z0-9][a-zA-Z0-9_.-]+)."]
    else
      match seen.lookup name with
      | some j => [s!"volumes[{i}].name {T.quote name} duplicates volumes[{j}]."]
      | none => []
  | value => requiredText "volumes" i "name" value

def volumeContainerErrors (i : Nat) : Json → List String
  | .str container =>
    (if startsWith container "/" then []
      else [s!"volumes[{i}].container must be an absolute path (got {T.quote container})."]) ++
    (if container = "/" then [s!"volumes[{i}].container cannot be '/'."] else [])
  | value => requiredText "volumes" i "container" value

/-- The valid name of an entry, which the duplicate check remembers. -/
def volumeNameOf (v : Dict) : Option String :=
  match Dict.get v "name" with
  | .str name => if matchLine volumeNameRe name then some name else none
  | _ => none

def volumesFrom (i : Nat) (seen : List (String × Nat)) : List Json → List String
  | [] => []
  | .obj v :: rest =>
    volumeNameErrors T i seen (Dict.get v "name") ++ volumeContainerErrors T i (Dict.get v "container") ++
      volumesFrom (i + 1) (match volumeNameOf v with | some name => note seen name i | none => seen) rest
  | v :: rest => s!"volumes[{i}] must be an object, got {typename v}." :: volumesFrom (i + 1) seen rest

def validateVolumes (raw : Dict) : List String :=
  validateArray "volumes" (volumesFrom T 0 []) (Dict.get raw "volumes")

/-- The container paths of the mounts, each with the first index it stands at. -/
def mountContainers (mounts : List Json) : List (String × Nat) :=
  mounts.zipIdx.filterMap fun entry => (containerOf entry.1).map fun container => (container, entry.2)

/-- The error for a volume on the path of a mount. -/
def collisionErrors (mounts : List (String × Nat)) (i : Nat) (c : String) : List String :=
  match mounts.lookup c with
  | none => []
  | some j => [s!"volumes[{i}].container {T.quote c} collides with mounts[{j}].container."]

def validateCrossPathCollisions (raw : Dict) : List String :=
  match Dict.get raw "mounts", Dict.get raw "volumes" with
  | .arr mounts, .arr volumes =>
    volumes.zipIdx.flatMap fun entry =>
      match containerOf entry.1 with
      | none => []
      | some c => collisionErrors T (mountContainers mounts) entry.2 c
  | _, _ => []

/-- The error for a mount on a path of `start_box.sh`. -/
def reservedErrors (i : Nat) (c : String) : List String :=
  match reservedContainerPaths.lookup c with
  | none => []
  | some purpose =>
    [s!"mounts[{i}].container {T.quote c} is reserved by start_box.sh ({purpose}); " ++
      "pick a different container path." ++
      (match suggestAlternative c with | some alt => s!" Suggestion: use {alt} instead." | none => "")]

def validateReservedPaths (raw : Dict) : List String :=
  match Dict.get raw "mounts" with
  | .arr mounts =>
    mounts.zipIdx.flatMap fun entry =>
      match containerOf entry.1 with
      | none => []
      | some c => reservedErrors T entry.2 c
  | _ => []

/-! ### Environment and sysctl -/

def envErrors (kv : String × Json) : List String :=
  if matchLine envKeyRe kv.1 = false then
    [s!"env key {T.quote kv.1} is not a valid environment variable name."]
  else
    (if kv.1 = "PATH" then
      ["env key 'PATH' is not allowed; use 'PATH_PREPEND' to extend PATH inside the container."] else []) ++
    (match kv.2 with
      | .str _ => []
      | value => [s!"env[{T.quote kv.1}] must be a string, got {typename value}."])

def validateEnv (raw : Dict) : List String := validateObject "env" (·.flatMap (envErrors T)) (Dict.get raw "env")

def sysctlErrors (kv : String × Json) : List String :=
  match validateSysctlKey kv.1 with
  | some reason => [s!"sysctl key {T.quote kv.1}: {reason}."]
  | none =>
    match kv.2 with
    | .str value =>
      if '\n' ∈ value.toList then [s!"sysctl[{T.quote kv.1}] must not contain newlines."] else []
    | value => [s!"sysctl[{T.quote kv.1}] must be a string, got {typename value}."]

def validateSysctl (raw : Dict) : List String :=
  validateObject "sysctl" (·.flatMap (sysctlErrors T)) (Dict.get raw "sysctl")

/-! ### Packages -/

/-- The loop of the four package sections: a format, a normal form that must not repeat, and what the message for
a repeated one adds. -/
def packagesFrom (name : String) (format : String → Option String) (canonical : String → String)
    (remark : String → String) (i : Nat) (seen : List (String × Nat)) : List Json → List String
  | [] => []
  | .str p :: rest =>
    match format p with
    | some reason =>
      s!"{name}[{i}] {T.quote p}: {reason}." :: packagesFrom name format canonical remark (i + 1) seen rest
    | none =>
      match seen.lookup (canonical p) with
      | some j =>
        s!"{name}[{i}] {T.quote p} duplicates {name}[{j}]{remark (canonical p)}." ::
          packagesFrom name format canonical remark (i + 1) seen rest
      | none => packagesFrom name format canonical remark (i + 1) ((canonical p, i) :: seen) rest
  | p :: rest =>
    s!"{name}[{i}] must be a string, got {typename p}." ::
      packagesFrom name format canonical remark (i + 1) seen rest

/-- ` (both normalize to 'x')`. -/
def bothNormalize (canonical : String) : String := s!" (both normalize to {T.quote canonical})"

def validatePipPackages (raw : Dict) : List String :=
  validateArray "pip_packages"
    (packagesFrom T "pip_packages" validatePipFormat (normalizePipName T) (bothNormalize T) 0 [])
    (Dict.get raw "pip_packages")

def validateAptPackages (raw : Dict) : List String :=
  validateArray "apt_packages" (packagesFrom T "apt_packages" validateAptFormat T.lower (fun _ => "") 0 [])
    (Dict.get raw "apt_packages")

def validateCargoPackages (raw : Dict) : List String :=
  validateArray "cargo_packages"
    (packagesFrom T "cargo_packages" validateCargoFormat (normalizeCargoName T) (bothNormalize T) 0 [])
    (Dict.get raw "cargo_packages")

def validateNpmPackages (raw : Dict) : List String :=
  validateArray "npm_packages"
    (packagesFrom T "npm_packages" validateNpmFormat (normalizeNpmName T) (bothNormalize T) 0 [])
    (Dict.get raw "npm_packages")

/-! ### Udev rules and the network mode -/

/-- `DEFAULT` of `mode` in a udev rule. -/
def defaultUdevMode : Json := .str "0660"

/-- The part of the check that is skipped when an id is missing. -/
def udevFormatErrors (i : Nat) (seen : List ((Json × Json) × Nat)) (vid pid mode : Json) : List String :=
  match validateUdevFormat T vid pid mode with
  | some reason => [s!"udev_rules[{i}] {T.str vid}:{T.str pid}: {reason}."]
  | none =>
    match seen.lookup (normalizeUdevId T vid, normalizeUdevId T pid) with
    | some j => [s!"udev_rules[{i}] {T.str vid}:{T.str pid} duplicates udev_rules[{j}]."]
    | none => []

def udevErrors (i : Nat) (seen : List ((Json × Json) × Nat)) (r : Dict) : List String :=
  let vid := Dict.get r "vid"
  let pid := Dict.get r "pid"
  (if vid = .null then [s!"udev_rules[{i}]: missing required key 'vid'."] else []) ++
    (if pid = .null then [s!"udev_rules[{i}]: missing required key 'pid'."] else []) ++
    optionalBool "udev_rules" i "usbtmc" r ++
    (if vid = .null ∨ pid = .null then []
      else udevFormatErrors T i seen vid pid (Dict.getD r "mode" defaultUdevMode))

/-- The normalized ids of a rule with a good format, which the duplicate check remembers. -/
def udevKeyOf (r : Dict) : Option (Json × Json) :=
  if (validateUdevFormat T (Dict.get r "vid") (Dict.get r "pid") (Dict.getD r "mode" defaultUdevMode)).isNone then
    some (normalizeUdevId T (Dict.get r "vid"), normalizeUdevId T (Dict.get r "pid"))
  else none

def udevRulesFrom (i : Nat) (seen : List ((Json × Json) × Nat)) : List Json → List String
  | [] => []
  | .obj r :: rest =>
    udevErrors T i seen r ++
      udevRulesFrom (i + 1) (match udevKeyOf T r with | some key => note seen key i | none => seen) rest
  | r :: rest => s!"udev_rules[{i}] must be an object, got {typename r}." :: udevRulesFrom (i + 1) seen rest

def validateUdevRules (raw : Dict) : List String :=
  validateArray "udev_rules" (udevRulesFrom T 0 []) (Dict.get raw "udev_rules")

def validateNetworkMode (raw : Dict) : List String :=
  match Dict.get raw "network_mode" with
  | .null => []
  | .str mode =>
    if mode ∈ networkModes then []
    else [s!"'network_mode' must be one of {String.intercalate sep (networkModes.map T.quote)}, got {T.quote mode}."]
  | mode => [s!"'network_mode' must be a string, got {typename mode}."]
where
  sep := ", "

/-! ### The whole -/

def validateVersion (raw : Dict) : List String :=
  let version := Dict.get raw "version"
  if version = .null then ["Missing required key 'version'."]
  else if version.pyEq (.int 1) = false then
    [s!"Unsupported config version: {T.repr version}. This CLI only supports version 1."]
  else []

def validateDict (raw : Dict) : List String :=
  validateVersion T raw ++ validateMounts T raw ++ validateVolumes T raw ++ validateCrossPathCollisions T raw ++
    validateReservedPaths T raw ++ validateEnv T raw ++ validatePipPackages T raw ++ validateAptPackages T raw ++
    validateSysctl T raw ++ validateCargoPackages T raw ++ validateNpmPackages T raw ++ validateUdevRules T raw ++
    validateNetworkMode T raw

def validate : Json → List String
  | .obj raw => validateDict T raw
  | value => [s!"Top-level must be a JSON object, got {typename value}."]

end Lager.BoxConfig
