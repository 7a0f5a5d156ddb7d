import Lager.Lib.Tree
import Lager.Lib.Frame
import Lager.Py.Sha256

/-!
# The installed drivers, on disk

`drivers/registry.py`. A driver is a directory under the root; an install unpacks into `.staging/` and swaps the new
directory in with two renames, and a reinstall of the packages does the same with the driver's `.deps`.

Any operation on files may fail, whether there is a reason on the disk or not. What the checks of an archive, of a
manifest and of a requirements file decide is given, and so are the files they leave: which of them fail, and after
what, makes no difference here. The containment checks beside each join never fail on a valid type and are left out.
-/

namespace Lager.Drivers

open Lager.Lib Lager.Py

abbrev Path := List String

abbrev Files := Tree String Bytes

def MANIFEST_FILE : String := "lager_driver.json"
def DRIVER_FILE : String := "driver.py"
def SHA_FILE : String := ".sha256"
def DEPS_DIR : String := ".deps"
def STAGING : String := ".staging"
def MAX_BUNDLE_BYTES : Nat := 5 * 1024 * 1024

def RESERVED_TYPES : List String :=
  ["actuate", "adc", "analog", "arm", "battery", "dac", "debug", "dmm", "eload", "energy-analyzer", "gpi", "gpio",
    "gpo", "hsm", "i2c", "logic", "mikrotik", "power-supply", "power-supply-2q", "rotation", "router", "scope",
    "scope-channel", "solar", "spi", "thermocouple", "uart", "usb", "watt-meter", "waveform", "webcam", "wifi",
    "authorize", "bench", "binaries", "ble", "blufi", "box", "box-config", "boxes", "custom", "defaults", "devenv",
    "diagnose", "drivers", "dut", "energy", "exec", "hello", "install", "install-wheel", "instruments", "lease",
    "login", "logout", "logs", "nets", "python", "ssh", "ssh-setup", "supply", "terminal", "uninstall", "update",
    "watt", "whoami", "custom-net", "driver", "help", "net", "version"]

/-- A lower-case letter, and 1 to 31 letters, digits, dashes and underscores. -/
def typeChars (chars : List Char) : Bool :=
  match chars with
  | c :: rest =>
    c.isLower && decide (1 ≤ rest.length ∧ rest.length ≤ 31) &&
      rest.all fun c => c.isLower || c.isDigit || c == '_' || c == '-'
  | [] => false

/-- `TYPE_RE.match`; its `$` also matches before a line break at the end. -/
def TYPE_RE (dtype : String) : Bool :=
  typeChars dtype.toList || (dtype.toList.getLast? == some '\n' && typeChars dtype.toList.dropLast)

structure Manifest where
  type : String
  version : String
  requirements : Option String
  deriving DecidableEq

inductive Error where
  | store (status : Nat) (message : String)
  | os
  deriving DecidableEq

/-- What a check has written, below the directory it was given, and what it came to. -/
structure Outcome (α : Type) where
  files : List (Path × Bytes)
  result : Except Error α

/-- What an install meets: which of its operations on files fail, the names it draws, and the checks. -/
structure Env where
  root : Path
  fails : Nat → Bool
  kept : Nat → Path → Bool
  stagingId : String
  retiredId : String
  extract : Bytes → Outcome Unit
  parseManifest : Bytes → Except String Manifest
  readRequirements : Files → String → Except Error Unit
  pip : Files → String → Outcome (List String)

structure World where
  files : Files
  ops : Nat

abbrev M (α : Type) := Prog World Error α

/-! ### Operations on files -/

def ofExcept {α : Type} (r : Except Error α) : M α :=
  match r with
  | .ok a => pure a
  | .error e => throw e

/-- The files as an operation has changed them. -/
def become (files : Option Files) : M Unit := do
  let w ← get
  match files with
  | some files => set { w with files := files }
  | none => throw .os

/-- An operation that fails where the disk or the environment says so. -/
def fileOp (env : Env) (change : Files → Option Files) : M Unit := do
  let w ← get
  set { w with ops := w.ops + 1 }
  if env.fails w.ops then throw .os else become (change w.files)

def makedirs (env : Env) (p : Path) : M Unit := fileOp env fun t => t.makeDirs p

/-- `os.makedirs` of a path that must be new. -/
def makeNew (env : Env) (p : Path) : M Unit := fileOp env fun t => if t p = none then t.makeDirs p else none

def rename (env : Env) (src dst : Path) : M Unit := fileOp env fun t => t.rename src dst

def writeFile (env : Env) (p : Path) (bytes : Bytes) : M Unit := fileOp env fun t => some (t.put p (.file bytes))

/-- `shutil.rmtree(p, ignore_errors=True)`. -/
def rmtree (env : Env) (p : Path) : M Unit := do
  let w ← get
  set { files := w.files.remove p (env.kept w.ops), ops := w.ops + 1 : World }

/-- The files of a check, each with the directories on its way. -/
def writeAll (env : Env) (dest : Path) (files : List (Path × Bytes)) : M Unit :=
  files.forM fun entry => do
    makedirs env (dest ++ entry.1.dropLast)
    writeFile env (dest ++ entry.1) entry.2

def raiseIf (condition : Bool) (e : Error) : M Unit := if condition then throw e else pure ()

/-! ### The store -/

def _validate_type (dtype : String) : M Unit := do
  raiseIf (!TYPE_RE dtype) (.store 400 ("Invalid driver type '" ++ dtype ++ "'"))
  raiseIf (RESERVED_TYPES.contains dtype)
    (.store 400 ("'" ++ dtype ++ "' is the name of a built-in net role or lager command"))

def Env.live (env : Env) (dtype : String) : Path := env.root ++ [dtype]

def Env.stagingRoot (env : Env) : Path := env.root ++ [STAGING]

def Env.staging (env : Env) (dtype : String) : Path := env.stagingRoot ++ [dtype ++ "-" ++ env.stagingId]

def Env.retired (env : Env) (dtype : String) : Path := env.stagingRoot ++ [dtype ++ "-old-" ++ env.retiredId]

def Env.depsTarget (env : Env) (dtype : String) : Path := env.stagingRoot ++ [dtype ++ "-deps-" ++ env.stagingId]

def Env.depsRetired (env : Env) (dtype : String) : Path :=
  env.stagingRoot ++ [dtype ++ "-deps-" ++ env.stagingId ++ "-old"]

def Env.current (env : Env) (dtype : String) : Path := env.live dtype ++ [DEPS_DIR]

/-- `load_manifest` on what it has read, its errors as the store answers them. -/
def parsed (env : Env) (content : Option Bytes) : Except Error Manifest :=
  match content with
  | none => .error (.store 400 (MANIFEST_FILE ++ " is missing"))
  | some bytes =>
    match env.parseManifest bytes with
    | .ok manifest => .ok manifest
    | .error message => .error (.store 400 message)

def loadManifest (env : Env) (bundle : Path) : M Manifest := do
  let w ← get
  set { w with ops := w.ops + 1 }
  if env.fails w.ops then throw (.store 400 (MANIFEST_FILE ++ " is not valid JSON"))
  else ofExcept (parsed env (w.files.content (bundle ++ [MANIFEST_FILE])))

def extract (env : Env) (data : Bytes) (dest : Path) : M Unit := do
  writeAll env dest (env.extract data).files
  ofExcept (env.extract data).result

/-- `deps.install`: the packages of the bundle's requirements, in a new directory. -/
def depsInstall (env : Env) (bundle : Path) (requirements : String) (target : Path) : M (List String) := do
  let w ← get
  ofExcept (env.readRequirements (w.files.under bundle) requirements)
  makeNew env target
  let outcome := env.pip (w.files.under bundle) requirements
  writeAll env target outcome.files
  ofExcept outcome.result

def installPackages (env : Env) (bundle : Path) (manifest : Manifest) : M (List String) :=
  match manifest.requirements with
  | some requirements => depsInstall env bundle requirements (bundle ++ [DEPS_DIR])
  | none => pure []

/-- What is in the staging directory when it is ready. -/
structure Prepared where
  manifest : Manifest
  packages : List String
  sha : String

/-- The part of an install that fills the staging directory. -/
def unpack (env : Env) (dtype : String) (data : Bytes) : M Prepared := do
  extract env data (env.staging dtype)
  let manifest ← loadManifest env (env.staging dtype)
  raiseIf (manifest.type ≠ dtype)
    (.store 400 ("Bundle declares type '" ++ manifest.type ++ "', not '" ++ dtype ++ "'"))
  let w ← get
  raiseIf (!w.files.isFile (env.staging dtype ++ [DRIVER_FILE])) (.store 400 ("Bundle has no " ++ DRIVER_FILE))
  let packages ← installPackages env (env.staging dtype) manifest
  let sha := sha256Hex data
  writeFile env (env.staging dtype ++ [SHA_FILE]) (encode (sha ++ "\n").toList)
  pure ⟨manifest, packages, sha⟩

/-- The two renames. -/
def swap (env : Env) (dtype : String) : M Bool := do
  let w ← get
  if w.files.isDir (env.live dtype) then
    rename env (env.live dtype) (env.retired dtype)
    rename env (env.staging dtype) (env.live dtype)
    rmtree env (env.retired dtype)
    pure true
  else
    rename env (env.staging dtype) (env.live dtype)
    pure false

/-- What an install does before anything is in the staging directory. -/
def begin (env : Env) (dtype : String) (data : Bytes) : M Unit := do
  _validate_type dtype
  raiseIf data.isEmpty (.store 400 "Bundle is empty")
  raiseIf (data.length > MAX_BUNDLE_BYTES) (.store 413 "Bundle is larger than 5 MB")
  makedirs env env.stagingRoot
  makeNew env (env.staging dtype)

structure Installed where
  type : String
  version : String
  sha256 : String
  replaced : Bool
  packages : List String
  deriving DecidableEq

/-- The body of the `try`. -/
def unpackAndSwap (env : Env) (dtype : String) (data : Bytes) : M Installed := do
  let prepared ← unpack env dtype data
  let replaced ← swap env dtype
  pure ⟨dtype, prepared.manifest.version, prepared.sha, replaced, prepared.packages⟩

/-- The staging directory is removed unless it has become the driver's: that rename is the last operation that can
raise. -/
def install (env : Env) (dtype : String) (data : Bytes) : M Installed := do
  begin env dtype data
  onError (unpackAndSwap env dtype data) (rmtree env (env.staging dtype))

/-- What a reinstall of the packages checks before it builds them. -/
def beginDeps (env : Env) (dtype : String) : M String := do
  _validate_type dtype
  let w ← get
  raiseIf (!w.files.isDir (env.live dtype)) (.store 404 ("No custom driver '" ++ dtype ++ "' is installed"))
  let manifest ← loadManifest env (env.live dtype)
  match manifest.requirements with
  | none => throw (.store 400 ("Driver '" ++ dtype ++ "' declares no requirements"))
  | some requirements =>
    makedirs env env.stagingRoot
    pure requirements

/-- The two renames of the packages. Whatever has been moved aside is removed, also where the second has failed. -/
def swapDeps (env : Env) (dtype : String) : M Unit := do
  let w ← get
  if w.files.isDir (env.current dtype) then
    onError (do
      rename env (env.current dtype) (env.depsRetired dtype)
      rename env (env.depsTarget dtype) (env.current dtype)) (do
      rmtree env (env.depsTarget dtype)
      rmtree env (env.depsRetired dtype))
    rmtree env (env.depsRetired dtype)
  else
    onError (rename env (env.depsTarget dtype) (env.current dtype)) (rmtree env (env.depsTarget dtype))

def reinstall_deps (env : Env) (dtype : String) : M (List String) := do
  let requirements ← beginDeps env dtype
  let packages ← onError (depsInstall env (env.live dtype) requirements (env.depsTarget dtype))
    (rmtree env (env.depsTarget dtype))
  swapDeps env dtype
  pure packages

end Lager.Drivers
