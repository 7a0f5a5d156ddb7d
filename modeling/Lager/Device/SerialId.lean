import Lager.Py.Json
import Mathlib.Data.List.Sort
import Mathlib.Data.String.Basic

/-!
# The USB identity of a tty

`devices/serial_id.py`, the interface-aware pair `identity_for_tty` and `resolve_identity`. What the two read is
`/sys/class/tty`: for every tty its name, the USB device directory found above it (its name is the physical port)
with the attributes read there, and the interface number of its directory. The walk up from a tty and the reading
of an attribute are the environment's, and they succeed.
-/

namespace Lager.Device

open Lager.Py

/-- A USB device directory, by what `_read_sysfs_text` reads in it. `name` is the port. -/
structure UsbDir where
  name : String
  idVendor : String
  idProduct : String
  serial : Option String
  deriving DecidableEq

/-- An entry of `/sys/class/tty`. -/
structure SysTty where
  name : String
  /-- `_usb_device_dir_for_tty` -/
  usb : Option UsbDir
  /-- `_interface_for_tty` -/
  interface : Option Nat
  deriving DecidableEq

/-- `name.startswith(("ttyUSB", "ttyACM"))` -/
def isUsbSerial (name : String) : Bool :=
  "ttyUSB".toList.isPrefixOf name.toList || "ttyACM".toList.isPrefixOf name.toList

/-- `str.lower()` of an ASCII text, as vendor and product numbers are. -/
def lower (text : String) : String := String.ofList (text.toList.map Char.toLower)

/-- The loop of `_serial_is_unique` over the ttys that are left, after the directories of `seen`. -/
def serialIsUniqueFrom (vid pid serial ownDirName : String) (seen : List String) : List SysTty → Bool
  | [] => true
  | t :: rest =>
    if !isUsbSerial t.name then serialIsUniqueFrom vid pid serial ownDirName seen rest
    else match t.usb with
      | none => serialIsUniqueFrom vid pid serial ownDirName seen rest
      | some dir =>
        if dir.name = ownDirName ∨ dir.name ∈ seen then serialIsUniqueFrom vid pid serial ownDirName seen rest
        else if lower dir.idVendor = vid ∧ lower dir.idProduct = pid ∧ dir.serial = some serial then false
        else serialIsUniqueFrom vid pid serial ownDirName (dir.name :: seen) rest

/-- `_serial_is_unique` -/
def serialIsUnique (sys : List SysTty) (vid pid serial ownDirName : String) : Bool :=
  serialIsUniqueFrom vid pid serial ownDirName [] sys

/-- `os.path.basename` -/
def basename (path : String) : String := String.ofList (path.toList.reverse.takeWhile (· != '/')).reverse

/-- A text or `None`, as a value of a dict. -/
def optText : Option String → Json
  | none => .null
  | some s => .str s

def optNat : Option Nat → Json
  | none => .null
  | some n => .int n

/-- The serial as `identity_for_tty` records it: not the one another live device shows too. -/
def recordedSerial (sys : List SysTty) (vid pid : String) (dir : UsbDir) : Option String :=
  match dir.serial with
  | none => none
  | some serial => if serial ≠ "" ∧ serialIsUnique sys vid pid serial dir.name = false then none else some serial

/-- `identity_for_tty`. `realpath` follows symbolic links and is `none` where it raises `OSError`. -/
def identityForTty (realpath : String → Option String) (sys : List SysTty) (tty : String) : Option Dict :=
  if tty = "" then none
  else match realpath tty with
    | none => none
    | some path =>
      let name := basename path
      -- these three stay no longer below `/sys/class/tty` once the path is normalized
      if name = "" ∨ name = "." ∨ name = ".." then none
      else match sys.find? (fun t => t.name == name) with
        | none => none
        | some t => match t.usb with
          | none => none
          | some dir =>
            let vid := lower dir.idVendor
            let pid := lower dir.idProduct
            if vid = "" ∨ pid = "" then none
            else some [("vid", .str vid), ("pid", .str pid), ("serial", optText (recordedSerial sys vid pid dir)),
              ("port_path", .str dir.name), ("interface", optNat t.interface)]

/-- What `resolve_identity` keeps of a tty: its name, its port and the serial read there. -/
structure Candidate where
  tty : String
  port : String
  serial : Option String

/-- The tests of the loop that collects the candidates. -/
def candidate (vid pid : String) (wantIface : Json) (t : SysTty) : Option Candidate :=
  if !isUsbSerial t.name then none
  else match t.usb with
    | none => none
    | some dir =>
      if lower dir.idVendor ≠ vid then none
      else if lower dir.idProduct ≠ pid then none
      else if wantIface ≠ .null ∧ t.interface.any (fun iface => !(Json.int iface).pyEq wantIface) then none
      else some ⟨t.name, dir.name, dir.serial⟩

def candidates (sys : List SysTty) (vid pid : String) (wantIface : Json) : List Candidate :=
  (sys.mergeSort fun a b => decide (a.name ≤ b.name)).filterMap (candidate vid pid wantIface)

/-- The first candidate on the port. -/
def onPort (portPath : Json) (cs : List Candidate) : Option String :=
  (cs.find? fun c => (Json.str c.port).pyEq portPath).map fun c => "/dev/" ++ c.tty

/-- The choice among the candidates at the end of `resolve_identity`. -/
def choose (serial portPath : Json) (cs : List Candidate) : Option String :=
  if serial.truthy then
    match cs.filter fun c => (optText c.serial).pyEq serial with
    | [] => none
    | [c] => some ("/dev/" ++ c.tty)
    | found => if !portPath.truthy then none else onPort portPath found
  else if portPath.truthy then onPort portPath cs
  else none

/-- `resolve_identity`, with `/sys/class/tty` there. -/
def resolveIdentity (sys : List SysTty) (ident : Json) : Option String :=
  match ident with
  | .obj ident =>
    match Dict.get ident "vid", Dict.get ident "pid" with
    | .str vid, .str pid =>
      if lower vid = "" ∨ lower pid = "" then none
      else choose (Dict.get ident "serial") (Dict.get ident "port_path")
        (candidates sys (lower vid) (lower pid) (Dict.get ident "interface"))
    | _, _ => none
  | _ => none

/-! ### What the two loops find -/

theorem serialIsUniqueFrom_spec {vid pid serial own : String} {sys : List SysTty} :
    ∀ {seen : List String}, serialIsUniqueFrom vid pid serial own seen sys = true →
      ∀ t ∈ sys, isUsbSerial t.name = true → ∀ dir, t.usb = some dir → dir.name ≠ own → dir.name ∉ seen →
        ∃ t' ∈ sys, isUsbSerial t'.name = true ∧ ∃ dir', t'.usb = some dir' ∧ dir'.name = dir.name ∧
          ¬(lower dir'.idVendor = vid ∧ lower dir'.idProduct = pid ∧ dir'.serial = some serial) := by
  induction sys with
  | nil => intro seen _ t ht; cases ht
  | cons t₀ rest ih =>
    intro seen hunique t ht husb dir hdir hown hseen
    have hlater : ∀ {seen' : List String}, serialIsUniqueFrom vid pid serial own seen' rest = true →
        t ∈ rest → dir.name ∉ seen' → ∃ t' ∈ t₀ :: rest, isUsbSerial t'.name = true ∧
          ∃ dir', t'.usb = some dir' ∧ dir'.name = dir.name ∧ ¬(lower dir'.idVendor = vid ∧ lower dir'.idProduct = pid ∧ dir'.serial = some serial) := by
      intro seen' hu htr hs
      obtain ⟨t', ht', h⟩ := ih hu t htr husb dir hdir hown hs
      exact ⟨t', List.mem_cons_of_mem _ ht', h⟩
    rw [serialIsUniqueFrom] at hunique
    rcases List.mem_cons.mp ht with rfl | htr
    · rw [husb, hdir] at hunique
      simp only [Bool.not_true, Bool.false_eq_true, if_false] at hunique
      rw [if_neg (by simp [hown, hseen])] at hunique
      split at hunique
      · cases hunique
      · exact ⟨t, ht, husb, dir, hdir, rfl, ‹_›⟩
    · split at hunique
      · exact hlater hunique htr hseen
      · rename_i husb₀
        split at hunique
        · exact hlater hunique htr hseen
        · rename_i dir₀ hdir₀
          split at hunique
          · exact hlater hunique htr hseen
          · split at hunique
            · cases hunique
            · by_cases hname : dir₀.name = dir.name
              · exact ⟨t₀, List.mem_cons_self, by simpa using husb₀, dir₀, hdir₀, hname, ‹_›⟩
              · exact hlater hunique htr (by simp [Ne.symm hname, hseen])

theorem candidate_eq_some {vid pid : String} {want : Json} {t : SysTty} {c : Candidate}
    (h : candidate vid pid want t = some c) :
    isUsbSerial t.name = true ∧ ∃ dir, t.usb = some dir ∧ lower dir.idVendor = vid ∧ lower dir.idProduct = pid ∧
      (want ≠ .null → ∀ iface, t.interface = some iface → (Json.int iface).pyEq want = true) ∧
      c = ⟨t.name, dir.name, dir.serial⟩ := by
  rw [candidate] at h
  split at h
  · cases h
  · rename_i husb
    split at h
    · cases h
    · rename_i dir hdir
      split_ifs at h with hv hp hi
      refine ⟨by simpa using husb, dir, hdir, by simpa using hv, by simpa using hp, fun hw iface hif => ?_, ?_⟩
      · by_contra hne
        exact hi ⟨hw, by simp [hif, hne]⟩
      · exact (Option.some.inj h).symm

theorem mem_candidates {sys : List SysTty} {vid pid : String} {want : Json} {c : Candidate} :
    c ∈ candidates sys vid pid want ↔ ∃ t ∈ sys, candidate vid pid want t = some c := by
  simp [candidates, List.mem_filterMap]

theorem onPort_eq_some {portPath : Json} {cs : List Candidate} {path : String} (h : onPort portPath cs = some path) :
    ∃ c ∈ cs, (Json.str c.port).pyEq portPath = true ∧ path = "/dev/" ++ c.tty := by
  obtain ⟨c, hc, rfl⟩ := Option.map_eq_some_iff.mp h
  have hport := List.find?_some hc
  exact ⟨c, List.mem_of_find?_eq_some hc, hport, rfl⟩

theorem onPort_ne_none {portPath : Json} {cs : List Candidate} {c : Candidate} (hc : c ∈ cs)
    (hport : (Json.str c.port).pyEq portPath = true) : onPort portPath cs ≠ none := by
  rw [onPort, Ne, Option.map_eq_none_iff, List.find?_eq_none]
  exact fun hnone => hnone c hc hport

/-- With a serial, what is chosen is a candidate with that serial. -/
theorem choose_serial {serial portPath : Json} {cs : List Candidate} {path : String} (hs : serial.truthy = true)
    (h : choose serial portPath cs = some path) :
    ∃ c ∈ cs, (optText c.serial).pyEq serial = true ∧ path = "/dev/" ++ c.tty := by
  rw [choose, if_pos hs] at h
  have hsub : ∀ c ∈ cs.filter (fun c => (optText c.serial).pyEq serial), c ∈ cs ∧ (optText c.serial).pyEq serial = true :=
    fun c hc => List.mem_filter.mp hc
  split at h
  · cases h
  · rename_i c hfound
    have hmem := hsub c (by rw [hfound]; exact List.mem_singleton_self c)
    exact ⟨c, hmem.1, hmem.2, (Option.some.inj h).symm⟩
  · split_ifs at h
    obtain ⟨c, hc, _, hpath⟩ := onPort_eq_some h
    exact ⟨c, (hsub c hc).1, (hsub c hc).2, hpath⟩

/-- Something is chosen as soon as a candidate stands on the port, with the serial if one is wanted. -/
theorem choose_ne_none {serial portPath : Json} {cs : List Candidate} {c : Candidate} (hc : c ∈ cs)
    (hserial : serial.truthy = true → (optText c.serial).pyEq serial = true) (hp : portPath.truthy = true)
    (hport : (Json.str c.port).pyEq portPath = true) : choose serial portPath cs ≠ none := by
  rw [choose]
  by_cases hs : serial.truthy = true
  · have hmem : c ∈ cs.filter (fun c => (optText c.serial).pyEq serial) := List.mem_filter.mpr ⟨hc, hserial hs⟩
    rw [if_pos hs]
    split
    · rename_i hfound
      rw [hfound] at hmem
      cases hmem
    · simp
    · rw [if_neg (by simp [hp])]
      exact onPort_ne_none hmem hport
  · rw [if_neg hs, if_pos hp]
    exact onPort_ne_none hc hport

end Lager.Device
