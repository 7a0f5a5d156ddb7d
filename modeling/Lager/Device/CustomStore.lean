import Lager.Device.Address
import Lager.Py.Number

/-!
# The store of custom devices

`devices/custom_store.py`: which instrument the user says is behind a USB-serial cable. A record is found for a live
cable by the serial where it has one, else by the port. Every record is found again through the address that is built
for it (`instrumentForAddress_addressFor`).
-/

namespace Lager.Device

open Lager.Py Lager.Py.Url

/-- A stored assignment, as `add` writes one. -/
structure Assignment where
  instrument : String
  vid : HexId
  pid : HexId
  serial : Option Name
  portPath : Option Name
  baud : Option Int
  pinned : serial.isSome ∨ portPath.isSome
  deriving DecidableEq

namespace Assignment

/-- The cable of a record: by its serial where there is one, else by the port. -/
def cable (r : Assignment) : CableId where
  vid := r.vid
  pid := r.pid
  pin :=
    match r.serial, r.portPath, r.pinned with
    | some serial, _, _ => .serial serial
    | none, some port, _ => .port port
    | none, none, h => absurd h (by simp)

end Assignment

/-- `_norm` -/
def norm (value : String) : Option String := given (some (lower (String.ofList (strip value.toList))))

/-- Whether a record that has a serial is for this serial, and one without is for this port. -/
def pinMatches (serial portPath : Option String) (r : Assignment) : Bool :=
  match r.serial, r.portPath with
  | some own, _ => decide (given serial = some own.text)
  | none, some own => decide (given portPath = some own.text)
  | none, none => false

/-- The tests that `record_for` makes of one record. -/
def recordMatches (vid pid : String) (serial portPath : Option String) (r : Assignment) : Bool :=
  if norm r.vid.text ≠ norm vid ∨ norm r.pid.text ≠ norm pid then false else pinMatches serial portPath r

/-- `record_for` -/
def recordFor (store : List Assignment) (vid pid : String) (serial portPath : Option String) : Option Assignment :=
  store.find? (recordMatches vid pid serial portPath)

/-- `resolve` -/
def resolve (store : List Assignment) (vid pid : String) (serial portPath : Option String) : Option String :=
  (recordFor store vid pid serial portPath).map Assignment.instrument

/-- `instrument_for_address` -/
def instrumentForAddress (store : List Assignment) (address : String) : Option String :=
  (parseAddress address).bind fun parts => resolve store parts.vid parts.pid parts.serial parts.portPath

/-- `address_for` -/
def addressFor (r : Assignment) : Option String :=
  makeAddress r.vid.text r.pid.text (r.serial.map Name.text) (r.portPath.map Name.text)

/-! ### Changing the store -/

/-- The keys of `DEVICE_CATALOG`. -/
def deviceCatalog : List String := ["Rigol_DP711"]

/-- `canonical_name`. A list or a dict is no key of a dict, and only a text has a `strip`. -/
def canonicalName (lower : String → String) (name : Json) : Except PyErr (Option String) :=
  if name.truthy then
    match name with
    | .str s =>
      if s ∈ deviceCatalog then .ok (some s)
      else .ok (deviceCatalog.find? fun key => lower key = lower (String.ofList (strip s.toList)))
    | .arr _ => .error .typeError
    | .obj _ => .error .typeError
    | _ => .error .attributeError
  else .ok none

/-- `_identity_key` -/
def Assignment.key (r : Assignment) : Option String × Option String × Option Name × Option Name :=
  (norm r.vid.text, norm r.pid.text, r.serial, r.portPath)

/-- `rec["baud"] = int(baud)`, unless it is `None`. -/
def baudOf (baud : Json) : Except PyErr (Option Int) :=
  if baud = .null then .ok none else (intOf baud).map some

/-- `add`: the record that is stored and the store. -/
def add (lower : String → String) (instrument : String) (vid pid : HexId) (serial portPath : Option Name) (baud : Json)
    (store : List Assignment) : Except PyErr (Assignment × List Assignment) :=
  match canonicalName lower (.str instrument) with
  | .error e => .error e
  | .ok none => .error .valueError
  | .ok (some canonical) =>
    if h : serial.isSome ∨ portPath.isSome then
      match baudOf baud with
      | .error e => .error e
      | .ok baud =>
        let stored : Assignment := ⟨canonical, vid.lowered, pid.lowered, serial, portPath, baud, h⟩
        .ok (stored, store.filter (fun r => r.key ≠ stored.key) ++ [stored])
    else .error .valueError

/-- `remove` of the records with the key of this one. -/
def remove (target : Assignment) (store : List Assignment) : List Assignment :=
  store.filter fun r => r.key ≠ target.key

/-! ### Every record is found through its address -/

theorem strip_hexId (x : HexId) : strip x.text.toList = x.text.toList := by
  apply strip_eq
  intro c hc
  have hbounds := isHex_bounds (List.all_eq_true.mp x.hex c hc)
  apply isSpace_printing
  omega

theorem norm_hexId (x : HexId) : norm x.text = some (lower x.text) := by
  have hne : lower x.text ≠ "" := by
    intro h
    have hlength := x.lowered.length_eq
    rw [show x.lowered.text = "" from h] at hlength
    cases hlength
  rw [norm, strip_hexId, String.ofList_toList, given, Option.filter_some, if_pos (decide_eq_true hne)]

theorem norm_lower (x : HexId) : norm (lower x.text) = some (lower x.text) :=
  (norm_hexId x.lowered).trans (congrArg some (lower_lowered x))

theorem addressFor_eq (r : Assignment) : addressFor r = r.cable.address := by
  obtain ⟨instrument, vid, pid, serial, portPath, baud, pinned⟩ := r
  cases serial with
  | some serial =>
    rw [addressFor, makeAddress, Option.map_some, given_name]
    exact (address_serial vid pid serial).symm
  | none =>
    cases portPath with
    | some port => rfl
    | none => exact absurd pinned (by simp)

theorem pinMatches_iff (c : CableId) (r : Assignment) :
    pinMatches c.serial c.portPath r = true ↔ r.cable.serial = c.serial ∧ r.cable.portPath = c.portPath := by
  obtain ⟨instrument, vid, pid, serial, portPath, baud, pinned⟩ := r
  obtain ⟨vid', pid', pin⟩ := c
  have hname : ∀ own name : Name, decide (given (some name.text) = some own.text) = true ↔
      (some own.text = some name.text) := fun own name => by
    rw [given_name, decide_eq_true_eq, eq_comm]
  have hnone : ∀ own : Name, decide (given none = some own.text) = true ↔ False := fun own => by
    rw [decide_eq_true_eq]
    exact ⟨nofun, False.elim⟩
  cases serial with
  | some own =>
    cases pin with
    | serial name => exact (hname own name).trans ⟨fun h => ⟨h, rfl⟩, And.left⟩
    | port name => exact (hnone own).trans ⟨False.elim, fun h => nomatch h.1⟩
  | none =>
    cases portPath with
    | some own =>
      cases pin with
      | serial name => exact (hnone own).trans ⟨False.elim, fun h => nomatch h.1⟩
      | port name => exact (hname own name).trans ⟨fun h => ⟨rfl, h⟩, And.right⟩
    | none => exact absurd pinned (by simp)

/-- A record is found for a cable when it is the record of that cable. -/
theorem recordMatches_iff (c : CableId) (r : Assignment) :
    recordMatches (lower c.vid.text) (lower c.pid.text) c.serial c.portPath r = true ↔ r.cable.parts = c.parts := by
  have hids : ¬(norm r.vid.text ≠ norm (lower c.vid.text) ∨ norm r.pid.text ≠ norm (lower c.pid.text)) ↔
      lower r.vid.text = lower c.vid.text ∧ lower r.pid.text = lower c.pid.text := by
    rw [norm_lower, norm_lower, norm_hexId, norm_hexId, not_or, not_not, not_not, Option.some_inj, Option.some_inj]
  have hparts : r.cable.parts = c.parts ↔ (lower r.vid.text = lower c.vid.text ∧ lower r.pid.text = lower c.pid.text) ∧
      r.cable.serial = c.serial ∧ r.cable.portPath = c.portPath := by
    rw [CableId.parts, CableId.parts, AddressParts.mk.injEq, and_assoc]
    rfl
  rw [recordMatches, hparts, ← hids]
  split_ifs with hother
  · exact ⟨nofun, fun h => absurd hother h.1⟩
  · rw [pinMatches_iff]
    exact ⟨fun h => ⟨hother, h⟩, And.right⟩

theorem recordFor_cable {store : List Assignment} {r : Assignment} (hr : r ∈ store) :
    ∃ r' ∈ store, r'.cable.parts = r.cable.parts ∧
      recordFor store (lower r.vid.text) (lower r.pid.text) r.cable.serial r.cable.portPath = some r' := by
  have hsome : (recordFor store (lower r.vid.text) (lower r.pid.text) r.cable.serial r.cable.portPath).isSome := by
    rw [recordFor, List.find?_isSome]
    exact ⟨r, hr, (recordMatches_iff r.cable r).mpr rfl⟩
  obtain ⟨r', hfound⟩ := Option.isSome_iff_exists.mp hsome
  have hmatch := List.find?_some hfound
  exact ⟨r', List.mem_of_find?_eq_some hfound, (recordMatches_iff r.cable r').mp hmatch, hfound⟩

theorem instrumentForAddress_addressFor {store : List Assignment} {r : Assignment} (hr : r ∈ store) :
    ∃ r' ∈ store, r'.cable.parts = r.cable.parts ∧
      (addressFor r).bind (instrumentForAddress store) = some r'.instrument := by
  obtain ⟨r', hr', hsame, hfound⟩ := recordFor_cable hr
  refine ⟨r', hr', hsame, ?_⟩
  obtain ⟨address, haddress, hparse⟩ := Option.bind_eq_some_iff.mp (parseAddress_address r.cable)
  rw [addressFor_eq, haddress, Option.bind_some, instrumentForAddress, hparse, Option.bind_some, resolve]
  exact congrArg (Option.map Assignment.instrument) hfound

/-! ### The reader of the run record -/

theorem serialFromAddress_address (vid pid : HexId) (serial : Name) :
    (CableId.address ⟨vid, pid, .serial serial⟩).bind serialFromAddress =
      some (String.ofList (quote serial.text.toList), "usb-adapter") := by
  rw [address_serial, Option.bind_some, serialFromAddress_serial]

/-- **The readers of an address recover the identity; the run record's does so for the serials with nothing to
escape.** The other readers take the escapes back, so they recover any serial and any port. -/
theorem address_readers (store : List Assignment) :
    (∀ c : CableId, c.address.bind parseAddress = some c.parts) ∧
      (∀ c d : CableId, c.address = d.address ↔ c.parts = d.parts) ∧
      (∀ r ∈ store, ∃ r' ∈ store, r'.cable.parts = r.cable.parts ∧
        (addressFor r).bind (instrumentForAddress store) = some r'.instrument) ∧
      ∀ (vid pid : HexId) (serial : Name),
        (CableId.address ⟨vid, pid, .serial serial⟩).bind serialFromAddress = some (serial.text, "usb-adapter") ↔
          ∀ c ∈ serial.text.toList, isAlwaysSafe c = true := by
  refine ⟨parseAddress_address, address_eq_iff, fun r hr => instrumentForAddress_addressFor hr, ?_⟩
  intro vid pid serial
  rw [serialFromAddress_address, ← quote_eq_self_iff, Option.some_inj, Prod.mk.injEq]
  constructor
  · intro h
    have hquote := congrArg String.toList h.1
    rwa [String.toList_ofList] at hquote
  · intro h
    rw [h, String.ofList_toList]
    exact ⟨rfl, rfl⟩

/-- The store with one cable in it, of a Rigol DP711. -/
def rigolCable : Assignment where
  instrument := "Rigol_DP711"
  vid := ⟨"067b", by decide, by decide⟩
  pid := ⟨"23a3", by decide, by decide⟩
  serial := some ⟨"A B", by decide⟩
  portPath := none
  baud := none
  pinned := Or.inl rfl

theorem address_readers_rigol :
    (∀ r ∈ [rigolCable], ∃ r' ∈ [rigolCable], r'.cable.parts = r.cable.parts ∧
      (addressFor r).bind (instrumentForAddress [rigolCable]) = some r'.instrument) :=
  (address_readers [rigolCable]).2.2.1

/-- A serial with a blank in it: the run record names `A%20B`. -/
theorem serial_not_recovered : ¬∀ (vid pid : HexId) (serial : Name),
    (CableId.address ⟨vid, pid, .serial serial⟩).bind serialFromAddress = some (serial.text, "usb-adapter") := by
  intro h
  have hblank := h rigolCable.vid rigolCable.pid ⟨"A B", by decide⟩
  rw [serialFromAddress_address] at hblank
  exact absurd hblank (by decide)

end Lager.Device
