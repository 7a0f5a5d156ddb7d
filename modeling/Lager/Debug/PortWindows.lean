import Lager.Debug.GdbServer
import Lager.Lib.Rank
import Lager.Py.Json
import Lager.Py.Loads

/-!
# The port windows of the debug probes

`_resolve_probe` of `debug/service.py` with `parse_probe_serial`, `compute_slot` and the ports of `debug/probes.py`. The
serials are collected over the debug nets, so a probe with several nets is counted as often, and the slot of a probe is
the number of debug nets whose probe has a smaller serial (`slot_eq_rank`). Slots that differ and stay below
`MAX_SLOTS` have no port in common; a fifth slot has ports of its own too, but it is no slot that the box plans with.

The saved nets are what `get_nets_cache().get_nets()` returns, a list of dicts.
-/

namespace Lager.Debug.GdbServer

open Lager.Lib Lager.Py

/-! ### The serial in an address -/

/-- `re.IGNORECASE` for one letter of `USB` and `INSTR`: the long s folds to `s`, two more letters to `i`. -/
def foldsTo (pattern c : Char) : Bool :=
  c.toLower == pattern.toLower || (pattern == 'S' && c.toNat == 0x17f) ||
    (pattern == 'I' && (c.toNat == 0x130 || c.toNat == 0x131))

/-- The letters of the pattern in any case, and the rest of the text. -/
def afterLetters : Text → Text → Option Text
  | [], text => some text
  | _ :: _, [] => none
  | p :: pattern, c :: text => if foldsTo p c then afterLetters pattern text else none

/-- `::0x([0-9A-Fa-f]+)`, and the rest of the text. -/
def afterHex (text : Text) : Option Text := do
  let text ← afterLetters "::0x".toList text
  if text.head?.any fun c => (hexDigit? c).isSome then some (text.dropWhile fun c => (hexDigit? c).isSome) else none

/-- The serial of `_VISA_RE.match(address)`. -/
def visaSerial (address : Text) : Option Text := do
  let text ← afterLetters "USB".toList address
  let text ← afterHex (text.dropWhile fun c => (digitOf c).isSome)
  let text ← afterHex text
  let text ← afterLetters "::".toList text
  let serial := text.takeWhile (· ≠ ':')
  let _ ← afterLetters "::INSTR".toList (text.drop serial.length)
  some serial

/-- `parse_probe_serial` -/
def parseProbeSerial (address : Json) : Option Text :=
  match address with
  | .str address => ((visaSerial (strip address.toList)).map strip).filter (· ≠ [])
  | _ => none

/-! ### The resolution of a probe -/

/-- What `_resolve_probe` reads of a saved net. -/
def savedNet (net : Dict) : SavedNet where
  name := match Dict.get net "name" with
    | .str name => name
    | _ => ""
  role := match Dict.get net "role" with
    | .str role => role
    | _ => ""
  serial := parseProbeSerial (Dict.get net "address")

/-- What `_resolve_probe` returns. -/
structure Resolved where
  serial : Option Text
  slot : Nat
  gdbPort : Nat
  swoPort : Nat
  telnetPort : Nat
  rttPort : Nat
  deriving DecidableEq

def resolveProbe (saved : List Dict) (net : Dict) : Resolved :=
  let serial := parseProbeSerial (Dict.get net "address")
  let slot := match serial with
    | some serial => computeSlot serial (allSerials (saved.map savedNet))
    | none => 0
  ⟨serial, slot, gdbPortForSlot slot, swoPortForSlot slot, telnetPortForSlot slot, rttPortForSlot slot⟩

def MAX_SLOTS : Nat := 4

def openocdTelnetPortForSlot (slot : Nat) : Nat := 4444 + slot
def openocdTclPortForSlot (slot : Nat) : Nat := 6666 + slot

/-- The ports of a probe, with both RTT channels and those of `_openocd_ports_for_slot`. -/
def Resolved.ports (r : Resolved) : List Nat :=
  [r.gdbPort, r.swoPort, r.telnetPort, r.rttPort, r.rttPort + 1, openocdTelnetPortForSlot r.slot,
    openocdTclPortForSlot r.slot]

/-! ### Windows -/

/-- The serials of the debug nets, one for each net. -/
def serials (saved : List Dict) : List Text := allSerials (saved.map savedNet)

/-- A debug net and the serial of its probe. -/
def OfProbe (saved : List Dict) (net : Dict) (serial : Text) : Prop :=
  net ∈ saved ∧ (savedNet net).role = "debug" ∧ parseProbeSerial (Dict.get net "address") = some serial

/-- Every probe has one slot, below `MAX_SLOTS`, and no slot or port in common with another probe. -/
structure Windows (saved : List Dict) : Prop where
  bounded : ∀ net serial, OfProbe saved net serial → (resolveProbe saved net).slot < MAX_SLOTS
  same : ∀ net net' serial, OfProbe saved net serial → OfProbe saved net' serial →
    (resolveProbe saved net).slot = (resolveProbe saved net').slot
  apart : ∀ net net' serial serial', OfProbe saved net serial → OfProbe saved net' serial' → serial ≠ serial' →
    (resolveProbe saved net).slot ≠ (resolveProbe saved net').slot
  ports : ∀ net net' serial serial', OfProbe saved net serial → OfProbe saved net' serial' → serial ≠ serial' →
    ∀ p ∈ (resolveProbe saved net).ports, ∀ q ∈ (resolveProbe saved net').ports, p ≠ q

section Slots

variable {saved : List Dict} {net net' : Dict} {serial serial' : Text}

theorem parseProbeSerial_ne_nil {address : Json} (h : parseProbeSerial address = some serial) : serial ≠ [] := by
  unfold parseProbeSerial at h
  split at h
  · exact of_decide_eq_true (Option.filter_eq_some_iff.mp h).2
  · cases h

theorem mem_serials : serial ∈ serials saved ↔ ∃ net, OfProbe saved net serial := by
  unfold serials allSerials OfProbe
  constructor
  · intro h
    obtain ⟨_, hmem, hserial⟩ := List.mem_filterMap.mp h
    obtain ⟨net, hnet, rfl⟩ := List.mem_map.mp hmem
    split_ifs at hserial with hrole
    exact ⟨net, hnet, hrole, hserial⟩
  · rintro ⟨net, hnet, hrole, hserial⟩
    refine List.mem_filterMap.mpr ⟨savedNet net, List.mem_map_of_mem hnet, ?_⟩
    rw [if_pos hrole]
    exact hserial

/-- The slot of a probe: the number of debug nets whose probe has a smaller serial. -/
theorem slot_eq_rank (h : OfProbe saved net serial) : (resolveProbe saved net).slot = rank (serials saved) serial := by
  have hmem : serial ∈ serials saved := mem_serials.mpr ⟨net, h⟩
  have hall : (serials saved).filter (· ≠ []) = serials saved := by
    rw [List.filter_eq_self]
    intro s hs
    obtain ⟨n, -, -, hn⟩ := mem_serials.mp hs
    exact decide_eq_true (parseProbeSerial_ne_nil hn)
  have hslot : (resolveProbe saved net).slot = computeSlot serial (serials saved) := by
    simp only [resolveProbe, h.2.2]
    rfl
  rw [hslot, computeSlot, hall, if_pos ((List.mem_insertionSort _).mpr hmem)]
  exact idxOf_insertionSort hmem

theorem mem_ports {r : Resolved} {p : Nat} (hgdb : r.gdbPort = gdbPortForSlot r.slot)
    (hswo : r.swoPort = swoPortForSlot r.slot) (htelnet : r.telnetPort = telnetPortForSlot r.slot)
    (hrtt : r.rttPort = rttPortForSlot r.slot) (h : p ∈ r.ports) :
    (2331 + r.slot * 3 ≤ p ∧ p < 2331 + r.slot * 3 + 3) ∨ (9090 + r.slot * 2 ≤ p ∧ p < 9090 + r.slot * 2 + 2) ∨
      p = 4444 + r.slot ∨ p = 6666 + r.slot := by
  simp only [Resolved.ports, List.mem_cons, List.not_mem_nil, or_false, hgdb, hswo, htelnet, hrtt, gdbPortForSlot,
    swoPortForSlot, telnetPortForSlot, rttPortForSlot, openocdTelnetPortForSlot, openocdTclPortForSlot] at h
  omega

/-- Two slots that the box plans with have no port in common. -/
theorem ports_apart (hbound : (resolveProbe saved net).slot < MAX_SLOTS)
    (hbound' : (resolveProbe saved net').slot < MAX_SLOTS)
    (hne : (resolveProbe saved net).slot ≠ (resolveProbe saved net').slot) :
    ∀ p ∈ (resolveProbe saved net).ports, ∀ q ∈ (resolveProbe saved net').ports, p ≠ q := by
  intro p hp q hq
  have hp := mem_ports rfl rfl rfl rfl hp
  have hq := mem_ports rfl rfl rfl rfl hq
  unfold MAX_SLOTS at hbound hbound'
  omega

/-- **Port windows.** Every probe has a window of its own exactly where each has fewer than `MAX_SLOTS` debug nets of
probes with smaller serials. -/
theorem windows_iff (saved : List Dict) :
    Windows saved ↔ ∀ serial ∈ serials saved, rank (serials saved) serial < MAX_SLOTS := by
  constructor
  · intro hwindows serial hserial
    obtain ⟨net, hnet⟩ := mem_serials.mp hserial
    have hslot := hwindows.bounded net serial hnet
    rwa [slot_eq_rank hnet] at hslot
  · intro hfew
    have hbounded : ∀ net serial, OfProbe saved net serial → (resolveProbe saved net).slot < MAX_SLOTS := by
      intro net serial hnet
      rw [slot_eq_rank hnet]
      exact hfew serial (mem_serials.mpr ⟨net, hnet⟩)
    have hapart : ∀ net net' serial serial', OfProbe saved net serial → OfProbe saved net' serial' →
        serial ≠ serial' → (resolveProbe saved net).slot ≠ (resolveProbe saved net').slot := by
      intro net net' serial serial' hnet hnet' hne hslot
      rw [slot_eq_rank hnet, slot_eq_rank hnet'] at hslot
      exact hne (rank_inj (mem_serials.mpr ⟨net, hnet⟩) (mem_serials.mpr ⟨net', hnet'⟩) hslot)
    refine ⟨hbounded, fun net net' serial hnet hnet' => ?_, hapart, fun net net' serial serial' hnet hnet' hne => ?_⟩
    · rw [slot_eq_rank hnet, slot_eq_rank hnet']
    · exact ports_apart (hbounded net serial hnet) (hbounded net' serial' hnet')
        (hapart net net' serial serial' hnet hnet' hne)

/-- Up to `MAX_SLOTS` debug nets are always few enough. -/
theorem windows_of_few (hfew : (serials saved).length ≤ MAX_SLOTS) : Windows saved := by
  rw [windows_iff]
  intro serial hserial
  have hbelow : rank (serials saved) serial < (serials saved).length := by
    refine lt_of_le_of_ne List.countP_le_length fun hall => ?_
    have hlt := List.countP_eq_length.mp hall serial hserial
    simp at hlt
  omega

end Slots

/-! ### Two probes, five nets -/

def debugNet (serial : String) : Dict :=
  [("role", .str "debug"), ("address", .str ("USB0::0x1366::0x0101::" ++ serial ++ "::INSTR"))]

/-- Four cores behind one probe, one behind the other. -/
def fourCores : List Dict := List.replicate 4 (debugNet "A") ++ [debugNet "B"]

/-- The second of two probes gets slot 4. -/
theorem fourCores_slot : ¬∀ saved, (serials saved).dedup.length ≤ MAX_SLOTS → Windows saved := by
  intro h
  have hserials : serials fourCores = [['A'], ['A'], ['A'], ['A'], ['B']] := by decide +kernel
  have hwindows := h fourCores (by rw [hserials]; decide)
  have hfew := (windows_iff fourCores).mp hwindows ['B'] (by rw [hserials]; decide)
  rw [hserials] at hfew
  exact absurd hfew (by decide)

end Lager.Debug.GdbServer
