import Lager.Blufi.Frames
import Lager.Py.Text

/-!
# The list of networks that a device has found

`parseWifiScanList` reads entries of a length byte, a signal strength and a name until the data ends or an entry is
malformed, and then wakes the caller of `requestDeviceWifiScan`. Data that ends right behind a length byte stops it
before that: `struct.unpack` of no byte raises, and `parseDataData` only logs what was raised.
-/

namespace Lager.Blufi

open Lager.Py (decode encode decode_encode)

structure ScanEntry where
  ssid : List Char
  rssi : Int8
  deriving DecidableEq

/-- What a scan leaves in the client. -/
structure ScanState where
  ssidList : List ScanEntry
  ssidListEvent : Bool
  deriving DecidableEq

/-- A name that is UTF-8 is added to the list, another only logged. -/
def addEntry (ssidList : List ScanEntry) (ssidBytes : Bytes) (rssi : UInt8) : List ScanEntry :=
  match decode ssidBytes with
  | some ssid => ssidList ++ [⟨ssid, rssi.toInt8⟩]
  | none => ssidList

/-- The loop of `parseWifiScanList`, at what is left in `dataReader`. -/
def scanLoop (dataReader : Bytes) (readLeft : Int) (ssidList : List ScanEntry) :
    Except Raised Unit × List ScanEntry :=
  if readLeft ≤ 0 then (.ok (), ssidList)
  else match dataReader with
    | [] => (.error .indexError, ssidList)
    | length :: dataReader =>
      if length.toNat < 1 then (.ok (), ssidList)
      else match dataReader with
        | [] => (.error .structError, ssidList)
        | rssi :: dataReader =>
          let ssidBytes := dataReader.take (length.toNat - 1)
          if ssidBytes.length ≠ length.toNat - 1 then (.ok (), ssidList)
          else scanLoop (dataReader.drop (length.toNat - 1)) (readLeft - 1 - length.toNat)
            (addEntry ssidList ssidBytes rssi)
termination_by dataReader.length

def parseWifiScanList (s : ScanState) (data : Bytes) : Except Raised Unit × ScanState :=
  match scanLoop data data.length [] with
  | (.ok (), ssidList) => (.ok (), ⟨ssidList, true⟩)
  | (.error e, ssidList) => (.error e, { s with ssidList })

/-! ### Entries -/

/-- The bytes of an entry: the signal strength, and a name that fits its length byte. -/
structure RawEntry where
  rssi : UInt8
  ssidBytes : Bytes
  fits : ssidBytes.length ≤ 254

namespace RawEntry

def bytes (r : RawEntry) : Bytes := UInt8.ofNat (r.ssidBytes.length + 1) :: r.rssi :: r.ssidBytes

/-- The entry, where its name is UTF-8. -/
def entry (r : RawEntry) : Option ScanEntry := (decode r.ssidBytes).map fun ssid => ⟨ssid, r.rssi.toInt8⟩

theorem toNat_length (r : RawEntry) : (UInt8.ofNat (r.ssidBytes.length + 1)).toNat = r.ssidBytes.length + 1 := by
  have hfits := r.fits
  rw [UInt8.toNat_ofNat']
  omega

theorem addEntry_eq (r : RawEntry) (ssidList : List ScanEntry) :
    addEntry ssidList r.ssidBytes r.rssi = ssidList ++ r.entry.toList := by
  unfold addEntry entry
  cases decode r.ssidBytes with
  | none => exact (List.append_nil _).symm
  | some ssid => rfl

end RawEntry

/-- The first entry is malformed, or there is none: its length is zero, or there are fewer bytes than it says. -/
def Malformed : Bytes → Prop
  | [] => True
  | length :: rest => length.toNat = 0 ∨ rest.length < length.toNat

/-- An entry in front is read, and the loop goes on behind it. -/
theorem scanLoop_entry (r : RawEntry) (rest : Bytes) (ssidList : List ScanEntry) :
    scanLoop (r.bytes ++ rest) (r.bytes ++ rest).length ssidList =
      scanLoop rest rest.length (ssidList ++ r.entry.toList) := by
  have hlength := r.toNat_length
  have hleft : (((r.bytes ++ rest).length : Nat) : Int) - 1 - ((r.ssidBytes.length + 1 : Nat) : Int) = rest.length := by
    unfold RawEntry.bytes
    simp only [List.length_append, List.length_cons]
    omega
  have hpos : ¬(((r.bytes ++ rest).length : Nat) : Int) ≤ 0 := by
    unfold RawEntry.bytes
    simp only [List.length_append, List.length_cons]
    omega
  rw [scanLoop.eq_def, if_neg hpos]
  unfold RawEntry.bytes at hleft ⊢
  dsimp only [List.cons_append]
  have htake : (r.ssidBytes ++ rest).take (r.ssidBytes.length + 1 - 1) = r.ssidBytes := List.take_left
  have hdrop : (r.ssidBytes ++ rest).drop (r.ssidBytes.length + 1 - 1) = rest := List.drop_left
  rw [hlength, if_neg (by omega), htake, hdrop, if_neg (by omega), r.addEntry_eq]
  exact congrArg (fun n => scanLoop rest n (ssidList ++ r.entry.toList)) hleft

theorem scanLoop_entries (raws : List RawEntry) (rest : Bytes) (ssidList : List ScanEntry) :
    scanLoop (raws.flatMap RawEntry.bytes ++ rest) (raws.flatMap RawEntry.bytes ++ rest).length ssidList =
      scanLoop rest rest.length (ssidList ++ raws.filterMap RawEntry.entry) := by
  induction raws generalizing ssidList with
  | nil => rw [List.filterMap_nil, List.append_nil, List.flatMap_nil, List.nil_append]
  | cons r raws ih =>
    rw [List.flatMap_cons, List.append_assoc, scanLoop_entry, ih, List.append_assoc]
    congr 2
    rw [List.filterMap_cons]
    cases r.entry with
    | none => rfl
    | some e => rfl

/-- Behind the last complete entry the loop stops, and raises where there is a length byte and nothing else. -/
theorem scanLoop_malformed {rest : Bytes} (h : Malformed rest) (ssidList : List ScanEntry) :
    (scanLoop rest rest.length ssidList).2 = ssidList ∧
      ((scanLoop rest rest.length ssidList).1 = .ok () ↔ ¬∃ length, rest = [length] ∧ length.toNat ≠ 0) := by
  match rest, h with
  | [], _ =>
    rw [scanLoop.eq_def, if_pos (by simp)]
    exact ⟨rfl, fun _ ⟨_, h, _⟩ => List.cons_ne_nil _ _ h.symm, fun _ => rfl⟩
  | length :: tail, h =>
    have hpos : ¬((((length :: tail).length : Nat) : Int) ≤ 0) := by
      rw [List.length_cons]
      omega
    rw [scanLoop.eq_def, if_neg hpos]
    dsimp only
    by_cases hzero : length.toNat < 1
    · rw [if_pos hzero]
      refine ⟨rfl, fun _ ⟨l, hl, hne⟩ => ?_, fun _ => rfl⟩
      cases hl
      omega
    · rw [if_neg hzero]
      match tail, h with
      | [], _ => exact ⟨rfl, nofun, fun hsevered => absurd ⟨length, rfl, by omega⟩ hsevered⟩
      | rssi :: tail, h =>
        have hshort : (tail.take (length.toNat - 1)).length ≠ length.toNat - 1 := by
          have hlen : (rssi :: tail).length < length.toNat := h.resolve_left (by omega)
          rw [List.length_cons] at hlen
          rw [List.length_take]
          omega
        dsimp only
        rw [if_pos hshort]
        refine ⟨rfl, fun _ ⟨l, hl, _⟩ => ?_, fun _ => rfl⟩
        exact List.cons_ne_nil _ _ (List.cons.inj hl).2

/-- Data is complete entries and what is behind the last of them. -/
theorem exists_entries (data : Bytes) :
    ∃ (raws : List RawEntry) (rest : Bytes), data = raws.flatMap RawEntry.bytes ++ rest ∧ Malformed rest := by
  induction hn : data.length using Nat.strong_induction_on generalizing data with
  | _ n ih =>
    by_cases hmal : Malformed data
    · exact ⟨[], data, rfl, hmal⟩
    match data, hmal with
    | [], hmal => exact absurd trivial hmal
    | length :: tail, hmal =>
      have hne : length.toNat ≠ 0 := fun h => hmal (Or.inl h)
      have hlen : length.toNat ≤ tail.length := not_lt.mp fun h => hmal (Or.inr h)
      match tail, hlen with
      | [], hlen => exact absurd hlen (by simp only [List.length_nil]; omega)
      | rssi :: tail, hlen =>
        rw [List.length_cons] at hlen
        have htake : (tail.take (length.toNat - 1)).length = length.toNat - 1 := by
          rw [List.length_take]
          omega
        have hbound := length.toNat_lt
        let r : RawEntry := ⟨rssi, tail.take (length.toNat - 1), by omega⟩
        have hbytes : r.bytes = length :: rssi :: tail.take (length.toNat - 1) := by
          unfold RawEntry.bytes
          have hfirst : UInt8.ofNat (r.ssidBytes.length + 1) = length := by
            show UInt8.ofNat ((tail.take (length.toNat - 1)).length + 1) = length
            rw [htake, Nat.sub_add_cancel (by omega), UInt8.ofNat_toNat]
          rw [hfirst]
        obtain ⟨raws, rest, heq, hrest⟩ := ih (tail.drop (length.toNat - 1)).length
          (by simp only [List.length_drop, List.length_cons] at hn ⊢; omega) _ rfl
        refine ⟨r :: raws, rest, ?_, hrest⟩
        rw [List.flatMap_cons, hbytes, List.append_assoc, ← heq, List.cons_append, List.cons_append,
          List.take_append_drop]

/-! ### What the caller of a scan gets -/

/-- An entry as a device writes it. -/
def encodeEntry (e : ScanEntry) : Bytes :=
  UInt8.ofNat ((encode e.ssid).length + 1) :: e.rssi.toUInt8 :: encode e.ssid

/-- The scan returns with the entries in front of the first malformed one, and wakes who waits for it. -/
def Parsed (s : ScanState) (data : Bytes) : Prop :=
  (parseWifiScanList s data).1 = .ok () ∧ (parseWifiScanList s data).2.ssidListEvent = true ∧
    ∃ (raws : List RawEntry) (rest : Bytes), data = raws.flatMap RawEntry.bytes ++ rest ∧ Malformed rest ∧
      (parseWifiScanList s data).2.ssidList = raws.filterMap RawEntry.entry

/-- The data ends with the length byte of an entry that has not begun. -/
def Severed (data : Bytes) : Prop :=
  ∃ (raws : List RawEntry) (length : UInt8), data = raws.flatMap RawEntry.bytes ++ [length] ∧ length.toNat ≠ 0

/-- What the scan gives of data whose complete entries are known. -/
theorem parseWifiScanList_entries (s : ScanState) {raws : List RawEntry} {rest : Bytes} (h : Malformed rest) :
    (parseWifiScanList s (raws.flatMap RawEntry.bytes ++ rest)).2.ssidList = raws.filterMap RawEntry.entry ∧
      ((¬∃ length, rest = [length] ∧ length.toNat ≠ 0) →
        parseWifiScanList s (raws.flatMap RawEntry.bytes ++ rest) = (.ok (), ⟨raws.filterMap RawEntry.entry, true⟩)) ∧
      ((parseWifiScanList s (raws.flatMap RawEntry.bytes ++ rest)).1 = .ok () →
        ¬∃ length, rest = [length] ∧ length.toNat ≠ 0) := by
  obtain ⟨hlist, hraises⟩ := scanLoop_malformed h (raws.filterMap RawEntry.entry)
  unfold parseWifiScanList
  rw [scanLoop_entries, List.nil_append]
  generalize scanLoop rest rest.length (raws.filterMap RawEntry.entry) = r at hlist hraises
  obtain ⟨result, ssidList⟩ := r
  dsimp only at hlist hraises
  subst hlist
  cases result with
  | ok u => exact ⟨rfl, fun _ => rfl, fun _ => hraises.mp rfl⟩
  | error e => exact ⟨rfl, fun hrest => absurd (hraises.mpr hrest) nofun, nofun⟩

theorem entry_bytes {e : ScanEntry} (h : (encode e.ssid).length ≤ 254) :
    encodeEntry e = (RawEntry.mk e.rssi.toUInt8 (encode e.ssid) h).bytes ∧
      (RawEntry.mk e.rssi.toUInt8 (encode e.ssid) h).entry = some e := by
  refine ⟨rfl, ?_⟩
  unfold RawEntry.entry
  rw [decode_encode, Option.map_some, Int8.toInt8_toUInt8]

theorem exists_raws {entries : List ScanEntry} (h : ∀ e ∈ entries, (encode e.ssid).length ≤ 254) :
    ∃ raws : List RawEntry, entries.flatMap encodeEntry = raws.flatMap RawEntry.bytes ∧
      raws.filterMap RawEntry.entry = entries := by
  induction entries with
  | nil => exact ⟨[], rfl, rfl⟩
  | cons e entries ih =>
    obtain ⟨raws, hbytes, hentries⟩ := ih fun e' he' => h e' (List.mem_cons_of_mem e he')
    obtain ⟨he, hentry⟩ := entry_bytes (h e List.mem_cons_self)
    refine ⟨⟨e.rssi.toUInt8, encode e.ssid, h e List.mem_cons_self⟩ :: raws, ?_, ?_⟩
    · rw [List.flatMap_cons, List.flatMap_cons, he, hbytes]
    · rw [List.filterMap_cons, hentry, hentries]

/-- **The scan list.** What is encoded is read back; and any other data is read as far as it goes unless it ends right
behind a length byte. -/
theorem scan_list_parsed_iff (s : ScanState) :
    (∀ entries : List ScanEntry, (∀ e ∈ entries, (encode e.ssid).length ≤ 254) →
      parseWifiScanList s (entries.flatMap encodeEntry) = (.ok (), ⟨entries, true⟩)) ∧
      ∀ data, Parsed s data ↔ ¬Severed data := by
  refine ⟨fun entries hfit => ?_, fun data => ⟨?_, fun hsevered => ?_⟩⟩
  · obtain ⟨raws, hbytes, hentries⟩ := exists_raws hfit
    have hread := (@parseWifiScanList_entries s raws [] trivial).2.1 fun ⟨l, hl, _⟩ => nomatch hl
    rw [List.append_nil, hentries, ← hbytes] at hread
    exact hread
  · rintro ⟨hok, -⟩ ⟨raws, length, rfl, hne⟩
    have hmalformed : Malformed [length] := Or.inr (Nat.pos_of_ne_zero hne)
    exact (parseWifiScanList_entries s hmalformed).2.2 hok ⟨length, rfl, hne⟩
  · obtain ⟨raws, rest, rfl, hrest⟩ := exists_entries data
    have hread := (@parseWifiScanList_entries s raws rest hrest).2.1 fun ⟨length, hl, hne⟩ =>
      hsevered ⟨raws, length, by rw [hl], hne⟩
    unfold Parsed
    rw [hread]
    exact ⟨rfl, rfl, raws, rest, rfl, hrest, rfl⟩

/-- One network, with a name that is not ASCII. -/
def network : ScanEntry := ⟨['c', 'a', 'f', 'é'], -40⟩

theorem scan_list_parsed_network :
    parseWifiScanList ⟨[], false⟩ ([network].flatMap encodeEntry) = (.ok (), ⟨[network], true⟩) := by
  have hfits : ∀ e ∈ [network], (encode e.ssid).length ≤ 254 := by decide
  exact (scan_list_parsed_iff ⟨[], false⟩).1 [network] hfits

/-- A scan of one network and one byte more wakes nobody. -/
theorem severed_scan_lost : ¬∀ s data, Parsed s data := by
  intro h
  obtain ⟨hok, -⟩ := h ⟨[], false⟩ (encodeEntry network ++ [5])
  obtain ⟨hbytes, -⟩ := @entry_bytes network (by decide)
  have hmalformed : Malformed [5] := Or.inr (by decide)
  rw [hbytes, ← List.append_nil (RawEntry.bytes _), ← List.flatMap_nil (f := RawEntry.bytes),
    ← List.flatMap_cons] at hok
  exact (parseWifiScanList_entries ⟨[], false⟩ hmalformed).2.2 hok ⟨5, rfl, by decide⟩

end Lager.Blufi
