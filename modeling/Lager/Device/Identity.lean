import Lager.Device.SerialId
import Mathlib.Data.Nat.Digits.Defs

/-!
# A pinned UART resolves to its own device

The USB-serial devices are the elements of a type, so that two units with the same vendor, product and serial
numbers stay two devices. A `Placement` says which of them are live, on which port each is and which tty each of
its interfaces has; `Shows` says that `/sys/class/tty` is what the kernel shows of a placement, next to any ttys
of other kinds. `resolve_identity_own`: a snapshot taken in one placement and resolved in another names a tty of
the device it was taken of, or nothing; only where no serial could be recorded can it be a look-alike on the port.
-/

namespace Lager.Device

open Lager.Py

/-! ### Vendor and product numbers -/

def hexDigit (n : Nat) : Char := "0123456789abcdef".toList.getD n '0'

/-- The kernel's `%04x`. -/
def hex4 (x : BitVec 16) : String :=
  String.ofList [hexDigit (x.toNat / 4096), hexDigit (x.toNat / 256 % 16), hexDigit (x.toNat / 16 % 16),
    hexDigit (x.toNat % 16)]

theorem hexDigit_toLower : ∀ {n : Nat}, n < 16 → (hexDigit n).toLower = hexDigit n := by decide

theorem hexDigit_inj : ∀ {m : Nat}, m < 16 → ∀ {n : Nat}, n < 16 → hexDigit m = hexDigit n → m = n := by decide

theorem hex4_digits (x : BitVec 16) : x.toNat / 4096 < 16 ∧ x.toNat / 256 % 16 < 16 ∧ x.toNat / 16 % 16 < 16 ∧
    x.toNat % 16 < 16 := by
  have hx := x.isLt
  omega

@[simp] theorem lower_hex4 (x : BitVec 16) : lower (hex4 x) = hex4 x := by
  obtain ⟨h3, h2, h1, h0⟩ := hex4_digits x
  simp [lower, hex4, hexDigit_toLower h3, hexDigit_toLower h2, hexDigit_toLower h1, hexDigit_toLower h0]

@[simp] theorem hex4_ne_empty (x : BitVec 16) : hex4 x ≠ "" := by
  intro h
  have hl := congrArg (fun s => s.toList.length) h
  simp [hex4] at hl

theorem hex4_inj {x y : BitVec 16} (h : hex4 x = hex4 y) : x = y := by
  obtain ⟨x3, x2, x1, x0⟩ := hex4_digits x
  obtain ⟨y3, y2, y1, y0⟩ := hex4_digits y
  have hl := congrArg String.toList h
  simp only [hex4, String.toList_ofList, List.cons.injEq, and_true] at hl
  obtain ⟨h3, h2, h1, h0⟩ := hl
  have e3 := hexDigit_inj x3 y3 h3
  have e2 := hexDigit_inj x2 y2 h2
  have e1 := hexDigit_inj x1 y1 h1
  have e0 := hexDigit_inj x0 y0 h0
  apply BitVec.eq_of_toNat_eq
  omega

/-! ### Devices and the bus -/

/-- What a device says of itself. `serial` is the text `_read_sysfs_text` reads, `none` where there is none. -/
structure UsbInfo where
  vid : BitVec 16
  pid : BitVec 16
  serial : Option String
  /-- The interfaces that have a tty. -/
  interfaces : List Nat
  deriving DecidableEq

variable {β : Type} {info : β → UsbInfo}

/-- Where the devices are at one moment. -/
structure Placement (info : β → UsbInfo) where
  /-- `none`: the device is not live. -/
  port : β → Option String
  /-- The tty of an interface of a live device. -/
  tty : β → Nat → String
  port_nonempty : ∀ {d p}, port d = some p → p ≠ ""
  port_inj : ∀ {d e p}, port d = some p → port e = some p → d = e
  tty_usbSerial : ∀ {d i}, port d ≠ none → i ∈ (info d).interfaces → isUsbSerial (tty d i) = true
  tty_inj : ∀ {d e i j}, port d ≠ none → port e ≠ none → i ∈ (info d).interfaces → j ∈ (info e).interfaces →
    tty d i = tty e j → d = e ∧ i = j

/-- The device directory of a device on a port. -/
def usbDir (u : UsbInfo) (port : String) : UsbDir :=
  { name := port, idVendor := hex4 u.vid, idProduct := hex4 u.pid, serial := u.serial }

/-- The entry of one interface of a device. -/
def Placement.entry (pl : Placement info) (d : β) (i : Nat) (port : String) : SysTty :=
  { name := pl.tty d i, usb := some (usbDir (info d) port), interface := some i }

/-- `/sys/class/tty` shows the placement: every interface of every live device has its entry, and there is no
other entry of a USB-serial tty with a USB device above it. -/
structure Shows (sys : List SysTty) (pl : Placement info) : Prop where
  names_nodup : (sys.map SysTty.name).Nodup
  complete : ∀ {d i p}, pl.port d = some p → i ∈ (info d).interfaces → pl.entry d i p ∈ sys
  sound : ∀ {t dir}, t ∈ sys → isUsbSerial t.name = true → t.usb = some dir →
    ∃ d i p, pl.port d = some p ∧ i ∈ (info d).interfaces ∧ t = pl.entry d i p

/-- The same vendor, product and serial. -/
def LooksLike (u v : UsbInfo) : Prop := u.vid = v.vid ∧ u.pid = v.pid ∧ u.serial = v.serial

/-! ### The snapshot -/

/-- A serial that counts as unique is shown by no other live device. -/
theorem unique_of_serialIsUnique {sys : List SysTty} {pl : Placement info} (hsys : Shows sys pl) {d e : β}
    {serial p : String} {i : Nat} (hd : pl.port d = some p) (hds : (info d).serial = some serial)
    (hunique : serialIsUnique sys (hex4 (info d).vid) (hex4 (info d).pid) serial p = true)
    (he : pl.port e ≠ none) (hi : i ∈ (info e).interfaces) (hlike : LooksLike (info e) (info d)) : e = d := by
  obtain ⟨q, hq⟩ := Option.ne_none_iff_exists'.mp he
  by_contra hne
  have hqp : q ≠ p := fun h => hne (pl.port_inj (h ▸ hq) hd)
  obtain ⟨t, ht, husb, dir, hdir, hname, hother⟩ := serialIsUniqueFrom_spec hunique (pl.entry e i q)
    (hsys.complete hq hi) (pl.tty_usbSerial he hi) (usbDir (info e) q) rfl hqp List.not_mem_nil
  obtain ⟨e', i', q', hq', hi', rfl⟩ := hsys.sound ht husb hdir
  obtain rfl := (Option.some.inj hdir)
  -- the directory of that name is the one of `e`
  obtain rfl : q' = q := hname
  obtain rfl := pl.port_inj hq' hq
  exact hother ⟨by rw [usbDir, lower_hex4, hlike.1], by rw [usbDir, lower_hex4, hlike.2.1], hlike.2.2.trans hds⟩

/-- The entry of a tty of a live device is the one found under its name. -/
theorem find_entry {sys : List SysTty} {pl : Placement info} (hsys : Shows sys pl) {d : β} {p : String} {i : Nat}
    (hd : pl.port d = some p) (hi : i ∈ (info d).interfaces) :
    sys.find? (fun t => t.name == pl.tty d i) = some (pl.entry d i p) := by
  have hmem := hsys.complete hd hi
  cases hfind : sys.find? (fun t => t.name == pl.tty d i) with
  | none =>
    have hnone := List.find?_eq_none.mp hfind _ hmem
    exact absurd (beq_self_eq_true _) hnone
  | some t =>
    have hname : t.name = (pl.entry d i p).name := by simpa [Placement.entry] using List.find?_some hfind
    rw [List.inj_on_of_nodup_map hsys.names_nodup (List.mem_of_find?_eq_some hfind) hmem hname]

theorem isUsbSerial_not_dots {name : String} (h : isUsbSerial name = true) : ¬(name = "" ∨ name = "." ∨ name = "..") := by
  rintro (rfl | rfl | rfl) <;> exact absurd h (by decide)

/-- The serial a snapshot of a device records. -/
def snapshotSerial (sys : List SysTty) (u : UsbInfo) (port : String) : Option String :=
  recordedSerial sys (hex4 u.vid) (hex4 u.pid) (usbDir u port)

theorem identityForTty_entry {realpath : String → Option String} {sys : List SysTty} {pl : Placement info}
    (hsys : Shows sys pl) {d : β} {p tty path : String} {i : Nat} (hd : pl.port d = some p)
    (hi : i ∈ (info d).interfaces) (htty : tty ≠ "") (hreal : realpath tty = some path)
    (hname : basename path = pl.tty d i) :
    identityForTty realpath sys tty = some [("vid", .str (hex4 (info d).vid)), ("pid", .str (hex4 (info d).pid)),
      ("serial", optText (snapshotSerial sys (info d) p)), ("port_path", .str p), ("interface", .int i)] := by
  have hdots := isUsbSerial_not_dots (pl.tty_usbSerial (Option.ne_none_iff_exists'.mpr ⟨p, hd⟩) hi)
  simp [identityForTty, htty, hreal, hname, hdots, find_entry hsys hd hi, Placement.entry, usbDir, snapshotSerial, optNat]

/-- A recorded serial is the device's, and no other live device shows it. -/
theorem snapshotSerial_spec {sys : List SysTty} {pl : Placement info} (hsys : Shows sys pl) {d : β}
    {p serial : String} (hd : pl.port d = some p) (h : snapshotSerial sys (info d) p = some serial)
    (hserial : serial ≠ "") :
    (info d).serial = some serial ∧ ∀ e i, pl.port e ≠ none → i ∈ (info e).interfaces →
      LooksLike (info e) (info d) → e = d := by
  rw [snapshotSerial, recordedSerial, usbDir] at h
  split at h
  · cases h
  · rename_i s hs
    split_ifs at h with hshared
    obtain rfl := Option.some.inj h
    have hunique : serialIsUnique sys (hex4 (info d).vid) (hex4 (info d).pid) s p = true := by
      by_contra hno
      exact hshared ⟨hserial, by simpa using hno⟩
    exact ⟨hs, fun e i he hi hlike => unique_of_serialIsUnique hsys hd hs hunique he hi hlike⟩

/-! ### The resolution -/

/-- The candidates of a snapshot of `u`'s interface `i` are the ttys of that interface of the live devices with
`u`'s vendor and product. -/
theorem mem_candidates_iff {sys : List SysTty} {pl : Placement info} (hsys : Shows sys pl) {u : UsbInfo} {i : Nat}
    {c : Candidate} :
    c ∈ candidates sys (hex4 u.vid) (hex4 u.pid) (.int i) ↔
      ∃ d p, pl.port d = some p ∧ i ∈ (info d).interfaces ∧ (info d).vid = u.vid ∧ (info d).pid = u.pid ∧
        c = ⟨pl.tty d i, p, (info d).serial⟩ := by
  rw [mem_candidates]
  constructor
  · rintro ⟨t, ht, hc⟩
    obtain ⟨husb, dir, hdir, hvid, hpid, hiface, rfl⟩ := candidate_eq_some hc
    obtain ⟨d, j, p, hp, hj, rfl⟩ := hsys.sound ht husb hdir
    obtain rfl := Option.some.inj hdir
    have hji := hiface (by simp) j rfl
    rw [Json.pyEq_iff] at hji
    have hij : j = i := by simpa [Json.canon] using hji.2
    subst hij
    rw [usbDir, lower_hex4] at hvid hpid
    exact ⟨d, p, hp, hj, hex4_inj hvid, hex4_inj hpid, rfl⟩
  · rintro ⟨d, p, hp, hi, hvid, hpid, rfl⟩
    refine ⟨pl.entry d i p, hsys.complete hp hi, ?_⟩
    have husb := pl.tty_usbSerial (Option.ne_none_iff_exists'.mpr ⟨p, hp⟩) hi
    have hself : (Json.int i).pyEq (Json.int i) = true := by simp [Json.pyEq_iff]
    simp [candidate, Placement.entry, usbDir, husb, hvid, hpid, hself]

theorem optText_truthy {s : Option String} (h : (optText s).truthy = true) : ∃ serial, s = some serial ∧ serial ≠ "" := by
  cases s with
  | none => exact absurd h (by simp [optText, Json.truthy])
  | some serial => exact ⟨serial, rfl, by simpa [optText, Json.truthy] using h⟩

theorem optText_pyEq {s : Option String} {serial : String} (h : (optText s).pyEq (.str serial) = true) :
    s = some serial := by
  have heq := Json.pyEq_str.mp h
  cases s with
  | none => exact absurd heq (by simp [optText])
  | some t => simpa [optText] using heq

theorem pyEq_text (s : String) : (Json.str s).pyEq (.str s) = true := Json.pyEq_str.mpr rfl

/-- **Resolution of a snapshot.** What a snapshot of an interface of `d` resolves to later is the tty of that
interface of `d`, or, when no serial was recorded, of a device with `d`'s vendor and product on `d`'s port; and `d`
on its port is found. No device that looks like `d` has come that was not live at the snapshot (`hback`). -/
theorem resolve_identity_own {realpath : String → Option String} {sys sys' : List SysTty} {now later : Placement info}
    (hsys : Shows sys now) (hsys' : Shows sys' later) {d : β} {p tty path : String} {i : Nat}
    (hd : now.port d = some p) (hi : i ∈ (info d).interfaces) (htty : tty ≠ "") (hreal : realpath tty = some path)
    (hname : basename path = now.tty d i)
    (hback : ∀ e, later.port e ≠ none → LooksLike (info e) (info d) → now.port e ≠ none) :
    ∃ ident, identityForTty realpath sys tty = some ident ∧
      (∀ node, resolveIdentity sys' (.obj ident) = some node →
        (later.port d ≠ none ∧ node = "/dev/" ++ later.tty d i) ∨
        ((Dict.get ident "serial").truthy = false ∧ ∃ e, later.port e = some p ∧ i ∈ (info e).interfaces ∧
          (info e).vid = (info d).vid ∧ (info e).pid = (info d).pid ∧ node = "/dev/" ++ later.tty e i)) ∧
      (later.port d = some p → resolveIdentity sys' (.obj ident) ≠ none) := by
  refine ⟨_, identityForTty_entry hsys hd hi htty hreal hname, ?_⟩
  have hresolve : resolveIdentity sys' (.obj [("vid", .str (hex4 (info d).vid)), ("pid", .str (hex4 (info d).pid)),
      ("serial", optText (snapshotSerial sys (info d) p)), ("port_path", .str p), ("interface", .int i)]) =
      choose (optText (snapshotSerial sys (info d) p)) (.str p)
        (candidates sys' (hex4 (info d).vid) (hex4 (info d).pid) (.int i)) := by
    simp [resolveIdentity, Dict.get, Dict.get?, List.lookup_cons]
  have hget : Dict.get [("vid", Json.str (hex4 (info d).vid)), ("pid", .str (hex4 (info d).pid)),
      ("serial", optText (snapshotSerial sys (info d) p)), ("port_path", .str p), ("interface", .int i)] "serial" =
      optText (snapshotSerial sys (info d) p) := by
    simp [Dict.get, Dict.get?, List.lookup_cons]
  have hportTruthy : (Json.str p).truthy = true := by simpa [Json.truthy] using now.port_nonempty hd
  rw [hresolve, hget]
  constructor
  · intro node hnode
    by_cases hs : (optText (snapshotSerial sys (info d) p)).truthy = true
    · left
      obtain ⟨serial, hrec, hne⟩ := optText_truthy hs
      obtain ⟨c, hc, hserial, rfl⟩ := choose_serial hs hnode
      obtain ⟨e, q, hq, hie, hvid, hpid, rfl⟩ := (mem_candidates_iff hsys').mp hc
      rw [hrec] at hserial
      obtain ⟨hds, hown⟩ := snapshotSerial_spec hsys hd hrec hne
      have hlike : LooksLike (info e) (info d) := ⟨hvid, hpid, (optText_pyEq hserial).trans hds.symm⟩
      have hlive : later.port e ≠ none := Option.ne_none_iff_exists'.mpr ⟨q, hq⟩
      obtain rfl := hown e i (hback e hlive hlike) hie hlike
      exact ⟨hlive, rfl⟩
    · right
      have hnone : (optText (snapshotSerial sys (info d) p)).truthy = false := by simpa using hs
      rw [choose, if_neg hs, if_pos hportTruthy] at hnode
      obtain ⟨c, hc, hport, rfl⟩ := onPort_eq_some hnode
      obtain ⟨e, q, hq, hie, hvid, hpid, rfl⟩ := (mem_candidates_iff hsys').mp hc
      obtain rfl : q = p := by simpa using Json.pyEq_str.mp hport
      exact ⟨hnone, e, hq, hie, hvid, hpid, rfl⟩
  · intro hlive
    have hmem := (mem_candidates_iff hsys' (u := info d) (i := i)).mpr ⟨d, p, hlive, hi, rfl, rfl, rfl⟩
    refine choose_ne_none hmem (fun hs => ?_) hportTruthy (pyEq_text p)
    obtain ⟨serial, hrec, hne⟩ := optText_truthy hs
    rw [hrec, (snapshotSerial_spec hsys hd hrec hne).1]
    exact pyEq_text serial

/-- One channel of a converter on port `1-1.2`, under the given tty. -/
def onePlaced (tty : String) (h : isUsbSerial tty = true) :
    Placement (fun _ : Unit => (⟨0x0403, 0x6011, some "FT4", [2]⟩ : UsbInfo)) where
  port _ := some "1-1.2"
  tty _ _ := tty
  port_nonempty h := by cases h; decide
  port_inj _ _ := rfl
  tty_usbSerial _ _ := h
  tty_inj _ _ hi hj _ := ⟨rfl, (List.mem_singleton.mp hi).trans (List.mem_singleton.mp hj).symm⟩

theorem onePlaced_shows (tty : String) (h : isUsbSerial tty = true) :
    Shows [(onePlaced tty h).entry () 2 "1-1.2"] (onePlaced tty h) where
  names_nodup := by simp
  complete := by
    intro d i p hp hi
    obtain rfl := List.mem_singleton.mp hi
    cases hp
    exact List.mem_singleton_self _
  sound ht _ _ := ⟨(), 2, "1-1.2", rfl, List.mem_singleton_self 2, List.mem_singleton.mp ht⟩

/-- Renumbered on its port, the channel is found. -/
theorem resolve_identity_renumbered :
    ∃ ident, identityForTty some [(onePlaced "ttyUSB0" (by decide)).entry () 2 "1-1.2"] "/dev/ttyUSB0" = some ident ∧
      resolveIdentity [(onePlaced "ttyUSB5" (by decide)).entry () 2 "1-1.2"] (.obj ident) ≠ none := by
  have htty : "/dev/ttyUSB0" ≠ "" := by decide
  have hname : basename "/dev/ttyUSB0" = "ttyUSB0" := by decide
  obtain ⟨ident, hident, _, hfound⟩ := resolve_identity_own (onePlaced_shows "ttyUSB0" (by decide))
    (onePlaced_shows "ttyUSB5" (by decide)) (d := ()) (p := "1-1.2") (i := 2) rfl (List.mem_singleton_self 2)
    htty rfl hname (fun _ _ _ => by simp [onePlaced])
  exact ⟨ident, hident, hfound rfl⟩

end Lager.Device
