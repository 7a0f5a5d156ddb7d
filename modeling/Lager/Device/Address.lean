import Lager.Device.SerialId
import Lager.Py.Quote

/-!
# Durable addresses of USB-serial cables

`make_address` and `parse_address` of `devices/serial_id.py`, and `serial_from_address`, the reader that
`python/run_record.py` has of its own. The first reader takes back what `make_address` wrote, whatever the serial or
port is (`parseAddress_address`). The second returns the segment of the address as it stands there, escapes included
(`serialFromAddress_serial`).
-/

namespace Lager.Device

open Lager.Py Lager.Py.Url

/-! ### The codec -/

/-- `[0-9a-fA-F]` -/
def isHex (c : Char) : Bool := (hexDigit? c).isSome

/-- A text where there is one with a character in it. -/
def given (text : Option String) : Option String := text.filter (· ≠ "")

/-- `_SCHEME` -/
def scheme : List Char := "serial://".toList

def serialKind : List Char := "serial/".toList

def portKind : List Char := "port/".toList

def addressText (vid pid : String) (kind : List Char) (value : String) : String :=
  String.ofList (scheme ++ (vid.toList ++ ([':'] ++ (pid.toList ++ (['/'] ++ (kind ++ quote value.toList))))))

/-- `make_address`. `none` is the `ValueError`. -/
def makeAddress (vid pid : String) (serial portPath : Option String) : Option String :=
  match given serial with
  | some serial => some (addressText (lower vid) (lower pid) serialKind serial)
  | none =>
    match given portPath with
    | some portPath => some (addressText (lower vid) (lower pid) portKind portPath)
    | none => none

/-- `([0-9a-fA-F]{4})` at the start. -/
def hexFour : List Char → Option (List Char × List Char)
  | a :: b :: c :: d :: rest => if isHex a && isHex b && isHex c && isHex d then some ([a, b, c, d], rest) else none
  | _ => none

/-- `^serial://([0-9a-fA-F]{4}):([0-9a-fA-F]{4})/`, with the rest of the text. -/
def addressIds (text : List Char) : Option (List Char × List Char × List Char) := do
  let rest ← text.dropPrefix? scheme
  let (vid, rest) ← hexFour rest
  let rest ← rest.dropPrefix? [':']
  let (pid, rest) ← hexFour rest
  let rest ← rest.dropPrefix? ['/']
  some (vid, pid, rest)

/-- `(.+)$`: the characters up to a line feed, which may only be the last one. -/
def restOfLine (text : List Char) : Option (List Char) :=
  let line := text.takeWhile (· ≠ '\n')
  if line ≠ [] ∧ (text.drop line.length = [] ∨ text.drop line.length = ['\n']) then some line else none

/-- What `parse_address` returns. -/
structure AddressParts where
  vid : String
  pid : String
  serial : Option String
  portPath : Option String
  deriving DecidableEq

/-- `parse_address`, with `_ADDR_RE`. -/
def parseAddress (address : String) : Option AddressParts :=
  (addressIds (strip address.toList)).bind fun (vid, pid, rest) =>
    let parts := AddressParts.mk (lower (String.ofList vid)) (lower (String.ofList pid))
    match rest.dropPrefix? serialKind with
    | some rest => (restOfLine rest).map fun value => parts (some (String.ofList (unquote value))) none
    | none =>
      match rest.dropPrefix? portKind with
      | some rest => (restOfLine rest).map fun value => parts none (some (String.ofList (unquote value)))
      | none => none

/-! ### The reader of the run record -/

/-- `text.upper().startswith('USB')`. The long s is the one other character whose upper case is one of the three. -/
def startsUsb : List Char → Bool
  | u :: s :: b :: _ => decide (u ∈ ['U', 'u'] ∧ s ∈ ['S', 's', 'ſ'] ∧ b ∈ ['B', 'b'])
  | _ => false

/-- `text.split('::')` -/
def splitColons : List Char → List (List Char)
  | ':' :: ':' :: rest => [] :: splitColons rest
  | c :: rest =>
    match splitColons rest with
    | part :: parts => (c :: part) :: parts
    | [] => [[c]]
  | [] => [[]]

def ppk2 : List Char := "ppk2:".toList

/-- `serial_from_address` of a text, the serial with its source. `none` is the pair of two `None`. -/
def serialFromAddress (address : String) : Option (String × String) :=
  let text := address.toList
  if startsUsb text then
    match (splitColons text)[3]? with
    | some serial =>
      if serial ≠ [] ∧ ¬"port-".toList.isPrefixOf serial then some (String.ofList serial, "usb-device") else none
    | none => none
  else match text.dropPrefix? ppk2 with
    | some serial => if serial ≠ [] then some (String.ofList serial, "usb-device") else none
    | none =>
      (addressIds text).bind fun (_, _, rest) =>
        (rest.dropPrefix? serialKind).bind fun rest =>
          (restOfLine rest).map fun serial => (String.ofList serial, "usb-adapter")

/-! ### The identity of a cable -/

/-- Four hexadecimal digits, a vendor or product number. -/
structure HexId where
  text : String
  length_eq : text.toList.length = 4
  hex : text.toList.all isHex = true
  deriving DecidableEq

/-- A text with a character in it. -/
structure Name where
  text : String
  nonempty : text ≠ ""
  deriving DecidableEq

/-- The serial that a cable shows, or the port it is pinned to. -/
inductive Pin
  | serial (name : Name)
  | port (name : Name)
  deriving DecidableEq

structure CableId where
  vid : HexId
  pid : HexId
  pin : Pin
  deriving DecidableEq

namespace CableId

def serial (c : CableId) : Option String :=
  match c.pin with
  | .serial name => some name.text
  | .port _ => none

def portPath (c : CableId) : Option String :=
  match c.pin with
  | .serial _ => none
  | .port name => some name.text

/-- The identity that `parse_address` and `_identity_key` see: the case of the digits is nothing to it. -/
def parts (c : CableId) : AddressParts := ⟨lower c.vid.text, lower c.pid.text, c.serial, c.portPath⟩

def address (c : CableId) : Option String := makeAddress c.vid.text c.pid.text c.serial c.portPath

end CableId

/-! ### What the readers see of a text that was made -/

theorem scheme_eq : scheme = ['s', 'e', 'r', 'i', 'a', 'l', ':', '/', '/'] := by decide

theorem serialKind_eq : serialKind = ['s', 'e', 'r', 'i', 'a', 'l', '/'] := by decide

theorem portKind_eq : portKind = ['p', 'o', 'r', 't', '/'] := by decide

theorem ppk2_eq : ppk2 = ['p', 'p', 'k', '2', ':'] := by decide

theorem toList_addressText (vid pid : String) (kind : List Char) (value : String) :
    (addressText vid pid kind value).toList =
      scheme ++ (vid.toList ++ ([':'] ++ (pid.toList ++ (['/'] ++ (kind ++ quote value.toList))))) :=
  String.toList_ofList

theorem isHex_bounds {c : Char} (h : isHex c = true) : 48 ≤ c.toNat ∧ c.toNat < 103 := by
  simp only [isHex, hexDigit?] at h
  split_ifs at h with hdigit hlow hup
  · omega
  · omega
  · omega
  · cases h

theorem isHex_toLower {c : Char} (h : isHex c = true) : isHex c.toLower = true := by
  have hall : ∀ n < 103, isHex (Char.ofNat n) = true → isHex (Char.ofNat n).toLower = true := by decide
  have hc := hall c.toNat (isHex_bounds h).2
  rw [Char.ofNat_toNat] at hc
  exact hc h

/-- Lower case for a vendor or product number. -/
def HexId.lowered (x : HexId) : HexId where
  text := lower x.text
  length_eq := by
    rw [lower, String.toList_ofList, List.length_map, x.length_eq]
  hex := by
    rw [lower, String.toList_ofList, List.all_map, List.all_eq_true]
    exact fun c hc => isHex_toLower (List.all_eq_true.mp x.hex c hc)

theorem toLower_toLower {c : Char} (h : isHex c = true) : c.toLower.toLower = c.toLower := by
  have hall : ∀ n < 103, isHex (Char.ofNat n) = true → (Char.ofNat n).toLower.toLower = (Char.ofNat n).toLower := by
    decide
  have hc := hall c.toNat (isHex_bounds h).2
  rw [Char.ofNat_toNat] at hc
  exact hc h

theorem lower_lowered (x : HexId) : lower x.lowered.text = lower x.text := by
  show String.ofList ((String.ofList (x.text.toList.map Char.toLower)).toList.map Char.toLower) = lower x.text
  rw [lower, String.toList_ofList, List.map_map]
  apply congrArg String.ofList
  apply List.map_congr_left
  intro c hc
  exact toLower_toLower (List.all_eq_true.mp x.hex c hc)

theorem hexFour_append (x : HexId) (rest : List Char) :
    hexFour (x.text.toList ++ rest) = some (x.text.toList, rest) := by
  obtain ⟨text, hlength, hhex⟩ := x
  obtain ⟨a, b, c, d, htext⟩ : ∃ a b c d, text.toList = [a, b, c, d] := List.length_eq_four.mp hlength
  dsimp only
  rw [htext] at hhex ⊢
  simp only [List.all_cons, List.all_nil, Bool.and_true, Bool.and_eq_true] at hhex
  simp only [List.cons_append, List.nil_append, hexFour, hhex, Bool.and_self, if_true]

theorem dropPrefix?_append (l rest : List Char) : (l ++ rest).dropPrefix? l = some rest :=
  List.dropPrefix?_append_of_beq rest (BEq.refl l)

theorem addressIds_append (vid pid : HexId) (rest : List Char) :
    addressIds (scheme ++ (vid.text.toList ++ ([':'] ++ (pid.text.toList ++ (['/'] ++ rest))))) =
      some (vid.text.toList, pid.text.toList, rest) := by
  rw [addressIds, dropPrefix?_append]
  dsimp only [Option.bind_eq_bind, Option.bind_some]
  rw [hexFour_append]
  dsimp only [Option.bind_some]
  rw [dropPrefix?_append]
  dsimp only [Option.bind_some]
  rw [hexFour_append]
  dsimp only [Option.bind_some]
  rw [dropPrefix?_append]
  rfl

theorem restOfLine_quote (name : Name) : restOfLine (quote name.text.toList) = some (quote name.text.toList) := by
  have hne : name.text.toList ≠ [] := fun h => name.nonempty (String.toList_eq_nil_iff.mp h)
  have hline : (quote name.text.toList).takeWhile (· ≠ '\n') = quote name.text.toList := by
    rw [List.takeWhile_eq_self_iff]
    intro c hc
    rw [decide_eq_true_eq]
    rintro rfl
    exact absurd (mem_quote hc).1 (by decide)
  rw [restOfLine, hline, List.drop_length, if_pos ⟨quote_ne_nil hne, Or.inl rfl⟩]

theorem isSpace_printing {c : Char} (h : 33 ≤ c.toNat ∧ c.toNat < 128) : isSpace c = false := by
  simp only [isSpace, decide_eq_false_iff_not]
  omega

/-- There is nothing to strip at an address. -/
theorem strip_addressText (vid pid : HexId) (kind : List Char) (value : String)
    (hkind : ∀ c ∈ kind, 33 ≤ c.toNat ∧ c.toNat < 128) :
    strip (addressText vid.text pid.text kind value).toList = (addressText vid.text pid.text kind value).toList := by
  have hhex : ∀ x : HexId, ∀ c ∈ x.text.toList, 33 ≤ c.toNat ∧ c.toNat < 128 := fun x c hc => by
    have hbounds := isHex_bounds (List.all_eq_true.mp x.hex c hc)
    omega
  have hscheme : (scheme.all fun c => decide (33 ≤ c.toNat ∧ c.toNat < 128)) = true := by decide
  have hcolon : ([':'].all fun c => decide (33 ≤ c.toNat ∧ c.toNat < 128)) = true := by decide
  have hslash : (['/'].all fun c => decide (33 ≤ c.toNat ∧ c.toNat < 128)) = true := by decide
  apply strip_eq
  intro c hc
  apply isSpace_printing
  rw [toList_addressText] at hc
  simp only [List.mem_append] at hc
  rcases hc with hc | hc | hc | hc | hc | hc | hc
  · exact forall_char_mem hscheme c hc
  · exact hhex vid c hc
  · exact forall_char_mem hcolon c hc
  · exact hhex pid c hc
  · exact forall_char_mem hslash c hc
  · exact hkind c hc
  · have hbounds := mem_quote hc
    omega

theorem parseAddress_serial (vid pid : HexId) (name : Name) :
    parseAddress (addressText vid.text pid.text serialKind name.text) =
      some ⟨lower vid.text, lower pid.text, some name.text, none⟩ := by
  rw [parseAddress, strip_addressText vid pid _ _ (forall_char_mem (by decide)), toList_addressText, addressIds_append,
    Option.bind_some]
  dsimp only
  rw [dropPrefix?_append]
  dsimp only
  rw [restOfLine_quote, Option.map_some, unquote_quote, String.ofList_toList, String.ofList_toList,
    String.ofList_toList]

theorem parseAddress_port (vid pid : HexId) (name : Name) :
    parseAddress (addressText vid.text pid.text portKind name.text) =
      some ⟨lower vid.text, lower pid.text, none, some name.text⟩ := by
  have hkind : (portKind ++ quote name.text.toList).dropPrefix? serialKind = none := by
    rw [portKind_eq, serialKind_eq]
    rfl
  rw [parseAddress, strip_addressText vid pid _ _ (forall_char_mem (by decide)), toList_addressText, addressIds_append,
    Option.bind_some]
  dsimp only
  rw [hkind]
  dsimp only
  rw [dropPrefix?_append]
  dsimp only
  rw [restOfLine_quote, Option.map_some, unquote_quote, String.ofList_toList, String.ofList_toList,
    String.ofList_toList]

theorem given_name (name : Name) : given (some name.text) = some name.text := by
  rw [given, Option.filter_some, if_pos (decide_eq_true name.nonempty)]

theorem address_serial (vid pid : HexId) (name : Name) :
    CableId.address ⟨vid, pid, .serial name⟩ =
      some (addressText vid.lowered.text pid.lowered.text serialKind name.text) := by
  rw [CableId.address, CableId.serial, makeAddress, given_name]
  rfl

theorem address_port (vid pid : HexId) (name : Name) :
    CableId.address ⟨vid, pid, .port name⟩ =
      some (addressText vid.lowered.text pid.lowered.text portKind name.text) := by
  rw [CableId.address, CableId.serial, CableId.portPath, makeAddress, given_name]
  rfl

/-- **`parse_address` takes back what `make_address` wrote.** -/
theorem parseAddress_address (c : CableId) : c.address.bind parseAddress = some c.parts := by
  obtain ⟨vid, pid, pin⟩ := c
  cases pin with
  | serial name =>
    rw [address_serial, Option.bind_some, parseAddress_serial, lower_lowered, lower_lowered]
    rfl
  | port name =>
    rw [address_port, Option.bind_some, parseAddress_port, lower_lowered, lower_lowered]
    rfl

/-- Two cables have one address where they differ in nothing but the case of the digits. -/
theorem address_eq_iff (c d : CableId) : c.address = d.address ↔ c.parts = d.parts := by
  constructor
  · intro h
    have hparts := parseAddress_address c
    rw [h, parseAddress_address d] at hparts
    exact (Option.some.inj hparts).symm
  · intro h
    obtain ⟨hvid, hpid, hserial, hport⟩ := AddressParts.mk.inj h
    rw [CableId.address, CableId.address, makeAddress, makeAddress, hvid, hpid, hserial, hport]

/-- The run record's reader returns the segment as it was written. -/
theorem serialFromAddress_serial (vid pid : HexId) (name : Name) :
    serialFromAddress (addressText vid.text pid.text serialKind name.text) =
      some (String.ofList (quote name.text.toList), "usb-adapter") := by
  have hppk2 : (addressText vid.text pid.text serialKind name.text).toList.dropPrefix? ppk2 = none := by
    rw [toList_addressText, scheme_eq, ppk2_eq]
    rfl
  have husb : startsUsb (addressText vid.text pid.text serialKind name.text).toList = false := by
    rw [toList_addressText, scheme_eq]
    rfl
  rw [serialFromAddress]
  dsimp only
  rw [husb, if_neg Bool.false_ne_true, hppk2]
  dsimp only
  rw [toList_addressText, addressIds_append, Option.bind_some, dropPrefix?_append, Option.bind_some,
    restOfLine_quote, Option.map_some]

end Lager.Device
