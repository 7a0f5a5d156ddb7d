import Lager.Lib.Bytes
import Lager.Lib.Ends
import Lager.Py.Lossy

/-!
# The symbols of the flash loader

`_parse_elf32_symbols` and `_resolve_loader_symbols` of `debug/da1469x_loader.py`: where the variables of the loader
are, read out of the ELF file that the operator has put on the box. All offsets, sizes and indices are the file's.

`struct.unpack_from` and an index raise errors of their own where the file ends too early, and only `ValueError` is
caught; a name ends at the next null byte, wherever that is. `resolveLoaderSymbols_meets_iff` says of which files
neither comes true.
-/

namespace Lager.Debug.LoaderSymbols

open Lager.Py Lager.Lib

/-! ### Reading the file -/

/-- The texts of the `ValueError`s. -/
inductive Malformed
  | badMagic
  | notElf32
  | notLittleEndian
  | sectionHeaderTooShort (bytes : Nat)
  | noSymtab
  | linkOutOfRange
  | notStrtab
  | entsizeTooSmall (bytes : Nat)
  | missingTerminator (offset : Nat)

inductive Fault
  | valueError (reason : Malformed)
  | structError
  | indexError

/-- The little-endian number of `n` bytes. -/
def field (data : Bytes) (n off : Nat) : Nat := leNat (sub data off n)

def u32 (data : Bytes) (off : Nat) : Nat := field data 4 off

def u16 (data : Bytes) (off : Nat) : Nat := field data 2 off

/-- `struct.unpack_from('<I', data, off)` -/
def unpackU32 (data : Bytes) (off : Nat) : Except Fault Nat :=
  if off + 4 ≤ data.length then .ok (u32 data off) else .error .structError

/-- `struct.unpack_from('<HH', data, off)` -/
def unpackU16s (data : Bytes) (off : Nat) : Except Fault (Nat × Nat) :=
  if off + 4 ≤ data.length then .ok (u16 data off, u16 data (off + 2)) else .error .structError

/-- `struct.unpack_from('<II', data, off)` -/
def unpackU32s (data : Bytes) (off : Nat) : Except Fault (Nat × Nat) :=
  if off + 8 ≤ data.length then .ok (u32 data off, u32 data (off + 4)) else .error .structError

/-- `data[i]` -/
def byteAt (data : Bytes) (i : Nat) : Except Fault UInt8 :=
  if i < data.length then .ok (data.getD i 0) else .error .indexError

/-! ### `_parse_elf32_symbols` -/

/-- `_ELF_MAGIC` -/
def elfMagic : Bytes := [0x7f, 0x45, 0x4c, 0x46]

/-- `_SHT_SYMTAB` -/
def shtSymtab : Nat := 2

/-- `_SHT_STRTAB` -/
def shtStrtab : Nat := 3

structure Header where
  shoff : Nat
  shentsize : Nat
  shnum : Nat

/-- The class and the byte order. -/
def readIdent (data : Bytes) : Except Fault Unit := do
  let eiClass ← byteAt data 4
  if eiClass ≠ 1 then .error (.valueError .notElf32)
  else do
    let eiData ← byteAt data 5
    if eiData ≠ 1 then .error (.valueError .notLittleEndian) else .ok ()

def readHeader (data : Bytes) : Except Fault Header :=
  if data.take 4 ≠ elfMagic then .error (.valueError .badMagic)
  else do
    let _ ← readIdent data
    let shoff ← unpackU32 data 0x20
    let (shentsize, shnum) ← unpackU16s data 0x2E
    if shentsize < 0x28 then .error (.valueError (.sectionHeaderTooShort shentsize))
    else .ok ⟨shoff, shentsize, shnum⟩

/-- Where the header of a section is. -/
def Header.base (h : Header) (i : Nat) : Nat := h.shoff + i * h.shentsize

def sectionType (data : Bytes) (h : Header) (i : Nat) : Nat := u32 data (h.base i + 0x04)

/-- What the parser takes from the header of the symbol table. -/
structure Symtab where
  off : Nat
  size : Nat
  entsize : Nat
  link : Nat

def readSymtab (data : Bytes) (base : Nat) : Except Fault Symtab := do
  let off ← unpackU32 data (base + 0x10)
  let size ← unpackU32 data (base + 0x14)
  let link ← unpackU32 data (base + 0x18)
  let entsize ← unpackU32 data (base + 0x24)
  .ok ⟨off, size, entsize, link⟩

/-- The loop over `left` section headers from the `i`-th on. -/
def findSymtab (data : Bytes) (h : Header) (i : Nat) : Nat → Except Fault Symtab
  | 0 => .ok ⟨0, 0, 0, 0⟩
  | left + 1 => do
    let shType ← unpackU32 data (h.base i + 0x04)
    if shType = shtSymtab then readSymtab data (h.base i) else findSymtab data h (i + 1) left

/-- The two tables. -/
structure Tables where
  symOff : Nat
  symEntsize : Nat
  count : Nat
  strOff : Nat
  strSize : Nat

def readStrtab (data : Bytes) (symtab : Symtab) (base : Nat) : Except Fault Tables := do
  let shType ← unpackU32 data (base + 0x04)
  if shType ≠ shtStrtab then .error (.valueError .notStrtab)
  else do
    let strOff ← unpackU32 data (base + 0x10)
    let strSize ← unpackU32 data (base + 0x14)
    if symtab.entsize < 16 then .error (.valueError (.entsizeTooSmall symtab.entsize))
    else .ok ⟨symtab.off, symtab.entsize, symtab.size / symtab.entsize, strOff, strSize⟩

/-- The string table that `sh_link` designates. -/
def findStrtab (data : Bytes) (h : Header) (symtab : Symtab) : Except Fault Tables :=
  if symtab.size = 0 then .error (.valueError .noSymtab)
  else if h.shnum ≤ symtab.link then .error (.valueError .linkOutOfRange)
  else readStrtab data symtab (h.base symtab.link)

/-- Everything before the loop over the symbols. -/
def readTables (data : Bytes) : Except Fault Tables := do
  let h ← readHeader data
  let symtab ← findSymtab data h 0 h.shnum
  findStrtab data h symtab

/-- The bytes from `start` up to `stop`, where the null byte is. -/
structure NameRead where
  start : Nat
  stop : Nat

/-- `data.find(b'\x00', start)` -/
def findNul (data : Bytes) (start : Nat) : Option Nat :=
  let stop := start + ((data.drop start).takeWhile (· ≠ 0)).length
  if stop < data.length then some stop else none

def Tables.entry (t : Tables) (i : Nat) : Nat := t.symOff + i * t.symEntsize

/-- One entry of the symbol table: where its name is, unless it has none, and its value. -/
def readEntry (data : Bytes) (t : Tables) (i : Nat) : Except Fault (Option NameRead × Nat) := do
  let (stName, stValue) ← unpackU32s data (t.entry i)
  if stName = 0 ∨ t.strSize ≤ stName then .ok (none, stValue)
  else match findNul data (t.strOff + stName) with
    | none => .error (.valueError (.missingTerminator (t.strOff + stName)))
    | some stop => .ok (some ⟨t.strOff + stName, stop⟩, stValue)

/-- The bytes decoded with `errors='replace'`. -/
def textAt (data : Bytes) (r : NameRead) : String :=
  String.ofList (decodeReplace (sub data r.start (r.stop - r.start)))

/-- The symbols as a dict, the newest entry first. -/
abbrev Symbols := List (String × Nat)

/-- The loop over `left` symbols from the `i`-th on, with the names it reads. -/
def readSymbols (data : Bytes) (t : Tables) (i : Nat) (syms : Symbols) : Nat → List NameRead × Except Fault Symbols
  | 0 => ([], .ok syms)
  | left + 1 =>
    match readEntry data t i with
    | .error e => ([], .error e)
    | .ok (none, _) => readSymbols data t (i + 1) syms left
    | .ok (some r, value) =>
      let name := textAt data r
      let (reads, out) := readSymbols data t (i + 1) (if name = "" then syms else (name, value) :: syms) left
      (r :: reads, out)

def parseElf32Symbols (data : Bytes) : List NameRead × Except Fault Symbols :=
  match readTables data with
  | .error e => ([], .error e)
  | .ok t => readSymbols data t 0 [] t.count

/-! ### `_resolve_loader_symbols` -/

/-- The texts of the `Da1469xLoaderError`s. -/
inductive LoaderError
  | failedToRead
  | cannotParse (reason : Malformed)
  | missingSymbols (names : List String)

inductive Raised
  | loaderError (e : LoaderError)
  | structError
  | indexError

/-- `except ValueError` -/
def caught : Fault → Raised
  | .valueError reason => .loaderError (.cannotParse reason)
  | .structError => .structError
  | .indexError => .indexError

/-- The required names with their addresses. -/
def select (required : List String) (syms : Symbols) : Except Raised Symbols :=
  let missing := required.filter fun name => (syms.lookup name).isNone
  if missing ≠ [] then .error (.loaderError (.missingSymbols missing))
  else .ok (required.filterMap fun name => (syms.lookup name).map fun value => (name, value))

/-- `_resolve_loader_symbols`. The file is `none` where it cannot be read. -/
def resolveLoaderSymbols (file : Option Bytes) (required : List String) : List NameRead × Except Raised Symbols :=
  match file with
  | none => ([], .error (.loaderError .failedToRead))
  | some data =>
    match parseElf32Symbols data with
    | (reads, .error e) => (reads, .error (caught e))
    | (reads, .ok syms) => (reads, select required syms)

/-! ### What it is for -/

/-- The string of the string table that starts at an offset: it ends at a null byte inside the table. -/
def stringAt (table : Bytes) (off : Nat) : Option Bytes :=
  let rest := table.drop off
  let name := rest.takeWhile (· ≠ 0)
  if name.length < rest.length then some name else none

/-- The name of an entry of the symbol table, if it has one. -/
def nameOf (data : Bytes) (t : Tables) (i : Nat) : Option String :=
  let stName := u32 data (t.entry i)
  if stName = 0 ∨ t.strSize ≤ stName then none
  else ((stringAt (sub data t.strOff t.strSize) stName).map fun name => String.ofList (decodeReplace name)).filter
    (· ≠ "")

/-- The value of the last entry with a name. -/
def IsLast (data : Bytes) (t : Tables) (name : String) (value : Nat) : Prop :=
  ∃ i < t.count, nameOf data t i = some name ∧ value = u32 data (t.entry i + 4) ∧
    ∀ j < t.count, i < j → nameOf data t j ≠ some name

/-- The name with its null byte lies in the string table. -/
def Inside (t : Tables) (r : NameRead) : Prop := t.strOff ≤ r.start ∧ r.stop < t.strOff + t.strSize

/-- The one error, or the addresses: each required name has the value of the last entry with that name, and no name
was read from outside the string table. -/
structure Meets (file : Option Bytes) (required : List String) : Prop where
  raises : ∀ e, (resolveLoaderSymbols file required).2 = .error e → ∃ reason, e = .loaderError reason
  inside : ∀ data t, file = some data → readTables data = .ok t →
    ∀ r ∈ (resolveLoaderSymbols file required).1, Inside t r
  returns : ∀ symbols, (resolveLoaderSymbols file required).2 = .ok symbols → ∃ data t, file = some data ∧
    readTables data = .ok t ∧ ∀ name ∈ required, ∃ value, symbols.lookup name = some value ∧ IsLast data t name value

/-! ### The files it works on -/

/-- Whether an entry has a name to read. -/
def Named (data : Bytes) (t : Tables) (i : Nat) : Prop :=
  ¬(u32 data (t.entry i) = 0 ∨ t.strSize ≤ u32 data (t.entry i))

def nameStart (data : Bytes) (t : Tables) (i : Nat) : Nat := t.strOff + u32 data (t.entry i)

/-- An entry is in the file, and if there is a null byte behind its name, it is in the string table. -/
def EntryWhole (data : Bytes) (t : Tables) (i : Nat) : Prop :=
  t.entry i + 8 ≤ data.length ∧
    (Named data t i → ∀ stop, findNul data (nameStart data t i) = some stop → stop < t.strOff + t.strSize)

/-- An entry with a name and no null byte behind it: the parser refuses the file there. -/
def Unterminated (data : Bytes) (t : Tables) (i : Nat) : Prop :=
  Named data t i ∧ findNul data (nameStart data t i) = none

def EntriesWhole (data : Bytes) (t : Tables) : Prop :=
  ∀ i < t.count, (∀ j < i, ¬Unterminated data t j) → EntryWhole data t i

def symtabAt (data : Bytes) (base : Nat) : Symtab :=
  ⟨u32 data (base + 0x10), u32 data (base + 0x14), u32 data (base + 0x24), u32 data (base + 0x18)⟩

def tablesAt (data : Bytes) (symtab : Symtab) (base : Nat) : Tables :=
  ⟨symtab.off, symtab.entsize, symtab.size / symtab.entsize, u32 data (base + 0x10), u32 data (base + 0x14)⟩

/-- The header of the string table is in the file, and `rest` of the two tables. -/
def StrtabWhole (data : Bytes) (rest : Tables → Prop) (symtab : Symtab) (base : Nat) : Prop :=
  base + 0x08 ≤ data.length ∧ (u32 data (base + 0x04) = shtStrtab →
    base + 0x18 ≤ data.length ∧ (16 ≤ symtab.entsize → rest (tablesAt data symtab base)))

/-- The string table that a symbol table designates, if it does. -/
def LinkWhole (data : Bytes) (rest : Tables → Prop) (h : Header) (symtab : Symtab) : Prop :=
  symtab.size ≠ 0 → symtab.link < h.shnum → StrtabWhole data rest symtab (h.base symtab.link)

/-- The section headers are in the file up to the first symbol table, and what that designates is. -/
def SectionsWhole (data : Bytes) (rest : Tables → Prop) (h : Header) : Prop :=
  ∀ i < h.shnum, (∀ j < i, sectionType data h j ≠ shtSymtab) →
    h.base i + 0x08 ≤ data.length ∧ (sectionType data h i = shtSymtab →
      h.base i + 0x28 ≤ data.length ∧ LinkWhole data rest h (symtabAt data (h.base i)))

def headerAt (data : Bytes) : Header := ⟨u32 data 0x20, u16 data 0x2E, u16 data 0x30⟩

/-- What is read before the entries is in the file, and `rest` of the two tables. -/
def HeadersWhole (data : Bytes) (rest : Tables → Prop) : Prop :=
  data.take 4 = elfMagic → 4 < data.length ∧ (data.getD 4 0 = 1 → 5 < data.length ∧ (data.getD 5 0 = 1 →
    0x32 ≤ data.length ∧ (0x28 ≤ (headerAt data).shentsize → SectionsWhole data rest (headerAt data))))

/-- **A file that is refused, or has all that it announces.** In the order in which the parser reads, everything up
to the first reason to refuse the file is there, and each name that ends, ends in the string table. -/
def FileWhole (data : Bytes) : Prop := HeadersWhole data (EntriesWhole data)

/-! ### When everything is there -/

/-- The errors that are caught. -/
def IsValueError : Fault → Prop
  | .valueError _ => True
  | _ => False

section Ends

variable {data : Bytes} {α : Type} {Q : α → Prop}

theorem ends_unpackU32 (off : Nat) {Q : Nat → Prop} :
    Ends IsValueError Q (unpackU32 data off) ↔ off + 4 ≤ data.length ∧ Q (u32 data off) :=
  ends_require id _

theorem ends_unpackU16s (off : Nat) {Q : Nat × Nat → Prop} :
    Ends IsValueError Q (unpackU16s data off) ↔ off + 4 ≤ data.length ∧ Q (u16 data off, u16 data (off + 2)) :=
  ends_require id _

theorem ends_unpackU32s (off : Nat) {Q : Nat × Nat → Prop} :
    Ends IsValueError Q (unpackU32s data off) ↔ off + 8 ≤ data.length ∧ Q (u32 data off, u32 data (off + 4)) :=
  ends_require id _

theorem ends_byteAt (i : Nat) {Q : UInt8 → Prop} :
    Ends IsValueError Q (byteAt data i) ↔ i < data.length ∧ Q (data.getD i 0) :=
  ends_require id _

theorem ends_refuse {p : Prop} [Decidable p] (reason : Malformed) (x : Except Fault α) :
    Ends IsValueError Q (if p then .error (.valueError reason) else x) ↔ (¬p → Ends IsValueError Q x) :=
  ends_guard trivial x

theorem ends_readSymtab (base : Nat) {Q : Symtab → Prop} :
    Ends IsValueError Q (readSymtab data base) ↔ base + 0x28 ≤ data.length ∧ Q (symtabAt data base) := by
  rw [readSymtab, ends_bind, ends_unpackU32, ends_bind, ends_unpackU32, ends_bind, ends_unpackU32, ends_bind,
    ends_unpackU32, ends_ok]
  constructor
  · rintro ⟨-, -, -, h, hQ⟩
    exact ⟨h, hQ⟩
  · rintro ⟨h, hQ⟩
    exact ⟨by omega, by omega, by omega, h, hQ⟩

/-- The loop looks at each section up to the first symbol table. -/
theorem ends_findSymtab (h : Header) {Q : Symtab → Prop} (hnone : Q ⟨0, 0, 0, 0⟩) (left i : Nat) :
    Ends IsValueError Q (findSymtab data h i left) ↔
      UpTo (fun k => sectionType data h k = shtSymtab) (fun k => h.base k + 0x08 ≤ data.length ∧
        (sectionType data h k = shtSymtab → h.base k + 0x28 ≤ data.length ∧ Q (symtabAt data (h.base k)))) i left := by
  induction left generalizing i with
  | zero => exact ⟨fun _ => upTo_none i, fun _ => hnone⟩
  | succ left ih =>
    have hread : u32 data (h.base i + 0x04) = sectionType data h i := rfl
    rw [findSymtab, ends_bind, ends_unpackU32, hread, upTo_succ, and_assoc]
    apply and_congr_right
    intro _
    by_cases htype : sectionType data h i = shtSymtab
    · rw [if_pos htype, ends_readSymtab]
      exact ⟨fun hsymtab => ⟨fun _ => hsymtab, fun hother => absurd htype hother⟩, fun hboth => hboth.1 htype⟩
    · rw [if_neg htype, ih]
      exact ⟨fun hrest => ⟨fun h => absurd h htype, fun _ => hrest⟩, fun hboth => hboth.2 htype⟩

theorem ends_findStrtab (h : Header) (symtab : Symtab) {Q : Tables → Prop} :
    Ends IsValueError Q (findStrtab data h symtab) ↔ LinkWhole data Q h symtab := by
  rw [findStrtab, ends_refuse, ends_refuse, readStrtab, ends_bind, ends_unpackU32, ends_refuse, not_not, Nat.not_le,
    ends_bind, ends_unpackU32, ends_bind, ends_unpackU32, ends_refuse, ends_ok, Nat.not_lt]
  refine imp_congr_right fun _ => imp_congr_right fun _ => and_congr_right fun _ => imp_congr_right fun _ => ?_
  constructor
  · rintro ⟨-, hread, hQ⟩
    exact ⟨hread, hQ⟩
  · rintro ⟨hread, hQ⟩
    exact ⟨by omega, hread, hQ⟩

theorem ends_readHeader {Q : Header → Prop} :
    Ends IsValueError Q (readHeader data) ↔ (data.take 4 = elfMagic → 4 < data.length ∧ (data.getD 4 0 = 1 →
      5 < data.length ∧ (data.getD 5 0 = 1 → 0x32 ≤ data.length ∧ (0x28 ≤ (headerAt data).shentsize →
        Q (headerAt data))))) := by
  rw [readHeader, ends_refuse, not_not, ends_bind, readIdent, ends_bind, ends_byteAt, ends_refuse, not_not, ends_bind,
    ends_byteAt, ends_refuse, not_not, ends_ok, ends_bind, ends_unpackU32, ends_bind, ends_unpackU16s]
  dsimp only
  rw [ends_refuse, ends_ok, Nat.not_lt]
  refine imp_congr_right fun _ => and_congr_right fun _ => imp_congr_right fun _ => and_congr_right fun _ =>
    imp_congr_right fun _ => ?_
  constructor
  · rintro ⟨-, hread, hQ⟩
    exact ⟨hread, hQ⟩
  · rintro ⟨hread, hQ⟩
    exact ⟨by omega, hread, hQ⟩

theorem ends_readTables {Q : Tables → Prop} :
    Ends IsValueError Q (readTables data) ↔ HeadersWhole data Q := by
  have hsections : Ends IsValueError Q (findSymtab data (headerAt data) 0 (headerAt data).shnum >>= fun symtab =>
      findStrtab data (headerAt data) symtab) ↔ SectionsWhole data Q (headerAt data) := by
    -- without a symbol table the file is refused
    have hnone : LinkWhole data Q (headerAt data) ⟨0, 0, 0, 0⟩ := fun hsize => absurd rfl hsize
    rw [ends_bind, ends_congr _ fun symtab => ends_findStrtab (headerAt data) symtab, ends_findSymtab _ hnone,
      upTo_from_zero]
    rfl
  rw [readTables, ends_bind, ends_readHeader, HeadersWhole, hsections]

/-! ### The loop over the symbols -/

/-- The loop raises nothing but `ValueError`, and the names it reads lie in the string table. -/
def Clean (t : Tables) (x : List NameRead × Except Fault Symbols) : Prop :=
  Ends IsValueError (fun _ => True) x.2 ∧ ∀ r ∈ x.1, Inside t r

theorem readEntry_present {t : Tables} {i : Nat} (h : t.entry i + 8 ≤ data.length) :
    readEntry data t i = if u32 data (t.entry i) = 0 ∨ t.strSize ≤ u32 data (t.entry i) then
        .ok (none, u32 data (t.entry i + 4))
      else match findNul data (nameStart data t i) with
        | none => .error (.valueError (.missingTerminator (nameStart data t i)))
        | some stop => .ok (some ⟨nameStart data t i, stop⟩, u32 data (t.entry i + 4)) := by
  rw [readEntry, unpackU32s, if_pos h]
  rfl

theorem clean_readSymbols (t : Tables) (left i : Nat) (syms : Symbols) :
    Clean t (readSymbols data t i syms left) ↔ UpTo (Unterminated data t) (EntryWhole data t) i left := by
  induction left generalizing i syms with
  | zero => exact ⟨fun _ => upTo_none i, fun _ => ⟨trivial, nofun⟩⟩
  | succ left ih =>
    rw [upTo_succ, readSymbols]
    by_cases hpresent : t.entry i + 8 ≤ data.length
    · rw [readEntry_present hpresent]
      by_cases hunnamed : u32 data (t.entry i) = 0 ∨ t.strSize ≤ u32 data (t.entry i)
      · have hwhole : EntryWhole data t i := ⟨hpresent, fun hnamed => absurd hunnamed hnamed⟩
        rw [if_pos hunnamed]
        exact (ih (i + 1) syms).trans ⟨fun h => ⟨hwhole, fun _ => h⟩, fun h => h.2 fun hu => hu.1 hunnamed⟩
      · rw [if_neg hunnamed]
        cases hfound : findNul data (nameStart data t i) with
        | none =>
          have hwhole : EntryWhole data t i := ⟨hpresent, fun _ stop h => by rw [hfound] at h; cases h⟩
          exact ⟨fun _ => ⟨hwhole, fun h => absurd ⟨hunnamed, hfound⟩ h⟩, fun _ => ⟨trivial, nofun⟩⟩
        | some stop =>
          have hwhole : EntryWhole data t i ↔ Inside t ⟨nameStart data t i, stop⟩ := by
            constructor
            · intro h
              exact ⟨Nat.le_add_right _ _, h.2 hunnamed stop hfound⟩
            · intro h
              refine ⟨hpresent, fun _ stop' hstop => ?_⟩
              rw [hfound] at hstop
              cases hstop
              exact h.2
          have hterminated : ¬Unterminated data t i := fun h => by
            rw [Unterminated, hfound] at h
            cases h.2
          have hrest := ih (i + 1) (if textAt data ⟨nameStart data t i, stop⟩ = "" then syms
            else (textAt data ⟨nameStart data t i, stop⟩, u32 data (t.entry i + 4)) :: syms)
          rw [hwhole]
          constructor
          · rintro ⟨hends, hinside⟩
            exact ⟨hinside _ List.mem_cons_self,
              fun _ => hrest.mp ⟨hends, fun r hr => hinside r (List.mem_cons_of_mem _ hr)⟩⟩
          · rintro ⟨hfirst, hlater⟩
            obtain ⟨hends, hinside⟩ := hrest.mpr (hlater hterminated)
            refine ⟨hends, fun r hr => ?_⟩
            rcases List.mem_cons.mp hr with rfl | hr
            · exact hfirst
            · exact hinside r hr
    · have hread : readEntry data t i = .error .structError := by
        rw [readEntry, unpackU32s, if_neg hpresent]
        rfl
      rw [hread]
      exact ⟨fun h => absurd h.1 id, fun h => absurd h.1.1 hpresent⟩

/-! ### What the loop returns -/

/-- A name that ends in the string table is a string of it. -/
theorem stringAt_of_findNul {t : Tables} {start stop : Nat} (hstart : start < t.strSize)
    (hfound : findNul data (t.strOff + start) = some stop) (hinside : stop < t.strOff + t.strSize) :
    stringAt (sub data t.strOff t.strSize) start = some (sub data (t.strOff + start) (stop - (t.strOff + start))) := by
  rw [findNul] at hfound
  split_ifs at hfound with hlt
  cases hfound
  have hrest : (sub data t.strOff t.strSize).drop start = (data.drop (t.strOff + start)).take (t.strSize - start) := by
    rw [sub, List.drop_take, List.drop_drop]
  generalize hl : data.drop (t.strOff + start) = l at hlt hinside hrest ⊢
  have hlength : l.length = data.length - (t.strOff + start) := by
    rw [← hl, List.length_drop]
  have hname : (l.take (t.strSize - start)).takeWhile (· ≠ 0) = l.takeWhile (· ≠ 0) := by
    rw [← List.take_takeWhile, List.take_of_length_le (by omega)]
  have hslice : sub data (t.strOff + start) (t.strOff + start + (l.takeWhile (· ≠ 0)).length - (t.strOff + start)) =
      l.takeWhile (· ≠ 0) := by
    rw [Nat.add_sub_cancel_left, sub, hl]
    exact (List.prefix_iff_eq_take.mp (List.takeWhile_prefix _)).symm
  rw [stringAt, hrest, hname, hslice, if_pos]
  rw [List.length_take]
  omega

theorem nameOf_unnamed {t : Tables} {i : Nat} (h : ¬Named data t i) : nameOf data t i = none := by
  rw [nameOf]
  exact if_pos (not_not.mp h)

theorem nameOf_named {t : Tables} {i stop : Nat} (h : Named data t i)
    (hfound : findNul data (nameStart data t i) = some stop) (hinside : Inside t ⟨nameStart data t i, stop⟩) :
    nameOf data t i = (some (textAt data ⟨nameStart data t i, stop⟩)).filter (· ≠ "") := by
  have hstart : u32 data (t.entry i) < t.strSize := by
    have hnot := h
    rw [Named, not_or] at hnot
    omega
  rw [nameOf]
  refine (if_neg h).trans ?_
  rw [stringAt_of_findNul hstart hfound hinside.2]
  rfl

/-- The last entry with a name among `left` ones from the `i`-th on. -/
def LastFrom (data : Bytes) (t : Tables) (i left : Nat) (name : String) (value : Nat) : Prop :=
  ∃ k, i ≤ k ∧ k < i + left ∧ nameOf data t k = some name ∧ value = u32 data (t.entry k + 4) ∧
    ∀ j, k < j → j < i + left → nameOf data t j ≠ some name

theorem LastFrom.later {t : Tables} {i left : Nat} {name : String} {value : Nat}
    (h : LastFrom data t (i + 1) left name value) : LastFrom data t i (left + 1) name value := by
  obtain ⟨k, hi, hk, hname, hvalue, hlast⟩ := h
  exact ⟨k, by omega, by omega, hname, hvalue, fun j hj hlt => hlast j hj (by omega)⟩

/-- The dict after an entry. -/
def withEntry (data : Bytes) (t : Tables) (i : Nat) (syms : Symbols) : Symbols :=
  match nameOf data t i with
  | some name => (name, u32 data (t.entry i + 4)) :: syms
  | none => syms

theorem readSymbols_succ_ok {t : Tables} {left i : Nat} {syms out : Symbols}
    (hout : (readSymbols data t i syms (left + 1)).2 = .ok out)
    (hinside : ∀ r ∈ (readSymbols data t i syms (left + 1)).1, Inside t r) :
    (readSymbols data t (i + 1) (withEntry data t i syms) left).2 = .ok out ∧
      ∀ r ∈ (readSymbols data t (i + 1) (withEntry data t i syms) left).1, Inside t r := by
  rw [readSymbols] at hout hinside
  by_cases hpresent : t.entry i + 8 ≤ data.length
  · rw [readEntry_present hpresent] at hout hinside
    by_cases hunnamed : u32 data (t.entry i) = 0 ∨ t.strSize ≤ u32 data (t.entry i)
    · rw [if_pos hunnamed] at hout hinside
      rw [withEntry, nameOf_unnamed (not_not.mpr hunnamed)]
      exact ⟨hout, hinside⟩
    · rw [if_neg hunnamed] at hout hinside
      cases hfound : findNul data (nameStart data t i) with
      | none =>
        rw [hfound] at hout
        cases hout
      | some stop =>
        rw [hfound] at hout hinside
        dsimp only at hout hinside
        have hsyms : withEntry data t i syms = if textAt data ⟨nameStart data t i, stop⟩ = "" then syms
            else (textAt data ⟨nameStart data t i, stop⟩, u32 data (t.entry i + 4)) :: syms := by
          rw [withEntry, nameOf_named hunnamed hfound (hinside _ List.mem_cons_self), Option.filter_some]
          split_ifs <;> simp_all
        rw [hsyms]
        exact ⟨hout, fun r hr => hinside r (List.mem_cons_of_mem _ hr)⟩
  · have hread : readEntry data t i = .error .structError := by
      rw [readEntry, unpackU32s, if_neg hpresent]
      rfl
    rw [hread] at hout
    cases hout

/-- What the loop adds to the dict is the value of the last entry with the name. -/
theorem lookup_readSymbols {t : Tables} (left i : Nat) (syms : Symbols) {out : Symbols}
    (hout : (readSymbols data t i syms left).2 = .ok out)
    (hinside : ∀ r ∈ (readSymbols data t i syms left).1, Inside t r)
    {name : String} {value : Nat} (hlookup : out.lookup name = some value) :
    LastFrom data t i left name value ∨
      (syms.lookup name = some value ∧ ∀ k, i ≤ k → k < i + left → nameOf data t k ≠ some name) := by
  induction left generalizing i syms with
  | zero =>
    cases hout
    exact Or.inr ⟨hlookup, fun k hi hk => absurd hk (by omega)⟩
  | succ left ih =>
    obtain ⟨hrest, hclean⟩ := readSymbols_succ_ok hout hinside
    rcases ih (i + 1) _ hrest hclean with hlater | ⟨hbefore, hnot⟩
    · exact Or.inl hlater.later
    · have hnone : ∀ j, i < j → j < i + (left + 1) → nameOf data t j ≠ some name :=
        fun j hj hlt => hnot j hj (by omega)
      by_cases hname : nameOf data t i = some name
      · rw [withEntry, hname, List.lookup_cons_self] at hbefore
        exact Or.inl ⟨i, Nat.le_refl i, by omega, hname, (Option.some.inj hbefore).symm, hnone⟩
      · have hsyms : syms.lookup name = some value := by
          rw [withEntry] at hbefore
          cases hentry : nameOf data t i with
          | none => rwa [hentry] at hbefore
          | some other =>
            have hne : name ≠ other := fun h => hname (h ▸ hentry)
            rwa [hentry, List.lookup_cons, beq_false_of_ne hne] at hbefore
        refine Or.inr ⟨hsyms, fun k hi hk => ?_⟩
        rcases Nat.eq_or_lt_of_le hi with rfl | hlater
        · exact hname
        · exact hnone k hlater hk

/-! ### The whole file -/

theorem clean_parseElf32Symbols :
    (Ends IsValueError (fun _ => True) (parseElf32Symbols data).2 ∧
      ∀ t, readTables data = .ok t → ∀ r ∈ (parseElf32Symbols data).1, Inside t r) ↔ FileWhole data := by
  rw [FileWhole, ← ends_readTables, parseElf32Symbols]
  cases readTables data with
  | error e => exact ⟨And.left, fun he => ⟨he, nofun⟩⟩
  | ok t =>
    rw [ends_ok, EntriesWhole, ← upTo_from_zero, ← clean_readSymbols t t.count 0 []]
    constructor
    · rintro ⟨hends, hinside⟩
      exact ⟨hends, hinside t rfl⟩
    · rintro ⟨hends, hinside⟩
      refine ⟨hends, fun t' ht' => ?_⟩
      cases ht'
      exact hinside

theorem lookup_filterMap_lookup (syms : Symbols) {required : List String} {name : String} (h : name ∈ required)
    (hall : ∀ name ∈ required, (syms.lookup name).isSome) :
    (required.filterMap fun name => (syms.lookup name).map fun value => (name, value)).lookup name =
      syms.lookup name := by
  induction required with
  | nil => cases h
  | cons first rest ih =>
    obtain ⟨value, hvalue⟩ := Option.isSome_iff_exists.mp (hall first List.mem_cons_self)
    rw [List.filterMap_cons, hvalue, Option.map_some]
    dsimp only
    by_cases hname : name = first
    · rw [hname, List.lookup_cons_self, hvalue]
    · rw [List.lookup_cons, beq_false_of_ne hname]
      exact ih ((List.mem_cons.mp h).resolve_left hname) fun other hother => hall other (List.mem_cons_of_mem _ hother)

/-- Every required name is found where the selection returns, with its value in the dict. -/
theorem lookup_select {required : List String} {syms symbols : Symbols} (h : select required syms = .ok symbols)
    {name : String} (hname : name ∈ required) :
    ∃ value, symbols.lookup name = some value ∧ syms.lookup name = some value := by
  rw [select] at h
  split_ifs at h with hmissing
  cases h
  have hall : ∀ name ∈ required, (syms.lookup name).isSome := fun name hname => by
    have hfound := List.filter_eq_nil_iff.mp (not_not.mp hmissing) name hname
    rwa [Bool.not_eq_true, Option.isNone_eq_false_iff] at hfound
  obtain ⟨value, hvalue⟩ := Option.isSome_iff_exists.mp (hall name hname)
  exact ⟨value, (lookup_filterMap_lookup syms hname hall).trans hvalue, hvalue⟩

end Ends

theorem resolveLoaderSymbols_error {data : Bytes} {e : Fault} (h : (parseElf32Symbols data).2 = .error e)
    (required : List String) :
    resolveLoaderSymbols (some data) required = ((parseElf32Symbols data).1, .error (caught e)) := by
  rw [resolveLoaderSymbols]
  cases hparse : parseElf32Symbols data with
  | mk reads out =>
    rw [hparse] at h
    cases h
    rfl

theorem resolveLoaderSymbols_ok {data : Bytes} {syms : Symbols} (h : (parseElf32Symbols data).2 = .ok syms)
    (required : List String) :
    resolveLoaderSymbols (some data) required = ((parseElf32Symbols data).1, select required syms) := by
  rw [resolveLoaderSymbols]
  cases hparse : parseElf32Symbols data with
  | mk reads out =>
    rw [hparse] at h
    cases h
    rfl

theorem select_error {required : List String} {syms : Symbols} {e : Raised} (h : select required syms = .error e) :
    ∃ reason, e = .loaderError reason := by
  rw [select] at h
  split_ifs at h with hmissing
  cases h
  exact ⟨_, rfl⟩

theorem caught_eq_loaderError_iff (e : Fault) : (∃ reason, caught e = .loaderError reason) ↔ IsValueError e := by
  cases e with
  | valueError reason => exact ⟨fun _ => trivial, fun _ => ⟨_, rfl⟩⟩
  | structError => exact ⟨fun ⟨_, h⟩ => (nomatch h), False.elim⟩
  | indexError => exact ⟨fun ⟨_, h⟩ => (nomatch h), False.elim⟩

/-- Where the parser returns and has read inside the string table, its dict has the values of the last entries. -/
theorem isLast_of_parseElf32Symbols {data : Bytes} {syms : Symbols} (h : (parseElf32Symbols data).2 = .ok syms)
    (hinside : ∀ t, readTables data = .ok t → ∀ r ∈ (parseElf32Symbols data).1, Inside t r) :
    ∃ t, readTables data = .ok t ∧ ∀ name value, syms.lookup name = some value → IsLast data t name value := by
  rw [parseElf32Symbols] at h hinside
  cases htables : readTables data with
  | error e =>
    rw [htables] at h
    cases h
  | ok t =>
    rw [htables] at h hinside
    refine ⟨t, rfl, fun name value hlookup => ?_⟩
    rcases lookup_readSymbols t.count 0 [] h (hinside t rfl) hlookup with hlast | ⟨hnil, -⟩
    · obtain ⟨k, -, hk, hname, hvalue, hlater⟩ := hlast
      exact ⟨k, by omega, hname, hvalue, fun j hj hlt => hlater j hlt (by omega)⟩
    · cases hnil

/-- **The symbols of the loader file.** Whatever the file has in it, the parser raises the one error or returns the
values of the last entries with the required names, read inside the string table, exactly when the file is whole as
far as it is read. -/
theorem resolveLoaderSymbols_meets_iff (file : Option Bytes) (required : List String) :
    Meets file required ↔ ∀ data, file = some data → FileWhole data := by
  cases file with
  | none =>
    refine ⟨fun _ => nofun, fun _ => ⟨fun e he => ?_, nofun, nofun⟩⟩
    cases he
    exact ⟨_, rfl⟩
  | some data =>
    constructor
    · rintro ⟨hraises, hinside, -⟩ data' hdata
      cases hdata
      rw [← clean_parseElf32Symbols]
      cases hparse : (parseElf32Symbols data).2 with
      | error e =>
        rw [resolveLoaderSymbols_error hparse] at hraises hinside
        exact ⟨(caught_eq_loaderError_iff e).mp (hraises _ rfl), fun t ht => hinside data t rfl ht⟩
      | ok syms =>
        rw [resolveLoaderSymbols_ok hparse] at hinside
        exact ⟨trivial, fun t ht => hinside data t rfl ht⟩
    · intro h
      obtain ⟨hends, hinside⟩ := clean_parseElf32Symbols.mpr (h data rfl)
      cases hparse : (parseElf32Symbols data).2 with
      | error e =>
        rw [hparse] at hends
        have hresolve := resolveLoaderSymbols_error hparse required
        refine ⟨fun e' he' => ?_, fun data' t hdata ht => ?_, fun symbols hsymbols => ?_⟩
        · rw [hresolve] at he'
          cases he'
          exact (caught_eq_loaderError_iff e).mpr hends
        · cases hdata
          rw [hresolve]
          exact hinside t ht
        · rw [hresolve] at hsymbols
          cases hsymbols
      | ok syms =>
        have hresolve := resolveLoaderSymbols_ok hparse required
        refine ⟨fun e' he' => ?_, fun data' t hdata ht => ?_, fun symbols hsymbols => ?_⟩
        · rw [hresolve] at he'
          exact select_error he'
        · cases hdata
          rw [hresolve]
          exact hinside t ht
        · rw [hresolve] at hsymbols
          obtain ⟨t, ht, hlast⟩ := isLast_of_parseElf32Symbols hparse hinside
          refine ⟨data, t, rfl, ht, fun name hname => ?_⟩
          obtain ⟨value, hvalue, hsyms⟩ := lookup_select hsymbols hname
          exact ⟨value, hvalue, hlast name value hsyms⟩

/-- A file of the four magic bytes is cut off before its class. -/
theorem magic_alone : ¬∀ (file : Option Bytes) (required : List String), Meets file required := by
  intro h
  have hraises := (h (some elfMagic) []).raises .indexError rfl
  obtain ⟨reason, hreason⟩ := hraises
  cases hreason

end Lager.Debug.LoaderSymbols
