import Mathlib.Data.List.Nodup
import Mathlib.Data.List.TakeWhile
import Lager.Lib.Fold
import Lager.Py.Number

/-!
# Scope nets: from channels to an instrument and its channels

`nets/scope_migration.py`. A saved net is a dict, and a table of them is what `saved_nets.json` holds. A net
with role `scope` and a pin is a channel saved before the split: `migrate` gives it the role `scope-channel`
and adds, once per physical unit, a pinless `scope` net that stands for the instrument. The code reads
records that were written by hand, so every function that can raise on a malformed one returns an `Except`.

`lower` is `str.lower` and stays a parameter: units are compared by it, and nothing depends on what it does.
-/

namespace Lager.Nets

open Lager.Py

/-- A unit is an instrument name and an address, compared as texts. -/
theorem lawfulBEq_unit : LawfulBEq (String × String) := inferInstance

attribute [local instance] lawfulBEq_unit

def scopeRole : Json := .str "scope"

def scopeChannelRole : Json := .str "scope-channel"

/-! ### Reading a record -/

/-- `_pin_value`. `TypeError` and `ValueError` are caught; an `OverflowError` is not. -/
def pinValue (raw : Json) : Except PyErr (Option Json) :=
  if raw = .null ∨ raw = .str "" then .ok none
  else match intOf raw with
    | .ok n => .ok (if n = 0 then none else some raw)
    | .error .typeError => .ok (some raw)
    | .error .valueError => .ok (some raw)
    | .error e => .error e

/-- One mapping of `pin_of`: its `pin`, then its `channel`. -/
def mappingPin : Json → Except PyErr (Option Json)
  | .obj mapping =>
    match pinValue (Dict.get mapping "pin") with
    | .error e => .error e
    | .ok (some found) => .ok (some found)
    | .ok none => pinValue (Dict.get mapping "channel")
  | _ => .error .attributeError

def mappingsPin : List Json → Except PyErr (Option Json)
  | [] => .ok none
  | mapping :: rest =>
    match mappingPin mapping with
    | .error e => .error e
    | .ok (some found) => .ok (some found)
    | .ok none => mappingsPin rest

/-- `pin_of`: the channel a record is wired to. -/
def pinOf (rec : Dict) : Except PyErr (Option Json) :=
  match pinValue (Dict.get rec "pin") with
  | .error e => .error e
  | .ok (some direct) => .ok (some direct)
  | .ok none =>
    match iterate ((Dict.get rec "mappings").orElse (.arr [])) with
    | .error e => .error e
    | .ok mappings => mappingsPin mappings

/-- `(value or "").lower()`. -/
def lowerOf (lower : String → String) (value : Json) : Except PyErr String :=
  match value.orElse (.str "") with
  | .str s => .ok (lower s)
  | _ => .error .attributeError

/-- `unit_of`: which physical scope a record belongs to. -/
def unitOf (lower : String → String) (rec : Dict) : Except PyErr (String × String) :=
  match lowerOf lower (Dict.get rec "instrument") with
  | .error e => .error e
  | .ok instrument => (lowerOf lower (Dict.get rec "address")).map fun address => (instrument, address)

/-- A scope net that carries a pin: a channel that predates the split. -/
def isPinned (rec : Dict) : Except PyErr Bool :=
  if Dict.get rec "role" = scopeRole then (pinOf rec).map Option.isSome else .ok false

/-- A scope net without a pin: an instrument. -/
def isInstrument (rec : Dict) : Except PyErr Bool :=
  if Dict.get rec "role" = scopeRole then (pinOf rec).map Option.isNone else .ok false

/-! ### Names -/

def isLetter (c : Char) : Bool := decide (('a' ≤ c ∧ c ≤ 'z') ∨ ('A' ≤ c ∧ c ≤ 'Z'))

/-- `_base_name`: the first run of letters, in lower case. -/
def baseName (instrument : String) : String :=
  let word := (instrument.toList.dropWhile fun c => !isLetter c).takeWhile isLetter
  if word = [] then "scope" else String.ofList (word.map Char.toLower)

/-- `_base_name(rec.get("instrument") or "")`. -/
def stemOf (rec : Dict) : String :=
  match (Dict.get rec "instrument").orElse (.str "") with
  | .str s => baseName s
  | _ => baseName ""

/-- The candidates of `_unique_name`, in the order they are tried. -/
def numbered (base : String) : List String := (List.range' 1 999).map fun index => base ++ toString index

/-- `_unique_name`. -/
def uniqueName (base : String) (taken : List Json) : String :=
  ((numbered base).find? fun candidate => decide (.str candidate ∉ taken)).getD base

/-! ### The migration -/

/-- `_instrument_net`. -/
def instrumentNet (rec : Dict) (name : String) : Dict :=
  let address := Dict.get rec "address"
  let uniqueId := Dict.get rec "unique_id"
  let mapping : Dict := [("net", .str name), ("pin", .int 0), ("location", .str "0")] ++
    (if address.truthy then [("device_override", address)] else [])
  [("name", .str name), ("role", scopeRole), ("instrument", (Dict.get rec "instrument").orElse (.str ""))] ++
    (if address.truthy then [("address", address)] else []) ++
    (if uniqueId.truthy then [("unique_id", uniqueId)] else []) ++
    [("mappings", .arr [.obj mapping]), ("scope_points", .arr [.arr [.int 0, .str "0"]])]

/-- `any(...)`: the records after the first pinned one are not looked at. -/
def needsMigration : List Dict → Except PyErr Bool
  | [] => .ok false
  | rec :: rest =>
    match isPinned rec with
    | .error e => .error e
    | .ok true => .ok true
    | .ok false => needsMigration rest

/-- `{rec.get("name") for rec in nets}`: a list or a dict cannot be put into a set. -/
def takenNames : List Dict → Except PyErr (List Json)
  | [] => .ok []
  | rec :: rest =>
    match Dict.get rec "name" with
    | .arr _ => .error .typeError
    | .obj _ => .error .typeError
    | name => (takenNames rest).map (name :: ·)

/-- The units that have an instrument net already. -/
def haveInstrument (lower : String → String) : List Dict → Except PyErr (List (String × String))
  | [] => .ok []
  | rec :: rest =>
    match isInstrument rec with
    | .error e => .error e
    | .ok false => haveInstrument lower rest
    | .ok true =>
      match unitOf lower rec with
      | .error e => .error e
      | .ok unit => (haveInstrument lower rest).map (unit :: ·)

/-- The variables of the loop in `migrate`. -/
structure Pass where
  taken : List Json
  haveInstrument : List (String × String)
  migrated : List Dict
  newInstruments : List Dict

/-- A channel record under its new role. -/
def asChannel (rec : Dict) : Dict := Dict.set rec "role" scopeChannelRole

/-- One record of the loop. -/
def migrateOne (lower : String → String) (p : Pass) (rec : Dict) : Except PyErr Pass :=
  match isPinned rec with
  | .error e => .error e
  | .ok false => .ok { p with migrated := p.migrated ++ [rec] }
  | .ok true =>
    match unitOf lower rec with
    | .error e => .error e
    | .ok unit =>
      if unit ∈ p.haveInstrument then .ok { p with migrated := p.migrated ++ [asChannel rec] }
      else
        let name := uniqueName (stemOf rec) p.taken
        .ok { taken := p.taken ++ [.str name]
              haveInstrument := p.haveInstrument ++ [unit]
              migrated := p.migrated ++ [asChannel rec]
              newInstruments := p.newInstruments ++ [instrumentNet rec name] }

/-- `migrate`: the records, and whether anything changed. -/
def migrate (lower : String → String) (nets : List Dict) : Except PyErr (List Dict × Bool) :=
  match needsMigration nets with
  | .error e => .error e
  | .ok false => .ok (nets, false)
  | .ok true =>
    match takenNames nets with
    | .error e => .error e
    | .ok taken =>
      match haveInstrument lower nets with
      | .error e => .error e
      | .ok units =>
        (nets.foldlM (migrateOne lower) ⟨taken, units, [], []⟩).map fun p =>
          (p.migrated ++ p.newInstruments, true)

/-! ### What the readers leave alone -/

theorem get_asChannel {rec : Dict} {key : String} (h : key ≠ "role") :
    Dict.get (asChannel rec) key = Dict.get rec key := Dict.get_set_ne _ _ h

theorem isPinned_asChannel (rec : Dict) : isPinned (asChannel rec) = .ok false := by
  rw [isPinned, asChannel, Dict.get_set_self, if_neg (by decide)]

theorem isInstrument_asChannel (rec : Dict) : isInstrument (asChannel rec) = .ok false := by
  rw [isInstrument, asChannel, Dict.get_set_self, if_neg (by decide)]

/-- A record is an instrument exactly when it is a scope net that is not pinned. -/
theorem isPinned_eq_not_isInstrument {rec : Dict} (h : Dict.get rec "role" = scopeRole) :
    isPinned rec = (isInstrument rec).map (!·) := by
  rw [isPinned, isInstrument, if_pos h, if_pos h]
  cases pinOf rec with
  | error e => rfl
  | ok p => cases p <;> rfl

theorem isInstrument_of_isPinned {rec : Dict} (h : isPinned rec = .ok true) : isInstrument rec = .ok false := by
  rw [isPinned] at h
  rw [isInstrument]
  split_ifs at h ⊢ with hrole
  · cases hp : pinOf rec with
    | error e => simp [hp, Except.map] at h
    | ok p => cases p <;> simp_all [Except.map]
  · rfl

section InstrumentNet

variable (lower : String → String) (rec : Dict) (name : String)

theorem get_instrumentNet_name : Dict.get (instrumentNet rec name) "name" = .str name := by
  simp [instrumentNet, Dict.get, Dict.get?]

theorem get_instrumentNet_role : Dict.get (instrumentNet rec name) "role" = scopeRole := by
  simp [instrumentNet, Dict.get, Dict.get?, List.lookup_cons]

theorem get_instrumentNet_instrument :
    Dict.get (instrumentNet rec name) "instrument" = (Dict.get rec "instrument").orElse (.str "") := by
  simp [instrumentNet, Dict.get, Dict.get?, List.lookup_cons]

theorem get_instrumentNet_address :
    Dict.get (instrumentNet rec name) "address" =
      if (Dict.get rec "address").truthy then Dict.get rec "address" else .null := by
  simp only [instrumentNet]
  generalize Dict.get rec "address" = address
  split_ifs <;> simp [Dict.get, Dict.get?, List.lookup_cons]

/-- The net of the instrument carries no pin. -/
theorem pinOf_instrumentNet : pinOf (instrumentNet rec name) = .ok none := by
  have hpin : Dict.get (instrumentNet rec name) "pin" = .null := by
    simp only [instrumentNet]
    split_ifs <;> simp [Dict.get, Dict.get?, List.lookup_cons]
  obtain ⟨extra, hmappings⟩ : ∃ extra : Dict, (extra = [] ∨ ∃ a, extra = [("device_override", a)]) ∧
      Dict.get (instrumentNet rec name) "mappings" =
        .arr [.obj ([("net", .str name), ("pin", .int 0), ("location", .str "0")] ++ extra)] := by
    simp only [instrumentNet]
    refine ⟨if (Dict.get rec "address").truthy then [("device_override", Dict.get rec "address")] else [], ?_, ?_⟩
    · split_ifs <;> simp
    · generalize Dict.get rec "address" = address
      generalize Dict.get rec "unique_id" = uniqueId
      split_ifs <;> simp [Dict.get, Dict.get?, List.lookup_cons]
  rw [pinOf, hpin, hmappings.2]
  rcases hmappings.1 with rfl | ⟨a, rfl⟩ <;>
    simp [pinValue, Json.orElse, Json.truthy, iterate, mappingsPin, mappingPin, Dict.get, Dict.get?, intOf,
      List.lookup_cons]

theorem isInstrument_instrumentNet : isInstrument (instrumentNet rec name) = .ok true := by
  rw [isInstrument, if_pos (get_instrumentNet_role rec name), pinOf_instrumentNet]
  rfl

theorem isPinned_instrumentNet : isPinned (instrumentNet rec name) = .ok false := by
  rw [isPinned, if_pos (get_instrumentNet_role rec name), pinOf_instrumentNet]
  rfl

theorem lowerOf_orElse (value : Json) : lowerOf lower (value.orElse (.str "")) = lowerOf lower value := by
  rw [lowerOf, lowerOf, Json.orElse_orElse]

/-- The net of the instrument belongs to the unit of the channel it was built from. -/
theorem unitOf_instrumentNet : unitOf lower (instrumentNet rec name) = unitOf lower rec := by
  have haddress : lowerOf lower (Dict.get (instrumentNet rec name) "address") =
      lowerOf lower (Dict.get rec "address") := by
    rw [get_instrumentNet_address]
    by_cases h : (Dict.get rec "address").truthy = true
    · rw [if_pos h]
    · rw [if_neg h, lowerOf, lowerOf, Json.orElse_of_not_truthy h]
      rfl
  rw [unitOf, unitOf, get_instrumentNet_instrument, lowerOf_orElse, haddress]

end InstrumentNet

/-! ### Fresh names -/

/-- A text without digits, as every stem is. -/
def Lettered (s : String) : Prop := ∀ c ∈ s.toList, c.isDigit = false

theorem isDigit_toLower_eq_false {c : Char} (h : isLetter c = true) : c.toLower.isDigit = false := by
  have hcode : ∀ n < 123, isLetter (Char.ofNat n) = true → (Char.ofNat n).toLower.isDigit = false := by decide
  have hlt : c.toNat < 123 := by
    simp only [isLetter, decide_eq_true_eq, Char.le_def, UInt32.le_iff_toNat_le] at h
    show c.val.toNat < 123
    rcases h with ⟨-, hz⟩ | ⟨-, hz⟩
    · exact Nat.lt_succ_of_le hz
    · exact Nat.lt_of_le_of_lt hz (by decide)
  have hc := hcode c.toNat hlt
  rw [Char.ofNat_toNat] at hc
  exact hc h

theorem lettered_baseName (instrument : String) : Lettered (baseName instrument) := by
  unfold baseName
  simp only
  split_ifs with h
  · show ∀ c ∈ "scope".toList, c.isDigit = false
    exact forall_char_mem (by decide)
  · intro c hc
    rw [String.toList_ofList, List.mem_map] at hc
    obtain ⟨d, hd, rfl⟩ := hc
    exact isDigit_toLower_eq_false (List.mem_takeWhile_imp hd)

theorem lettered_stemOf (rec : Dict) : Lettered (stemOf rec) := by
  unfold stemOf
  split
  · exact lettered_baseName _
  · exact lettered_baseName _

theorem toDigits_isDigit {n : Nat} {c : Char} (h : c ∈ (toString n).toList) : c.isDigit = true := by
  rw [Nat.toString_eq_repr, Nat.toList_repr] at h
  exact Nat.isDigit_of_mem_toDigits (by decide) (by decide) h

/-- A numbered name tells its stem. -/
theorem numbered_stem {a b : String} (ha : Lettered a) (hb : Lettered b) {i j : Nat}
    (h : a ++ toString i = b ++ toString j) : a = b := by
  have htake : ∀ (s : String) (n : Nat), Lettered s →
      (s ++ toString n).toList.takeWhile (fun c => !c.isDigit) = s.toList := by
    intro s n hs
    rw [String.toList_append, List.takeWhile_append_of_pos (fun c hc => by rw [hs c hc]; rfl)]
    have hrest : (toString n).toList.takeWhile (fun c => !c.isDigit) = [] := by
      rw [List.takeWhile_eq_nil_iff]
      intro hlen
      rw [toDigits_isDigit (List.get_mem _ ⟨0, hlen⟩)]
      decide
    rw [hrest, List.append_nil]
  have hlists := htake a i ha
  rw [h, htake b j hb] at hlists
  exact (String.toList_injective hlists).symm

theorem mem_numbered {base name : String} (h : name ∈ numbered base) : ∃ i : Nat, name = base ++ toString i := by
  obtain ⟨i, _, rfl⟩ := List.mem_map.mp h
  exact ⟨i, rfl⟩

theorem numbered_nodup (base : String) : (numbered base).Nodup := by
  refine List.Nodup.map ?_ List.nodup_range'
  intro i j h
  have hlists := congrArg String.toList h
  simp only [String.toList_append, List.append_cancel_left_eq, Nat.toString_eq_repr, Nat.toList_repr] at hlists
  have hparsed := congrArg (fun digits => Nat.ofDigitChars 10 digits 0) hlists
  simpa using hparsed

/-- How many of a stem's numbered names are taken. -/
def takenCount (taken : List Json) (stem : String) : Nat :=
  (numbered stem).countP fun candidate => decide (.str candidate ∈ taken)

theorem uniqueName_spec {base : String} {taken : List Json} (h : takenCount taken base < 999) :
    .str (uniqueName base taken) ∉ taken ∧ uniqueName base taken ∈ numbered base := by
  obtain ⟨name, hname⟩ : ∃ name, (numbered base).find? (fun c => decide (.str c ∉ taken)) = some name := by
    rw [← Option.isSome_iff_exists, List.find?_isSome]
    by_contra hnone
    have hall : ∀ c ∈ numbered base, decide (Json.str c ∈ taken) = true := by
      intro c hc
      by_contra hc'
      exact hnone ⟨c, hc, by simpa using hc'⟩
    have hlen := List.countP_eq_length.mpr hall
    rw [takenCount, hlen] at h
    simp [numbered] at h
  rw [uniqueName, hname, Option.getD_some]
  exact ⟨by simpa using List.find?_some hname, List.mem_of_find?_eq_some hname⟩

theorem countP_mem_append_singleton (l : List String) (hl : l.Nodup) (taken : List Json) (name : String) :
    l.countP (fun c => decide (.str c ∈ taken ++ [.str name])) ≤
      l.countP (fun c => decide (.str c ∈ taken)) + if name ∈ l then 1 else 0 := by
  induction l with
  | nil => simp
  | cons c l ih =>
    have hih := ih (List.nodup_cons.mp hl).2
    have hc := (List.nodup_cons.mp hl).1
    simp only [List.countP_cons, List.mem_append, List.mem_cons, List.not_mem_nil, or_false, Json.str.injEq,
      decide_eq_true_eq] at hih ⊢
    by_cases hname : name = c
    · subst hname
      rw [if_neg hc] at hih
      simp only [or_true, if_true, true_or]
      split_ifs <;> omega
    · simp only [hname, Ne.symm hname, false_or, or_false]
      omega

/-- There is a free numbered name for every record of `fs`: for each stem the names taken and the records that
will need one are at most 999 together. -/
def Room (taken : List Json) (fs : List Dict) : Prop :=
  ∀ rec ∈ fs, takenCount taken (stemOf rec) + fs.countP (fun other => decide (stemOf other = stemOf rec)) ≤ 999

theorem Room.fresh {taken : List Json} {rec : Dict} {fs : List Dict} (h : Room taken (rec :: fs)) :
    takenCount taken (stemOf rec) < 999 := by
  have hrec := h rec List.mem_cons_self
  rw [List.countP_cons_of_pos (by simp)] at hrec
  omega

/-- Taking a name of the first record's stem leaves room for the others. -/
theorem Room.tail {taken : List Json} {rec : Dict} {fs : List Dict} (h : Room taken (rec :: fs)) {name : String}
    (hname : name ∈ numbered (stemOf rec)) : Room (taken ++ [.str name]) fs := by
  intro other hother
  have hroom := h other (List.mem_cons_of_mem _ hother)
  have hcount := countP_mem_append_singleton (numbered (stemOf other)) (numbered_nodup _) taken name
  rw [List.countP_cons] at hroom
  unfold takenCount at hroom ⊢
  by_cases hstem : stemOf rec = stemOf other
  · simp only [hstem, decide_true, if_true] at hroom
    split_ifs at hcount <;> omega
  · have hnot : name ∉ numbered (stemOf other) := by
      intro hin
      obtain ⟨i, hi⟩ := mem_numbered hname
      obtain ⟨j, hj⟩ := mem_numbered hin
      exact hstem (numbered_stem (lettered_stemOf rec) (lettered_stemOf other) (hi.symm.trans hj))
    rw [if_neg hnot] at hcount
    simp only [hstem, decide_false, Bool.false_eq_true, if_false] at hroom
    omega

end Lager.Nets
