import Lager.Nets.ScopeMigration

/-!
# What the scope migration does to a bench

The loop of `migrate` taken as a whole: every record is converted in its place and one instrument net is
added for each unit that had channels and none (`migrate_spec`). The main result reads the properties of the
migrated bench off that description, and `migrate_returns` says on which tables there is one.
-/

namespace Lager.Nets

open Lager.Py

attribute [local instance] lawfulBEq_unit

/-! ### What the loop does -/

section Loop

variable (lower : String → String)

/-- A pinned scope channel, for records that can be read. -/
def pinned (rec : Dict) : Bool := (isPinned rec).toOption.getD false

/-- An instrument net. -/
def instrument (rec : Dict) : Bool := (isInstrument rec).toOption.getD false

/-- What the loop puts in the place of a record. -/
def converted (rec : Dict) : Dict := if pinned rec then asChannel rec else rec

def unit? (rec : Dict) : Option (String × String) := (unitOf lower rec).toOption

/-- The units that have an instrument net. -/
def instrumentUnits (nets : List Dict) : List (String × String) := (nets.filter instrument).filterMap (unit? lower)

/-- The records an instrument net is built from: the first pinned channel of each unit that is not among
`units`. -/
def founders (units : List (String × String)) : List Dict → List Dict
  | [] => []
  | rec :: rest =>
    match pinned rec, unit? lower rec with
    | true, some unit =>
      if unit ∈ units then founders units rest else rec :: founders (units ++ [unit]) rest
    | _, _ => founders units rest

-- the equations of `founders`, for all the lemmas below
section
attribute [local simp] founders
end

variable {lower}

theorem pinned_eq {rec : Dict} {b : Bool} (h : isPinned rec = .ok b) : pinned rec = b := by
  rw [pinned, h]
  rfl

theorem instrument_eq {rec : Dict} {b : Bool} (h : isInstrument rec = .ok b) : instrument rec = b := by
  rw [instrument, h]
  rfl

theorem unit?_eq {rec : Dict} {unit : String × String} (h : unitOf lower rec = .ok unit) :
    unit? lower rec = some unit := by
  rw [unit?, h]
  rfl

/-- What one record does to the loop's variables. -/
theorem migrateOne_cases {p q : Pass} {rec : Dict} (h : migrateOne lower p rec = .ok q) :
    (isPinned rec = .ok false ∧ q = { p with migrated := p.migrated ++ [rec] }) ∨
    (∃ unit, isPinned rec = .ok true ∧ unitOf lower rec = .ok unit ∧ unit ∈ p.haveInstrument ∧
      q = { p with migrated := p.migrated ++ [asChannel rec] }) ∨
    (∃ unit, isPinned rec = .ok true ∧ unitOf lower rec = .ok unit ∧ unit ∉ p.haveInstrument ∧
      q = { taken := p.taken ++ [.str (uniqueName (stemOf rec) p.taken)]
            haveInstrument := p.haveInstrument ++ [unit]
            migrated := p.migrated ++ [asChannel rec]
            newInstruments := p.newInstruments ++ [instrumentNet rec (uniqueName (stemOf rec) p.taken)] }) := by
  unfold migrateOne at h
  cases hpin : isPinned rec with
  | error e => simp [hpin] at h
  | ok b =>
    cases b with
    | false =>
      simp only [hpin, Except.ok.injEq] at h
      exact .inl ⟨rfl, h.symm⟩
    | true =>
      cases hunit : unitOf lower rec with
      | error e => simp [hpin, hunit] at h
      | ok unit =>
        simp only [hpin, hunit] at h
        by_cases hmem : unit ∈ p.haveInstrument
        · rw [if_pos hmem, Except.ok.injEq] at h
          exact .inr (.inl ⟨unit, rfl, rfl, hmem, h.symm⟩)
        · rw [if_neg hmem, Except.ok.injEq] at h
          exact .inr (.inr ⟨unit, rfl, rfl, hmem, h.symm⟩)

/-- The whole loop: every record is converted in its place, and one net is added for each founder, under a name
of its own as long as there is room. -/
theorem migrateLoop_spec {nets : List Dict} {p q : Pass} (h : nets.foldlM (migrateOne lower) p = .ok q) :
    q.migrated = p.migrated ++ nets.map converted ∧
    ∃ names : List String, names.length = (founders lower p.haveInstrument nets).length ∧
      q.newInstruments = p.newInstruments ++
        List.zipWith instrumentNet (founders lower p.haveInstrument nets) names ∧
      (Room p.taken (founders lower p.haveInstrument nets) →
        names.Nodup ∧ ∀ name ∈ names, .str name ∉ p.taken) := by
  induction nets generalizing p with
  | nil =>
    cases h
    exact ⟨by simp, [], rfl, by simp [founders], by simp⟩
  | cons rec rest ih =>
    obtain ⟨u, hone, hrest⟩ := Lib.foldlM_cons_ok h
    obtain ⟨hmigrated, names, hlen, hnew, hfresh⟩ := ih hrest
    rcases migrateOne_cases hone with ⟨hpin, rfl⟩ | ⟨unit, hpin, hunit, hmem, rfl⟩ | ⟨unit, hpin, hunit, hmem, rfl⟩
    · have hfounders : founders lower p.haveInstrument (rec :: rest) = founders lower p.haveInstrument rest := by
        rw [founders, pinned_eq hpin]
      rw [hfounders]
      refine ⟨?_, names, hlen, hnew, hfresh⟩
      rw [hmigrated, List.map_cons, converted, pinned_eq hpin]
      simp
    · have hfounders : founders lower p.haveInstrument (rec :: rest) = founders lower p.haveInstrument rest := by
        rw [founders, pinned_eq hpin, unit?_eq hunit]
        exact if_pos hmem
      rw [hfounders]
      refine ⟨?_, names, hlen, hnew, hfresh⟩
      rw [hmigrated, List.map_cons, converted, pinned_eq hpin]
      simp
    · have hfounders : founders lower p.haveInstrument (rec :: rest) =
          rec :: founders lower (p.haveInstrument ++ [unit]) rest := by
        rw [founders, pinned_eq hpin, unit?_eq hunit]
        exact if_neg hmem
      rw [hfounders]
      refine ⟨?_, uniqueName (stemOf rec) p.taken :: names, by simpa using hlen, ?_, ?_⟩
      · rw [hmigrated, List.map_cons, converted, pinned_eq hpin]
        simp
      · rw [hnew]
        simp
      · intro hroom
        obtain ⟨hnot, hin⟩ := uniqueName_spec hroom.fresh
        obtain ⟨hnodup, hdisj⟩ := hfresh (hroom.tail hin)
        refine ⟨List.nodup_cons.mpr ⟨fun hname => ?_, hnodup⟩, ?_⟩
        · exact hdisj _ hname (by simp)
        · intro name hname
          rcases List.mem_cons.mp hname with rfl | hname
          · exact hnot
          · exact fun htaken => hdisj name hname (by simp [htaken])

theorem founders_pinned {units : List (String × String)} {nets : List Dict} {rec : Dict}
    (h : rec ∈ founders lower units nets) : rec ∈ nets ∧ pinned rec = true ∧ ∃ unit, unit? lower rec = some unit := by
  induction nets generalizing units with
  | nil => cases h
  | cons head rest ih =>
    rw [founders] at h
    split at h
    · rename_i unit hpin hunit
      split_ifs at h with hmem
      · obtain ⟨hrec, hrest⟩ := ih h
        exact ⟨List.mem_cons_of_mem _ hrec, hrest⟩
      · rcases List.mem_cons.mp h with rfl | h
        · exact ⟨List.mem_cons_self, hpin, unit, hunit⟩
        · obtain ⟨hrec, hrest⟩ := ih h
          exact ⟨List.mem_cons_of_mem _ hrec, hrest⟩
    · obtain ⟨hrec, hrest⟩ := ih h
      exact ⟨List.mem_cons_of_mem _ hrec, hrest⟩

/-- How many founders a unit has: one if it has a pinned channel and is not among `units`, else none. -/
theorem countP_founders (units : List (String × String)) (nets : List Dict) (unit : String × String) :
    (founders lower units nets).countP (fun rec => decide (unit? lower rec = some unit)) =
      if unit ∉ units ∧ ∃ rec ∈ nets, pinned rec = true ∧ unit? lower rec = some unit then 1 else 0 := by
  induction nets generalizing units with
  | nil => simp [founders]
  | cons head rest ih =>
    rw [founders]
    split
    · rename_i u hpin hunit
      split_ifs with hmem hcond hcond
      · rw [ih, if_pos]
        refine ⟨hcond.1, ?_⟩
        obtain ⟨rec, hrec, hp, hu⟩ := hcond.2
        rcases List.mem_cons.mp hrec with rfl | hrec
        · rw [hunit, Option.some.injEq] at hu
          exact absurd (hu ▸ hmem) hcond.1
        · exact ⟨rec, hrec, hp, hu⟩
      · rw [ih, if_neg]
        rintro ⟨hnot, rec, hrec, hrest⟩
        exact hcond ⟨hnot, rec, List.mem_cons_of_mem _ hrec, hrest⟩
      · rw [List.countP_cons, ih, hunit]
        obtain ⟨rec, hrec, hp, hu⟩ := hcond.2
        by_cases hsame : u = unit
        · subst hsame
          simp
        · rcases List.mem_cons.mp hrec with rfl | hrec
          · rw [hunit, Option.some.injEq] at hu
            exact absurd hu hsame
          · have hrest : unit ∉ units ++ [u] ∧ ∃ rec ∈ rest, pinned rec = true ∧ unit? lower rec = some unit :=
              ⟨by simp [hcond.1, Ne.symm hsame], rec, hrec, hp, hu⟩
            rw [if_pos hrest]
            simp [hsame]
      · rw [List.countP_cons, ih, hunit]
        have hsame : u ≠ unit := by
          rintro rfl
          exact hcond ⟨hmem, head, List.mem_cons_self, hpin, hunit⟩
        have hrest : ¬(unit ∉ units ++ [u] ∧ ∃ rec ∈ rest, pinned rec = true ∧ unit? lower rec = some unit) := by
          rintro ⟨hnot, rec, hrec, hr⟩
          exact hcond ⟨fun hin => hnot (by simp [hin]), rec, List.mem_cons_of_mem _ hrec, hr⟩
        rw [if_neg hrest]
        simp [hsame]
    · rename_i hnone
      rw [ih]
      congr 1
      refine propext (and_congr_right fun _ => ⟨?_, ?_⟩)
      · rintro ⟨rec, hrec, hr⟩
        exact ⟨rec, List.mem_cons_of_mem _ hrec, hr⟩
      · rintro ⟨rec, hrec, hp, hu⟩
        rcases List.mem_cons.mp hrec with rfl | hrec
        · exact absurd hu (hnone unit hp)
        · exact ⟨rec, hrec, hp, hu⟩

theorem needsMigration_false {nets : List Dict} :
    needsMigration nets = .ok false ↔ ∀ rec ∈ nets, isPinned rec = .ok false := by
  induction nets with
  | nil => simp [needsMigration]
  | cons rec rest ih =>
    rw [needsMigration, List.forall_mem_cons]
    cases hpin : isPinned rec with
    | error e => simp
    | ok b => cases b <;> simp [ih]

theorem takenNames_eq {nets : List Dict} {taken : List Json} (h : takenNames nets = .ok taken) :
    taken = nets.map fun rec => Dict.get rec "name" := by
  induction nets generalizing taken with
  | nil =>
    cases h
    rfl
  | cons rec rest ih =>
    cases hrest : takenNames rest with
    | error e =>
      rw [takenNames, hrest] at h
      split at h <;> cases h
    | ok others =>
      rw [takenNames, hrest] at h
      split at h
      · cases h
      · cases h
      · cases h
        rw [ih hrest, List.map_cons]

/-- The units with an instrument net, and that every record could be read for it. -/
theorem haveInstrument_eq {nets : List Dict} {units : List (String × String)}
    (h : haveInstrument lower nets = .ok units) :
    units = instrumentUnits lower nets ∧ ∀ rec ∈ nets, ∃ b, isInstrument rec = .ok b := by
  induction nets generalizing units with
  | nil =>
    cases h
    exact ⟨rfl, by simp⟩
  | cons rec rest ih =>
    rw [haveInstrument] at h
    cases hinst : isInstrument rec with
    | error e => simp [hinst] at h
    | ok b =>
      rw [instrumentUnits, List.filter_cons, instrument_eq hinst, List.forall_mem_cons]
      cases b with
      | false =>
        obtain ⟨hunits, hread⟩ := ih (by simpa only [hinst] using h)
        exact ⟨hunits, ⟨false, hinst⟩, hread⟩
      | true =>
        cases hunit : unitOf lower rec with
        | error e => simp [hinst, hunit] at h
        | ok unit =>
          cases hrest : haveInstrument lower rest with
          | error e => simp [hinst, hunit, hrest, Except.map] at h
          | ok others =>
            obtain ⟨hunits, hread⟩ := ih hrest
            refine ⟨?_, ⟨true, hinst⟩, hread⟩
            simp only [hinst, hunit, hrest, Except.map, Except.ok.injEq] at h
            rw [if_pos rfl, List.filterMap_cons_some (unit?_eq hunit), ← h, hunits]
            rfl

theorem founders_eq_nil {units : List (String × String)} {nets : List Dict}
    (h : ∀ rec ∈ nets, isPinned rec = .ok false) : founders lower units nets = [] := by
  induction nets with
  | nil => rfl
  | cons rec rest ih =>
    obtain ⟨hrec, hrest⟩ := List.forall_mem_cons.mp h
    rw [founders, pinned_eq hrec, ih hrest]

theorem isPinned_readable {rec : Dict} (h : ∃ b, isInstrument rec = .ok b) : ∃ b, isPinned rec = .ok b := by
  obtain ⟨b, hb⟩ := h
  by_cases hrole : Dict.get rec "role" = scopeRole
  · rw [isPinned_eq_not_isInstrument hrole, hb]
    exact ⟨!b, rfl⟩
  · exact ⟨false, if_neg hrole⟩

variable (lower) in
/-- The records that `migrate` builds an instrument net from. -/
def newUnits (nets : List Dict) : List Dict := founders lower (instrumentUnits lower nets) nets

/-- **What `migrate` returns.** The table with every record converted in its place, followed by one net for each
new unit. -/
theorem migrate_spec {nets out : List Dict} {changed : Bool} (h : migrate lower nets = .ok (out, changed)) :
    (∀ rec ∈ nets, ∃ b, isPinned rec = .ok b) ∧
    ∃ names : List String, names.length = (newUnits lower nets).length ∧
      out = nets.map converted ++ List.zipWith instrumentNet (newUnits lower nets) names ∧
      (Room (nets.map fun rec => Dict.get rec "name") (newUnits lower nets) →
        names.Nodup ∧ ∀ name ∈ names, .str name ∉ nets.map fun rec => Dict.get rec "name") := by
  unfold migrate at h
  cases hneeds : needsMigration nets with
  | error e => simp [hneeds] at h
  | ok b =>
    cases b with
    | false =>
      -- nothing to do: the loop would have left every record alone
      have hall := needsMigration_false.mp hneeds
      simp only [hneeds, Except.ok.injEq, Prod.mk.injEq] at h
      rw [newUnits, founders_eq_nil hall]
      refine ⟨fun rec hrec => ⟨false, hall rec hrec⟩, [], rfl, ?_, by simp⟩
      have hmap : nets.map converted = nets := by
        conv_rhs => rw [← List.map_id nets]
        refine List.map_congr_left fun rec hrec => ?_
        rw [converted, pinned_eq (hall rec hrec)]
        rfl
      rw [hmap, ← h.1]
      simp
    | true =>
      cases htaken : takenNames nets with
      | error e => simp [hneeds, htaken] at h
      | ok taken =>
        cases hunits : haveInstrument lower nets with
        | error e => simp [hneeds, htaken, hunits] at h
        | ok units =>
          cases hloop : nets.foldlM (migrateOne lower) ⟨taken, units, [], []⟩ with
          | error e => simp [hneeds, htaken, hunits, hloop, Except.map] at h
          | ok p =>
            simp only [hneeds, htaken, hunits, hloop, Except.map, Except.ok.injEq, Prod.mk.injEq] at h
            obtain ⟨hunits', hread⟩ := haveInstrument_eq hunits
            obtain ⟨hmigrated, names, hlen, hnew, hfresh⟩ := migrateLoop_spec hloop
            simp only [takenNames_eq htaken, hunits', List.nil_append] at hmigrated hlen hnew hfresh
            refine ⟨fun rec hrec => isPinned_readable (hread rec hrec), names, hlen, ?_, hfresh⟩
            rw [← h.1, hmigrated, hnew]
            rfl

variable (lower) in
/-- How many instrument nets a table has for a unit. -/
def instrumentCount (nets : List Dict) (unit : String × String) : Nat :=
  nets.countP fun rec => instrument rec && decide (unit? lower rec = some unit)

variable (lower) in
/-- A unit with pinned scope channels. -/
def HadChannels (nets : List Dict) (unit : String × String) : Prop :=
  ∃ rec ∈ nets, pinned rec = true ∧ unit? lower rec = some unit

instance (nets : List Dict) (unit : String × String) : Decidable (HadChannels lower nets unit) :=
  inferInstanceAs (Decidable (∃ rec ∈ nets, _))

theorem mem_instrumentUnits {nets : List Dict} {unit : String × String} :
    unit ∈ instrumentUnits lower nets ↔ 0 < instrumentCount lower nets unit := by
  rw [instrumentUnits, instrumentCount, List.countP_pos_iff]
  simp only [List.mem_filterMap, List.mem_filter, Bool.and_eq_true, decide_eq_true_eq]
  exact ⟨fun ⟨rec, ⟨h, hi⟩, hu⟩ => ⟨rec, h, hi, hu⟩, fun ⟨rec, h, hi, hu⟩ => ⟨rec, ⟨h, hi⟩, hu⟩⟩

theorem instrumentCount_append (a b : List Dict) (unit : String × String) :
    instrumentCount lower (a ++ b) unit = instrumentCount lower a unit + instrumentCount lower b unit :=
  List.countP_append

/-- Converting a record neither makes nor removes an instrument net. -/
theorem instrumentCount_converted {nets : List Dict} (hread : ∀ rec ∈ nets, ∃ b, isPinned rec = .ok b)
    (unit : String × String) : instrumentCount lower (nets.map converted) unit = instrumentCount lower nets unit := by
  rw [instrumentCount, instrumentCount, List.countP_map]
  refine List.countP_congr fun rec hrec => ?_
  obtain ⟨b, hb⟩ := hread rec hrec
  cases b with
  | false => simp [converted, pinned_eq hb]
  | true =>
    have hbefore := instrument_eq (isInstrument_of_isPinned hb)
    have hafter := instrument_eq (isInstrument_asChannel rec)
    simp [converted, pinned_eq hb, hbefore, hafter]

theorem instrumentCount_added {fs : List Dict} {names : List String} (hlen : names.length = fs.length)
    (unit : String × String) :
    instrumentCount lower (List.zipWith instrumentNet fs names) unit =
      fs.countP fun rec => decide (unit? lower rec = some unit) := by
  induction fs generalizing names with
  | nil => simp [instrumentCount]
  | cons rec fs ih =>
    cases names with
    | nil => simp at hlen
    | cons name names =>
      have hshorter : names.length = fs.length := by simpa using hlen
      have hrest := ih hshorter
      have hunit : unit? lower (instrumentNet rec name) = unit? lower rec := by
        rw [unit?, unitOf_instrumentNet, unit?]
      rw [instrumentCount] at hrest ⊢
      rw [List.zipWith_cons_cons, List.countP_cons, List.countP_cons, hrest, hunit,
        instrument_eq (isInstrument_instrumentNet rec name), Bool.true_and]

/-- One net for a unit that had channels and no instrument net, none for any other. -/
theorem instrumentCount_newUnits {nets : List Dict} {names : List String}
    (hlen : names.length = (newUnits lower nets).length) (unit : String × String) :
    instrumentCount lower (List.zipWith instrumentNet (newUnits lower nets) names) unit =
      if instrumentCount lower nets unit = 0 ∧ HadChannels lower nets unit then 1 else 0 := by
  rw [instrumentCount_added hlen, newUnits, countP_founders]
  refine if_congr (and_congr_left' ?_) rfl rfl
  rw [mem_instrumentUnits, Nat.pos_iff_ne_zero, not_not]

theorem isPinned_converted {rec : Dict} (h : ∃ b, isPinned rec = .ok b) : isPinned (converted rec) = .ok false := by
  obtain ⟨b, hb⟩ := h
  cases b with
  | false => rw [converted, pinned_eq hb, if_neg (by decide), hb]
  | true =>
    rw [converted, pinned_eq hb, if_pos rfl]
    exact isPinned_asChannel rec

theorem mem_zipWith_instrumentNet {fs : List Dict} {names : List String} {net : Dict}
    (h : net ∈ List.zipWith instrumentNet fs names) : ∃ rec name, net = instrumentNet rec name := by
  obtain ⟨i, hi, rfl⟩ := List.mem_iff_getElem.mp h
  rw [List.getElem_zipWith]
  exact ⟨_, _, rfl⟩

theorem map_name_zipWith {fs : List Dict} {names : List String} (hlen : names.length = fs.length) :
    (List.zipWith instrumentNet fs names).map (fun rec => Dict.get rec "name") = names.map Json.str := by
  induction fs generalizing names with
  | nil =>
    rw [List.length_eq_zero_iff.mp hlen]
    rfl
  | cons rec fs ih =>
    cases names with
    | nil => simp at hlen
    | cons name names =>
      rw [List.zipWith_cons_cons, List.map_cons, List.map_cons, get_instrumentNet_name,
        ih (by simpa using hlen)]

theorem kept_sublist_converted (nets : List Dict) :
    (nets.filter fun rec => !pinned rec).Sublist (nets.map converted) := by
  induction nets with
  | nil => exact List.Sublist.slnil
  | cons rec rest ih =>
    rw [List.filter_cons, List.map_cons]
    cases hpin : pinned rec with
    | true => exact ih.cons _
    | false =>
      have hsame : converted rec = rec := by rw [converted, hpin]; rfl
      rw [hsame]
      exact ih.cons_cons _

/-! ### When `migrate` returns -/

/-- A text, or a value that `or ""` replaces by one. -/
def Texty (value : Json) : Prop := value.truthy = false ∨ ∃ s, value = .str s

/-- A value that `int` does not overflow on. -/
def Bounded (raw : Json) : Prop := raw ≠ .float .posInf ∧ raw ≠ .float .negInf

/-- A mapping as `save_local_net` writes them. -/
def ReadableMapping (mapping : Json) : Prop :=
  ∃ m : Dict, mapping = .obj m ∧ Bounded (Dict.get m "pin") ∧ Bounded (Dict.get m "channel")

/-- A record the migration can read: a name that is not a container and, for a scope net, texts for the
instrument and the address, a list of dicts for the mappings, and no infinite pin. -/
structure Readable (rec : Dict) : Prop where
  name : (∀ xs, Dict.get rec "name" ≠ .arr xs) ∧ ∀ kvs, Dict.get rec "name" ≠ .obj kvs
  instrument : Dict.get rec "role" = scopeRole → Texty (Dict.get rec "instrument")
  address : Dict.get rec "role" = scopeRole → Texty (Dict.get rec "address")
  pin : Dict.get rec "role" = scopeRole → Bounded (Dict.get rec "pin")
  mappings : Dict.get rec "role" = scopeRole → (Dict.get rec "mappings").truthy = false ∨
    ∃ ms, Dict.get rec "mappings" = .arr ms ∧ ∀ m ∈ ms, ReadableMapping m

theorem pinValue_returns {raw : Json} (h : Bounded raw) : ∃ p, pinValue raw = .ok p := by
  unfold pinValue
  split_ifs with hnone
  · exact ⟨none, rfl⟩
  · cases raw with
    | float x =>
      cases x with
      | fin q => exact ⟨_, rfl⟩
      | nan => exact ⟨_, rfl⟩
      | posInf => exact absurd rfl h.1
      | negInf => exact absurd rfl h.2
    | str s =>
      simp only [intOf]
      cases intOfTextLimited s.toList with
      | some n => exact ⟨_, rfl⟩
      | none => exact ⟨_, rfl⟩
    | null => exact ⟨_, rfl⟩
    | bool b => exact ⟨_, rfl⟩
    | int n => exact ⟨_, rfl⟩
    | arr xs => exact ⟨_, rfl⟩
    | obj kvs => exact ⟨_, rfl⟩

theorem mappingsPin_returns {ms : List Json} (h : ∀ m ∈ ms, ReadableMapping m) : ∃ p, mappingsPin ms = .ok p := by
  induction ms with
  | nil => exact ⟨none, rfl⟩
  | cons mapping rest ih =>
    obtain ⟨⟨m, rfl, hpin, hchannel⟩, hrest⟩ := List.forall_mem_cons.mp h
    obtain ⟨p, hp⟩ := pinValue_returns hpin
    obtain ⟨c, hc⟩ := pinValue_returns hchannel
    obtain ⟨r, hr⟩ := ih hrest
    rw [mappingsPin, mappingPin, hp]
    cases p with
    | some found => exact ⟨_, rfl⟩
    | none =>
      simp only [hc]
      cases c with
      | some found => exact ⟨_, rfl⟩
      | none => exact ⟨r, hr⟩

theorem Readable.pinOf_returns {rec : Dict} (h : Readable rec) (hrole : Dict.get rec "role" = scopeRole) :
    ∃ p, pinOf rec = .ok p := by
  obtain ⟨direct, hdirect⟩ := pinValue_returns (h.pin hrole)
  rw [pinOf, hdirect]
  cases direct with
  | some found => exact ⟨_, rfl⟩
  | none =>
    rcases h.mappings hrole with hfalsy | ⟨ms, hms, hread⟩
    · rw [Json.orElse_of_not_truthy (by rw [hfalsy]; decide)]
      exact ⟨none, rfl⟩
    · rw [hms]
      by_cases htruthy : (Json.arr ms).truthy = true
      · rw [Json.orElse_of_truthy htruthy]
        exact mappingsPin_returns hread
      · rw [Json.orElse_of_not_truthy htruthy]
        exact ⟨none, rfl⟩

variable (lower)

theorem lowerOf_returns {value : Json} (h : Texty value) : ∃ s, lowerOf lower value = .ok s := by
  rw [lowerOf]
  rcases h with hfalsy | ⟨s, rfl⟩
  · rw [Json.orElse_of_not_truthy (by rw [hfalsy]; decide)]
    exact ⟨_, rfl⟩
  · by_cases htruthy : (Json.str s).truthy = true
    · rw [Json.orElse_of_truthy htruthy]
      exact ⟨_, rfl⟩
    · rw [Json.orElse_of_not_truthy htruthy]
      exact ⟨_, rfl⟩

theorem Readable.unitOf_returns {rec : Dict} (h : Readable rec) (hrole : Dict.get rec "role" = scopeRole) :
    ∃ unit, unitOf lower rec = .ok unit := by
  obtain ⟨i, hi⟩ := lowerOf_returns lower (h.instrument hrole)
  obtain ⟨a, ha⟩ := lowerOf_returns lower (h.address hrole)
  rw [unitOf, hi, ha]
  exact ⟨_, rfl⟩

theorem Readable.isPinned_returns {rec : Dict} (h : Readable rec) :
    ∃ b, isPinned rec = .ok b ∧ (b = true → Dict.get rec "role" = scopeRole) := by
  unfold isPinned
  split_ifs with hrole
  · obtain ⟨p, hp⟩ := h.pinOf_returns hrole
    rw [hp]
    exact ⟨p.isSome, rfl, fun _ => hrole⟩
  · exact ⟨false, rfl, by simp⟩

theorem Readable.isInstrument_returns {rec : Dict} (h : Readable rec) :
    ∃ b, isInstrument rec = .ok b ∧ (b = true → Dict.get rec "role" = scopeRole) := by
  unfold isInstrument
  split_ifs with hrole
  · obtain ⟨p, hp⟩ := h.pinOf_returns hrole
    rw [hp]
    exact ⟨p.isNone, rfl, fun _ => hrole⟩
  · exact ⟨false, rfl, by simp⟩

theorem migrateOne_returns {rec : Dict} (h : Readable rec) (p : Pass) : ∃ q, migrateOne lower p rec = .ok q := by
  obtain ⟨b, hb, hrole⟩ := h.isPinned_returns
  rw [migrateOne, hb]
  cases b with
  | false => exact ⟨_, rfl⟩
  | true =>
    obtain ⟨unit, hunit⟩ := h.unitOf_returns lower (hrole rfl)
    simp only [hunit]
    split_ifs
    · exact ⟨_, rfl⟩
    · exact ⟨_, rfl⟩

theorem needsMigration_returns {nets : List Dict} (h : ∀ rec ∈ nets, Readable rec) :
    ∃ b, needsMigration nets = .ok b := by
  induction nets with
  | nil => exact ⟨false, rfl⟩
  | cons rec rest ih =>
    obtain ⟨hrec, hrest⟩ := List.forall_mem_cons.mp h
    obtain ⟨b, hb, -⟩ := hrec.isPinned_returns
    rw [needsMigration, hb]
    cases b with
    | true => exact ⟨true, rfl⟩
    | false => exact ih hrest

theorem takenNames_returns {nets : List Dict} (h : ∀ rec ∈ nets, Readable rec) :
    ∃ taken, takenNames nets = .ok taken := by
  induction nets with
  | nil => exact ⟨[], rfl⟩
  | cons rec rest ih =>
    obtain ⟨hrec, hrest⟩ := List.forall_mem_cons.mp h
    obtain ⟨taken, htaken⟩ := ih hrest
    rw [takenNames, htaken]
    split
    · exact absurd ‹_› (hrec.name.1 _)
    · exact absurd ‹_› (hrec.name.2 _)
    · exact ⟨_, rfl⟩

theorem haveInstrument_returns {nets : List Dict} (h : ∀ rec ∈ nets, Readable rec) :
    ∃ units, haveInstrument lower nets = .ok units := by
  induction nets with
  | nil => exact ⟨[], rfl⟩
  | cons rec rest ih =>
    obtain ⟨hrec, hrest⟩ := List.forall_mem_cons.mp h
    obtain ⟨units, hunits⟩ := ih hrest
    obtain ⟨b, hb, hrole⟩ := hrec.isInstrument_returns
    rw [haveInstrument, hb]
    cases b with
    | false => exact ⟨units, hunits⟩
    | true =>
      obtain ⟨unit, hunit⟩ := hrec.unitOf_returns lower (hrole rfl)
      simp only [hunit, hunits]
      exact ⟨_, rfl⟩

/-- **The migration returns on every readable table.** -/
theorem migrate_returns {nets : List Dict} (h : ∀ rec ∈ nets, Readable rec) :
    ∃ out changed, migrate lower nets = .ok (out, changed) := by
  obtain ⟨b, hb⟩ := needsMigration_returns h
  rw [migrate, hb]
  cases b with
  | false => exact ⟨nets, false, rfl⟩
  | true =>
    obtain ⟨taken, htaken⟩ := takenNames_returns h
    obtain ⟨units, hunits⟩ := haveInstrument_returns lower h
    obtain ⟨p, hp⟩ := Lib.foldlM_returns (s := ⟨taken, units, [], []⟩)
      fun s rec hrec => migrateOne_returns lower (h rec hrec) s
    simp only [htaken, hunits, hp]
    exact ⟨_, _, rfl⟩

end Loop

/-! ### The migrated bench -/

theorem migrate_unchanged {lower : String → String} {nets out : List Dict}
    (h : migrate lower nets = .ok (out, false)) : out = nets := by
  unfold migrate at h
  split at h
  · cases h
  · cases h
    rfl
  · split at h
    · cases h
    · split at h
      · cases h
      · simp only [Except.map] at h
        split at h <;> cases h

theorem isPinned_migrated {lower : String → String} {nets out : List Dict} {changed : Bool}
    (h : migrate lower nets = .ok (out, changed)) : ∀ rec ∈ out, isPinned rec = .ok false := by
  obtain ⟨hread, names, -, rfl, -⟩ := migrate_spec h
  intro rec hrec
  rcases List.mem_append.mp hrec with hrec | hrec
  · obtain ⟨old, hold, rfl⟩ := List.mem_map.mp hrec
    exact isPinned_converted (hread old hold)
  · obtain ⟨old, name, rfl⟩ := mem_zipWith_instrumentNet hrec
    exact isPinned_instrumentNet old name

/-- A table without pinned scope channels is returned as it is. -/
theorem migrate_unpinned {lower : String → String} {nets : List Dict} (h : ∀ rec ∈ nets, isPinned rec = .ok false) :
    migrate lower nets = .ok (nets, false) := by
  rw [migrate, needsMigration_false.mpr h]

/-- **The migration preserves the bench.** It returns on every readable table. In the table it returns no
record is a pinned scope channel, the records that were not one are there unchanged and in their order, a unit
that had channels has the instrument nets it had before or else exactly one new one, any other unit gets none,
the added names differ from each other and from all others as long as there are free numbered names for the
new units, and a second migration finds nothing to do. -/
theorem migrate_preserves_bench (lower : String → String) (nets : List Dict) :
    ((∀ rec ∈ nets, Readable rec) → ∃ out changed, migrate lower nets = .ok (out, changed)) ∧
    ∀ out changed, migrate lower nets = .ok (out, changed) →
      (∀ rec ∈ out, pinned rec = false) ∧
      (nets.filter fun rec => !pinned rec).Sublist out ∧
      (∀ unit, HadChannels lower nets unit →
        instrumentCount lower out unit = max 1 (instrumentCount lower nets unit)) ∧
      (∀ unit, ¬HadChannels lower nets unit →
        instrumentCount lower out unit = instrumentCount lower nets unit) ∧
      (∃ added, out = nets.map converted ++ added ∧
        (Room (nets.map fun rec => Dict.get rec "name") (newUnits lower nets) →
          (added.map fun rec => Dict.get rec "name").Nodup ∧
          ∀ net ∈ added, ∀ rec ∈ nets, Dict.get net "name" ≠ Dict.get (converted rec) "name")) ∧
      needsMigration out = .ok false ∧
      migrate lower out = .ok (out, false) := by
  refine ⟨migrate_returns lower, fun out changed h => ?_⟩
  obtain ⟨hread, names, hlen, rfl, hfresh⟩ := migrate_spec h
  have hcount : ∀ unit, instrumentCount lower (nets.map converted ++
      List.zipWith instrumentNet (newUnits lower nets) names) unit = instrumentCount lower nets unit +
        if instrumentCount lower nets unit = 0 ∧ HadChannels lower nets unit then 1 else 0 := by
    intro unit
    rw [instrumentCount_append, instrumentCount_converted hread, instrumentCount_newUnits hlen]
  have hpinned := isPinned_migrated h
  refine ⟨fun rec hrec => pinned_eq (hpinned rec hrec), ?_, ?_, ?_, ⟨_, rfl, ?_⟩,
    needsMigration_false.mpr hpinned, migrate_unpinned hpinned⟩
  · exact (kept_sublist_converted nets).trans (List.sublist_append_left _ _)
  · intro unit hhad
    rw [hcount]
    split_ifs with hzero
    · omega
    · have hpos : instrumentCount lower nets unit ≠ 0 := fun h0 => hzero ⟨h0, hhad⟩
      omega
  · intro unit hhad
    rw [hcount, if_neg fun hc => hhad hc.2]
    omega
  · intro hroom
    obtain ⟨hnodup, hdisj⟩ := hfresh hroom
    have hnames := map_name_zipWith hlen
    refine ⟨?_, fun net hnet rec hrec heq => ?_⟩
    · rw [hnames]
      exact hnodup.map fun a b hab => Json.str.inj hab
    · have hin : Dict.get net "name" ∈ names.map Json.str := by
        rw [← hnames]
        exact List.mem_map_of_mem hnet
      obtain ⟨name, hname, hstr⟩ := List.mem_map.mp hin
      have hkept : Dict.get (converted rec) "name" = Dict.get rec "name" := by
        unfold converted
        split_ifs
        · exact get_asChannel (by decide)
        · rfl
      refine hdisj name hname (List.mem_map.mpr ⟨rec, hrec, ?_⟩)
      rw [← hkept, ← heq, hstr]

/-- `str.lower` on ASCII text. -/
def asciiLower (s : String) : String := String.ofList (s.toList.map Char.toLower)

/-- A net of a scope at an address. -/
def scopeNet (name instrument address : String) (pin : Int) : Dict :=
  [("name", .str name), ("role", scopeRole), ("instrument", .str instrument), ("address", .str address),
    ("pin", .int pin)]

theorem migrate_preserves_bench_picoscope :
    (∃ out, migrate asciiLower [scopeNet "vbus" "Picoscope 2204A" "usb:1" 1, scopeNet "reset" "Picoscope 2204A" "usb:1" 2]
        = .ok (out, true)) ∧
      ∀ out changed, migrate asciiLower
          [scopeNet "vbus" "Picoscope 2204A" "usb:1" 1, scopeNet "reset" "Picoscope 2204A" "usb:1" 2] =
            .ok (out, changed) → instrumentCount asciiLower out ("picoscope 2204a", "usb:1") = 1 := by
  refine ⟨⟨_, rfl⟩, fun out changed h => ?_⟩
  have hbench := (migrate_preserves_bench _ _).2 out changed h
  rw [hbench.2.2.1 _ (by decide +kernel)]
  decide +kernel

/-- A bench on which one unit was given two instrument nets by hand before one of its channels is migrated. -/
def twoInstruments : List Dict :=
  [scopeNet "scope1" "Rigol_MSO5204" "USB0::1" 0, scopeNet "scope2" "Rigol_MSO5204" "USB0::1" 0,
    scopeNet "vbus" "Rigol_MSO5204" "USB0::1" 1]

theorem uniqueName_of_all_taken {base : String} {taken : List Json} (h : ∀ c ∈ numbered base, .str c ∈ taken) :
    uniqueName base taken = base := by
  have hnone : (numbered base).find? (fun c => decide (Json.str c ∉ taken)) = none := by
    rw [List.find?_eq_none]
    intro c hc
    simp [h c hc]
  rw [uniqueName, hnone]
  rfl

theorem migrateLoop_unpinned {lower : String → String} {nets : List Dict} {p : Pass}
    (h : ∀ rec ∈ nets, isPinned rec = .ok false) :
    nets.foldlM (migrateOne lower) p = .ok { p with migrated := p.migrated ++ nets } := by
  induction nets generalizing p with
  | nil =>
    rw [List.append_nil]
    rfl
  | cons rec rest ih =>
    obtain ⟨hrec, hrest⟩ := List.forall_mem_cons.mp h
    have hone : migrateOne lower p rec = .ok { p with migrated := p.migrated ++ [rec] } := by
      rw [migrateOne, hrec]
    rw [List.foldlM_cons, hone]
    refine (ih hrest).trans ?_
    rw [List.append_assoc, List.singleton_append]

theorem migrateOne_new {lower : String → String} {p : Pass} {rec : Dict} {unit : String × String} {name : String}
    (hpin : isPinned rec = .ok true) (hunit : unitOf lower rec = .ok unit) (hmem : unit ∉ p.haveInstrument)
    (hname : uniqueName (stemOf rec) p.taken = name) :
    migrateOne lower p rec = .ok
      { taken := p.taken ++ [.str name]
        haveInstrument := p.haveInstrument ++ [unit]
        migrated := p.migrated ++ [asChannel rec]
        newInstruments := p.newInstruments ++ [instrumentNet rec name] } := by
  subst hname
  rw [migrateOne, hpin]
  simp only [hunit]
  rw [if_neg hmem]

section Crowded

variable {lower : String → String} {plain : List Dict} (hplain : ∀ rec ∈ plain, Dict.get rec "role" ≠ scopeRole)

include hplain

theorem needsMigration_plain (rest : List Dict) : needsMigration (plain ++ rest) = needsMigration rest := by
  induction plain with
  | nil => rfl
  | cons rec nets ih =>
    obtain ⟨hrec, hrest⟩ := List.forall_mem_cons.mp hplain
    rw [List.cons_append, needsMigration, isPinned, if_neg hrec, ih hrest]

theorem haveInstrument_plain (rest : List Dict) :
    haveInstrument lower (plain ++ rest) = haveInstrument lower rest := by
  induction plain with
  | nil => rfl
  | cons rec nets ih =>
    obtain ⟨hrec, hrest⟩ := List.forall_mem_cons.mp hplain
    rw [List.cons_append, haveInstrument, isInstrument, if_neg hrec, ih hrest]

theorem converted_plain : plain.map converted = plain := by
  conv_rhs => rw [← List.map_id plain]
  refine List.map_congr_left fun rec hrec => ?_
  rw [converted, pinned, isPinned, if_neg (hplain rec hrec)]
  rfl

/-- Two channels of two units after records that are no scope nets. -/
theorem migrate_two {taken : List Json} {r₁ r₂ : Dict} {u₁ u₂ : String × String} {name₁ name₂ : String}
    (htaken : takenNames (plain ++ [r₁, r₂]) = .ok taken) (hpin₁ : isPinned r₁ = .ok true)
    (hpin₂ : isPinned r₂ = .ok true) (hunit₁ : unitOf lower r₁ = .ok u₁) (hunit₂ : unitOf lower r₂ = .ok u₂)
    (hne : u₂ ≠ u₁) (hname₁ : uniqueName (stemOf r₁) taken = name₁)
    (hname₂ : uniqueName (stemOf r₂) (taken ++ [.str name₁]) = name₂) :
    migrate lower (plain ++ [r₁, r₂]) = .ok ((plain ++ [r₁, r₂]).map converted ++
      [instrumentNet r₁ name₁, instrumentNet r₂ name₂], true) := by
  have hneeds : needsMigration (plain ++ [r₁, r₂]) = .ok true := by
    rw [needsMigration_plain hplain, needsMigration, hpin₁]
  have hhave : haveInstrument lower (plain ++ [r₁, r₂]) = .ok [] := by
    rw [haveInstrument_plain hplain, haveInstrument, isInstrument_of_isPinned hpin₁, haveInstrument,
      isInstrument_of_isPinned hpin₂]
    rfl
  have hloop : plain.foldlM (migrateOne lower) ⟨taken, [], [], []⟩ = .ok ⟨taken, [], plain, []⟩ :=
    migrateLoop_unpinned fun rec hrec => by rw [isPinned, if_neg (hplain rec hrec)]
  have hfirst := migrateOne_new (p := ⟨taken, [], plain, []⟩) hpin₁ hunit₁ List.not_mem_nil hname₁
  have hsecond := migrateOne_new (p := ⟨taken ++ [.str name₁], [u₁], plain ++ [asChannel r₁],
    [instrumentNet r₁ name₁]⟩) hpin₂ hunit₂ (by simpa using hne) hname₂
  rw [migrate, hneeds, htaken, hhave]
  simp only [List.foldlM_append, hloop]
  simp only [List.nil_append] at hfirst
  simp only [List.foldlM_cons, List.foldlM_nil, bind, Except.bind, hfirst, hsecond, Except.map, List.map_append,
    converted_plain hplain]
  simp [converted, pinned_eq hpin₁, pinned_eq hpin₂, pure, Except.pure]

end Crowded

/-- 998 nets under the numbered names of one stem. -/
def crowd : List Dict :=
  (List.range' 1 998).map fun index => [("name", .str ("rigol" ++ toString index)), ("role", .str "gpio")]

/-- A bench on which 998 of the numbered names of a stem are taken and two units need one. -/
def crowded : List Dict := crowd ++ [scopeNet "rigol" "rigol" "USB0::1" 1, scopeNet "vbus" "rigol" "USB0::2" 1]

def crowdNames : List String := (List.range' 1 998).map fun index => "rigol" ++ toString index

theorem numbered_rigol : numbered "rigol" = crowdNames ++ ["rigol999"] := by
  rw [numbered, List.range'_concat, List.map_append]
  rfl

theorem takenNames_crowd {rest : List Dict} {names : List Json} (h : takenNames rest = .ok names) :
    takenNames (crowd ++ rest) = .ok (crowdNames.map .str ++ names) := by
  unfold crowd crowdNames
  generalize List.range' 1 998 = indices
  induction indices with
  | nil => exact h
  | cons index indices ih =>
    have hname : Dict.get [("name", .str ("rigol" ++ toString index)), ("role", .str "gpio")] "name" =
        .str ("rigol" ++ toString index) := rfl
    rw [List.map_cons, List.cons_append, takenNames, hname]
    simp only [ih]
    rfl

theorem crowd_free {extra : List Json} (h : .str "rigol999" ∉ extra) :
    Json.str "rigol999" ∉ crowdNames.map Json.str ++ extra := by
  have hnodup := numbered_nodup "rigol"
  rw [numbered_rigol, List.nodup_append] at hnodup
  intro hin
  rcases List.mem_append.mp hin with hin | hin
  · obtain ⟨c, hc, heq⟩ := List.mem_map.mp hin
    exact hnodup.2.2 c hc "rigol999" (List.mem_singleton.mpr rfl) (Json.str.inj heq)
  · exact h hin

/-- With 998 names taken, the first of two units gets the last free one and the second the bare stem. -/
theorem uniqueName_crowd (extra : List Json) (h : .str "rigol999" ∉ extra) :
    uniqueName "rigol" (crowdNames.map .str ++ extra) = "rigol999" ∧
    uniqueName "rigol" (crowdNames.map .str ++ extra ++ [.str "rigol999"]) = "rigol" := by
  have hcrowd : ∀ c ∈ crowdNames, Json.str c ∈ crowdNames.map Json.str ++ extra := by
    intro c hc
    exact List.mem_append_left _ (List.mem_map_of_mem hc)
  have hfree := crowd_free h
  constructor
  · have hlast : (["rigol999"].find? fun c => decide (Json.str c ∉ crowdNames.map Json.str ++ extra)) =
        some "rigol999" := List.find?_cons_of_pos (by simpa using hfree)
    rw [uniqueName, numbered_rigol, List.find?_append, List.find?_eq_none.mpr, Option.none_or, hlast]
    · rfl
    · intro c hc
      rw [decide_eq_true_eq, not_not]
      exact hcrowd c hc
  · apply uniqueName_of_all_taken
    intro c hc
    rw [numbered_rigol] at hc
    rcases List.mem_append.mp hc with hc | hc
    · exact List.mem_append_left _ (hcrowd c hc)
    · rw [List.mem_singleton.mp hc]
      exact List.mem_append_right _ (List.mem_singleton.mpr rfl)

theorem migrate_crowded :
    migrate asciiLower crowded = .ok (crowded.map converted ++
      [instrumentNet (scopeNet "rigol" "rigol" "USB0::1" 1) "rigol999",
        instrumentNet (scopeNet "vbus" "rigol" "USB0::2" 1) "rigol"], true) := by
  have hplain : ∀ rec ∈ crowd, Dict.get rec "role" ≠ scopeRole := by
    intro rec hrec
    obtain ⟨index, _, rfl⟩ := List.mem_map.mp hrec
    exact fun h => absurd (Json.str.inj h) (by decide)
  obtain ⟨hfirst, hsecond⟩ := uniqueName_crowd [.str "rigol", .str "vbus"] (by decide)
  have hunit₁ : unitOf asciiLower (scopeNet "rigol" "rigol" "USB0::1" 1) = .ok ("rigol", "usb0::1") := rfl
  have hunit₂ : unitOf asciiLower (scopeNet "vbus" "rigol" "USB0::2" 1) = .ok ("rigol", "usb0::2") := rfl
  exact migrate_two hplain (takenNames_crowd rfl) rfl rfl hunit₁ hunit₂ (by decide) hfirst hsecond

/-- Not exactly one instrument net: the unit of `twoInstruments` keeps its two. And with 998 names taken, which
is fewer than 999, a net added to `crowded` gets the name of a net that was there. -/
theorem migrate_not_exactly_one :
    (∃ out, migrate asciiLower twoInstruments = .ok (out, true) ∧
      HadChannels asciiLower twoInstruments ("rigol_mso5204", "usb0::1") ∧
      instrumentCount asciiLower out ("rigol_mso5204", "usb0::1") = 2) ∧
    takenCount (crowded.map fun rec => Dict.get rec "name") "rigol" < 999 ∧
    ∃ added net rec, migrate asciiLower crowded = .ok (crowded.map converted ++ added, true) ∧
      net ∈ added ∧ rec ∈ crowded ∧ Dict.get net "name" = Dict.get (converted rec) "name" := by
  refine ⟨⟨_, rfl, by decide +kernel, by decide +kernel⟩, ?_, _, _, scopeNet "rigol" "rigol" "USB0::1" 1,
    migrate_crowded, List.mem_cons_of_mem _ List.mem_cons_self, List.mem_append_right _ List.mem_cons_self, rfl⟩
  have hnames : (crowded.map fun rec => Dict.get rec "name") = crowdNames.map .str ++ [.str "rigol", .str "vbus"] :=
    (takenNames_eq (takenNames_crowd rfl)).symm
  have hlen : (numbered "rigol").length = 999 := by simp [numbered]
  rw [takenCount, hnames, ← hlen]
  refine lt_of_le_of_ne List.countP_le_length fun hall => ?_
  have hlast := List.countP_eq_length.mp hall "rigol999" (by rw [numbered_rigol]; simp)
  exact crowd_free (by decide) (of_decide_eq_true hlast)

end Lager.Nets
