import Lager.Device.CustomStore
import Lager.Lock.CiScope
import Lager.Nets.Atomic

/-!
# Assigning an instrument to a cable

`assign` of `devices/assign.py`, on the store of assignments and the saved nets. The payload is checked against the
catalog and the live cables; then the records that the cable has under another identity or with another instrument
are retired with their nets, and the nets that use the bare cable with them; only then does `add` read the baud rate.
What is deleted by then is gone when it raises (`assign_keeps_iff`).

Files are read and written without errors of the operating system.
-/

namespace Lager.Device

open Lager.Py Lager.Nets

/-- A live cable, by what `list_cables` shows of it. -/
structure Cable where
  vid : HexId
  pid : HexId
  serial : Option String
  portPath : String
  tty : String
  deriving DecidableEq

/-- The two files. -/
structure Saved where
  records : List Assignment
  nets : Table

/-! ### The checks -/

inductive AssignError
  | raised (e : PyErr)
  /-- "Unknown device" -/
  | unknownDevice (instrument : Json)
  /-- "Provide exactly one of a USB serial number or a USB port path." -/
  | notOneIdentity
  /-- "No USB-serial cable with … is currently connected." -/
  | notConnected (serial portPath : Json)
  /-- "Multiple connected cables match" -/
  | severalCables (ttys : List String)

/-- `_identity_from` -/
def identityFrom (payload : Dict) : Except AssignError (Json × Json) :=
  let serial := (Dict.get payload "serial").orElse .null
  let portPath := (Dict.get payload "port_path").orElse .null
  if serial.truthy = portPath.truthy then .error .notOneIdentity else .ok (serial, portPath)

def matchesCable (serial portPath : Json) (c : Cable) : Bool :=
  (serial.truthy && (optText c.serial).pyEq serial) || (portPath.truthy && (Json.str c.portPath).pyEq portPath)

/-- A text with a character in it; no other value equals the serial or the port of a cable. -/
def asName : Json → Option Name
  | .str s => if h : s ≠ "" then some ⟨s, h⟩ else none
  | _ => none

/-- What is known when the checks have passed. -/
structure Plan where
  instrument : String
  serial : Option Name
  portPath : Option Name
  cable : Cable

/-- `assign` up to `cable = matches[0]`. -/
def checked (env : Env) (cables : List Cable) (payload : Dict) : Except AssignError Plan :=
  match canonicalName env.lower (Dict.get payload "instrument") with
  | .error e => .error (.raised e)
  | .ok none => .error (.unknownDevice (Dict.get payload "instrument"))
  | .ok (some instrument) =>
    match identityFrom payload with
    | .error e => .error e
    | .ok (serial, portPath) =>
      match cables.filter (matchesCable serial portPath) with
      | [] => .error (.notConnected serial portPath)
      | [cable] => .ok ⟨instrument, asName serial, asName portPath, cable⟩
      | found => .error (.severalCables (found.map Cable.tty))

/-! ### What is retired -/

/-- The saved nets without those that `bound` holds of, with the names of the deleted ones. A table that cannot be
read is left, and one with old scope nets is converted by the reading. -/
def deleteNets (env : Env) (bound : Dict → Bool) (nets : Table) : List Json × Table :=
  match readTable env true nets with
  | .error _ => ([], nets)
  | .ok nets =>
    let deleted := (nets.filter bound).map (Dict.get · "name")
    if deleted = [] then ([], nets) else (deleted, nets.filter fun net => !bound net)

/-- `n.get("address") == address` -/
def boundTo (address : String) (net : Dict) : Bool := (Dict.get net "address").pyEq (.str address)

/-- `_delete_nets_for_address` -/
def deleteNetsForAddress (env : Env) (address : Option String) (nets : Table) : List Json × Table :=
  match given address with
  | none => ([], nets)
  | some address => deleteNets env (boundTo address) nets

/-- `references_cable` -/
def referencesCable (env : Env) (serial : String) (net : Dict) : Bool :=
  if !(Dict.get net "role").pyEq (.str "uart") then false
  else Lager.Lock.occursIn ("::".toList ++ (serial.toList ++ "::".toList))
      (env.str ((Dict.get net "address").orElse (.str ""))).toList ||
    decide (env.str (Dict.get net "pin") = serial)

/-- `_delete_uart_nets_for_cable` -/
def deleteUartNetsForCable (env : Env) (c : Cable) (nets : Table) : List Json × Table :=
  match given c.serial with
  | none => ([], nets)
  | some serial => deleteNets env (referencesCable env serial) nets

/-- `same_cable`, behind the comparison of the vendor and product numbers. -/
def sameCable (c : Cable) (old : Assignment) : Bool :=
  decide (old.vid.text = c.vid.text) && decide (old.pid.text = c.pid.text) &&
    (old.serial.any (fun serial => decide (c.serial = some serial.text)) ||
      old.portPath.any fun port => decide (c.portPath = port.text))

/-- `old_key == new_key` -/
def sameKey (plan : Plan) (old : Assignment) : Bool :=
  decide (old.serial = plan.serial ∧ old.portPath = plan.portPath)

/-- A record of the cable that does not stand: its identity or its instrument is another one. -/
def stale (plan : Plan) (old : Assignment) : Bool :=
  sameCable plan.cable old && !(sameKey plan old && decide (old.instrument = plan.instrument))

/-- The body of the loop over the stored records. -/
def retire (env : Env) (plan : Plan) (x : List Json × Saved) (old : Assignment) : List Json × Saved :=
  if stale plan old then
    let (names, nets) := deleteNetsForAddress env (addressFor old) x.2.nets
    (x.1 ++ names, ⟨if sameKey plan old then x.2.records else remove old x.2.records, nets⟩)
  else x

/-- The deletions before `add`. -/
def retireAll (env : Env) (plan : Plan) (saved : Saved) : List Json × Saved :=
  let (names, saved') := saved.records.foldl (retire env plan) ([], saved)
  let (uarts, nets) := deleteUartNetsForCable env plan.cable saved'.nets
  (names ++ uarts, ⟨saved'.records, nets⟩)

/-! ### The operation -/

/-- What `assign` returns; the roles and channels of the instrument are in the catalog. -/
structure Assigned where
  record : Assignment
  address : Option String
  tty : String
  deletedNets : List Json

/-- `assign` -/
def assign (env : Env) (cables : List Cable) (payload : Dict) (saved : Saved) : Except AssignError Assigned × Saved :=
  match checked env cables payload with
  | .error e => (.error e, saved)
  | .ok plan =>
    let (deleted, saved) := retireAll env plan saved
    match add env.lower plan.instrument plan.cable.vid plan.cable.pid plan.serial plan.portPath
        (Dict.get payload "baud") saved.records with
    | .error e => (.error (.raised e), saved)
    | .ok (record, records) =>
      (.ok ⟨record, addressFor record, plan.cable.tty, deleted⟩, { saved with records := records })

/-! ### What passes the checks -/

theorem canonicalName_mem {lower : String → String} {name : Json} {canonical : String}
    (h : canonicalName lower name = .ok (some canonical)) : canonical ∈ deviceCatalog := by
  unfold canonicalName at h
  split_ifs at h with htruthy
  · split at h
    · split_ifs at h with hmem
      · cases h
        exact hmem
      · exact List.mem_of_find?_eq_some (Except.ok.inj h)
    all_goals cases h
  · cases h

theorem canonicalName_self (lower : String → String) {canonical : String} (h : canonical ∈ deviceCatalog) :
    canonicalName lower (.str canonical) = .ok (some canonical) := by
  obtain rfl : canonical = "Rigol_DP711" := List.mem_singleton.mp h
  rfl

/-- Only a text with a character in it names a cable. -/
theorem asName_isSome {value shown : Json} (htruthy : value.truthy = true) (h : shown.pyEq value = true)
    (hshown : shown = .null ∨ ∃ s, shown = .str s) : (asName value).isSome := by
  have heq := Json.pyEq_symm h
  rcases hshown with rfl | ⟨s, rfl⟩
  · have hnull : value = .null := by
      have hcanon : value.canon = .null := (Json.pyEq_iff.mp heq).2
      cases value <;> simp_all [Json.canon]
    rw [hnull] at htruthy
    cases htruthy
  · obtain rfl := Json.pyEq_str.mp heq
    have hne : s ≠ "" := by
      rintro rfl
      cases htruthy
    rw [asName, dif_pos hne]
    rfl

theorem pinned_of_matchesCable {serial portPath : Json} {c : Cable} (h : matchesCable serial portPath c = true) :
    (asName serial).isSome ∨ (asName portPath).isSome := by
  rw [matchesCable, Bool.or_eq_true, Bool.and_eq_true, Bool.and_eq_true] at h
  rcases h with ⟨htruthy, heq⟩ | ⟨htruthy, heq⟩
  · refine Or.inl (asName_isSome htruthy heq ?_)
    cases c.serial with
    | none => exact Or.inl rfl
    | some s => exact Or.inr ⟨s, rfl⟩
  · exact Or.inr (asName_isSome htruthy heq (Or.inr ⟨c.portPath, rfl⟩))

theorem checked_spec {env : Env} {cables : List Cable} {payload : Dict} {plan : Plan}
    (h : checked env cables payload = .ok plan) :
    plan.instrument ∈ deviceCatalog ∧ (plan.serial.isSome ∨ plan.portPath.isSome) := by
  unfold checked at h
  split at h
  · cases h
  · cases h
  · rename_i instrument hname
    split at h
    · cases h
    · rename_i serial portPath hidentity
      split at h
      · cases h
      · rename_i cable hcables
        have hmem : cable ∈ cables.filter (matchesCable serial portPath) := hcables ▸ List.mem_singleton_self cable
        cases h
        exact ⟨canonicalName_mem hname, pinned_of_matchesCable (List.mem_filter.mp hmem).2⟩
      · cases h

/-- `add` refuses what passed the checks for its baud rate only. -/
theorem add_error_iff {env : Env} {cables : List Cable} {payload : Dict} {plan : Plan} {store : List Assignment}
    {e : PyErr} (h : checked env cables payload = .ok plan) :
    add env.lower plan.instrument plan.cable.vid plan.cable.pid plan.serial plan.portPath
      (Dict.get payload "baud") store = .error e ↔ baudOf (Dict.get payload "baud") = .error e := by
  obtain ⟨hinstrument, hpinned⟩ := checked_spec h
  rw [add, canonicalName_self env.lower hinstrument]
  dsimp only
  rw [dif_pos hpinned]
  cases baudOf (Dict.get payload "baud") with
  | error raised =>
    constructor
    · intro herror
      cases herror
      rfl
    · intro herror
      cases herror
      rfl
  | ok baud => exact ⟨nofun, nofun⟩

/-! ### What the deletions leave -/

theorem readTable_unpinned {env : Env} {nets : Table} (h : ∀ net ∈ nets, isPinned net = .ok false) :
    readTable env true nets = .ok nets := by
  rw [readTable, if_pos rfl, migrate_unpinned h]
  rfl

theorem isPinned_readTable {env : Env} {nets t : Table} (h : readTable env true nets = .ok t) :
    ∀ net ∈ t, isPinned net = .ok false := by
  rw [readTable, if_pos rfl] at h
  cases hmigrate : migrate env.lower nets with
  | error e =>
    rw [hmigrate] at h
    cases h
  | ok out =>
    rw [hmigrate] at h
    cases h
    exact isPinned_migrated hmigrate

theorem deleteNets_error {env : Env} {nets : Table} {e : PyErr} (h : readTable env true nets = .error e)
    (bound : Dict → Bool) : (deleteNets env bound nets).2 = nets := by
  rw [deleteNets, h]

theorem deleteNets_ok {env : Env} {nets t : Table} (h : readTable env true nets = .ok t) (bound : Dict → Bool) :
    (deleteNets env bound nets).2 = t.filter fun net => !bound net := by
  rw [deleteNets, h]
  dsimp only
  split_ifs with hnone
  · symm
    rw [List.filter_eq_self]
    intro net hnet
    rw [List.map_eq_nil_iff, List.filter_eq_nil_iff] at hnone
    rw [Bool.eq_false_iff.mpr (hnone net hnet)]
    rfl
  · rfl

/-- The nets after one deletion for each predicate. -/
def deleteEach (env : Env) (bounds : List (Dict → Bool)) (nets : Table) : Table :=
  bounds.foldl (fun nets bound => (deleteNets env bound nets).2) nets

theorem deleteEach_error {env : Env} {nets : Table} {e : PyErr} (h : readTable env true nets = .error e)
    (bounds : List (Dict → Bool)) : deleteEach env bounds nets = nets := by
  induction bounds with
  | nil => rfl
  | cons bound bounds ih =>
    rw [deleteEach, List.foldl_cons, deleteNets_error h]
    exact ih

theorem deleteEach_ok {env : Env} (bound : Dict → Bool) (bounds : List (Dict → Bool)) {nets t : Table}
    (h : readTable env true nets = .ok t) :
    deleteEach env (bound :: bounds) nets = t.filter fun net => (bound :: bounds).all fun bound => !bound net := by
  induction bounds generalizing bound nets t with
  | nil =>
    show (deleteNets env bound nets).2 = _
    rw [deleteNets_ok h]
    apply List.filter_congr
    intro net _
    rw [List.all_cons, List.all_nil, Bool.and_true]
  | cons next bounds ih =>
    have hread : readTable env true (t.filter fun net => !bound net) = .ok (t.filter fun net => !bound net) :=
      readTable_unpinned fun net hnet => isPinned_readTable h net (List.mem_filter.mp hnet).1
    show deleteEach env (next :: bounds) (deleteNets env bound nets).2 = _
    rw [deleteNets_ok h, ih next hread, List.filter_filter]
    apply List.filter_congr
    intro net _
    exact Bool.and_comm _ _

/-- Whether the deletions change the table: there are any, it can be read, and it had old scope nets or a net that
one of them is for. -/
def NetsTouched (env : Env) (bounds : List (Dict → Bool)) (nets : Table) : Prop :=
  ∃ t, readTable env true nets = .ok t ∧ bounds ≠ [] ∧ (t ≠ nets ∨ ∃ bound ∈ bounds, ∃ net ∈ t, bound net = true)

theorem deleteEach_eq_iff (env : Env) (bounds : List (Dict → Bool)) (nets : Table) :
    deleteEach env bounds nets = nets ↔ ¬NetsTouched env bounds nets := by
  cases bounds with
  | nil => exact ⟨fun _ ⟨t, _, hne, _⟩ => hne rfl, fun _ => rfl⟩
  | cons bound bounds =>
    cases hread : readTable env true nets with
    | error e =>
      rw [deleteEach_error hread]
      refine ⟨fun _ ⟨t, ht, _⟩ => ?_, fun _ => rfl⟩
      rw [hread] at ht
      cases ht
    | ok t =>
      rw [deleteEach_ok bound bounds hread]
      constructor
      · intro h
        rintro ⟨t', ht', -, htouched⟩
        rw [hread] at ht'
        cases ht'
        -- nothing that is left has an old scope net in it, so the table had none
        have hsame : t = nets := by
          have hunpinned : ∀ net ∈ nets, isPinned net = .ok false := fun net hnet =>
            isPinned_readTable hread net (List.mem_filter.mp (h ▸ hnet)).1
          rw [readTable_unpinned hunpinned] at hread
          exact (Except.ok.inj hread).symm
        rcases htouched with hne | ⟨found, hfound, net, hnet, hbound⟩
        · exact hne hsame
        · rw [← hsame, List.filter_eq_self] at h
          have hall := List.all_eq_true.mp (h net hnet) found hfound
          rw [hbound] at hall
          cases hall
      · intro h
        have hsame : t = nets := by
          by_contra hne
          exact h ⟨t, hread, List.cons_ne_nil _ _, Or.inl hne⟩
        conv_rhs => rw [← hsame]
        rw [List.filter_eq_self]
        intro net hnet
        rw [List.all_eq_true]
        intro found hfound
        cases hbound : found net with
        | false => rfl
        | true => exact absurd ⟨t, hread, List.cons_ne_nil _ _, Or.inr ⟨found, hfound, net, hnet, hbound⟩⟩ h

/-! ### What is retired, from the state before -/

/-- The nets that are deleted with a record: those with its address. -/
def netsOf (old : Assignment) : Option (Dict → Bool) := (given (addressFor old)).map boundTo

/-- What the nets that are deleted are bound to: the address of a record that does not stand, or the cable. -/
def retiredBounds (env : Env) (plan : Plan) (records : List Assignment) : List (Dict → Bool) :=
  (records.filter (stale plan)).filterMap netsOf ++ ((given plan.cable.serial).map (referencesCable env)).toList

/-- Whether a record goes with one of these old ones. -/
def goesWith (plan : Plan) (olds : List Assignment) (r : Assignment) : Bool :=
  olds.any fun old => stale plan old && !sameKey plan old && decide (r.key = old.key)

theorem deleteNetsForAddress_snd (env : Env) (old : Assignment) (nets : Table) :
    (deleteNetsForAddress env (addressFor old) nets).2 = deleteEach env (netsOf old).toList nets := by
  rw [deleteNetsForAddress, netsOf]
  cases given (addressFor old) <;> rfl

theorem deleteUartNetsForCable_snd (env : Env) (c : Cable) (nets : Table) :
    (deleteUartNetsForCable env c nets).2 =
      deleteEach env ((given c.serial).map (referencesCable env)).toList nets := by
  rw [deleteUartNetsForCable]
  cases given c.serial <;> rfl

theorem deleteEach_append (env : Env) (first second : List (Dict → Bool)) (nets : Table) :
    deleteEach env (first ++ second) nets = deleteEach env second (deleteEach env first nets) :=
  List.foldl_append

theorem filter_retired (plan : Plan) {old : Assignment} (hstale : stale plan old = true)
    (olds records : List Assignment) :
    ((if sameKey plan old then records else remove old records).filter fun r => !goesWith plan olds r) =
      records.filter fun r => !goesWith plan (old :: olds) r := by
  have hcons : ∀ r, goesWith plan (old :: olds) r =
      ((!sameKey plan old && decide (r.key = old.key)) || goesWith plan olds r) := fun r => by
    rw [goesWith, List.any_cons, hstale, Bool.true_and]
    rfl
  cases hkey : sameKey plan old with
  | true =>
    rw [if_pos rfl]
    apply List.filter_congr
    intro r _
    rw [hcons, hkey, Bool.not_true, Bool.false_and, Bool.false_or]
  | false =>
    rw [if_neg Bool.false_ne_true, remove, List.filter_filter]
    apply List.filter_congr
    intro r _
    rw [hcons, hkey, Bool.not_false, Bool.true_and, Bool.not_or, decide_not, Bool.and_comm]

theorem foldl_retire (env : Env) (plan : Plan) (olds : List Assignment) (x : List Json × Saved) :
    (olds.foldl (retire env plan) x).2 =
      ⟨x.2.records.filter fun r => !goesWith plan olds r,
        deleteEach env ((olds.filter (stale plan)).filterMap netsOf) x.2.nets⟩ := by
  induction olds generalizing x with
  | nil =>
    obtain ⟨names, records, nets⟩ := x
    have hall : (records.filter fun r => !goesWith plan [] r) = records := List.filter_eq_self.mpr fun r _ => rfl
    rw [hall]
    rfl
  | cons old olds ih =>
    rw [List.foldl_cons, ih]
    by_cases hstale : stale plan old = true
    · have hretire : (retire env plan x old).2 = ⟨if sameKey plan old then x.2.records else remove old x.2.records,
          (deleteNetsForAddress env (addressFor old) x.2.nets).2⟩ := by
        rw [retire, if_pos hstale]
      have hbounds : ∀ tail, (old :: tail).filterMap netsOf = (netsOf old).toList ++ tail.filterMap netsOf := by
        intro tail
        rw [List.filterMap_cons]
        cases netsOf old <;> rfl
      rw [hretire, deleteNetsForAddress_snd, List.filter_cons_of_pos hstale, hbounds, deleteEach_append,
        filter_retired plan hstale]
    · have hretire : retire env plan x old = x := by
        rw [retire, if_neg hstale]
      rw [hretire, List.filter_cons_of_neg hstale]
      congr 1
      apply List.filter_congr
      intro r _
      rw [goesWith, goesWith, List.any_cons, Bool.eq_false_iff.mpr hstale, Bool.false_and, Bool.false_and,
        Bool.false_or]

theorem retireAll_snd (env : Env) (plan : Plan) (saved : Saved) :
    (retireAll env plan saved).2 =
      ⟨saved.records.filter fun r => !goesWith plan saved.records r,
        deleteEach env (retiredBounds env plan saved.records) saved.nets⟩ := by
  have hfold := foldl_retire env plan saved.records ([], saved)
  show Saved.mk _ (deleteUartNetsForCable env plan.cable _).2 = _
  rw [hfold, deleteUartNetsForCable_snd, retiredBounds, deleteEach_append]

/-- **What `assign` changes before it reads the baud rate.** -/
def Touched (env : Env) (plan : Plan) (saved : Saved) : Prop :=
  (∃ old ∈ saved.records, stale plan old = true ∧ sameKey plan old = false) ∨
    NetsTouched env (retiredBounds env plan saved.records) saved.nets

theorem retireAll_eq_iff (env : Env) (plan : Plan) (saved : Saved) :
    (retireAll env plan saved).2 = saved ↔ ¬Touched env plan saved := by
  obtain ⟨records, nets⟩ := saved
  rw [retireAll_snd, Saved.mk.injEq, deleteEach_eq_iff, Touched, not_or]
  apply and_congr_left'
  rw [List.filter_eq_self]
  constructor
  · rintro h ⟨old, hold, hstale, hkey⟩
    have hkept := h old hold
    have hgoes : goesWith plan records old = true :=
      List.any_eq_true.mpr ⟨old, hold, by rw [hstale, hkey, decide_eq_true rfl]; rfl⟩
    rw [hgoes] at hkept
    cases hkept
  · intro h r _
    cases hgoes : goesWith plan records r with
    | false => rfl
    | true =>
      obtain ⟨old, hold, hboth⟩ := List.any_eq_true.mp hgoes
      rw [Bool.and_eq_true, Bool.and_eq_true] at hboth
      exact absurd ⟨old, hold, hboth.1.1, Bool.not_eq_true' _ ▸ hboth.1.2⟩ h

/-! ### A refused assignment -/

/-- **A refused assignment changes nothing, unless the baud rate is what it is refused for and there was something to
retire.** -/
theorem assign_keeps_iff (env : Env) (cables : List Cable) (payload : Dict) (saved : Saved) :
    (∀ e saved', assign env cables payload saved = (.error e, saved') → saved' = saved) ↔
      ∀ plan e, checked env cables payload = .ok plan → baudOf (Dict.get payload "baud") = .error e →
        ¬Touched env plan saved := by
  cases hchecked : checked env cables payload with
  | error refused =>
    constructor
    · intro _ plan e hplan
      cases hplan
    · intro _ e saved' h
      rw [assign, hchecked] at h
      cases h
      rfl
  | ok plan =>
    have hadd := fun e => @add_error_iff env cables payload plan (retireAll env plan saved).2.records e hchecked
    cases hbaud : baudOf (Dict.get payload "baud") with
    | error raised =>
      have hrefused : assign env cables payload saved = (.error (.raised raised), (retireAll env plan saved).2) := by
        rw [assign, hchecked]
        dsimp only
        rw [(hadd raised).mpr hbaud]
      constructor
      · intro h plan' e hplan _
        cases hplan
        exact (retireAll_eq_iff env plan saved).mp (h _ _ hrefused)
      · intro h e saved' hassign
        rw [hrefused] at hassign
        cases hassign
        exact (retireAll_eq_iff env plan saved).mpr (h plan raised rfl rfl)
    | ok baud =>
      constructor
      · intro _ _ _ _ hraised
        cases hraised
      · intro _ e saved' hassign
        rw [assign, hchecked] at hassign
        dsimp only at hassign
        split at hassign
        · rename_i e' herror
          rw [hadd, hbaud] at herror
          cases herror
        · cases hassign

/-- The cable with its serial, on the port its record was pinned to. -/
def replugged : Cable where
  vid := rigolCable.vid
  pid := rigolCable.pid
  serial := some "A"
  portPath := "1-1.2"
  tty := "/dev/ttyUSB0"

def pinnedByPort : Assignment :=
  { rigolCable with serial := none, portPath := some ⟨"1-1.2", by decide⟩, pinned := Or.inr rfl }

/-- The cable is assigned by its serial, with a baud rate that is no number: its record is gone. -/
theorem refused_assignment_changes :
    ¬∀ (env : Env) (cables : List Cable) (payload : Dict) (saved : Saved) (e : AssignError) (saved' : Saved),
      assign env cables payload saved = (.error e, saved') → saved' = saved := by
  intro h
  have hlost := h ⟨id, fun _ => "", fun _ => .null, fun _ => none⟩ [replugged]
    [("instrument", .str "Rigol_DP711"), ("serial", .str "A"), ("baud", .str "fast")] ⟨[pinnedByPort], []⟩
    (.raised .valueError) ⟨[], []⟩ rfl
  cases hlost

end Lager.Device
