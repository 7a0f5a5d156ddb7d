import Lager.Nets.Concurrent
import Lager.Nets.Writes

/-!
# When a write fails

An operation on the saved nets that fails because a write raises should leave the file and every later read as they
were. That is so exactly when no write of the operation before the failing one has changed the file, and the cache
still holds what it held: a rename has already changed the records, unless they are copies that the migration made
(`failed_write_iff`).
-/

namespace Lager.Nets.Writes

open Lager.Py
open Lager.Nets.Cache

/-! ### What a read sees -/

def answerMap {ν μ : Type} (f : ν → μ) : Answer ν → Answer μ
  | .nets values => .nets (values.map f)
  | .net value => .net (value.map f)
  | .none => .none

/-- What a call returns, as records. -/
def sees (file : File) (m : Memory) (c : Call) : Except PyErr (Answer Json) :=
  (m.call file c).1.map (answerMap (Lib.Heap.read (m.call file c).2.objects))

/-- What the call returns of a list that was just loaded. -/
def tableAnswer (items : List Json) (c : Call) : Except PyErr (Answer Json) :=
  match indexBy id items with
  | .error e => .error e
  | .ok index => answerOf id items index c

def afterCalls (file : File) (m : Memory) (calls : List Call) : Memory :=
  calls.foldl (fun m c => (m.call file c).2) m

/-- The file holds the table, and after any calls of the cache so do all reads: those of the cache, and
`get_local_nets` with old scope nets converted, whatever becomes of its own write. -/
def Unchanged (env : Env) (s : Process) (table : Table) : Prop :=
  s.file.content = .json (.arr (table.map Json.obj)) ∧
    ∀ calls : List Call,
      (∀ c, c ≠ .invalidate → sees s.file (afterCalls s.file s.memory calls) c = tableAnswer (table.map Json.obj) c) ∧
      ∀ writes out changed, migrate env.lower table = .ok (out, changed) →
        ∃ refs s', getLocalNets env ⟨s.file, afterCalls s.file s.memory calls, writes⟩ = (.ok refs, s') ∧
          Lib.Heap.readAll s'.memory.objects refs = out.map Json.obj

section Answers

variable {ν : Type} (item : ν → Json)

def mapIndex (index : List (Json × ν)) : List (Json × Json) := index.map fun entry => (entry.1, item entry.2)

theorem insertKey_map (index : List (Json × ν)) (name : Json) (value : ν) :
    mapIndex item (insertKey index name value) = insertKey (mapIndex item index) name (item value) := by
  induction index with
  | nil => rfl
  | cons entry rest ih =>
    obtain ⟨key, old⟩ := entry
    have hcons : mapIndex item ((key, old) :: rest) = (key, item old) :: mapIndex item rest := rfl
    rw [hcons, insertKey, insertKey]
    split_ifs
    · rfl
    · exact congrArg _ ih

/-- The index of the records behind the values. -/
theorem indexBy_map (values : List ν) :
    indexBy id (values.map item) = (indexBy item values).map (mapIndex item) := by
  have hnil : mapIndex item ([] : List (Json × ν)) = [] := rfl
  rw [indexBy, indexBy, ← hnil]
  refine Lib.foldlM_simulates (fun index value => ?_) [] values
  dsimp only [id]
  cases indexKey (item value) with
  | error e => rfl
  | ok key =>
    cases key with
    | none => rfl
    | some name => exact congrArg Except.ok (insertKey_map item index name value).symm

theorem indexed_map (index : List (Json × ν)) (name : String) :
    indexed (mapIndex item index) name = (indexed index name).map item := by
  rw [indexed, indexed, mapIndex, List.find?_map, Option.map_map, Option.map_map]
  rfl

theorem findRole_map (name role : String) (values : List ν) :
    findRole id name role (values.map item) = (findRole item name role values).map (Option.map item) := by
  induction values with
  | nil => rfl
  | cons value values ih =>
    rw [List.map_cons, findRole, findRole, id]
    split
    · split_ifs
      · rfl
      · exact ih
    · rfl

theorem answerOf_map (values : List ν) (index : List (Json × ν)) (c : Call) :
    answerOf id (values.map item) (mapIndex item index) c = (answerOf item values index c).map (answerMap item) := by
  cases c with
  | getNets => rfl
  | invalidate => rfl
  | findByName name =>
    rw [answerOf, answerOf, indexed_map]
    rfl
  | findByNameAndRole name role =>
    have hloop : (findRole id name role (values.map item)).map Answer.net =
        ((findRole item name role values).map Answer.net).map (answerMap item) := by
      rw [findRole_map]
      cases findRole item name role values <;> rfl
    rw [answerOf, answerOf, indexed_map]
    cases indexed index name with
    | none => exact hloop
    | some value =>
      dsimp only [Option.map_some, id]
      cases sameRole role (item value) with
      | error e => rfl
      | ok same =>
        cases same with
        | false => exact hloop
        | true => rfl

end Answers

/-! ### A cache that holds the file -/

/-- The cache holds the list of the file in objects of its heap. -/
structure Holds (file : File) (m : Memory) (refs : List Nat) : Prop extends Loaded file m refs where
  valid : Lib.Heap.Valid m.objects refs

theorem Holds.indexBy {file : File} {m : Memory} {refs : List Nat} (h : Holds file m refs) :
    indexBy id file.content.items = .ok (mapIndex (Lib.Heap.read m.objects) m.index) := by
  have hindex : Cache.indexBy (Lib.Heap.read m.objects) refs = .ok m.index := h.index
  rw [← h.items, Lib.Heap.readAll, indexBy_map, hindex]
  rfl

/-- A load that returns. -/
theorem holds_of_load {file : File} {m m' : Memory} (h : m.load file.content.items file.mtime = (.ok (), m')) :
    m'.mtime = file.mtime ∧ ∃ refs, Holds file m' refs := by
  have hread := Lib.Heap.readAll_fresh m.objects file.content.items
  have hvalid := Lib.Heap.valid_fresh m.objects file.content.items
  simp only [Memory.load] at h
  split at h
  · cases h
  · rename_i index hindex
    cases h
    exact ⟨rfl, _, ⟨rfl, hread, hindex⟩, hvalid⟩

/-- The index can be built of any copy of the list. -/
theorem load_returns {m : Memory} {items : List Json} {index : List (Json × Json)} (h : indexBy id items = .ok index)
    (mtime : Nat) : ∃ m', m.load items mtime = (.ok (), m') := by
  have hmap := indexBy_map (Lib.Heap.read (m.objects ++ items)) (Lib.Heap.fresh m.objects items)
  have hread : (Lib.Heap.fresh m.objects items).map (Lib.Heap.read (m.objects ++ items)) = items :=
    Lib.Heap.readAll_fresh m.objects items
  rw [hread, h] at hmap
  cases hbuild : indexBy (Lib.Heap.read (m.objects ++ items)) (Lib.Heap.fresh m.objects items) with
  | error e =>
    rw [hbuild] at hmap
    cases hmap
  | ok built =>
    have hbuilt : buildIndex (m.objects ++ items) (Lib.Heap.fresh m.objects items) = .ok built := hbuild
    refine ⟨⟨m.objects ++ items, some (Lib.Heap.fresh m.objects items), mtime, built⟩, ?_⟩
    simp only [Memory.load, hbuilt]

section Reads

variable {file : File} {items : List Json} (hcontent : file.content = .json (.arr items))

include hcontent

theorem reload_json (m : Memory) :
    m.reload file = if file.mtime ≠ m.mtime then m.load file.content.items file.mtime else (.ok (), m) := by
  rw [Memory.reload, hcontent]

theorem reload_holds {m : Memory} {refs : List Nat} (h : Holds file m refs) :
    ∃ m' refs', m.reload file = (.ok (), m') ∧ Holds file m' refs' := by
  rw [reload_json hcontent]
  split_ifs
  · obtain ⟨m', hload⟩ := load_returns (m := m) h.indexBy file.mtime
    obtain ⟨-, refs', hholds⟩ := holds_of_load hload
    exact ⟨m', refs', hload, hholds⟩
  · exact ⟨m, refs, rfl, h⟩

theorem call_holds {m : Memory} {refs : List Nat} (h : Holds file m refs) (c : Call) :
    ∃ refs', Holds file (m.call file c).2 refs' := by
  by_cases hc : c = .invalidate
  · subst hc
    exact ⟨refs, ⟨h.nets, h.items, h.index⟩, h.valid⟩
  · obtain ⟨m', refs', hreload, hholds⟩ := reload_holds hcontent h
    rw [call_of_ok hc hreload]
    exact ⟨refs', hholds⟩

theorem afterCalls_holds {m : Memory} {refs : List Nat} (h : Holds file m refs) (calls : List Call) :
    ∃ refs', Holds file (afterCalls file m calls) refs' := by
  induction calls generalizing m refs with
  | nil => exact ⟨refs, h⟩
  | cons c calls ih =>
    obtain ⟨refs', hholds⟩ := call_holds hcontent h c
    exact ih hholds

/-- A cache that holds the file answers with the file. -/
theorem sees_of_holds {m : Memory} {refs : List Nat} (h : Holds file m refs) {c : Call} (hc : c ≠ .invalidate) :
    sees file m c = tableAnswer items c := by
  obtain ⟨m', refs', hreload, hholds⟩ := reload_holds hcontent h
  have hitems : file.content.items = items := by
    rw [hcontent]
    rfl
  have hheld : m'.held = refs' := by
    rw [Memory.held, hholds.nets]
    rfl
  have hindex := hholds.indexBy
  rw [hitems] at hindex
  rw [sees, call_of_ok hc hreload, tableAnswer, hindex]
  dsimp only
  rw [Memory.answer, hheld, ← answerOf_map, ← hitems, ← hholds.items]
  rfl

end Reads

/-! ### Reading the table -/

/-- The file holds the table, and the cache too if it remembers the time of the file. -/
structure Coherent (s : Process) (table : Table) : Prop where
  content : s.file.content = .json (.arr (table.map Json.obj))
  loaded : s.memory.mtime = s.file.mtime → ∃ refs, Holds s.file s.memory refs

/-- The list of the cache refers to objects of its heap. -/
def ValidList (m : Memory) : Prop := ∀ refs, m.nets = some refs → Lib.Heap.Valid m.objects refs

theorem validList_load {m : Memory} (items : List Json) (mtime : Nat) : ValidList (m.load items mtime).2 := by
  have hvalid := Lib.Heap.valid_fresh m.objects items
  intro refs hrefs
  simp only [Memory.load] at hrefs ⊢
  split at hrefs
  · cases hrefs
    exact hvalid
  · cases hrefs
    exact hvalid

theorem validList_reload {file : File} {m : Memory} (h : ValidList m) : ValidList (m.reload file).2 := by
  have hempty : ∀ objects index mtime, ValidList ⟨objects, some [], mtime, index⟩ := by
    intro objects index mtime refs hrefs
    cases hrefs
    exact fun ref href => by cases href
  rw [Memory.reload]
  split
  · exact hempty _ _ _
  · dsimp only
    split_ifs
    · exact hempty _ _ _
    · exact h
  · split_ifs
    · exact h
    · exact h
  · split_ifs
    · exact validList_load _ _
    · exact h

theorem validList_call {file : File} {m : Memory} (h : ValidList m) (c : Call) : ValidList (m.call file c).2 := by
  by_cases hc : c = .invalidate
  · subst hc
    exact h
  · have hvalid := @validList_reload file m h
    cases hreload : m.reload file with
    | mk r m' =>
      rw [hreload] at hvalid
      cases r with
      | error e =>
        rw [call_of_error hc hreload]
        exact hvalid
      | ok _ =>
        rw [call_of_ok hc hreload]
        exact hvalid

/-- The cache is coherent in every run of replacements that can be indexed and calls. -/
theorem coherent_reachable {es : List Cache.Event} {w : World} {table : Table}
    (hsane : Lib.Along Cache.step Sane Cache.start es) (hrun : Lib.run Cache.step Cache.start es = some w)
    (hcontent : w.file.content = .json (.arr (table.map Json.obj))) (writes : List (Option Nat)) :
    Coherent ⟨w.file, w.memory, writes⟩ table := by
  have hvalid : ValidList w.memory := by
    refine Lib.run_preserves (fun w : World => ValidList w.memory) (fun w e w' h hstep => ?_) ?_ hrun
    · cases e with
      | replaced file =>
        cases hstep
        exact h
      | called c =>
        cases hstep
        exact validList_call h c
    · exact fun refs hrefs => by cases hrefs
  refine ⟨hcontent, fun hmtime => ?_⟩
  have hpresent : w.file.content ≠ .absent := by
    rw [hcontent]
    simp
  obtain ⟨-, refs, hloaded⟩ := (inv_reachable hsane hrun).loaded hpresent hmtime
  exact ⟨refs, hloaded, hvalid refs hloaded.nets⟩

/-- A table with one net, and a call that loads it. -/
def loadedLed : List Cache.Event := [.replaced ⟨.json (.arr [ledNet]), 1⟩, .called .getNets]

theorem coherent_loadedLed :
    ∃ w, Lib.run Cache.step Cache.start loadedLed = some w ∧ w.memory.mtime = 1 ∧
      Coherent ⟨w.file, w.memory, [some 2]⟩ [[("name", .str "led"), ("role", .str "gpio")]] := by
  have hsane : Lib.Along Cache.step Sane Cache.start loadedLed := by decide +kernel
  exact ⟨_, rfl, rfl, coherent_reachable hsane rfl rfl [some 2]⟩

theorem Coherent.items {s : Process} {table : Table} (h : Coherent s table) :
    s.file.content.items = table.map Json.obj := by
  rw [h.content]
  rfl

theorem getNets_spec {s s' : Process} {table : Table} {refs : List Nat} (h : Coherent s table)
    (hget : getNets s = (.ok refs, s')) :
    s' = { s with memory := s'.memory } ∧ s'.memory.mtime = s.file.mtime ∧ Holds s.file s'.memory refs := by
  have hreload := reload_json h.content s.memory
  have hheld : ∀ {m : Memory} {refs : List Nat}, Holds s.file m refs → m.held = refs := by
    intro m refs hholds
    rw [Memory.held, hholds.nets]
    rfl
  rw [getNets] at hget
  split at hget
  · cases hget
  · rename_i m hok
    cases hget
    refine ⟨rfl, ?_⟩
    rw [hreload] at hok
    split_ifs at hok with hmtime
    · obtain ⟨hm, refs, hholds⟩ := holds_of_load hok
      rw [hheld hholds]
      exact ⟨hm, hholds⟩
    · rw [not_not] at hmtime
      cases hok
      obtain ⟨refs, hholds⟩ := h.loaded hmtime.symm
      rw [hheld hholds]
      exact ⟨hmtime.symm, hholds⟩

theorem asDicts_obj (table : Table) : asDicts (table.map Json.obj) = .ok table := by
  rw [asDicts, Lib.mapM_ok_iff, List.forall₂_map_left_iff]
  exact List.forall₂_same.mpr fun net _ => rfl

theorem records_eq {s : Process} {refs : List Nat} {table : Table}
    (h : Lib.Heap.readAll s.memory.objects refs = table.map Json.obj) : records s refs = table := by
  rw [records, h, List.filterMap_map]
  exact List.filterMap_some

theorem converted_of_unpinned {net : Dict} (h : pinned net = false) : converted net = net := by
  rw [converted, h]
  rfl

/-- The references of the migrated list stand for the migrated records. -/
theorem shared_read (heap : List Json) (added : Table) {refs : List Nat} {nets : Table} {fresh : List Nat}
    (hrefs : Lib.Heap.readAll heap refs = nets.map Json.obj)
    (hfresh : Lib.Heap.readAll heap fresh = (nets.map converted ++ added).map Json.obj) :
    Lib.Heap.readAll heap (shared refs nets fresh) = (nets.map converted ++ added).map Json.obj := by
  induction nets generalizing refs fresh with
  | nil =>
    have hnil : refs = [] := List.map_eq_nil_iff.mp hrefs
    subst hnil
    exact hfresh
  | cons net nets ih =>
    obtain ⟨ref, refs', rfl, href, hrefs'⟩ := List.map_eq_cons_iff.mp hrefs
    obtain ⟨copy, fresh', rfl, hcopy, hfresh'⟩ := List.map_eq_cons_iff.mp hfresh
    have hcons : shared (ref :: refs') (net :: nets) (copy :: fresh') =
        (if pinned net then copy else ref) :: shared refs' nets fresh' := rfl
    have hhead : Lib.Heap.read heap (if pinned net then copy else ref) = .obj (converted net) := by
      split_ifs with hpinned
      · exact hcopy
      · rw [href, converted_of_unpinned (by simpa using hpinned)]
    rw [hcons, Lib.Heap.readAll, List.map_cons, hhead]
    exact congrArg _ (ih hrefs' hfresh')

/-- A record of the cache is in the migrated list itself exactly when it is not an old scope channel. -/
theorem mem_shared_iff {heap : List Json} {base ref : Nat} {rec : Dict} {refs : List Nat} {nets : Table}
    {fresh : List Nat} (hrefs : Lib.Heap.readAll heap refs = nets.map Json.obj) (hfresh : ∀ copy ∈ fresh, base ≤ copy)
    (hlength : nets.length ≤ fresh.length) (href : ref ∈ refs) (hbase : ref < base)
    (hrec : Lib.Heap.read heap ref = .obj rec) : ref ∈ shared refs nets fresh ↔ pinned rec = false := by
  have hcons : ∀ r rs net nets copy fresh, shared (r :: rs) (net :: nets) (copy :: fresh) =
      (if pinned net then copy else r) :: shared rs nets fresh := fun _ _ _ _ _ _ => rfl
  constructor
  · intro hmem
    clear href
    induction nets generalizing refs fresh with
    | nil =>
      have hnil : refs = [] := List.map_eq_nil_iff.mp hrefs
      subst hnil
      exact absurd (hfresh ref hmem) (by omega)
    | cons net nets ih =>
      obtain ⟨r, refs', rfl, hr, hrefs'⟩ := List.map_eq_cons_iff.mp hrefs
      cases fresh with
      | nil => simp at hlength
      | cons copy fresh' =>
        rw [hcons, List.mem_cons] at hmem
        rcases hmem with hhead | htail
        · split_ifs at hhead with hpinned
          · exact absurd (hfresh copy List.mem_cons_self) (by omega)
          · rw [hhead, hr] at hrec
            rw [← Json.obj.inj hrec]
            simpa using hpinned
        · exact ih hrefs' (fun c hc => hfresh c (List.mem_cons_of_mem _ hc)) (by simpa using hlength) htail
  · intro hpinned
    induction nets generalizing refs fresh with
    | nil =>
      have hnil : refs = [] := List.map_eq_nil_iff.mp hrefs
      subst hnil
      cases href
    | cons net nets ih =>
      obtain ⟨r, refs', rfl, hr, hrefs'⟩ := List.map_eq_cons_iff.mp hrefs
      cases fresh with
      | nil => simp at hlength
      | cons copy fresh' =>
        rw [hcons, List.mem_cons]
        rcases List.mem_cons.mp href with heq | htail
        · left
          rw [heq, hr] at hrec
          rw [Json.obj.inj hrec, hpinned, heq]
          rfl
        · right
          exact ih hrefs' (fun c hc => hfresh c (List.mem_cons_of_mem _ hc)) (by simpa using hlength) htail

/-- What `get_local_nets` leaves behind when none of its writes succeeded: the cache holds the file, and the records
it has handed out are the cache's own, except for the old scope channels. -/
structure Lent (s : Process) (refs : List Nat) (s' : Process) (held : List Nat) : Prop where
  file : s'.file = s.file
  mtime : s'.memory.mtime = s.file.mtime
  holds : Holds s.file s'.memory held
  mem : ∀ ref ∈ held, ∀ rec, Lib.Heap.read s'.memory.objects ref = .obj rec → (ref ∈ refs ↔ pinned rec = false)

/-- The writes `used` of an operation are over, and none has succeeded. -/
def AllFailed (used : List (Option Nat)) : Prop := ∀ o ∈ used, o = none

theorem saveLocalNets_error {nets : List Json} {s s' : Process} {f : Fault}
    (h : saveLocalNets nets s = (.error f, s')) :
    s'.file = s.file ∧ s'.memory = s.memory ∧ ∃ used, s.writes = used ++ s'.writes ∧ AllFailed used := by
  rw [saveLocalNets] at h
  split at h
  · cases h
    exact ⟨rfl, rfl, [], rfl, by simp [AllFailed]⟩
  · rename_i writes hwrites
    cases h
    exact ⟨rfl, rfl, [none], hwrites, by simp [AllFailed]⟩
  · cases h

theorem saveLocalNets_ok {nets : List Json} {s s' : Process} {u : Unit} (h : saveLocalNets nets s = (.ok u, s')) :
    s'.file.content = .json (.arr nets) ∧ s'.memory.mtime ≠ s'.file.mtime ∧ s'.memory.objects = s.memory.objects ∧
      ∃ mtime, s.writes = some mtime :: s'.writes := by
  rw [saveLocalNets] at h
  split at h
  · cases h
  · cases h
  · rename_i mtime writes hwrites
    cases h
    exact ⟨rfl, by simp, rfl, mtime, hwrites⟩

theorem indexBy_congr {ν : Type} {item item' : ν → Json} {values : List ν} (h : ∀ v ∈ values, item v = item' v) :
    indexBy item values = indexBy item' values := by
  rw [indexBy, indexBy]
  generalize ([] : List (Json × ν)) = index
  induction values generalizing index with
  | nil => rfl
  | cons v values ih =>
    obtain ⟨hv, hvalues⟩ := List.forall_mem_cons.mp h
    rw [List.foldlM_cons, List.foldlM_cons, hv]
    cases indexKey (item' v) with
    | error e => rfl
    | ok key => exact ih hvalues _

/-- The cache does not see what happens to other objects. -/
theorem Holds.congr {file : File} {m : Memory} {refs : List Nat} (h : Holds file m refs) {objects : List Json}
    (hread : ∀ ref ∈ refs, Lib.Heap.read objects ref = Lib.Heap.read m.objects ref)
    (hlength : m.objects.length ≤ objects.length) : Holds file { m with objects := objects } refs := by
  refine ⟨⟨h.nets, ?_, ?_⟩, fun ref href => lt_of_lt_of_le (h.valid ref href) hlength⟩
  · exact (List.map_congr_left hread).trans h.items
  · exact (indexBy_congr hread).trans h.index

theorem mem_of_read {heap : List Json} {refs : List Nat} {table : Table} {ref : Nat} {rec : Dict}
    (hread : Lib.Heap.readAll heap refs = table.map Json.obj) (href : ref ∈ refs)
    (hrec : Lib.Heap.read heap ref = .obj rec) : rec ∈ table := by
  have hmem : Lib.Heap.read heap ref ∈ Lib.Heap.readAll heap refs := List.mem_map_of_mem href
  rw [hread, hrec] at hmem
  obtain ⟨net, hnet, heq⟩ := List.mem_map.mp hmem
  rwa [← Json.obj.inj heq]

/-- **What `get_local_nets` does.** Its records are the migrated table. Either none of its writes has succeeded, and
then the cache holds the file and has lent its records; or the migrated table is in the file. -/
theorem getLocalNets_spec {env : Env} {s s' : Process} {table : Table} {refs : List Nat} (h : Coherent s table)
    (hget : getLocalNets env s = (.ok refs, s')) :
    ∃ out changed used, migrate env.lower table = .ok (out, changed) ∧
      Lib.Heap.readAll s'.memory.objects refs = out.map Json.obj ∧ s.writes = used ++ s'.writes ∧
      ((AllFailed used ∧ ∃ held, Lent s refs s' held) ∨ (¬AllFailed used ∧ changed = true ∧ Coherent s' out)) := by
  rw [getLocalNets] at hget
  split at hget
  · cases hget
  · rename_i refs₀ s₁ hnets
    obtain ⟨hs₁, hmtime, hholds⟩ := getNets_spec h hnets
    have hread : Lib.Heap.readAll s₁.memory.objects refs₀ = table.map Json.obj := by
      rw [hholds.items, h.items]
    have hfile : s₁.file = s.file := by
      rw [hs₁]
    have hwrites : s₁.writes = s.writes := by
      rw [hs₁]
    rw [hread, asDicts_obj] at hget
    dsimp only at hget
    split at hget
    · cases hget
    · rename_i out hmigrate
      cases hget
      have hout := migrate_unchanged hmigrate
      subst hout
      refine ⟨_, false, [], hmigrate, hread, hwrites.symm, Or.inl ⟨by simp [AllFailed], refs, hfile, hmtime, hholds, ?_⟩⟩
      intro ref href rec hrec
      refine iff_of_true href (pinned_eq ?_)
      exact isPinned_migrated hmigrate rec (mem_of_read hread href hrec)
    · rename_i out hmigrate
      cases hget
      obtain ⟨-, names, -, hout, -⟩ := migrate_spec hmigrate
      have hheld : Lib.Heap.readAll (s₁.memory.objects ++ out.map Json.obj) refs₀ = table.map Json.obj := by
        rw [Lib.Heap.readAll_append hholds.valid, hread]
      have hfresh := Lib.Heap.readAll_fresh s₁.memory.objects (out.map Json.obj)
      have hshared := shared_read _ _ hheld (hfresh.trans (congrArg _ hout))
      rw [← hout] at hshared
      cases hsave : saveLocalNets (out.map Json.obj)
          { s₁ with memory := { s₁.memory with objects := s₁.memory.objects ++ out.map Json.obj } } with
      | mk r s₂ =>
        cases r with
        | error f =>
          obtain ⟨hfile₂, hmemory₂, used, hused, hfailed⟩ := saveLocalNets_error hsave
          refine ⟨out, true, used, hmigrate, ?_, ?_, Or.inl ⟨hfailed, refs₀, ?_, ?_, ?_, ?_⟩⟩
          · rw [hmemory₂]
            exact hshared
          · rw [← hwrites]
            exact hused
          · exact hfile₂.trans hfile
          · rw [hmemory₂]
            exact hmtime
          · rw [hmemory₂]
            exact hholds.congr (fun ref href => Lib.Heap.read_append (hholds.valid ref href) _) (by simp)
          · intro ref href rec hrec
            rw [hmemory₂] at hrec
            refine mem_shared_iff hheld (fun copy hcopy => ?_) ?_ href (hholds.valid ref href) hrec
            · exact (List.mem_range'_1.mp hcopy).1
            · rw [Lib.Heap.fresh, List.length_range', List.length_map, hout, List.length_append, List.length_map]
              omega
        | ok u =>
          obtain ⟨hcontent, hne, hobjects, mtime, hused⟩ := saveLocalNets_ok hsave
          refine ⟨out, true, [some mtime], hmigrate, ?_, ?_, Or.inr ⟨by simp [AllFailed], rfl, hcontent, ?_⟩⟩
          · rw [hobjects]
            exact hshared
          · rw [← hwrites]
            exact hused
          · exact fun heq => absurd heq hne

theorem getLocalNets_error {env : Env} {s s' : Process} {f : Fault} (h : getLocalNets env s = (.error f, s')) :
    f ≠ .write := by
  rw [getLocalNets] at h
  split at h
  · rename_i f' s₁ hnets
    cases h
    rw [getNets] at hnets
    split at hnets <;> cases hnets
    exact fun hc => by cases hc
  · split at h
    · cases h
      exact fun hc => by cases hc
    · split at h
      · cases h
        exact fun hc => by cases hc
      · cases h
      · cases h

/-! ### An operation that fails -/

/-- How an operation that writes lists of its own ends when a write raises: the writes `used` were tried. -/
def Ended (s s' : Process) (table : Table) : Prop :=
  ∃ used, s.writes = used ++ s'.writes ∧
    ((AllFailed used ∧ s'.file = s.file ∧ ∃ held, Holds s.file s'.memory held) ∨
      (¬AllFailed used ∧ s'.file.content ≠ .json (.arr (table.map Json.obj))))

theorem content_ne {table table' : Table} (h : table' ≠ table) :
    Content.json (.arr (table'.map Json.obj)) ≠ .json (.arr (table.map Json.obj)) := by
  intro heq
  refine h (List.map_injective_iff.mpr (fun a b hab => Json.obj.inj hab) ?_)
  exact Json.arr.inj (Content.json.inj heq)

/-- A migrated table differs from the one before. -/
theorem migrated_ne {lower : String → String} {table out : Table} (h : migrate lower table = .ok (out, true)) :
    out ≠ table := by
  intro heq
  have hpinned := isPinned_migrated h
  rw [heq] at hpinned
  rw [migrate_unpinned hpinned] at h
  cases h

theorem runEdits_cons_error {env : Env} {edit : Edit} {rest : List Edit} {s s' : Process}
    (h : runEdits env (edit :: rest) s = (.error .write, s')) :
    ∃ refs s₁, getLocalNets env s = (.ok refs, s₁) ∧
      ((∃ newNets, edit (records s₁ refs) = some newNets ∧
        (saveLocalNets (newNets.map Json.obj) s₁ = (.error .write, s') ∨
          ∃ u s₂, saveLocalNets (newNets.map Json.obj) s₁ = (.ok u, s₂) ∧ runEdits env rest s₂ = (.error .write, s'))) ∨
        (edit (records s₁ refs) = none ∧ runEdits env rest s₁ = (.error .write, s'))) := by
  simp only [runEdits] at h
  split at h
  · rename_i f s₁ hget
    cases h
    exact absurd rfl (getLocalNets_error hget)
  · rename_i refs s₁ hget
    refine ⟨refs, s₁, hget, ?_⟩
    split at h
    · rename_i newNets hedit
      refine Or.inl ⟨newNets, hedit, ?_⟩
      split at h
      · rename_i f s₂ hsave
        cases h
        exact Or.inl hsave
      · rename_i u s₂ hsave
        exact Or.inr ⟨u, s₂, hsave, h⟩
    · cases h
    · rename_i hedit
      exact Or.inr ⟨hedit, h⟩

theorem AllFailed.append {used used' : List (Option Nat)} (h : AllFailed used) (h' : AllFailed used') :
    AllFailed (used ++ used') := by
  intro o ho
  rcases List.mem_append.mp ho with ho | ho
  · exact h o ho
  · exact h' o ho

theorem AllFailed.left {used used' : List (Option Nat)} (h : AllFailed (used ++ used')) : AllFailed used :=
  fun o ho => h o (List.mem_append_left _ ho)

theorem AllFailed.right {used used' : List (Option Nat)} (h : AllFailed (used ++ used')) : AllFailed used' :=
  fun o ho => h o (List.mem_append_right _ ho)

theorem Lent.coherent {s s' : Process} {refs held : List Nat} {table : Table} (h : Lent s refs s' held)
    (hcoherent : Coherent s table) : Coherent s' table := by
  refine ⟨?_, fun _ => ⟨held, ?_⟩⟩
  · rw [h.file]
    exact hcoherent.content
  · rw [h.file]
    exact h.holds

/-- The last edit of an operation: its write has raised, so only a migration can have changed the file. -/
theorem runEdits_one_error {env : Env} {edit : Edit} {s s' : Process} {table : Table} (h : Coherent s table)
    (hrun : runEdits env [edit] s = (.error .write, s')) :
    ∃ used, s.writes = used ++ s'.writes ∧
      ((AllFailed used ∧ s'.file = s.file ∧ ∃ held, Holds s.file s'.memory held) ∨
        (¬AllFailed used ∧ ∃ out, migrate env.lower table = .ok (out, true) ∧
          s'.file.content = .json (.arr (out.map Json.obj)))) := by
  obtain ⟨refs, s₁, hget, hcases⟩ := runEdits_cons_error hrun
  obtain ⟨out, changed, used, hmigrate, -, hused, hread⟩ := getLocalNets_spec h hget
  have hsave : ∃ newNets, saveLocalNets newNets s₁ = (.error .write, s') := by
    rcases hcases with ⟨newNets, -, hsave | ⟨u, s₂, -, hrest⟩⟩ | ⟨-, hrest⟩
    · exact ⟨_, hsave⟩
    · cases hrest
    · cases hrest
  obtain ⟨newNets, hsave⟩ := hsave
  obtain ⟨hfile, hmemory, used', hused', hfailed'⟩ := saveLocalNets_error hsave
  refine ⟨used ++ used', by rw [hused, hused', List.append_assoc], ?_⟩
  rcases hread with ⟨hfailed, held, hlent⟩ | ⟨hnot, hchanged, hcoherent⟩
  · refine Or.inl ⟨hfailed.append hfailed', hfile.trans hlent.file, held, ?_⟩
    rw [hmemory]
    exact hlent.holds
  · subst hchanged
    refine Or.inr ⟨fun hall => hnot hall.left, out, hmigrate, ?_⟩
    rw [hfile]
    exact hcoherent.content

/-- On a table without old scope channels the last edit leaves the file. -/
theorem runEdits_one_unpinned {env : Env} {edit : Edit} {s s' : Process} {table : Table} (h : Coherent s table)
    (hpinned : ∀ rec ∈ table, isPinned rec = .ok false) (hrun : runEdits env [edit] s = (.error .write, s')) :
    s'.file = s.file ∧ ∃ used, s.writes = used ++ s'.writes := by
  obtain ⟨used, hused, hcases⟩ := runEdits_one_error h hrun
  rcases hcases with ⟨-, hfile, -⟩ | ⟨-, out, hmigrate, -⟩
  · exact ⟨hfile, used, hused⟩
  · rw [migrate_unpinned hpinned] at hmigrate
    cases hmigrate

/-- What a deletion keeps is not the table it was given, migrated or not. -/
theorem deleted_ne {lower : String → String} {table out newNets : Table} {changed : Bool} {name role : Json}
    (hmigrate : migrate lower table = .ok (out, changed)) (hdelete : deleteEdit name role out = some newNets) :
    newNets ≠ table ∧ ∀ rec ∈ newNets, isPinned rec = .ok false := by
  rw [deleteEdit] at hdelete
  split_ifs at hdelete with hlength
  cases hdelete
  have hsub : ∀ rec ∈ filterNets out name role, rec ∈ out := by
    intro rec hrec
    rw [filterNets] at hrec
    split_ifs at hrec
    · exact (List.mem_filter.mp hrec).1
    · exact (List.mem_filter.mp hrec).1
  have hpinned : ∀ rec ∈ filterNets out name role, isPinned rec = .ok false :=
    fun rec hrec => isPinned_migrated hmigrate rec (hsub rec hrec)
  refine ⟨fun heq => ?_, hpinned⟩
  rw [heq] at hpinned hlength
  rw [migrate_unpinned hpinned] at hmigrate
  cases hmigrate
  exact hlength rfl

theorem not_allFailed_some {mtime : Nat} {used : List (Option Nat)} : ¬AllFailed (some mtime :: used) := by
  intro h
  cases h _ List.mem_cons_self

/-- **How the edits of a request end** when a write raises. -/
theorem runEdits_ended {env : Env} {r : Request} {edits : List Edit} {s s' : Process} {table : Table}
    (hedits : r.edits env = .ok edits) (h : Coherent s table) (hrun : runEdits env edits s = (.error .write, s')) :
    Ended s s' table := by
  obtain ⟨edit, rest, rfl, htail, hdelete⟩ := edits_shape hedits
  rcases htail with rfl | ⟨data, rfl⟩
  · obtain ⟨used, hused, hkeeps | ⟨hnot, out, hmigrate, hcontent⟩⟩ := runEdits_one_error h hrun
    · exact ⟨used, hused, Or.inl hkeeps⟩
    · refine ⟨used, hused, Or.inr ⟨hnot, ?_⟩⟩
      rw [hcontent]
      exact content_ne (migrated_ne hmigrate)
  · obtain ⟨name, role, rfl⟩ := hdelete (by simp)
    obtain ⟨refs, s₁, hget, hcases⟩ := runEdits_cons_error hrun
    obtain ⟨out, changed, used, hmigrate, hread, hused, hlocal⟩ := getLocalNets_spec h hget
    rw [records_eq hread] at hcases
    rcases hcases with ⟨newNets, hedit, hsave | ⟨u, s₂, hsave, hrest⟩⟩ | ⟨-, hrest⟩
    · -- the deletion cannot be written
      obtain ⟨hfile, hmemory, used', hused', hfailed'⟩ := saveLocalNets_error hsave
      refine ⟨used ++ used', by rw [hused, hused', List.append_assoc], ?_⟩
      rcases hlocal with ⟨hfailed, held, hlent⟩ | ⟨hnot, rfl, hcoherent⟩
      · refine Or.inl ⟨hfailed.append hfailed', hfile.trans hlent.file, held, ?_⟩
        rw [hmemory]
        exact hlent.holds
      · refine Or.inr ⟨fun hall => hnot hall.left, ?_⟩
        rw [hfile, hcoherent.content]
        exact content_ne (migrated_ne hmigrate)
    · -- the deletion is in the file, and the save fails
      obtain ⟨hcontent, hmtime, -, mtime, hused₁⟩ := saveLocalNets_ok hsave
      obtain ⟨hne, hpinned⟩ := deleted_ne hmigrate hedit
      have hcoherent : Coherent s₂ newNets := ⟨hcontent, fun heq => absurd heq hmtime⟩
      obtain ⟨hfile, used₂, hused₂⟩ := runEdits_one_unpinned hcoherent hpinned hrest
      refine ⟨used ++ some mtime :: used₂, ?_, Or.inr ⟨fun hall => not_allFailed_some hall.right, ?_⟩⟩
      · rw [hused, hused₁, hused₂, List.append_assoc, List.cons_append]
      · rw [hfile, hcontent]
        exact content_ne hne
    · -- there was nothing to delete
      rcases hlocal with ⟨hfailed, held, hlent⟩ | ⟨hnot, rfl, hcoherent⟩
      · obtain ⟨used₂, hused₂, hkeeps | ⟨hnot, out₂, hmigrate₂, hcontent⟩⟩ :=
          runEdits_one_error (hlent.coherent h) hrest
        · obtain ⟨hfailed₂, hfile, held₂, hholds⟩ := hkeeps
          refine ⟨used ++ used₂, by rw [hused, hused₂, List.append_assoc], Or.inl ⟨hfailed.append hfailed₂, ?_, held₂, ?_⟩⟩
          · exact hfile.trans hlent.file
          · rw [← hlent.file]
            exact hholds
        · refine ⟨used ++ used₂, by rw [hused, hused₂, List.append_assoc], Or.inr ⟨fun hall => hnot hall.right, ?_⟩⟩
          rw [hcontent]
          exact content_ne (migrated_ne hmigrate₂)
      · obtain ⟨hfile, used₂, hused₂⟩ := runEdits_one_unpinned hcoherent (isPinned_migrated hmigrate) hrest
        refine ⟨used ++ used₂, by rw [hused, hused₂, List.append_assoc], Or.inr ⟨fun hall => hnot hall.left, ?_⟩⟩
        rw [hfile, hcoherent.content]
        exact content_ne (migrated_ne hmigrate)

/-! ### Later reads -/

theorem getLocalNets_returns {env : Env} {s : Process} {table out : Table} {changed : Bool} {held : List Nat}
    (h : Coherent s table) (hholds : Holds s.file s.memory held) (hmigrate : migrate env.lower table = .ok (out, changed)) :
    ∃ refs s', getLocalNets env s = (.ok refs, s') := by
  obtain ⟨m', refs', hreload, -⟩ := reload_holds h.content hholds
  have hnets : getNets s = (.ok m'.held, { s with memory := m' }) := by
    rw [getNets, hreload]
  obtain ⟨-, -, hholds'⟩ := getNets_spec h hnets
  have hread : Lib.Heap.readAll m'.objects m'.held = table.map Json.obj := by
    rw [hholds'.items, h.items]
  rw [getLocalNets, hnets]
  dsimp only
  rw [hread, asDicts_obj]
  dsimp only
  rw [hmigrate]
  cases changed with
  | false => exact ⟨_, _, rfl⟩
  | true => exact ⟨_, _, rfl⟩

theorem unchanged_of_holds {env : Env} {s : Process} {table : Table} {held : List Nat}
    (hcontent : s.file.content = .json (.arr (table.map Json.obj))) (hholds : Holds s.file s.memory held) :
    Unchanged env s table := by
  refine ⟨hcontent, fun calls => ?_⟩
  obtain ⟨held', hholds'⟩ := afterCalls_holds hcontent hholds calls
  refine ⟨fun c hc => sees_of_holds hcontent hholds' hc, fun writes out changed hmigrate => ?_⟩
  have hcoherent : Coherent ⟨s.file, afterCalls s.file s.memory calls, writes⟩ table :=
    ⟨hcontent, fun _ => ⟨held', hholds'⟩⟩
  obtain ⟨refs, s', hget⟩ := getLocalNets_returns hcoherent hholds' hmigrate
  obtain ⟨out', changed', -, hmigrate', hread, -, -⟩ := getLocalNets_spec hcoherent hget
  rw [hmigrate] at hmigrate'
  cases hmigrate'
  exact ⟨refs, s', hget, hread⟩

/-! ### Renaming in place -/

theorem set_eq_self {d : Dict} {key : String} {v : Json} (h : Dict.get? d key = some v) : Dict.set d key v = d := by
  induction d with
  | nil => cases h
  | cons kv rest ih =>
    obtain ⟨l, w⟩ := kv
    rw [Dict.set]
    split_ifs with hl
    · subst hl
      rw [Dict.get?, List.lookup_cons_self] at h
      rw [Option.some.inj h]
    · rw [Dict.get?, List.lookup_cons, beq_false_of_ne (Ne.symm hl)] at h
      rw [ih h]

theorem get_name_of_hasName {name : String} {net : Dict} (h : Nets.hasName (.str name) net = true) :
    Dict.get net "name" = .str name := Json.pyEq_str.mp h

theorem renamed_self (name : String) (item : Json) : renamed name name item = item := by
  cases item with
  | obj net =>
    rw [renamed]
    split_ifs with hname
    · rw [set_eq_self (Dict.get?_of_get (get_name_of_hasName hname) (by simp))]
    · rfl
  | _ => rfl

theorem renamed_renamed (oldName newName : String) (item : Json) :
    renamed oldName newName (renamed oldName newName item) = renamed oldName newName item := by
  by_cases hsame : oldName = newName
  · subst hsame
    rw [renamed_self]
  · cases item with
    | obj net =>
      rw [renamed]
      split_ifs with hname
      · rw [renamed, if_neg]
        intro hname'
        have hget := get_name_of_hasName hname'
        rw [Dict.get_set_self] at hget
        exact hsame (Json.str.inj hget).symm
      · rw [renamed, if_neg hname]
    | _ => rfl

theorem length_renameInPlace (oldName newName : String) (objects : List Json) (refs : List Nat) :
    (renameInPlace oldName newName objects refs).length = objects.length := by
  rw [renameInPlace]
  induction refs generalizing objects with
  | nil => rfl
  | cons ref refs ih =>
    rw [List.foldl_cons, ih, List.length_set]

/-- Exactly the records in the list are renamed, however often they are in it. -/
theorem read_renameInPlace (oldName newName : String) (objects : List Json) (refs : List Nat) (ref : Nat) :
    Lib.Heap.read (renameInPlace oldName newName objects refs) ref =
      if ref ∈ refs then renamed oldName newName (Lib.Heap.read objects ref) else Lib.Heap.read objects ref := by
  rw [renameInPlace]
  induction refs generalizing objects with
  | nil => rfl
  | cons r refs ih =>
    have hset : Lib.Heap.read (objects.set r (renamed oldName newName (Lib.Heap.read objects r))) ref =
        if ref = r then renamed oldName newName (Lib.Heap.read objects ref) else Lib.Heap.read objects ref := by
      rw [Lib.Heap.read_set]
      by_cases heq : ref = r
      · subst heq
        by_cases hlt : ref < objects.length
        · rw [if_pos ⟨rfl, hlt⟩, if_pos rfl]
        · rw [if_neg (fun h => hlt h.2), if_pos rfl, Lib.Heap.read_of_length_le (by omega)]
          rfl
      · rw [if_neg (fun h => heq h.1.symm), if_neg heq]
    rw [List.foldl_cons, ih, hset]
    by_cases heq : ref = r
    · subst heq
      rw [if_pos rfl, if_pos List.mem_cons_self]
      split_ifs
      · exact renamed_renamed oldName newName _
      · rfl
    · rw [if_neg heq]
      simp only [List.mem_cons, heq, false_or]

theorem renameLocalNet_error {env : Env} {oldName newName : String} {s s' : Process}
    (h : renameLocalNet env oldName newName s = (.error .write, s')) :
    ∃ refs s₁ used, getLocalNets env s = (.ok refs, s₁) ∧ s'.file = s₁.file ∧
      s'.memory = { s₁.memory with objects := renameInPlace oldName newName s₁.memory.objects refs } ∧
      s₁.writes = used ++ s'.writes ∧ AllFailed used := by
  rw [renameLocalNet] at h
  split at h
  · rename_i f s₁ hget
    cases h
    exact absurd rfl (getLocalNets_error hget)
  · rename_i refs s₁ hget
    split_ifs at h with hany
    · dsimp only at h
      split at h
      · rename_i f s₂ hsave
        cases h
        obtain ⟨hfile, hmemory, used, hused, hfailed⟩ := saveLocalNets_error hsave
        exact ⟨refs, s₁, used, hget, hfile, hmemory, hused, hfailed⟩
      · cases h
    · cases h

/-- The records a rename changes in place are not the cache's, or they are given the name they have. -/
def RenamesCopies (oldName newName : String) (table : Table) : Prop :=
  oldName = newName ∨ ∀ rec ∈ table, Nets.hasName (.str oldName) rec = true → pinned rec = true

theorem rename_unchanged_iff {env : Env} {oldName newName : String} {s s₁ s' : Process} {table : Table}
    {refs held : List Nat} (h : Coherent s table) (hlent : Lent s refs s₁ held) (hfile : s'.file = s₁.file)
    (hmemory : s'.memory = { s₁.memory with objects := renameInPlace oldName newName s₁.memory.objects refs }) :
    Unchanged env s' table ↔ RenamesCopies oldName newName table := by
  have hread : Lib.Heap.readAll s₁.memory.objects held = table.map Json.obj := by
    rw [hlent.holds.items, h.items]
  have hcontent : s'.file.content = .json (.arr (table.map Json.obj)) := by
    rw [hfile, hlent.file]
    exact h.content
  constructor
  · rintro ⟨-, hreads⟩
    -- the cache still has the time of the file, so `get_nets` returns the records as they are now
    have hnets : Lib.Heap.readAll s'.memory.objects held = table.map Json.obj := by
      have hmtime : s'.memory.mtime = s'.file.mtime := by
        rw [hmemory, hfile, hlent.file]
        exact hlent.mtime
      have hcall : s'.memory.call s'.file .getNets = (.ok (.nets held), s'.memory) := by
        have hreload : s'.memory.reload s'.file = (.ok (), s'.memory) := by
          rw [reload_json hcontent, if_neg (by rw [hmtime]; exact fun hne => hne rfl)]
        have hheld : s'.memory.held = held := by
          rw [hmemory, Memory.held, hlent.holds.nets]
          rfl
        rw [call_of_ok (by simp) hreload, Memory.answer, answerOf, hheld]
      have hsees := (hreads []).1 .getNets (by simp)
      have hindex := hlent.holds.indexBy
      rw [h.items] at hindex
      have hafter : afterCalls s'.file s'.memory [] = s'.memory := rfl
      rw [hafter, sees, hcall, tableAnswer, hindex] at hsees
      injection hsees with hsees
      injection hsees
    rw [RenamesCopies, or_iff_not_imp_left]
    intro hne rec hrec hname
    obtain ⟨ref, href, hobj⟩ : ∃ ref ∈ held, Lib.Heap.read s₁.memory.objects ref = .obj rec := by
      have hmem : Json.obj rec ∈ Lib.Heap.readAll s₁.memory.objects held := by
        rw [hread]
        exact List.mem_map_of_mem hrec
      exact List.mem_map.mp hmem
    by_contra hpinned
    have hsame := List.map_inj_left.mp (hnets.trans hread.symm) ref href
    have hmem := (hlent.mem ref href rec hobj).mpr (by simpa using hpinned)
    rw [hmemory, read_renameInPlace, if_pos hmem, hobj, renamed, if_pos hname] at hsame
    have hget := congrArg (Dict.get · "name") (Json.obj.inj hsame)
    rw [Dict.get_set_self, get_name_of_hasName hname] at hget
    exact hne (Json.str.inj hget).symm
  · intro hcopies
    suffices hholds : Holds s'.file s'.memory held from unchanged_of_holds hcontent hholds
    rw [hmemory, hfile, hlent.file]
    refine hlent.holds.congr (fun ref href => ?_) (by rw [length_renameInPlace])
    rw [read_renameInPlace]
    split_ifs with hmem
    · rcases hcopies with rfl | hcopies
      · exact renamed_self oldName _
      · obtain ⟨rec, hrec, hobj⟩ : ∃ rec ∈ table, Json.obj rec = Lib.Heap.read s₁.memory.objects ref := by
          have hmem' : Lib.Heap.read s₁.memory.objects ref ∈ Lib.Heap.readAll s₁.memory.objects held :=
            List.mem_map_of_mem href
          rw [hread] at hmem'
          exact List.mem_map.mp hmem'
        have hpinned := (hlent.mem ref href rec hobj.symm).mp hmem
        rw [← hobj, renamed, if_neg]
        intro hname
        rw [hcopies rec hrec hname] at hpinned
        cases hpinned
    · rfl

/-! ### Every operation -/

/-- The operation leaves the cache's records alone until it has written. -/
def Operation.Keeps (table : Table) : Operation → Prop
  | .rename oldName newName => RenamesCopies oldName newName table
  | _ => True

theorem performEdits_unchanged_iff {env : Env} {r : Request} {s s' : Process} {table : Table} (h : Coherent s table)
    (hfailed : performEdits env r s = (.error .write, s')) (hall : s'.writes = []) :
    Unchanged env s' table ↔ ∀ o ∈ s.writes, o = none := by
  rw [performEdits] at hfailed
  split at hfailed
  · cases hfailed
  · rename_i edits hedits
    obtain ⟨used, hused, hcases⟩ := runEdits_ended hedits h hfailed
    rw [hall, List.append_nil] at hused
    rw [hused]
    rcases hcases with ⟨hnone, hfile, held, hholds⟩ | ⟨hnot, hcontent⟩
    · refine iff_of_true (unchanged_of_holds ?_ (hfile ▸ hholds)) hnone
      rw [hfile]
      exact h.content
    · exact iff_of_false (fun hunchanged => hcontent hunchanged.1) hnot

theorem rename_failed_iff {env : Env} {oldName newName : String} {s s' : Process} {table : Table} (h : Coherent s table)
    (hfailed : renameLocalNet env oldName newName s = (.error .write, s')) (hall : s'.writes = []) :
    Unchanged env s' table ↔ (∀ o ∈ s.writes, o = none) ∧ RenamesCopies oldName newName table := by
  obtain ⟨refs, s₁, used', hget, hfile, hmemory, hused', hfailed'⟩ := renameLocalNet_error hfailed
  obtain ⟨out, changed, used, hmigrate, -, hused, hlocal⟩ := getLocalNets_spec h hget
  rw [hall, List.append_nil] at hused'
  rw [hused'] at hused
  rw [hused]
  rcases hlocal with ⟨hnone, held, hlent⟩ | ⟨hnot, rfl, hcoherent⟩
  · have hnone' : AllFailed (used ++ used') := hnone.append hfailed'
    rw [rename_unchanged_iff h hlent hfile hmemory]
    exact (and_iff_right hnone').symm
  · refine iff_of_false (fun hunchanged => ?_) fun hnone => hnot (AllFailed.left hnone.1)
    have hcontent := hunchanged.1
    rw [hfile, hcoherent.content] at hcontent
    exact content_ne (migrated_ne hmigrate) hcontent

/-- **A failed write changes nothing** exactly when all writes of the operation have failed and it is no rename of
records that the cache holds. -/
theorem failed_write_iff (env : Env) (op : Operation) (s s' : Process) (table : Table) (h : Coherent s table)
    (hfailed : perform env op s = (.error .write, s')) (hall : s'.writes = []) :
    Unchanged env s' table ↔ (∀ o ∈ s.writes, o = none) ∧ op.Keeps table := by
  cases op with
  | rename oldName newName => exact rename_failed_iff h hfailed hall
  | save data =>
    rw [perform] at hfailed
    exact (performEdits_unchanged_iff h hfailed hall).trans (and_iff_left trivial).symm
  | delete name role =>
    rw [perform] at hfailed
    exact (performEdits_unchanged_iff h hfailed hall).trans (and_iff_left trivial).symm
  | update name body =>
    rw [perform] at hfailed
    exact (performEdits_unchanged_iff h hfailed hall).trans (and_iff_left trivial).symm
  | setSafetyLimits name body =>
    rw [perform] at hfailed
    exact (performEdits_unchanged_iff h hfailed hall).trans (and_iff_left trivial).symm

/-- A process that has not read the file yet, and what its writes come to. -/
def freshProcess (table : Table) (writes : List (Option Nat)) : Process :=
  ⟨⟨.json (.arr (table.map Json.obj)), 1⟩, .init, writes⟩

theorem coherent_freshProcess (table : Table) (writes : List (Option Nat)) :
    Coherent (freshProcess table writes) table :=
  ⟨rfl, fun heq => by cases heq⟩

def ledAndFan : Table := [gpioNet "led", gpioNet "fan"]

theorem failed_delete_unchanged :
    ∃ s', perform plainEnv (.delete (.str "led") .null) (freshProcess ledAndFan [none]) = (.error .write, s') ∧
      Unchanged plainEnv s' ledAndFan := by
  have hfailed : perform plainEnv (.delete (.str "led") .null) (freshProcess ledAndFan [none]) =
      (.error .write, (perform plainEnv (.delete (.str "led") .null) (freshProcess ledAndFan [none])).2) := rfl
  refine ⟨_, hfailed, ?_⟩
  exact (failed_write_iff plainEnv _ _ _ ledAndFan (coherent_freshProcess _ _) hfailed rfl).mpr ⟨by simp [freshProcess], trivial⟩

/-- A rename that cannot be written is in the cache; and an update under another name whose second write fails has
deleted the net. -/
theorem failed_rename_changed :
    (∃ s', perform plainEnv (.rename "led" "lamp") (freshProcess ledAndFan [none]) = (.error .write, s') ∧
      ¬Unchanged plainEnv s' ledAndFan) ∧
    ∃ s', perform plainEnv (.update "led" (.obj (gpioNet "lamp"))) (freshProcess ledAndFan [some 1, none]) =
      (.error .write, s') ∧ s'.file.content = .json (.arr [.obj (gpioNet "fan")]) := by
  constructor
  · have hfailed : renameLocalNet plainEnv "led" "lamp" (freshProcess ledAndFan [none]) =
        (.error .write, (renameLocalNet plainEnv "led" "lamp" (freshProcess ledAndFan [none])).2) := rfl
    refine ⟨_, hfailed, fun hunchanged => ?_⟩
    obtain ⟨-, hcopies⟩ := (rename_failed_iff (coherent_freshProcess _ _) hfailed rfl).mp hunchanged
    rcases hcopies with heq | hpinned
    · exact absurd heq (by decide)
    · exact absurd (hpinned (gpioNet "led") List.mem_cons_self (by decide +kernel)) (by decide +kernel)
  · exact ⟨_, rfl, rfl⟩

end Lager.Nets.Writes
