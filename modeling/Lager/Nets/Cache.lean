import Lager.Lib.Fold
import Lager.Lib.Heap
import Lager.Lib.Run
import Lager.Py.Json

/-!
# The cache of the saved nets

`NetsCache` (`cache.py`). It keeps the list of the saved nets and an index of it by name, and reads the file again
when its modification time is not the one it remembers. The list, the time and the index are set one after the other,
and an exception between them leaves the earlier ones set.

The records are objects: the list and the index hold references to them, and so do the callers.
-/

namespace Lager.Nets.Cache

open Lager.Py
open Lager.Lib (Along run)

/-! ### The file -/

/-- The saved nets file, by what reading it does. -/
inductive Content
  | absent
  /-- `getmtime` fails in another way. -/
  | denied
  | json (value : Json)
  /-- `JSONDecodeError`, or the file cannot be opened. -/
  | invalid
  /-- `json.load` raises something else: `UnicodeDecodeError` when the bytes are not UTF-8. -/
  | undecodable (e : PyErr)
  deriving DecidableEq

structure File where
  content : Content
  /-- `getmtime`; 0 is the epoch. -/
  mtime : Nat

/-- The list that is loaded: `[]` if the value is not one. -/
def Content.items : Content → List Json
  | .json (.arr items) => items
  | _ => []

/-! ### The index -/

instance : Inhabited Json := ⟨.null⟩

/-- `if n.get("name")`, with the name as the key; a list or a dict cannot be one. -/
def indexKey : Json → Except PyErr (Option Json)
  | .obj net =>
    let name := Dict.get net "name"
    if name.truthy then
      match name with
      | .arr _ => .error .typeError
      | .obj _ => .error .typeError
      | name => .ok (some name)
    else .ok none
  | _ => .error .attributeError

/-- `index[name] = value`: a key that is there keeps its place. -/
def insertKey {ν : Type} (index : List (Json × ν)) (name : Json) (value : ν) : List (Json × ν) :=
  match index with
  | [] => [(name, value)]
  | (key, old) :: rest =>
    if key.canon = name.canon then (key, value) :: rest else (key, old) :: insertKey rest name value

/-- `{n.get("name"): n for n in nets if n.get("name")}`, where `item` is the record behind a value. -/
def indexBy {ν : Type} (item : ν → Json) (values : List ν) : Except PyErr (List (Json × ν)) :=
  values.foldlM (fun index value => (indexKey (item value)).map fun
    | some name => insertKey index name value
    | none => index) []

def buildIndex (objects : List Json) (refs : List Nat) : Except PyErr (List (Json × Nat)) :=
  indexBy (Lib.Heap.read objects) refs

/-! ### The cache -/

/-- The objects of the process, and the attributes of `NetsCache`. -/
structure Memory where
  objects : List Json
  nets : Option (List Nat)
  mtime : Nat
  index : List (Json × Nat)

/-- `_init`. -/
def Memory.init : Memory := ⟨[], none, 0, []⟩

/-- `_reload_if_needed` when the time differs and the file holds these items. -/
def Memory.load (m : Memory) (items : List Json) (mtime : Nat) : Except PyErr Unit × Memory :=
  let refs := Lib.Heap.fresh m.objects items
  let m := { m with objects := m.objects ++ items, nets := some refs, mtime := mtime }
  match buildIndex m.objects refs with
  | .error e => (.error e, m)
  | .ok index => (.ok (), { m with index := index })

/-- `_reload_if_needed`. -/
def Memory.reload (file : File) (m : Memory) : Except PyErr Unit × Memory :=
  match file.content with
  | .absent => (.ok (), { m with nets := some [], index := [], mtime := 0 })
  | .denied => (.ok (), if m.nets.isNone then { m with nets := some [], index := [] } else m)
  | .undecodable e => if file.mtime ≠ m.mtime then (.error e, m) else (.ok (), m)
  | content => if file.mtime ≠ m.mtime then m.load content.items file.mtime else (.ok (), m)

/-- `list(self._nets) if self._nets else []`. -/
def Memory.held (m : Memory) : List Nat := m.nets.getD []

inductive Call
  | getNets
  | findByName (name : String)
  | findByNameAndRole (name role : String)
  | invalidate

/-- What a call returns: records, or references to them. -/
inductive Answer (ν : Type)
  | nets (values : List ν)
  | net (value : Option ν)
  | none

section Answers

variable {ν : Type} (item : ν → Json)

/-- `index.get(name)`. -/
def indexed (index : List (Json × ν)) (name : String) : Option ν :=
  (index.find? fun entry => entry.1 = .str name).map Prod.snd

/-- `net and net.get("role") == role` of the record in the index. -/
def sameRole (role : String) : Json → Except PyErr Bool
  | .obj net => .ok (!net.isEmpty && decide (Dict.get net "role" = .str role))
  | _ => .error .attributeError

/-- The loop of `find_by_name_and_role`. -/
def findRole (name role : String) : List ν → Except PyErr (Option ν)
  | [] => .ok none
  | value :: values =>
    match item value with
    | .obj net =>
      if Dict.get net "name" = .str name ∧ Dict.get net "role" = .str role then .ok (some value)
      else findRole name role values
    | _ => .error .attributeError

/-- What the calls return once the cache is loaded. -/
def answerOf (values : List ν) (index : List (Json × ν)) : Call → Except PyErr (Answer ν)
  | .getNets => .ok (.nets values)
  | .findByName name => .ok (.net (indexed index name))
  | .findByNameAndRole name role =>
    match indexed index name with
    | none => (findRole item name role values).map Answer.net
    | some value =>
      match sameRole role (item value) with
      | .error e => .error e
      | .ok true => .ok (.net (some value))
      | .ok false => (findRole item name role values).map Answer.net
  | .invalidate => .ok .none

end Answers

def Memory.answer (m : Memory) : Call → Except PyErr (Answer Nat) :=
  answerOf (Lib.Heap.read m.objects) m.held m.index

def Memory.call (file : File) (m : Memory) : Call → Except PyErr (Answer Nat) × Memory
  | .invalidate => (.ok .none, { m with mtime := 0 })
  | c =>
    match m.reload file with
    | (.error e, m) => (.error e, m)
    | (.ok _, m) => (m.answer c, m)

/-! ### Runs -/

structure World where
  file : File
  memory : Memory

inductive Event
  /-- The file is replaced, or removed. -/
  | replaced (file : File)
  | called (c : Call)

def step (w : World) : Event → Option World
  | .replaced file => some { w with file := file }
  | .called c => some { w with memory := (w.memory.call w.file c).2 }

/-- Before anything has happened. -/
def start : World := ⟨⟨.absent, 0⟩, .init⟩

/-- Both views are the file: `get_nets` changes nothing and returns the list of the file, and the index is the index
of that list. -/
def Current (file : File) (m : Memory) : Prop :=
  ∃ refs, m.call file .getNets = (.ok (.nets refs), m) ∧ Lib.Heap.readAll m.objects refs = file.content.items ∧
    buildIndex m.objects refs = .ok m.index

/-- Every item of the list can be put into the index: it is a dict, and its name is no list or dict. -/
def Indexable (content : Content) : Prop := ∀ item ∈ content.items, ∃ key, indexKey item = .ok key

/-- What a replacement must meet: a modification time that the cache does not remember and that is not the epoch, and
an index that can be built. -/
def Sane (w : World) : Event → Prop
  | .replaced file => file.content = .absent ∨
      file.mtime ≠ w.memory.mtime ∧ file.mtime ≠ 0 ∧ file.content ≠ .denied ∧ Indexable file.content
  | .called _ => True

/-! ### What a load leaves behind -/

/-- The cache holds the list of the file and its index. -/
structure Loaded (file : File) (m : Memory) (refs : List Nat) : Prop where
  nets : m.nets = some refs
  items : Lib.Heap.readAll m.objects refs = file.content.items
  index : buildIndex m.objects refs = .ok m.index

theorem current_of_loaded {file : File} {m : Memory} {refs : List Nat} (hreload : m.reload file = (.ok (), m))
    (h : Loaded file m refs) : Current file m := by
  refine ⟨refs, ?_, h.items, h.index⟩
  simp [Memory.call, hreload, Memory.answer, answerOf, Memory.held, h.nets]

theorem buildIndex_returns {objects : List Json} {refs : List Nat}
    (h : ∀ ref ∈ refs, ∃ key, indexKey (Lib.Heap.read objects ref) = .ok key) :
    ∃ index, buildIndex objects refs = .ok index := by
  refine Lib.foldlM_returns fun index ref href => ?_
  obtain ⟨key, hkey⟩ := h ref href
  rw [hkey]
  exact ⟨_, rfl⟩

theorem load_loaded {file : File} {m : Memory} (hindexable : Indexable file.content) :
    (m.load file.content.items file.mtime).1 = .ok () ∧
      (m.load file.content.items file.mtime).2.mtime = file.mtime ∧
      ∃ refs, Loaded file (m.load file.content.items file.mtime).2 refs := by
  have hread := Lib.Heap.readAll_fresh m.objects file.content.items
  have hkeys : ∀ ref ∈ Lib.Heap.fresh m.objects file.content.items,
      ∃ key, indexKey (Lib.Heap.read (m.objects ++ file.content.items) ref) = .ok key := by
    intro ref href
    have hmem : Lib.Heap.read (m.objects ++ file.content.items) ref ∈ Lib.Heap.readAll (m.objects ++ file.content.items)
        (Lib.Heap.fresh m.objects file.content.items) := List.mem_map_of_mem href
    rw [hread] at hmem
    exact hindexable _ hmem
  obtain ⟨index, hindex⟩ := buildIndex_returns hkeys
  have hload : m.load file.content.items file.mtime = (.ok (), ⟨m.objects ++ file.content.items,
      some (Lib.Heap.fresh m.objects file.content.items), file.mtime, index⟩) := by
    simp [Memory.load, hindex]
  rw [hload]
  exact ⟨rfl, rfl, _, rfl, hread, hindex⟩

/-- What holds between the events: if the cache remembers the time of the file, it has loaded it. -/
structure Inv (w : World) : Prop where
  reached : w.file.content ≠ .denied
  indexable : Indexable w.file.content
  mtime : w.file.content ≠ .absent → w.file.mtime ≠ 0
  loaded : w.file.content ≠ .absent → w.memory.mtime = w.file.mtime →
    (∀ e, w.file.content ≠ .undecodable e) ∧ ∃ refs, Loaded w.file w.memory refs

/-- A reload fails and changes nothing, or it makes both views the file. -/
theorem reload_spec {file : File} {m : Memory} (h : Inv ⟨file, m⟩) :
    (∃ e, m.reload file = (.error e, m)) ∨
      (m.reload file).1 = .ok () ∧ Inv ⟨file, (m.reload file).2⟩ ∧ Current file (m.reload file).2 := by
  -- a file that is there and can be decoded is loaded, or it is loaded already
  have hpresent : (∀ m : Memory, m.reload file =
      if file.mtime ≠ m.mtime then m.load file.content.items file.mtime else (.ok (), m)) →
      file.content ≠ .absent → (∀ e, file.content ≠ .undecodable e) →
      (m.reload file).1 = .ok () ∧ Inv ⟨file, (m.reload file).2⟩ ∧ Current file (m.reload file).2 := by
    intro hreload hpresent hdecoded
    have hfinal : ∀ (m' : Memory) (refs : List Nat), m'.mtime = file.mtime → Loaded file m' refs →
        Inv ⟨file, m'⟩ ∧ Current file m' := by
      intro m' refs hmtime hloaded
      refine ⟨⟨h.reached, h.indexable, h.mtime, fun _ _ => ⟨hdecoded, refs, hloaded⟩⟩,
        current_of_loaded ?_ hloaded⟩
      rw [hreload, if_neg (by rw [hmtime]; exact fun hne => hne rfl)]
    by_cases hmtime : file.mtime ≠ m.mtime
    · obtain ⟨hok, hmtime', refs, hloaded⟩ := @load_loaded file m h.indexable
      rw [hreload, if_pos hmtime]
      exact ⟨hok, hfinal _ refs hmtime' hloaded⟩
    · rw [not_not] at hmtime
      obtain ⟨-, refs, hloaded⟩ := h.loaded hpresent hmtime.symm
      rw [hreload, if_neg (by rw [hmtime]; exact fun hne => hne rfl)]
      exact ⟨rfl, hfinal m refs hmtime.symm hloaded⟩
  obtain ⟨content, mtime⟩ := file
  cases content with
  | absent =>
    right
    have hloaded : Loaded ⟨.absent, mtime⟩ (m.reload ⟨.absent, mtime⟩).2 [] := ⟨rfl, rfl, rfl⟩
    exact ⟨rfl, ⟨h.reached, h.indexable, h.mtime, fun hne => absurd rfl hne⟩, current_of_loaded rfl hloaded⟩
  | denied => exact absurd rfl h.reached
  | json value => exact Or.inr (hpresent (fun _ => rfl) (by simp) (by simp))
  | invalid => exact Or.inr (hpresent (fun _ => rfl) (by simp) (by simp))
  | undecodable e =>
    left
    have hne : mtime ≠ m.mtime := fun heq => (h.loaded (by simp) heq.symm).1 e rfl
    exact ⟨e, by simp [Memory.reload, hne]⟩

theorem call_of_error {file : File} {m m' : Memory} {c : Call} {e : PyErr} (hc : c ≠ .invalidate)
    (h : m.reload file = (.error e, m')) : m.call file c = (.error e, m') := by
  cases c with
  | invalidate => exact absurd rfl hc
  | getNets => simp [Memory.call, h]
  | findByName name => simp [Memory.call, h]
  | findByNameAndRole name role => simp [Memory.call, h]

theorem call_of_ok {file : File} {m m' : Memory} {c : Call} (hc : c ≠ .invalidate) (h : m.reload file = (.ok (), m')) :
    m.call file c = (m'.answer c, m') := by
  cases c with
  | invalidate => exact absurd rfl hc
  | getNets => simp [Memory.call, h]
  | findByName name => simp [Memory.call, h]
  | findByNameAndRole name role => simp [Memory.call, h]

theorem call_spec {file : File} {m : Memory} (h : Inv ⟨file, m⟩) {c : Call} (hc : c ≠ .invalidate) :
    Inv ⟨file, (m.call file c).2⟩ ∧
      ∀ answer, (m.call file c).1 = .ok answer → Current file (m.call file c).2 := by
  rcases reload_spec h with ⟨e, herror⟩ | ⟨hok, hinv, hcurrent⟩
  · rw [call_of_error hc herror]
    exact ⟨h, fun answer hret => by cases hret⟩
  · have hreload : m.reload file = (.ok (), (m.reload file).2) := Prod.ext hok rfl
    rw [call_of_ok hc hreload]
    exact ⟨hinv, fun _ _ => hcurrent⟩

/-! ### Every run -/

theorem inv_start : Inv start where
  reached := by simp [start]
  indexable := by simp [Indexable, start, Content.items]
  mtime h := absurd rfl h
  loaded h := absurd rfl h

theorem inv_step {w w' : World} {e : Event} (hsane : Sane w e) (h : Inv w) (hstep : step w e = some w') : Inv w' := by
  cases e with
  | replaced file =>
    cases hstep
    rcases hsane with habsent | ⟨hmtime, hzero, hdenied, hindexable⟩
    · refine ⟨?_, ?_, fun hne => absurd habsent hne, fun hne => absurd habsent hne⟩
      · simp [habsent]
      · simp [Indexable, habsent, Content.items]
    · exact ⟨hdenied, hindexable, fun _ => hzero, fun _ heq => absurd heq.symm hmtime⟩
  | called c =>
    cases hstep
    by_cases hc : c = .invalidate
    · subst hc
      exact ⟨h.reached, h.indexable, h.mtime, fun hpresent hmtime => absurd hmtime.symm (h.mtime hpresent)⟩
    · exact (call_spec h hc).1

theorem inv_reachable {es : List Event} {w : World} (hsane : Along step Sane start es)
    (hrun : run step start es = some w) : Inv w :=
  Lib.run_invariant Inv (fun _ _ _ hs h hstep => inv_step hs h hstep) hsane inv_start hrun

/-- **Both views are the file.** In every run of replacements and calls, a read that returns has used the index of
the list that `get_nets` returns then, and that is the list in the file. -/
theorem views_current (es : List Event) (w : World) (c : Call) (answer : Answer Nat) (hsane : Along step Sane start es)
    (hrun : run step start es = some w) (hc : c ≠ .invalidate) (hreturns : (w.memory.call w.file c).1 = .ok answer) :
    Current w.file (w.memory.call w.file c).2 := by
  exact (call_spec (inv_reachable hsane hrun) hc).2 answer hreturns

theorem isOk_iff {α : Type} {x : Except PyErr α} : x.isOk = true ↔ ∃ a, x = .ok a := by
  cases x with
  | error e => exact iff_of_false (by simp [Except.isOk, Except.toBool]) (fun ⟨_, h⟩ => by cases h)
  | ok a => exact iff_of_true rfl ⟨a, rfl⟩

instance (content : Content) : Decidable (Indexable content) :=
  decidable_of_iff (∀ item ∈ content.items, (indexKey item).isOk = true) (forall₂_congr fun _ _ => isOk_iff)

instance (w : World) : (e : Event) → Decidable (Sane w e)
  | .replaced file => inferInstanceAs (Decidable (file.content = .absent ∨
      file.mtime ≠ w.memory.mtime ∧ file.mtime ≠ 0 ∧ file.content ≠ .denied ∧ Indexable file.content))
  | .called _ => isTrue trivial

def ledNet : Json := .obj [("name", .str "led"), ("role", .str "gpio")]

/-- A table with one net, then bytes that are not UTF-8, then an empty table. -/
def replacements : List Event :=
  [.replaced ⟨.json (.arr [ledNet]), 1⟩, .called .getNets, .replaced ⟨.undecodable .unicodeDecodeError, 2⟩,
    .called (.findByName "led"), .replaced ⟨.json (.arr []), 3⟩]

theorem views_current_replacements :
    ∃ w, run step start replacements = some w ∧ (w.memory.call w.file (.findByName "led")).1 = .ok (.net none) ∧
      Current w.file (w.memory.call w.file (.findByName "led")).2 := by
  refine ⟨_, rfl, rfl, ?_⟩
  exact views_current replacements _ (.findByName "led") (.net none) (by decide +kernel) rfl (by simp) rfl

/-- The name of the second table's net is a list. The call that loads it raises, and the next one finds the net of
the first table. -/
def badName : List Event :=
  [.replaced ⟨.json (.arr [ledNet]), 1⟩, .called .getNets,
    .replaced ⟨.json (.arr [.obj [("name", .arr [.str "led"])]]), 2⟩, .called (.findByName "led")]

theorem stale_index :
    ∃ w, run step start badName = some w ∧ (w.memory.call w.file (.findByName "led")).1 = .ok (.net (some 0)) ∧
      Lib.Heap.read w.memory.objects 0 = ledNet ∧ ledNet ∉ w.file.content.items ∧
      ¬Current w.file (w.memory.call w.file (.findByName "led")).2 := by
  refine ⟨_, rfl, rfl, rfl, by decide +kernel, ?_⟩
  rintro ⟨refs, hcall, -, hindex⟩
  have hrefs : refs = [1] := by
    cases hcall
    rfl
  subst hrefs
  cases hindex

end Lager.Nets.Cache
