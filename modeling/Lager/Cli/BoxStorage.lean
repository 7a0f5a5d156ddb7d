import Lager.Lib.Fold
import Lager.Py.Number
import Lager.Py.Text
import Mathlib.Data.List.Induction
import Mathlib.Data.List.Infix

/-!
# The box list of the CLI

`box_storage.py`: the boxes are one section of the global `.lager` file, which other commands keep their own
sections in. Every edit loads the boxes, changes one name and writes the whole file again with the new boxes;
`save_boxes` reads the other sections itself, under rules of its own for legacy names and other formats.

A `.lager` file that `json.load` reads is held as the decoded value, since what `json.dump` writes is what
`json.load` reads back. `section_kept` and `boxes_kept` say what an edit leaves alone; `damaged_file_replaced` what
becomes of a file that does not parse.
-/

namespace Lager.Cli.BoxStorage

open Py

/-- The content of the global `.lager` file. -/
inductive LagerFile
  | absent
  /-- Text that `json.load` reads. -/
  | json (value : Json)
  /-- Text that `json.load` refuses with a `JSONDecodeError`. -/
  | text (content : List Char)
  /-- Bytes that are not UTF-8. -/
  | undecodable

/-! ### Reading -/

/-- `_load_boxes_from_file`. -/
def loadBoxes : LagerFile → Except PyErr Json
  | .absent => .ok (.obj [])
  | .json (.obj data) =>
    .ok ((Dict.get data "BOXES").orElse ((Dict.get data "DUTS").orElse (Dict.getD data "duts" (.obj []))))
  | .json _ => .error .attributeError
  | .text _ => .ok (.obj [])
  | .undecodable => .error .unicodeDecodeError

/-- `if old in data: data[new] = data.pop(old)`. -/
def rename (data : Dict) (old new : String) : Dict :=
  match Dict.get? data old with
  | none => data
  | some v => Dict.set (Dict.pop data old) new v

/-- The legacy keys in the order `save_boxes` renames them. -/
def renames : List (String × String) :=
  [("duts", "BOXES"), ("DUTS", "BOXES"), ("nets", "NETS"), ("devenv", "DEVENV"), ("LAGER", "DEFAULTS")]

def migrate (data : Dict) : Dict := renames.foldl (fun d r => rename d r.1 r.2) data

/-- What becomes of text that starts with a brace or a bracket, once decoded. A list has no `pop(key)`: one that
holds a legacy key raises inside the `try`, any other comes through. -/
def decoded : Json → Json
  | .obj data => .obj (migrate data)
  | .arr xs => if renames.any fun r => xs.any fun x => x.pyEq (.str r.1) then .obj [] else .arr xs
  | _ => .obj []

/-- The `data` that `save_boxes` starts from. `loads` is `json.loads` on the stripped text of a file that
`json.load` refuses. Text that starts with neither a brace nor a bracket goes to `read_config_file`, which reads
JSON only: it raises and the `except` starts afresh. -/
def existing (loads : List Char → Option Json) : LagerFile → Json
  | .absent => .obj []
  | .json v => decoded v
  | .text content =>
    match strip content with
    | '{' :: rest => (loads ('{' :: rest)).elim (.obj []) decoded
    | '[' :: rest => (loads ('[' :: rest)).elim (.obj []) decoded
    | _ => .obj []
  | .undecodable => .obj []

/-! ### Writing -/

/-- `save_boxes`; `data['BOXES'] = boxes` stands outside the `try`, and a list has no such key. -/
def saveBoxes (loads : List Char → Option Json) (boxes : Dict) (file : LagerFile) : Except PyErr LagerFile :=
  match existing loads file with
  | .obj data => .ok (.json (.obj (Dict.set data "BOXES" (.obj boxes))))
  | _ => .error .typeError

/-- `name in boxes`. -/
def isIn (name : String) : Json → Except PyErr Bool
  | .obj boxes => .ok (Dict.has boxes name)
  | .arr xs => .ok (xs.any fun x => x.pyEq (.str name))
  | .str s => .ok (decide (name.toList <:+: s.toList))
  | _ => .error .typeError

/-- `boxes`, where the code goes on to use it as a dict: subscripting anything else with a name raises. -/
def asDict : Json → Except PyErr Dict
  | .obj boxes => .ok boxes
  | _ => .error .typeError

/-- The value `add_box` stores: the address alone, unless a user or a version is given. -/
def boxInfo (ip : String) (user version : Option String) : Json :=
  let user := user.filter (· ≠ "")
  let version := version.filter (· ≠ "")
  if user.isSome ∨ version.isSome then
    .obj ([("ip", .str ip)] ++ (user.map fun u => ("user", Json.str u)).toList ++
      (version.map fun v => ("version", Json.str v)).toList)
  else .str ip

/-- The value `update_box_version` stores. -/
def versioned (version : String) : Json → Json
  | .obj info => .obj (Dict.set info "version" (.str version))
  | info => .obj [("ip", info), ("version", .str version)]

inductive Op
  | add (name ip : String) (user version : Option String)
  | delete (name : String)
  | updateVersion (name version : String)

def Op.name : Op → String
  | .add name _ _ _ => name
  | .delete name => name
  | .updateVersion name _ => name

/-- What an operation makes of the boxes it loaded. -/
def Op.edit : Op → Dict → Dict
  | .add name ip user version, boxes => Dict.set boxes name (boxInfo ip user version)
  | .delete name, boxes => Dict.pop boxes name
  | .updateVersion name version, boxes => Dict.set boxes name (versioned version (Dict.get boxes name))

/-- Whether there is something to do: the name test of `delete_box` and `update_box_version`. -/
def Op.applies : Op → Json → Except PyErr Bool
  | .add _ _ _ _, _ => .ok true
  | .delete name, boxes => isIn name boxes
  | .updateVersion name _, boxes => isIn name boxes

/-- `add_box`, `delete_box` and `update_box_version`: the result (`add_box` returns none; `true` here) and the file
after. -/
def Op.run (loads : List Char → Option Json) (op : Op) (file : LagerFile) :
    Except PyErr (Bool × LagerFile) := do
  let boxes ← loadBoxes file
  if ← op.applies boxes then
    let file' ← saveBoxes loads (op.edit (← asDict boxes)) file
    return (true, file')
  else
    return (false, file)

/-- The file after an operation; one that raises has not opened it for writing. -/
def Op.exec (loads : List Char → Option Json) (op : Op) (file : LagerFile) : LagerFile :=
  match op.run loads file with
  | .ok (_, file') => file'
  | .error _ => file

/-- The file after some operations. -/
def after (loads : List Char → Option Json) (file : LagerFile) (ops : List Op) : LagerFile :=
  ops.foldl (fun f op => op.exec loads f) file

/-! ### The legacy names -/

/-- The name a section is written under. -/
def migratedName (key : String) : String := (renames.lookup key).getD key

theorem get?_pop_self (d : Dict) (k : String) : Dict.get? (Dict.pop d k) k = none := by
  rw [Dict.get?, Dict.pop, List.lookup_eq_none_iff]
  intro p hp
  have hne : p.1 ≠ k := by simpa using (List.mem_filter.mp hp).2
  simpa using hne.symm

theorem get?_rename (d : Dict) {old new : String} (h : old ≠ new) (k : String) :
    Dict.get? (rename d old new) k =
      if k = old then none else if k = new then (Dict.get? d old).or (Dict.get? d new) else Dict.get? d k := by
  rw [rename]
  cases hold : Dict.get? d old with
  | none =>
    show Dict.get? d k = _
    by_cases hk : k = old
    · rw [if_pos hk, hk, hold]
    · rw [if_neg hk]
      by_cases hk' : k = new
      · rw [if_pos hk', hk', Option.none_or]
      · rw [if_neg hk']
  | some v =>
    show Dict.get? (Dict.set (Dict.pop d old) new v) k = _
    by_cases hk : k = old
    · rw [if_pos hk, hk, Dict.get?_set_ne _ _ h, get?_pop_self]
    · rw [if_neg hk]
      by_cases hk' : k = new
      · rw [if_pos hk', hk', Dict.get?_set_self, Option.some_or]
      · rw [if_neg hk', Dict.get?_set_ne _ _ hk', Dict.get?_pop_ne _ hk]

/-- No legacy name is left. -/
theorem get?_migrate_legacy (d : Dict) {k : String} (hk : k ∈ renames.map Prod.fst) :
    Dict.get? (migrate d) k = none := by
  simp only [renames, List.map_cons, List.map_nil, List.mem_cons, List.not_mem_nil, or_false] at hk
  rcases hk with rfl | rfl | rfl | rfl | rfl <;> simp [migrate, renames, get?_rename]

/-- No other key of the file is written under the same name. -/
def Alone (data : Dict) (key : String) : Prop :=
  ∀ other, Dict.has data other = true → migratedName other = migratedName key → other = key

theorem migratedName_of_not_mem {k : String} (hk : k ∉ renames.map Prod.fst) : migratedName k = k := by
  have hnone : renames.lookup k = none := by
    rw [List.lookup_eq_none_iff]
    intro p hp
    have hne : p.1 ≠ k := fun h => hk (h ▸ List.mem_map_of_mem hp)
    simpa using hne.symm
  rw [migratedName, hnone, Option.getD_none]

theorem migratedName_idem (k : String) : migratedName (migratedName k) = migratedName k := by
  by_cases hk : k ∈ renames.map Prod.fst
  · simp only [renames, List.map_cons, List.map_nil, List.mem_cons, List.not_mem_nil, or_false] at hk
    rcases hk with rfl | rfl | rfl | rfl | rfl <;> decide
  · rw [migratedName_of_not_mem hk, migratedName_of_not_mem hk]

theorem get?_of_alone {data : Dict} {key other : String} (halone : Alone data key) (hne : other ≠ key)
    (hname : migratedName other = migratedName key) : Dict.get? data other = none := by
  by_contra h
  exact hne (halone other (Option.isSome_iff_ne_none.mpr h) hname)

/-- A section moves to its new name with its content. -/
theorem get?_migrate_name {data : Dict} {key : String} {v : Json} (hkey : Dict.get? data key = some v)
    (hbox : migratedName key ≠ "BOXES") (halone : Alone data key) :
    Dict.get? (migrate data) (migratedName key) = some v := by
  by_cases hk : key ∈ renames.map Prod.fst
  · simp only [renames, List.map_cons, List.map_nil, List.mem_cons, List.not_mem_nil, or_false] at hk
    rcases hk with rfl | rfl | rfl | rfl | rfl
    · exact absurd (by decide) hbox
    · exact absurd (by decide) hbox
    · show Dict.get? (migrate data) "NETS" = some v
      simp [migrate, renames, get?_rename, hkey]
    · show Dict.get? (migrate data) "DEVENV" = some v
      simp [migrate, renames, get?_rename, hkey]
    · show Dict.get? (migrate data) "DEFAULTS" = some v
      simp [migrate, renames, get?_rename, hkey]
  · rw [migratedName_of_not_mem hk] at hbox ⊢
    -- the old name of `NETS`, `DEVENV` and `DEFAULTS` is not in the file, since `key` is alone
    have hnets : key = "NETS" → Dict.get? data "nets" = none :=
      fun h => get?_of_alone halone (by simp [h]) (by rw [h]; decide)
    have hdevenv : key = "DEVENV" → Dict.get? data "devenv" = none :=
      fun h => get?_of_alone halone (by simp [h]) (by rw [h]; decide)
    have hdefaults : key = "DEFAULTS" → Dict.get? data "LAGER" = none :=
      fun h => get?_of_alone halone (by simp [h]) (by rw [h]; decide)
    simp only [renames, List.map_cons, List.map_nil, List.mem_cons, List.not_mem_nil, or_false, not_or] at hk
    obtain ⟨hk₁, hk₂, hk₃, hk₄, hk₅⟩ := hk
    by_cases h₁ : key = "NETS"
    · subst h₁
      simp [migrate, renames, get?_rename, hkey, hnets rfl]
    by_cases h₂ : key = "DEVENV"
    · subst h₂
      simp [migrate, renames, get?_rename, hkey, hdevenv rfl]
    by_cases h₃ : key = "DEFAULTS"
    · subst h₃
      simp [migrate, renames, get?_rename, hkey, hdefaults rfl]
    simp [migrate, renames, get?_rename, hkey, hk₁, hk₂, hk₃, hk₄, hk₅, hbox, h₁, h₂, h₃]

/-! ### One operation -/

theorem get?_edit (op : Op) (boxes : Dict) {n : String} (h : n ≠ op.name) :
    Dict.get? (op.edit boxes) n = Dict.get? boxes n := by
  cases op with
  | add name ip user version => exact Dict.get?_set_ne _ _ h
  | delete name => exact Dict.get?_pop_ne _ h
  | updateVersion name version => exact Dict.get?_set_ne _ _ h

theorem asDict_eq_ok {v : Json} {d : Dict} (h : asDict v = .ok d) : v = .obj d := by
  cases v with
  | obj boxes =>
    cases h
    rfl
  | _ => cases h

theorem saveBoxes_eq_ok {loads : List Char → Option Json} {boxes : Dict} {file file' : LagerFile}
    (h : saveBoxes loads boxes file = .ok file') :
    ∃ data, existing loads file = .obj data ∧ file' = .json (.obj (Dict.set data "BOXES" (.obj boxes))) := by
  rw [saveBoxes] at h
  cases hdata : existing loads file with
  | obj data =>
    rw [hdata] at h
    cases h
    exact ⟨data, rfl, rfl⟩
  | _ =>
    rw [hdata] at h
    cases h

/-- An operation leaves the file as it is, or writes the sections it read with the edited boxes. -/
theorem exec_cases (loads : List Char → Option Json) (op : Op) (file : LagerFile) :
    op.exec loads file = file ∨
      ∃ boxes data, loadBoxes file = .ok (.obj boxes) ∧ existing loads file = .obj data ∧
        op.exec loads file = .json (.obj (Dict.set data "BOXES" (.obj (op.edit boxes)))) := by
  rw [Op.exec]
  cases hrun : op.run loads file with
  | error e => exact Or.inl rfl
  | ok r =>
    show r.2 = file ∨ ∃ boxes data, _ ∧ _ ∧ r.2 = _
    obtain ⟨loaded, hload, hrun⟩ := Lib.bind_eq_ok hrun
    obtain ⟨found, -, hrun⟩ := Lib.bind_eq_ok hrun
    cases found with
    | false =>
      cases hrun
      exact Or.inl rfl
    | true =>
      obtain ⟨boxes, hboxes, hrun⟩ := Lib.bind_eq_ok hrun
      obtain ⟨file', hsave, hrun⟩ := Lib.bind_eq_ok hrun
      cases hrun
      obtain ⟨data, hdata, rfl⟩ := saveBoxes_eq_ok hsave
      rw [asDict_eq_ok hboxes] at hload
      exact Or.inr ⟨boxes, data, hload, hdata, rfl⟩

/-- The sections `save_boxes` reads have no legacy name. -/
theorem existing_legacy {loads : List Char → Option Json} {file : LagerFile} {data : Dict}
    (h : existing loads file = .obj data) {k : String} (hk : k ∈ renames.map Prod.fst) :
    Dict.get? data k = none := by
  have hempty : ∀ {data : Dict}, Json.obj [] = .obj data → Dict.get? data k = none := by
    rintro data h
    cases h
    rfl
  have hdecoded : ∀ {v : Json}, decoded v = .obj data → Dict.get? data k = none := by
    intro v hv
    cases v with
    | obj d =>
      cases hv
      exact get?_migrate_legacy d hk
    | arr xs =>
      rw [decoded] at hv
      split_ifs at hv
      exact hempty hv
    | _ => exact hempty hv
  have helim : ∀ {o : Option Json}, o.elim (.obj []) decoded = .obj data → Dict.get? data k = none := by
    intro o ho
    cases o with
    | none => exact hempty ho
    | some v => exact hdecoded ho
  cases file with
  | absent => exact hempty h
  | json v => exact hdecoded h
  | text content =>
    rw [existing] at h
    split at h
    · exact helim h
    · exact helim h
    · exact hempty h
  | undecodable => exact hempty h

/-- What is written is loaded again, the empty box list included. -/
theorem loadBoxes_written {data boxes : Dict} (hduts : Dict.get? data "duts" = none)
    (hDUTS : Dict.get? data "DUTS" = none) :
    loadBoxes (.json (.obj (Dict.set data "BOXES" (.obj boxes)))) = .ok (.obj boxes) := by
  rw [loadBoxes, Dict.get_set_self, Dict.get, Dict.getD, Dict.get?_set_ne _ _ (by decide),
    Dict.get?_set_ne _ _ (by decide), hduts, hDUTS, Option.getD_none, Option.getD_none]
  cases boxes with
  | nil => rfl
  | cons box boxes => rfl

/-- The box is in what a load of the file returns. -/
def Returns (file : LagerFile) (name : String) (info : Json) : Prop :=
  ∃ boxes, loadBoxes file = .ok (.obj boxes) ∧ Dict.get? boxes name = some info

/-- An operation keeps every box it does not name. -/
theorem boxes_kept (loads : List Char → Option Json) (op : Op) {file : LagerFile} {name : String} {info : Json}
    (hname : name ≠ op.name) (h : Returns file name info) : Returns (op.exec loads file) name info := by
  obtain hsame | ⟨boxes, data, hload, hdata, hwritten⟩ := exec_cases loads op file
  · rw [hsame]
    exact h
  · obtain ⟨loaded, hloaded, hinfo⟩ := h
    have heq : loaded = boxes := by simpa using hloaded.symm.trans hload
    subst heq
    refine ⟨op.edit loaded, ?_, by rw [get?_edit op loaded hname, hinfo]⟩
    rw [hwritten]
    exact loadBoxes_written (existing_legacy hdata (by decide)) (existing_legacy hdata (by decide))

/-- The file holds the section under this name, and nothing else that is written under the same name. -/
def Holds (file : LagerFile) (key : String) (v : Json) : Prop :=
  ∃ data, file = .json (.obj data) ∧ Dict.get? data key = some v ∧ Alone data key

/-- After an operation a section is where it was, or under its migrated name. -/
theorem section_kept (loads : List Char → Option Json) (op : Op) {file : LagerFile} {key : String} {v : Json}
    (hbox : migratedName key ≠ "BOXES") (h : Holds file key v) :
    Holds (op.exec loads file) key v ∨ Holds (op.exec loads file) (migratedName key) v := by
  obtain hsame | ⟨boxes, data, hload, hdata, hwritten⟩ := exec_cases loads op file
  · rw [hsame]
    exact Or.inl h
  · obtain ⟨data₀, rfl, hv, halone⟩ := h
    have hmigrate : migrate data₀ = data := by simpa [existing, decoded] using hdata
    refine Or.inr ⟨_, hwritten, ?_, ?_⟩
    · rw [Dict.get?_set_ne _ _ hbox, ← hmigrate]
      exact get?_migrate_name hv hbox halone
    · intro other hother hsame
      rw [migratedName_idem] at hsame
      have hne : other ≠ "BOXES" := fun hb => hbox (by rw [← hsame, hb]; decide)
      rw [Dict.has, Dict.get?_set_ne _ _ hne] at hother
      -- a legacy name is gone, so `other` is its own migrated name
      have hlegacy : other ∉ renames.map Prod.fst := fun hmem => by
        rw [existing_legacy hdata hmem] at hother
        cases hother
      rw [← hsame, migratedName_of_not_mem hlegacy]

/-- The stripped text starts like JSON and is refused again. -/
def Damaged (loads : List Char → Option Json) (content : List Char) : Prop :=
  ∃ rest, (strip content = '{' :: rest ∨ strip content = '[' :: rest) ∧ loads (strip content) = none

theorem existing_damaged {loads : List Char → Option Json} {content : List Char} (h : Damaged loads content) :
    existing loads (.text content) = .obj [] := by
  obtain ⟨rest, hstart, hloads⟩ := h
  rw [existing]
  rcases hstart with hs | hs
  · rw [hs] at hloads ⊢
    show (loads ('{' :: rest)).elim (Json.obj []) decoded = Json.obj []
    rw [hloads, Option.elim_none]
  · rw [hs] at hloads ⊢
    show (loads ('[' :: rest)).elim (Json.obj []) decoded = Json.obj []
    rw [hloads, Option.elim_none]

/-- The first box starts the file afresh. -/
theorem add_damaged {loads : List Char → Option Json} {content : List Char} (h : Damaged loads content)
    (name ip : String) (user version : Option String) :
    (Op.add name ip user version).exec loads (.text content) =
      .json (.obj [("BOXES", .obj [(name, boxInfo ip user version)])]) := by
  have hsave : saveBoxes loads [(name, boxInfo ip user version)] (.text content) =
      .ok (.json (.obj [("BOXES", .obj [(name, boxInfo ip user version)])])) := by
    rw [saveBoxes, existing_damaged h]
    rfl
  have hrun : (Op.add name ip user version).run loads (.text content) =
      (saveBoxes loads [(name, boxInfo ip user version)] (.text content)).map fun file' => (true, file') := rfl
  rw [Op.exec, hrun, hsave]
  rfl

/-! ### Whole runs -/

theorem after_concat (loads : List Char → Option Json) (file : LagerFile) (ops : List Op) (op : Op) :
    after loads file (ops ++ [op]) = op.exec loads (after loads file ops) := by
  rw [after, List.foldl_append]
  rfl

/-- A section of the first file is there after every sequence of operations, under one of its two names. -/
theorem section_kept_after (loads : List Char → Option Json) {file : LagerFile} {key : String} {v : Json}
    (hbox : migratedName key ≠ "BOXES") (h : Holds file key v) (ops : List Op) :
    Holds (after loads file ops) key v ∨ Holds (after loads file ops) (migratedName key) v := by
  induction ops using List.reverseRecOn with
  | nil => exact Or.inl h
  | append_singleton ops op ih =>
    rw [after_concat]
    rcases ih with ih | ih
    · exact section_kept loads op hbox ih
    · right
      have hbox' : migratedName (migratedName key) ≠ "BOXES" := by rwa [migratedName_idem]
      have hkept := section_kept loads op hbox' ih
      rwa [migratedName_idem, or_self] at hkept

/-- **The edits of the box list keep everything else.** For every content of the file and every sequence of
operations, the next operation keeps every box that a load returned before it and that it does not name. A section
of the first file other than the boxes, alone under its migrated name, keeps its content. A file that starts like
JSON and does not parse is left alone, until an added box starts it afresh. -/
theorem edits_keep (loads : List Char → Option Json) (file : LagerFile) (ops : List Op) (op : Op) :
    (∀ name info, name ≠ op.name → Returns (after loads file ops) name info →
      Returns (after loads file (ops ++ [op])) name info) ∧
    (∀ key v, migratedName key ≠ "BOXES" → Holds file key v →
      Holds (after loads file (ops ++ [op])) key v ∨
        Holds (after loads file (ops ++ [op])) (migratedName key) v) ∧
    (∀ content, after loads file ops = .text content → Damaged loads content →
      after loads file (ops ++ [op]) = .text content ∨
        ∃ name ip user version, op = .add name ip user version ∧
          after loads file (ops ++ [op]) = .json (.obj [("BOXES", .obj [(name, boxInfo ip user version)])])) := by
  refine ⟨fun name info hname h => ?_, fun key v hbox h => section_kept_after loads hbox h _,
    fun content hfile h => ?_⟩
  · rw [after_concat]
    exact boxes_kept loads op hname h
  · rw [after_concat, hfile]
    cases op with
    | add name ip user version =>
      exact Or.inr ⟨name, ip, user, version, rfl, add_damaged h name ip user version⟩
    | delete name => exact Or.inl rfl
    | updateVersion name version => exact Or.inl rfl

/-- A file of an older release: the boxes under `DUTS`, the nets under `nets`. -/
def legacyFile : LagerFile :=
  .json (.obj [("DUTS", .obj [("lab", .str "10.0.0.1")]), ("nets", .arr [.str "vcc"])])

/-- The second operation of a run on it: the first box is still returned, the nets are under one of the names. -/
theorem legacy_file_kept :
    Returns (after (fun _ => none) legacyFile ([.add "bench" "10.0.0.2" none none] ++ [.delete "bench"])) "lab"
        (.str "10.0.0.1") ∧
      (Holds (after (fun _ => none) legacyFile ([.add "bench" "10.0.0.2" none none] ++ [.delete "bench"])) "nets"
          (.arr [.str "vcc"]) ∨
        Holds (after (fun _ => none) legacyFile ([.add "bench" "10.0.0.2" none none] ++ [.delete "bench"])) "NETS"
          (.arr [.str "vcc"])) := by
  have h := edits_keep (fun _ => none) legacyFile [.add "bench" "10.0.0.2" none none] (.delete "bench")
  refine ⟨h.1 "lab" _ (by decide) ⟨_, rfl, rfl⟩, h.2.1 "nets" _ (by decide) ⟨_, rfl, rfl, ?_⟩⟩
  intro other hother hsame
  have hmem : other = "DUTS" ∨ other = "nets" := by
    by_contra hne
    rw [not_or] at hne
    simp [Dict.has, Dict.get?, List.lookup_cons, beq_false_of_ne hne.1, beq_false_of_ne hne.2] at hother
  rcases hmem with rfl | rfl
  · exact absurd hsame (by decide)
  · rfl

/-- A file with a comma too many. -/
def damagedFile : List Char := "\x7b\"BOXES\": \x7b\"lab\": \"10.0.0.1\"\x7d,\x7d".toList

/-- A box added to it: the file has that box only. -/
theorem damaged_file_replaced :
    (Op.add "bench" "10.0.0.2" none none).exec (fun _ => none) (.text damagedFile) =
        .json (.obj [("BOXES", .obj [("bench", .str "10.0.0.2")])]) ∧
      (Op.add "bench" "10.0.0.2" none none).exec (fun _ => none) (.text damagedFile) ≠ .text damagedFile := by
  have hdamaged : Damaged (fun _ => none) damagedFile := ⟨damagedFile.tail, Or.inl (by decide +kernel), rfl⟩
  rw [add_damaged hdamaged]
  refine ⟨?_, by simp⟩
  show LagerFile.json (.obj [("BOXES", .obj [("bench", boxInfo "10.0.0.2" none none)])]) = _
  rw [boxInfo, if_neg (by decide)]

end Lager.Cli.BoxStorage
