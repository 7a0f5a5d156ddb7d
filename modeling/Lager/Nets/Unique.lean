import Mathlib.Data.List.Pairwise
import Lager.Nets.Bench
import Lager.Nets.Store
import Lager.Lib.Run

/-!
# At most one record per name and role

Which requests keep the keys of the table apart. A save replaces the record of its key and a deletion only
removes records, so neither can make two records share a key. A rename, port 5000's PUT under another name and
the scope migration put a record under a key without looking whether it is taken: for each there is the exact
condition on the table it reads.
-/

namespace Lager.Nets

open Lager.Py

/-- Two records under one name and one role. -/
def SameKey (a b : Dict) : Prop :=
  hasName (Dict.get b "name") a = true ∧ hasRole (Dict.get b "role") a = true

instance (a b : Dict) : Decidable (SameKey a b) := inferInstanceAs (Decidable (_ ∧ _))

/-- No two records share a key. -/
def Unique (nets : Table) : Prop := nets.Pairwise fun a b => ¬SameKey a b

instance (nets : Table) : Decidable (Unique nets) := inferInstanceAs (Decidable (List.Pairwise _ nets))

theorem SameKey.symm {a b : Dict} (h : SameKey a b) : SameKey b a := ⟨Json.pyEq_symm h.1, Json.pyEq_symm h.2⟩

/-- The key of a record decides what it clashes with. -/
theorem sameKey_congr {a a' b b' : Dict} (ha : Dict.get a "name" = Dict.get a' "name")
    (ha' : Dict.get a "role" = Dict.get a' "role") (hb : Dict.get b "name" = Dict.get b' "name")
    (hb' : Dict.get b "role" = Dict.get b' "role") : SameKey a b ↔ SameKey a' b' := by
  unfold SameKey hasName hasRole
  rw [ha, ha', hb, hb']

theorem Unique.append_singleton {nets : Table} {data : Dict} (h : Unique nets)
    (hfree : ∀ net ∈ nets, ¬SameKey net data) : Unique (nets ++ [data]) := by
  refine List.pairwise_append.mpr ⟨h, List.pairwise_singleton _ _, fun a ha b hb => ?_⟩
  rw [List.mem_singleton.mp hb]
  exact hfree a ha

theorem Unique.filter {nets : Table} (h : Unique nets) (keep : Dict → Bool) : Unique (nets.filter keep) :=
  List.Pairwise.filter keep h

/-! ### Saving and deleting -/

theorem unique_saveEdit {nets out : Table} {data : Dict} (h : Unique nets) (hout : saveEdit data nets = some out) :
    Unique out := by
  cases hout
  refine (h.filter _).append_singleton fun net hnet hsame => ?_
  have hkept := (List.mem_filter.mp hnet).2
  rw [Bool.not_eq_true', Bool.and_eq_false_iff] at hkept
  rcases hkept with hname | hrole
  · rw [hsame.1] at hname
    cases hname
  · rw [hsame.2] at hrole
    cases hrole

theorem unique_deleteEdit {nets out : Table} {name role : Json} (h : Unique nets)
    (hout : deleteEdit name role nets = some out) : Unique out := by
  simp only [deleteEdit, filterNets] at hout
  split_ifs at hout <;> cases hout
  · exact h.filter _
  · exact h.filter _

/-- An edit that touches neither names nor roles. -/
theorem unique_map {nets : Table} {f : Dict → Dict} (h : Unique nets)
    (hname : ∀ net, Dict.get (f net) "name" = Dict.get net "name")
    (hrole : ∀ net, Dict.get (f net) "role" = Dict.get net "role") : Unique (nets.map f) := by
  refine List.Pairwise.map f (fun a b hab hsame => hab ?_) h
  exact (sameKey_congr (hname a) (hrole a) (hname b) (hrole b)).mp hsame

theorem unique_limitsEdit {nets out : Table} {name : Json} {limits : Dict} (h : Unique nets)
    (hout : limitsEdit name limits nets = some out) : Unique out := by
  simp only [limitsEdit] at hout
  split_ifs at hout with hany hclear
  · cases hout
    refine unique_map h (fun net => ?_) fun net => ?_
    · split_ifs
      · exact Dict.get_pop_ne net (by decide)
      · rfl
    · split_ifs
      · exact Dict.get_pop_ne net (by decide)
      · rfl
  · cases hout
    refine unique_map h (fun net => ?_) fun net => ?_
    · split_ifs
      · exact Dict.get_set_ne net _ (by decide)
      · rfl
    · split_ifs
      · exact Dict.get_set_ne net _ (by decide)
      · rfl

/-! ### Renaming, and port 5000's PUT -/

theorem pyEq_of_pyEq {a b c : Json} (ha : a.pyEq c = true) (hb : b.pyEq c = true) : a.pyEq b = true :=
  Json.pyEq_trans (Json.pyEq_iff.mp ha).2 (Json.pyEq_symm hb)

/-- No net of another name has the new name and the role of a net to be renamed. -/
def RenameFree (oldName newName : Json) (nets : Table) : Prop :=
  ∀ a ∈ nets, hasName oldName a = true → ∀ b ∈ nets, hasName oldName b = false → hasName newName b = true →
    hasRole (Dict.get b "role") a = false

/-- **A rename keeps the keys apart exactly when the new name is free** in every role of the old one. -/
theorem unique_renameEdit_iff {nets out : Table} {oldName newName : Json} (h : Unique nets)
    (hout : renameEdit oldName newName nets = some out) : Unique out ↔ RenameFree oldName newName nets := by
  simp only [renameEdit] at hout
  split_ifs at hout
  cases hout
  have hrole : ∀ net : Dict, Dict.get (Dict.set net "name" newName) "role" = Dict.get net "role" := fun net =>
    Dict.get_set_ne net _ (by decide)
  rw [Unique, List.pairwise_map]
  constructor
  · intro hall a ha hold b hb hother hnew
    have hne : a ≠ b := by
      rintro rfl
      rw [hold] at hother
      cases hother
    have hsymm : Std.Symm fun x y : Dict => ¬SameKey (if hasName oldName x then Dict.set x "name" newName else x)
        (if hasName oldName y then Dict.set y "name" newName else y) := ⟨fun x y hxy hsame => hxy hsame.symm⟩
    have hpair := hall.forall ha hb hne
    rw [if_pos hold, if_neg (by rw [hother]; decide)] at hpair
    rw [Bool.eq_false_iff]
    intro hsame
    refine hpair ⟨?_, ?_⟩
    · rw [hasName, Dict.get_set_self]
      exact Json.pyEq_symm hnew
    · rw [hasRole, hrole]
      exact hsame
  · intro hfree
    refine h.imp_of_mem fun {a b} ha hb hab hsame => hab ?_
    by_cases hold : hasName oldName a = true <;> by_cases hold' : hasName oldName b = true
    · rw [if_pos hold, if_pos hold', SameKey, hasRole, hrole, hrole] at hsame
      exact ⟨pyEq_of_pyEq hold hold', hsame.2⟩
    · rw [if_pos hold, if_neg hold', SameKey, hasName, hasRole, Dict.get_set_self, hrole] at hsame
      have hnot := hfree a ha hold b hb (Bool.eq_false_iff.mpr hold') (Json.pyEq_symm hsame.1)
      rw [hasRole, hsame.2] at hnot
      cases hnot
    · rw [if_neg hold, if_pos hold', SameKey, hasName, hasRole, Dict.get_set_self, hrole] at hsame
      have hnot := hfree b hb hold' a ha (Bool.eq_false_iff.mpr hold) hsame.1
      rw [hasRole, Json.pyEq_symm hsame.2] at hnot
      cases hnot
    · rwa [if_neg hold, if_neg hold'] at hsame

/-- The key of the stored record is free, or it is the key that the path names. -/
def PutFree (name : Json) (data : Dict) (nets : Table) : Prop :=
  (Dict.get data "name").pyEq name = true ∨ ∀ net ∈ nets, ¬SameKey net data

/-- **Port 5000's PUT keeps the keys apart exactly when the key of its record is free**, unless the path names
that record. -/
theorem unique_putEdit_iff {nets out : Table} {name : Json} {data : Dict} (h : Unique nets)
    (hout : putEdit name data nets = some out) : Unique out ↔ PutFree name data nets := by
  simp only [putEdit, Option.some.injEq] at hout
  subst hout
  by_cases hsame : (Dict.get data "name").pyEq name = true
  · rw [if_pos hsame]
    refine ⟨fun _ => .inl hsame, fun _ => (h.filter _).append_singleton fun net hnet hclash => ?_⟩
    have hkept := (List.mem_filter.mp hnet).2
    have hname : hasName name net = true :=
      pyEq_of_pyEq hclash.1 (Json.pyEq_symm hsame)
    rw [hname, hclash.2] at hkept
    cases hkept
  · rw [if_neg hsame]
    constructor
    · intro hall
      refine .inr fun net hnet hclash => ?_
      -- the clashing record bears the name of the body, so the path's name does not remove it
      have hname : hasName name net = false := by
        rw [Bool.eq_false_iff]
        exact fun hc => hsame (pyEq_of_pyEq (Json.pyEq_symm hclash.1) (Json.pyEq_symm hc))
      have hkept : net ∈ (nets.filter fun net => !(hasName name net && hasRole (Dict.get data "role") net)).filter
          fun net => !hasName name net := by
        simp [hnet, hname]
      exact (List.pairwise_append.mp hall).2.2 net hkept data (List.mem_singleton.mpr rfl) hclash
    · rintro (hc | hfree)
      · exact absurd hc hsame
      · refine ((h.filter _).filter _).append_singleton fun net hnet => hfree net ?_
        exact (List.mem_filter.mp (List.mem_filter.mp hnet).1).1

/-! ### The migration on a read -/

/-- What the scope migration needs to keep the keys apart: no pinned scope net bears the name of a scope channel,
and there are free numbered names for the new instrument nets. -/
def MigrationFree (lower : String → String) (nets : Table) : Prop :=
  (∀ a ∈ nets, pinned a = true → ∀ b ∈ nets, hasRole scopeChannelRole b = true →
    hasName (Dict.get b "name") a = false) ∧
  Room (nets.map fun net => Dict.get net "name") (newUnits lower nets)

theorem get_converted_name (net : Dict) : Dict.get (converted net) "name" = Dict.get net "name" := by
  unfold converted
  split_ifs
  · exact get_asChannel (by decide)
  · rfl

theorem get_role_of_pinned {net : Dict} (h : pinned net = true) : Dict.get net "role" = scopeRole := by
  unfold pinned isPinned at h
  split_ifs at h with hrole
  · exact hrole
  · cases h

theorem get_converted_role (net : Dict) :
    Dict.get (converted net) "role" = if pinned net then scopeChannelRole else Dict.get net "role" := by
  unfold converted
  split_ifs
  · exact Dict.get_set_self _ _ _
  · rfl

/-- Converting the channels in place. -/
theorem unique_converted {nets : Table} (h : Unique nets)
    (hfree : ∀ a ∈ nets, pinned a = true → ∀ b ∈ nets, hasRole scopeChannelRole b = true →
      hasName (Dict.get b "name") a = false) : Unique (nets.map converted) := by
  rw [Unique, List.pairwise_map]
  refine h.imp_of_mem fun {a b} ha hb hab hsame => hab ?_
  obtain ⟨hname, hrole⟩ := hsame
  rw [hasName, get_converted_name, get_converted_name] at hname
  rw [hasRole, get_converted_role, get_converted_role] at hrole
  refine ⟨hname, ?_⟩
  by_cases hpa : pinned a = true <;> by_cases hpb : pinned b = true
  · rw [hasRole, get_role_of_pinned hpa, get_role_of_pinned hpb]
    exact Json.pyEq_str.mpr rfl
  · rw [if_pos hpa, if_neg hpb] at hrole
    have hnot := hfree a ha hpa b hb (Json.pyEq_symm hrole)
    rw [hasName, hname] at hnot
    cases hnot
  · rw [if_neg hpa, if_pos hpb] at hrole
    have hnot := hfree b hb hpb a ha hrole
    rw [hasName, Json.pyEq_symm hname] at hnot
    cases hnot
  · rwa [if_neg hpa, if_neg hpb] at hrole

theorem unique_migrate {lower : String → String} {nets out : Table} {changed : Bool} (h : Unique nets)
    (hfree : MigrationFree lower nets) (hout : migrate lower nets = .ok (out, changed)) : Unique out := by
  obtain ⟨-, names, hlen, rfl, hfresh⟩ := migrate_spec hout
  obtain ⟨hnodup, hdisj⟩ := hfresh hfree.2
  have hnames := map_name_zipWith hlen
  refine List.pairwise_append.mpr ⟨unique_converted h hfree.1, ?_, fun a ha b hb hsame => ?_⟩
  · -- the added nets have different names
    have hpair : ((List.zipWith instrumentNet (newUnits lower nets) names).map
        fun net => Dict.get net "name").Nodup := by
      rw [hnames]
      exact hnodup.map fun x y hxy => Json.str.inj hxy
    refine (List.pairwise_map.mp hpair).imp_of_mem fun {a b} _ hb hab hsame => hab ?_
    obtain ⟨rec, name, rfl⟩ := mem_zipWith_instrumentNet hb
    have hname := hsame.1
    rw [get_instrumentNet_name] at hname ⊢
    exact Json.pyEq_str.mp hname
  · -- and none of the names that were there
    obtain ⟨net, hnet, rfl⟩ := List.mem_map.mp ha
    have hin : Dict.get b "name" ∈ names.map Json.str := by
      rw [← hnames]
      exact List.mem_map_of_mem hb
    obtain ⟨name, hname, hstr⟩ := List.mem_map.mp hin
    refine hdisj name hname (List.mem_map.mpr ⟨net, hnet, ?_⟩)
    have hsame' := hsame.1
    rw [hasName, get_converted_name, ← hstr] at hsame'
    exact Json.pyEq_str.mp hsame'

/-- Records of a table that a request has read need no second migration. -/
theorem readTable_again {env : Env} {viaNet : Bool} {file nets some' : Table}
    (h : readTable env viaNet file = .ok nets) (hsub : ∀ net ∈ some', net ∈ nets) :
    readTable env viaNet some' = .ok some' := by
  unfold readTable at h ⊢
  split_ifs at h ⊢ with hvia
  · cases hm : migrate env.lower file with
    | error e => simp [hm, Except.map] at h
    | ok r =>
      obtain ⟨out, changed⟩ := r
      simp only [hm, Except.map, Except.ok.injEq] at h
      subst h
      rw [migrate_unpinned fun net hnet => isPinned_migrated hm net (hsub net hnet)]
      rfl
  · rfl

/-! ### One request, and whole runs -/

/-- What a request must meet on the table it finds, for the keys to stay apart. -/
def KeepsKeys (env : Env) (file : Table) (r : Request) : Prop :=
  (r.viaNet = true → MigrationFree env.lower file) ∧
  match r with
  | .rename oldName newName => ∀ nets, readTable env true file = .ok nets → RenameFree oldName newName nets
  | .put name (.obj data) => PutFree (.str name) (prepared5000 env data) file
  | _ => True

theorem unique_readTable {env : Env} {viaNet : Bool} {file nets : Table} (h : Unique file)
    (hfree : viaNet = true → MigrationFree env.lower file) (hread : readTable env viaNet file = .ok nets) :
    Unique nets := by
  unfold readTable at hread
  split_ifs at hread with hvia
  · cases hm : migrate env.lower file with
    | error e => simp [hm, Except.map] at hread
    | ok r =>
      simp only [hm, Except.map, Except.ok.injEq] at hread
      subst hread
      exact unique_migrate h (hfree hvia) hm
  · cases hread
    exact h

/-- A request of one edit. -/
theorem unique_execEdits_one {env : Env} {viaNet : Bool} {edit : Edit} {file : Table} (h : Unique file)
    (hread : ∀ nets, readTable env viaNet file = .ok nets → Unique nets)
    (hedit : ∀ nets out, readTable env viaNet file = .ok nets → edit nets = some out → Unique out) :
    Unique (execEdits env viaNet [edit] file).1 := by
  rw [execEdits]
  cases hr : readTable env viaNet file with
  | error e => exact h
  | ok nets =>
    cases he : edit nets with
    | none =>
      simp only [he]
      exact hread nets hr
    | some out =>
      simp only [he]
      exact hedit nets out hr he

theorem mem_of_deleteEdit {name role : Json} {nets out : Table} (h : deleteEdit name role nets = some out) :
    ∀ net ∈ out, net ∈ nets := by
  simp only [deleteEdit, filterNets] at h
  split_ifs at h <;> cases h <;> exact fun net hnet => (List.mem_filter.mp hnet).1

/-- A deletion and a save, as `nets_update` does them for a changed name. -/
theorem unique_execEdits_two {env : Env} {viaNet : Bool} {name role : Json} {data : Dict} {file : Table}
    (h : Unique file) (hread : ∀ nets, readTable env viaNet file = .ok nets → Unique nets) :
    Unique (execEdits env viaNet [deleteEdit name role, saveEdit data] file).1 := by
  rw [execEdits]
  cases hr : readTable env viaNet file with
  | error e => exact h
  | ok nets =>
    -- the second edit reads what the first one left
    obtain ⟨left, hleft, hunique, hagain⟩ : ∃ left, execEdits env viaNet [saveEdit data] left =
        (match deleteEdit name role nets with
          | some newNets => execEdits env viaNet [saveEdit data] newNets
          | none => execEdits env viaNet [saveEdit data] nets) ∧ Unique left ∧
        readTable env viaNet left = .ok left := by
      cases he : deleteEdit name role nets with
      | none => exact ⟨nets, rfl, hread nets hr, readTable_again hr fun _ hnet => hnet⟩
      | some out =>
        exact ⟨out, rfl, unique_deleteEdit (hread nets hr) he, readTable_again hr (mem_of_deleteEdit he)⟩
    have hsave : Unique (execEdits env viaNet [saveEdit data] left).1 := by
      refine unique_execEdits_one hunique (fun nets hn => ?_) fun nets out hn hout => ?_
      · rw [hagain, Except.ok.injEq] at hn
        exact hn ▸ hunique
      · rw [hagain, Except.ok.injEq] at hn
        exact unique_saveEdit (hn ▸ hunique) hout
    rw [hleft] at hsave
    cases he : deleteEdit name role nets with
    | none => simpa only [he] using hsave
    | some out => simpa only [he] using hsave

/-- **One request keeps the keys apart** on a table that meets its condition. -/
theorem unique_exec {env : Env} {file : Table} {r : Request} (h : Unique file) (hok : KeepsKeys env file r) :
    Unique (exec env r file).1 := by
  have hread : ∀ nets, readTable env r.viaNet file = .ok nets → Unique nets := fun nets hn =>
    unique_readTable h hok.1 hn
  unfold exec
  cases hedits : r.edits env with
  | error reason => exact h
  | ok edits =>
    simp only
    cases r with
    | save data =>
      simp only [Request.edits] at hedits
      split at hedits <;> cases hedits
      exact unique_execEdits_one h hread fun nets out hn hout => unique_saveEdit (hread nets hn) hout
    | delete name role =>
      cases hedits
      exact unique_execEdits_one h hread fun nets out hn hout => unique_deleteEdit (hread nets hn) hout
    | rename oldName newName =>
      cases hedits
      exact unique_execEdits_one h hread fun nets out hn hout =>
        (unique_renameEdit_iff (hread nets hn) hout).mpr (hok.2 nets hn)
    | update name body =>
      simp only [Request.edits] at hedits
      split_ifs at hedits with hbody
      split at hedits
      · split_ifs at hedits with hmissing hname
        · split at hedits <;> cases hedits
          exact unique_execEdits_one h hread fun nets out hn hout => unique_saveEdit (hread nets hn) hout
        · split at hedits <;> cases hedits
          exact unique_execEdits_two h hread
      · cases hedits
    | setSafetyLimits name body =>
      simp only [Request.edits] at hedits
      cases hlimits : validateSafetyLimits body with
      | error reason => simp [hlimits, Except.map] at hedits
      | ok limits =>
        simp only [hlimits, Except.map, Except.ok.injEq] at hedits
        subst hedits
        exact unique_execEdits_one h hread fun nets out hn hout => unique_limitsEdit (hread nets hn) hout
    | put name body =>
      simp only [Request.edits] at hedits
      split at hedits
      · split_ifs at hedits with hmissing
        cases hedits
        refine unique_execEdits_one h hread fun nets out hn hout => ?_
        cases hn
        exact (unique_putEdit_iff h hout).mpr hok.2
      · cases hedits
    | drop name role =>
      cases hedits
      exact unique_execEdits_one h hread fun nets out hn hout => unique_deleteEdit (hread nets hn) hout

/-- The table after a request. -/
def after (env : Env) (file : Table) (r : Request) : Option Table := some (exec env r file).1

/-- **At most one record per name and role.** From a table without duplicates, a run of requests that each meet
their condition on the table they find reaches only tables without duplicates. -/
theorem saved_nets_unique (env : Env) (file : Table) (rs rest : List Request) (t : Table) (h : Unique file)
    (hok : Lib.Along (after env) (KeepsKeys env) file (rs ++ rest)) (hrun : Lib.run (after env) file rs = some t) :
    Unique t := by
  have hpre := (hok.append hrun).1
  refine Lib.run_invariant Unique (fun s r t hkeeps hs hstep => ?_) hpre h hrun
  cases hstep
  exact unique_exec hs hkeeps

section Instances

instance (oldName newName : Json) (nets : Table) : Decidable (RenameFree oldName newName nets) :=
  inferInstanceAs (Decidable (∀ a ∈ nets, hasName oldName a = true → ∀ b ∈ nets, hasName oldName b = false →
    hasName newName b = true → hasRole (Dict.get b "role") a = false))

instance (name : Json) (data : Dict) (nets : Table) : Decidable (PutFree name data nets) :=
  inferInstanceAs (Decidable (_ ∨ ∀ net ∈ nets, ¬SameKey net data))

instance (taken : List Json) (fs : List Dict) : Decidable (Room taken fs) :=
  inferInstanceAs (Decidable (∀ rec ∈ fs, _ ≤ 999))

instance (lower : String → String) (nets : Table) : Decidable (MigrationFree lower nets) :=
  inferInstanceAs (Decidable ((∀ a ∈ nets, pinned a = true → ∀ b ∈ nets, hasRole scopeChannelRole b = true →
    hasName (Dict.get b "name") a = false) ∧ Room _ _))

instance decidableReads {P : Table → Prop} [∀ nets, Decidable (P nets)] (env : Env) (viaNet : Bool) (file : Table) :
    Decidable (∀ nets, readTable env viaNet file = .ok nets → P nets) :=
  match h : readTable env viaNet file with
  | .error _ => isTrue (by simp)
  | .ok nets => decidable_of_iff (P nets) (by simp)

instance (env : Env) (file : Table) : ∀ r : Request, Decidable (KeepsKeys env file r)
  | .save _ => inferInstanceAs (Decidable ((_ = true → _) ∧ True))
  | .delete _ _ => inferInstanceAs (Decidable ((_ = true → _) ∧ True))
  | .rename _ _ => inferInstanceAs (Decidable ((_ = true → _) ∧ ∀ nets, _ = Except.ok nets → RenameFree _ _ nets))
  | .update _ _ => inferInstanceAs (Decidable ((_ = true → _) ∧ True))
  | .setSafetyLimits _ _ => inferInstanceAs (Decidable ((_ = true → _) ∧ True))
  | .put _ (.obj _) => inferInstanceAs (Decidable ((_ = true → _) ∧ PutFree _ _ _))
  | .put _ .null => inferInstanceAs (Decidable ((_ = true → _) ∧ True))
  | .put _ (.bool _) => inferInstanceAs (Decidable ((_ = true → _) ∧ True))
  | .put _ (.int _) => inferInstanceAs (Decidable ((_ = true → _) ∧ True))
  | .put _ (.float _) => inferInstanceAs (Decidable ((_ = true → _) ∧ True))
  | .put _ (.str _) => inferInstanceAs (Decidable ((_ = true → _) ∧ True))
  | .put _ (.arr _) => inferInstanceAs (Decidable ((_ = true → _) ∧ True))
  | .drop _ _ => inferInstanceAs (Decidable ((_ = true → _) ∧ True))

end Instances

/-- A box without USB devices; `str` on the pins that occur. -/
def plainEnv : Env where
  lower := asciiLower
  str
    | .int n => String.ofList (textOfInt n)
    | .str s => s
    | _ => ""
  usbIdentity _ := .null
  udPinSpanError _ := none

def gpioNet (name : String) : Dict :=
  [("name", .str name), ("role", .str "gpio"), ("instrument", .str "labjack_t7"), ("pin", .int 3)]

theorem saved_nets_unique_rename_put :
    Unique [gpioNet "led"] ∧
      ∀ t, Lib.run (after plainEnv) [gpioNet "led"] [.rename (.str "led") (.str "lamp"), .save (gpioNet "led"),
        .put "led" (.obj (gpioNet "fan"))] = some t → Unique t := by
  refine ⟨by decide +kernel, fun t ht => ?_⟩
  exact saved_nets_unique plainEnv [gpioNet "led"] _ [] t (by decide +kernel) (by decide +kernel) ht

/-- A rename onto a name in use leaves two records of that name and role. -/
theorem rename_onto_used_name :
    Unique [gpioNet "led", gpioNet "fan"] ∧
      ¬Unique (exec plainEnv (.rename (.str "led") (.str "fan")) [gpioNet "led", gpioNet "fan"]).1 := by
  decide +kernel

end Lager.Nets
