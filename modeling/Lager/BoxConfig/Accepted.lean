import Lager.Lib.Assoc
import Lager.BoxConfig.Validate

/-!
# What `validate` accepts

`Accepted T raw` says in declarative form what it means that `validate` finds nothing wrong. A section that is
an array is accepted when every entry has a key (the entry is well formed) and no two entries have the same
one: the container path of a mount, the name of a volume, the normal form of a package, the ids of a udev rule.
All seven loops are instances of `loop_eq_nil`.
-/

namespace Lager.BoxConfig

open Lager.Py Lager.Lib.Regex

/-! ### The loops over entries -/

/-- Every entry has a key and no two have the same. -/
def Distinct {κ : Type} (key : Json → Option κ) (xs : List Json) : Prop :=
  (∀ x ∈ xs, (key x).isSome = true) ∧ (xs.filterMap key).Nodup

section Loop

variable {κ : Type} [BEq κ] [LawfulBEq κ] {loop : Nat → List (κ × Nat) → List Json → List String}
  {key : Json → Option κ}

/-- **A loop that remembers keys.** If it finds nothing wrong with an entry exactly when the entry has a new key,
it finds nothing wrong with a list exactly when all keys are there, different, and new. -/
theorem loop_eq_nil (hnil : ∀ i seen, loop i seen [] = [])
    (hcons : ∀ i seen x xs, loop i seen (x :: xs) = [] ↔
      ∃ k, key x = some k ∧ seen.lookup k = none ∧ loop (i + 1) ((k, i) :: seen) xs = [])
    (i : Nat) (seen : List (κ × Nat)) (xs : List Json) :
    loop i seen xs = [] ↔ Distinct key xs ∧ ∀ k ∈ xs.filterMap key, seen.lookup k = none := by
  induction xs generalizing i seen with
  | nil => simp [hnil, Distinct]
  | cons x xs ih =>
    rw [hcons]
    simp only [Distinct]
    cases hx : key x with
    | none => simp [hx]
    | some k =>
      have hlookup : ∀ k' ∈ xs.filterMap key, ((k, i) :: seen).lookup k' = none ↔
          k' ≠ k ∧ seen.lookup k' = none := by
        intro k' _
        by_cases hk : k' = k
        · simp [hk]
        · simp [List.lookup_cons, hk, beq_false_of_ne hk]
      simp only [Option.some.injEq, exists_eq_left', ih, Distinct, List.filterMap_cons, hx, List.nodup_cons,
        List.forall_mem_cons, Option.isSome_some, true_and]
      constructor
      · rintro ⟨hnew, ⟨hall, hnodup⟩, hrest⟩
        have hk : k ∉ xs.filterMap key := fun hmem => ((hlookup k hmem).mp (hrest k hmem)).1 rfl
        exact ⟨⟨hall, hk, hnodup⟩, hnew, fun k' hk' => ((hlookup k' hk').mp (hrest k' hk')).2⟩
      · rintro ⟨⟨hall, hk, hnodup⟩, hnew, hrest⟩
        refine ⟨hnew, ⟨hall, hnodup⟩, fun k' hk' => (hlookup k' hk').mpr ⟨?_, hrest k' hk'⟩⟩
        rintro rfl
        exact hk hk'

theorem loop_start (hnil : ∀ i seen, loop i seen [] = [])
    (hcons : ∀ i seen x xs, loop i seen (x :: xs) = [] ↔
      ∃ k, key x = some k ∧ seen.lookup k = none ∧ loop (i + 1) ((k, i) :: seen) xs = [])
    (xs : List Json) : loop 0 [] xs = [] ↔ Distinct key xs := by
  rw [loop_eq_nil hnil hcons]
  simp

end Loop

theorem note_new {κ : Type} [BEq κ] {seen : List (κ × Nat)} {k : κ} {i : Nat} (h : seen.lookup k = none) :
    note seen k i = (k, i) :: seen := by
  rw [note, h]
  rfl

theorem Distinct.sublist {κ : Type} {key : Json → Option κ} {xs ys : List Json} (h : Distinct key ys)
    (hsub : xs.Sublist ys) : Distinct key xs :=
  ⟨fun x hx => h.1 x (hsub.subset hx), h.2.sublist (hsub.filterMap key)⟩

/-- Rewriting entries under the same keys keeps them accepted. -/
theorem Distinct.map {κ : Type} {key : Json → Option κ} {xs : List Json} {f : Json → Json} (h : Distinct key xs)
    (hf : ∀ x ∈ xs, key (f x) = key x) : Distinct key (xs.map f) := by
  refine ⟨?_, ?_⟩
  · intro y hy
    obtain ⟨x, hx, rfl⟩ := List.mem_map.mp hy
    rw [hf x hx]
    exact h.1 x hx
  · have hkeys : (xs.map f).filterMap key = xs.filterMap key := by
      rw [List.filterMap_map]
      exact List.filterMap_congr hf
    rw [hkeys]
    exact h.2

/-! ### Sections in general -/

/-- The entries of a section that is an array, if it is one. -/
def entries : Json → List Json
  | .arr xs => xs
  | _ => []

/-- The items of a section that is an object, if it is one. -/
def items : Json → Dict
  | .obj kvs => kvs
  | _ => []

/-- Absent, `null`, or an array of entries with different keys. -/
def ArrayOf {κ : Type} (key : Json → Option κ) (v : Json) : Prop :=
  (v = .null ∨ ∃ xs, v = .arr xs) ∧ Distinct key (entries v)

/-- Absent, `null`, or an object with good items. -/
def ObjectOf (good : String × Json → Prop) (v : Json) : Prop :=
  (v = .null ∨ ∃ kvs, v = .obj kvs) ∧ ∀ kv ∈ items v, good kv

theorem validateArray_eq_nil {κ : Type} {name : String} {loop : List Json → List String} {key : Json → Option κ}
    (h : ∀ xs, loop xs = [] ↔ Distinct key xs) (v : Json) :
    validateArray name loop v = [] ↔ ArrayOf key v := by
  cases v with
  | null => simp [validateArray, ArrayOf, entries, Distinct]
  | arr xs => simp [validateArray, ArrayOf, entries, h]
  | _ => simp [validateArray, ArrayOf]

theorem validateObject_eq_nil {name : String} {errors : String × Json → List String} (v : Json) :
    validateObject name (·.flatMap errors) v = [] ↔ ObjectOf (fun kv => errors kv = []) v := by
  cases v with
  | null => simp [validateObject, ObjectOf, items]
  | obj kvs => simp [validateObject, ObjectOf, items]
  | _ => simp [validateObject, ObjectOf]

/-! ### Keys of entries -/

variable (T : TextOps)

def mountKey : Json → Option String
  | .obj m => if mountErrors T 0 [] m = [] then containerOf (.obj m) else none
  | _ => none

def volumeKey : Json → Option String
  | .obj v => if volumeContainerErrors T 0 (Dict.get v "container") = [] then volumeNameOf v else none
  | _ => none

def packageKey (format : String → Option String) (canonical : String → String) : Json → Option String
  | .str p => if format p = none then some (canonical p) else none
  | _ => none

def udevKey : Json → Option (Json × Json)
  | .obj r => if optionalBool "udev_rules" 0 "usbtmc" r = [] then udevKeyOf T r else none
  | _ => none

variable {T}

theorem requiredText_eq_nil {name key : String} {i : Nat} {v : Json} :
    requiredText name i key v = [] ↔ ∃ s, v = .str s := by
  cases v <;> simp [requiredText]

theorem optionalBool_eq_nil {name key : String} {i : Nat} {m : Dict} :
    optionalBool name i key m = [] ↔ ∀ v, Dict.get? m key = some v → ∃ b, v = .bool b := by
  rw [optionalBool]
  cases hv : Dict.get? m key with
  | none => simp
  | some v => cases v <;> simp

theorem mountHostErrors_str {i : Nat} {host : String} :
    mountHostErrors T i (.str host) = [] ↔ startsWith host "/" = true ∧ host ≠ "/" := by
  simp [mountHostErrors]

theorem mountContainerErrors_str {i : Nat} {seen : List (String × Nat)} {container : String} :
    mountContainerErrors T i seen (.str container) = [] ↔
      startsWith container "/" = true ∧ container ≠ "/" ∧ seen.lookup container = none := by
  rw [mountContainerErrors]
  cases seen.lookup container <;> simp

/-- A mount with nothing wrong: two absolute paths other than the root, a new container path, and a boolean. -/
theorem mountErrors_eq_nil {i : Nat} {seen : List (String × Nat)} {m : Dict} :
    mountErrors T i seen m = [] ↔ ∃ host container, Dict.get m "host" = .str host ∧
      Dict.get m "container" = .str container ∧
      (∀ v, Dict.get? m "readonly" = some v → ∃ b, v = .bool b) ∧ (startsWith host "/" = true ∧ host ≠ "/") ∧
      startsWith container "/" = true ∧ container ≠ "/" ∧ seen.lookup container = none := by
  simp only [mountErrors, List.append_eq_nil_iff, requiredText_eq_nil, optionalBool_eq_nil]
  constructor
  · rintro ⟨⟨⟨⟨⟨host, hhost⟩, ⟨container, hcontainer⟩⟩, hreadonly⟩, hh⟩, hc⟩
    rw [hhost, mountHostErrors_str] at hh
    rw [hcontainer, mountContainerErrors_str] at hc
    exact ⟨host, container, hhost, hcontainer, hreadonly, hh, hc⟩
  · rintro ⟨host, container, hhost, hcontainer, hreadonly, hh, hc⟩
    rw [hhost, hcontainer, mountHostErrors_str, mountContainerErrors_str]
    exact ⟨⟨⟨⟨⟨host, rfl⟩, container, rfl⟩, hreadonly⟩, hh⟩, hc⟩

theorem mountsFrom_eq_nil (xs : List Json) : mountsFrom T 0 [] xs = [] ↔ Distinct (mountKey T) xs := by
  refine loop_start (fun i seen => rfl) ?_ xs
  intro i seen x xs
  cases x with
  | obj m =>
    simp only [mountsFrom, List.append_eq_nil_iff, mountKey]
    constructor
    · rintro ⟨hm, hrest⟩
      obtain ⟨host, container, hhost, hcontainer, hreadonly, hh, habs, hroot, hnew⟩ := mountErrors_eq_nil.mp hm
      have hkey : containerOf (.obj m) = some container := by
        simp only [containerOf, hcontainer]
      have hzero : mountErrors T 0 [] m = [] :=
        mountErrors_eq_nil.mpr ⟨host, container, hhost, hcontainer, hreadonly, hh, habs, hroot, rfl⟩
      rw [hkey] at hrest ⊢
      simp only [note_new hnew] at hrest
      exact ⟨container, if_pos hzero, hnew, hrest⟩
    · rintro ⟨k, hk, hnew, hrest⟩
      split_ifs at hk with hzero
      obtain ⟨host, container, hhost, hcontainer, hreadonly, hh, habs, hroot, -⟩ := mountErrors_eq_nil.mp hzero
      have hkey : containerOf (.obj m) = some container := by
        simp only [containerOf, hcontainer]
      obtain rfl : container = k := Option.some.inj (hkey.symm.trans hk)
      rw [hkey]
      simp only [note_new hnew]
      exact ⟨mountErrors_eq_nil.mpr ⟨host, container, hhost, hcontainer, hreadonly, hh, habs, hroot, hnew⟩, hrest⟩
  | _ => simp [mountsFrom, mountKey]

theorem volumeNameErrors_eq_nil {i : Nat} {seen : List (String × Nat)} {v : Json} :
    volumeNameErrors T i seen v = [] ↔
      ∃ name, v = .str name ∧ matchLine volumeNameRe name = true ∧ seen.lookup name = none := by
  cases v with
  | str name =>
    rw [volumeNameErrors]
    cases hname : matchLine volumeNameRe name with
    | false => simp [hname]
    | true => cases hseen : seen.lookup name <;> simp [hname, hseen, -List.lookup_eq_none_iff]
  | _ => simp [volumeNameErrors, requiredText]

theorem volumeContainerErrors_eq_nil {i : Nat} {v : Json} :
    volumeContainerErrors T i v = [] ↔ ∃ c, v = .str c ∧ startsWith c "/" = true ∧ c ≠ "/" := by
  cases v <;> simp [volumeContainerErrors, requiredText]

theorem volumesFrom_eq_nil (xs : List Json) : volumesFrom T 0 [] xs = [] ↔ Distinct (volumeKey T) xs := by
  refine loop_start (fun i seen => rfl) ?_ xs
  intro i seen x xs
  cases x with
  | obj v =>
    have hcontainer : volumeContainerErrors T i (Dict.get v "container") = [] ↔
        volumeContainerErrors T 0 (Dict.get v "container") = [] := by
      rw [volumeContainerErrors_eq_nil, volumeContainerErrors_eq_nil]
    simp only [volumesFrom, List.append_eq_nil_iff, volumeKey, volumeNameErrors_eq_nil, hcontainer]
    constructor
    · rintro ⟨⟨⟨name, hname, hmatch, hnew⟩, hc⟩, hrest⟩
      have hkey : volumeNameOf v = some name := by
        simp only [volumeNameOf, hname, hmatch, if_true]
      simp only [hkey, note_new hnew] at hrest
      rw [if_pos hc, hkey]
      exact ⟨name, rfl, hnew, hrest⟩
    · rintro ⟨k, hk, hnew, hrest⟩
      split_ifs at hk with hc
      have hname : Dict.get v "name" = .str k ∧ matchLine volumeNameRe k = true := by
        simp only [volumeNameOf] at hk
        split at hk
        · rename_i name hget
          split_ifs at hk with hmatch
          cases hk
          exact ⟨hget, hmatch⟩
        · cases hk
      simp only [hk, note_new hnew]
      exact ⟨⟨⟨k, hname.1, hname.2, hnew⟩, hc⟩, hrest⟩
  | _ => simp [volumesFrom, volumeKey]

theorem packagesFrom_eq_nil {name : String} {format : String → Option String} {canonical remark : String → String}
    (xs : List Json) :
    packagesFrom T name format canonical remark 0 [] xs = [] ↔ Distinct (packageKey format canonical) xs := by
  refine loop_start (fun i seen => rfl) ?_ xs
  intro i seen x xs
  cases x with
  | str p =>
    simp only [packagesFrom, packageKey]
    cases hformat : format p with
    | some reason => simp
    | none => cases hseen : seen.lookup (canonical p) <;> simp [hseen, -List.lookup_eq_none_iff]
  | _ => simp [packagesFrom, packageKey]

theorem validateUdevFormat_eq_none {vid pid mode : Json} :
    validateUdevFormat T vid pid mode = none ↔ isTextMatching udevHexidRe (normalizeUdevId T vid) = true ∧
      isTextMatching udevHexidRe (normalizeUdevId T pid) = true ∧ isTextMatching udevModeRe mode = true := by
  rw [validateUdevFormat]
  split_ifs with hvid hpid hmode <;> simp_all

theorem udevKeyOf_eq_some {r : Dict} {k : Json × Json} :
    udevKeyOf T r = some k ↔
      validateUdevFormat T (Dict.get r "vid") (Dict.get r "pid") (Dict.getD r "mode" defaultUdevMode) = none ∧
      (normalizeUdevId T (Dict.get r "vid"), normalizeUdevId T (Dict.get r "pid")) = k := by
  simp [udevKeyOf]

theorem udevFormatErrors_eq_nil {i : Nat} {seen : List ((Json × Json) × Nat)} {vid pid mode : Json} :
    udevFormatErrors T i seen vid pid mode = [] ↔ validateUdevFormat T vid pid mode = none ∧
      seen.lookup (normalizeUdevId T vid, normalizeUdevId T pid) = none := by
  rw [udevFormatErrors]
  cases validateUdevFormat T vid pid mode with
  | some reason => simp
  | none => cases seen.lookup (normalizeUdevId T vid, normalizeUdevId T pid) <;> simp

theorem isTextMatching_normalize_null {re : RegularExpression Char} :
    isTextMatching re (normalizeUdevId T .null) = false := rfl

/-- A rule with nothing wrong: good ids and mode, new, and a boolean. -/
theorem udevErrors_eq_nil {i : Nat} {seen : List ((Json × Json) × Nat)} {r : Dict} :
    udevErrors T i seen r = [] ↔ ∃ k, udevKeyOf T r = some k ∧ seen.lookup k = none ∧
      ∀ v, Dict.get? r "usbtmc" = some v → ∃ b, v = .bool b := by
  simp only [udevErrors, List.append_eq_nil_iff, optionalBool_eq_nil, udevKeyOf_eq_some]
  constructor
  · rintro ⟨⟨⟨hvid, hpid⟩, husbtmc⟩, hformat⟩
    have hv : Dict.get r "vid" ≠ .null := fun h => by simp [h] at hvid
    have hp : Dict.get r "pid" ≠ .null := fun h => by simp [h] at hpid
    rw [if_neg (not_or.mpr ⟨hv, hp⟩), udevFormatErrors_eq_nil] at hformat
    exact ⟨_, ⟨hformat.1, rfl⟩, hformat.2, husbtmc⟩
  · rintro ⟨k, ⟨hformat, rfl⟩, hnew, husbtmc⟩
    obtain ⟨hvid, hpid, -⟩ := validateUdevFormat_eq_none.mp hformat
    have hv : Dict.get r "vid" ≠ .null := by
      intro h
      rw [h, isTextMatching_normalize_null] at hvid
      cases hvid
    have hp : Dict.get r "pid" ≠ .null := by
      intro h
      rw [h, isTextMatching_normalize_null] at hpid
      cases hpid
    rw [if_neg hv, if_neg hp, if_neg (not_or.mpr ⟨hv, hp⟩), udevFormatErrors_eq_nil]
    exact ⟨⟨⟨rfl, rfl⟩, husbtmc⟩, hformat, hnew⟩

theorem udevRulesFrom_eq_nil (xs : List Json) : udevRulesFrom T 0 [] xs = [] ↔ Distinct (udevKey T) xs := by
  refine loop_start (fun i seen => rfl) ?_ xs
  intro i seen x xs
  cases x with
  | obj r =>
    simp only [udevRulesFrom, List.append_eq_nil_iff, udevKey, udevErrors_eq_nil]
    constructor
    · rintro ⟨⟨k, hk, hnew, husbtmc⟩, hrest⟩
      simp only [hk, note_new hnew] at hrest
      rw [if_pos (optionalBool_eq_nil.mpr husbtmc), hk]
      exact ⟨k, rfl, hnew, hrest⟩
    · rintro ⟨k, hk, hnew, hrest⟩
      split_ifs at hk with husbtmc
      simp only [hk, note_new hnew]
      exact ⟨⟨k, rfl, hnew, optionalBool_eq_nil.mp husbtmc⟩, hrest⟩
  | _ => simp [udevRulesFrom, udevKey]

/-! ### Checks across entries -/

theorem lookup_mountContainers {mounts : List Json} {c : String} :
    (mountContainers mounts).lookup c = none ↔ c ∉ mounts.filterMap containerOf := by
  have hkeys : (mountContainers mounts).map Prod.fst = mounts.filterMap containerOf := by
    conv_rhs => rw [← List.zipIdx_map_fst 0 mounts, List.filterMap_map]
    rw [mountContainers, List.map_filterMap]
    simp only [Option.map_map]
    congr 1
    funext entry
    exact Option.map_id'
  rw [Lib.lookup_eq_none_iff_fst, hkeys]

/-- The container paths of a section. -/
def containers (v : Json) : List String := (entries v).filterMap containerOf

theorem flatMap_zipIdx_containers {xs : List Json} {errors : Nat → String → List String} {good : String → Prop}
    (h : ∀ i c, errors i c = [] ↔ good c) :
    (xs.zipIdx.flatMap fun entry => match containerOf entry.1 with | none => [] | some c => errors entry.2 c) = [] ↔
      ∀ c ∈ xs.filterMap containerOf, good c := by
  have hentry : ∀ entry : Json × Nat, (match containerOf entry.1 with | none => [] | some c => errors entry.2 c) = [] ↔
      ∀ c, containerOf entry.1 = some c → good c := by
    intro entry
    cases containerOf entry.1 with
    | none => simp
    | some c => simp [h]
  conv_rhs => rw [← List.zipIdx_map_fst 0 xs, List.filterMap_map]
  simp only [List.flatMap_eq_nil_iff, hentry, List.mem_filterMap, Function.comp]
  exact ⟨fun hall c ⟨entry, hmem, hc⟩ => hall entry hmem c hc, fun hall entry hmem c hc => hall c ⟨entry, hmem, hc⟩⟩

theorem validateCrossPathCollisions_eq_nil {raw : Dict} :
    validateCrossPathCollisions T raw = [] ↔
      ∀ c ∈ containers (Dict.get raw "volumes"), c ∉ containers (Dict.get raw "mounts") := by
  rw [validateCrossPathCollisions]
  split
  · rename_i mounts volumes hmounts hvolumes
    rw [hmounts, hvolumes]
    refine flatMap_zipIdx_containers fun i c => ?_
    rw [show c ∉ containers (.arr mounts) ↔ (mountContainers mounts).lookup c = none from
      lookup_mountContainers.symm, collisionErrors]
    cases (mountContainers mounts).lookup c <;> simp
  · rename_i hnot
    refine iff_of_true rfl ?_
    cases hv : Dict.get raw "volumes" with
    | arr volumes =>
      cases hm : Dict.get raw "mounts" with
      | arr mounts => exact absurd hv (hnot mounts volumes hm)
      | _ => simp [containers, entries]
    | _ => simp [containers, entries]

def reservedPaths : List String := reservedContainerPaths.map Prod.fst

theorem validateReservedPaths_eq_nil {raw : Dict} :
    validateReservedPaths T raw = [] ↔ ∀ c ∈ containers (Dict.get raw "mounts"), c ∉ reservedPaths := by
  have hreserved : ∀ i c, reservedErrors T i c = [] ↔ c ∉ reservedPaths := by
    intro i c
    rw [reservedPaths, ← Lib.lookup_eq_none_iff_fst, reservedErrors]
    cases reservedContainerPaths.lookup c <;> simp
  rw [validateReservedPaths]
  split
  · rename_i mounts hmounts
    rw [hmounts]
    exact flatMap_zipIdx_containers hreserved
  · rename_i hnot
    refine iff_of_true rfl ?_
    cases hm : Dict.get raw "mounts" with
    | arr mounts => exact absurd hm (hnot mounts)
    | _ => simp [containers, entries]

/-! ### The whole -/

theorem validateVersion_eq_nil {raw : Dict} :
    validateVersion T raw = [] ↔ (Dict.get raw "version").pyEq (.int 1) = true := by
  rw [validateVersion]
  by_cases hnull : Dict.get raw "version" = .null
  · simp [hnull, Json.pyEq, Json.canon]
  · simp [hnull]

theorem validateNetworkMode_eq_nil {raw : Dict} :
    validateNetworkMode T raw = [] ↔ Dict.get raw "network_mode" = .null ∨
      ∃ mode ∈ networkModes, Dict.get raw "network_mode" = .str mode := by
  rw [validateNetworkMode]
  cases Dict.get raw "network_mode" <;> simp

variable (T) in
/-- What `validate` accepts, section by section. -/
structure Accepted (raw : Dict) : Prop where
  version : (Dict.get raw "version").pyEq (.int 1) = true
  mounts : ArrayOf (mountKey T) (Dict.get raw "mounts")
  volumes : ArrayOf (volumeKey T) (Dict.get raw "volumes")
  apart : ∀ c ∈ containers (Dict.get raw "volumes"), c ∉ containers (Dict.get raw "mounts")
  unreserved : ∀ c ∈ containers (Dict.get raw "mounts"), c ∉ reservedPaths
  env : ObjectOf (fun kv => envErrors T kv = []) (Dict.get raw "env")
  pip : ArrayOf (packageKey validatePipFormat (normalizePipName T)) (Dict.get raw "pip_packages")
  apt : ArrayOf (packageKey validateAptFormat T.lower) (Dict.get raw "apt_packages")
  sysctl : ObjectOf (fun kv => sysctlErrors T kv = []) (Dict.get raw "sysctl")
  cargo : ArrayOf (packageKey validateCargoFormat (normalizeCargoName T)) (Dict.get raw "cargo_packages")
  npm : ArrayOf (packageKey validateNpmFormat (normalizeNpmName T)) (Dict.get raw "npm_packages")
  udev : ArrayOf (udevKey T) (Dict.get raw "udev_rules")
  networkMode : Dict.get raw "network_mode" = .null ∨
    ∃ mode ∈ networkModes, Dict.get raw "network_mode" = .str mode

/-- **Validation.** Nothing is wrong with a configuration exactly when every section is accepted. -/
theorem validateDict_eq_nil {raw : Dict} : validateDict T raw = [] ↔ Accepted T raw := by
  simp only [validateDict, List.append_eq_nil_iff, validateVersion_eq_nil, validateMounts, validateVolumes,
    validateCrossPathCollisions_eq_nil, validateReservedPaths_eq_nil, validateEnv, validatePipPackages,
    validateAptPackages, validateSysctl, validateCargoPackages, validateNpmPackages, validateUdevRules,
    validateNetworkMode_eq_nil, validateArray_eq_nil mountsFrom_eq_nil, validateArray_eq_nil volumesFrom_eq_nil,
    validateArray_eq_nil packagesFrom_eq_nil, validateArray_eq_nil udevRulesFrom_eq_nil, validateObject_eq_nil]
  constructor
  · rintro ⟨⟨⟨⟨⟨⟨⟨⟨⟨⟨⟨⟨h1, h2⟩, h3⟩, h4⟩, h5⟩, h6⟩, h7⟩, h8⟩, h9⟩, h10⟩, h11⟩, h12⟩, h13⟩
    exact ⟨h1, h2, h3, h4, h5, h6, h7, h8, h9, h10, h11, h12, h13⟩
  · rintro ⟨h1, h2, h3, h4, h5, h6, h7, h8, h9, h10, h11, h12, h13⟩
    exact ⟨⟨⟨⟨⟨⟨⟨⟨⟨⟨⟨⟨h1, h2⟩, h3⟩, h4⟩, h5⟩, h6⟩, h7⟩, h8⟩, h9⟩, h10⟩, h11⟩, h12⟩, h13⟩

theorem validate_eq_nil {raw : Json} : validate T raw = [] ↔ ∃ d, raw = .obj d ∧ Accepted T d := by
  cases raw with
  | obj d => simp [validate, validateDict_eq_nil]
  | _ => simp [validate]

end Lager.BoxConfig
