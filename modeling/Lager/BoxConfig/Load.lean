import Lager.BoxConfig.Accepted
import Lager.BoxConfig.Config
import Lager.Lib.Fold

/-!
# Loading what was accepted

`validate` and `from_dict` are two traversals of the same document. `Valid` says of a configuration what
`Accepted` says of a document, and `loaded raw` is the configuration an accepted document stands for. The two
traversals differ in one point: `validate` takes a section that is `null` for an absent one, and
`raw.get(section, [])` does not. `accepted_loads_iff` says that this is the only way in which an accepted document
fails to load.
-/

namespace Lager.BoxConfig

open Lager.Py

/-- The sections that `from_dict` iterates over. -/
def sectionKeys : List String :=
  ["mounts", "volumes", "env", "pip_packages", "apt_packages", "sysctl", "cargo_packages", "npm_packages",
    "udev_rules"]

/-- No section is present with the value `null`. -/
def NoNullSection (raw : Dict) : Prop := ∀ k ∈ sectionKeys, Dict.get? raw k ≠ some .null

variable (T : TextOps)

/-! ### Valid configurations -/

/-- What `validate` asks of a document, said of a configuration. -/
structure Valid (c : BoxConfig) : Prop where
  version : c.version = schemaVersion
  mounts : Distinct (mountKey T) (c.mounts.map Mount.toJson)
  volumes : Distinct (volumeKey T) (c.volumes.map Volume.toJson)
  apart : ∀ p ∈ (c.volumes.map Volume.toJson).filterMap containerOf,
    p ∉ (c.mounts.map Mount.toJson).filterMap containerOf
  unreserved : ∀ p ∈ (c.mounts.map Mount.toJson).filterMap containerOf, p ∉ reservedPaths
  env : ∀ kv ∈ c.env, envErrors T kv = []
  pip : Distinct (packageKey validatePipFormat (normalizePipName T)) c.pipPackages
  apt : Distinct (packageKey validateAptFormat T.lower) c.aptPackages
  sysctl : ∀ kv ∈ c.sysctl, sysctlErrors T kv = []
  cargo : Distinct (packageKey validateCargoFormat (normalizeCargoName T)) c.cargoPackages
  npm : Distinct (packageKey validateNpmFormat (normalizeNpmName T)) c.npmPackages
  udev : Distinct (udevKey T) (c.udevRules.map UdevRule.toJson)
  networkMode : c.networkMode = .null ∨ ∃ mode ∈ networkModes, c.networkMode = .str mode

variable {T}

theorem get_toDict {c : BoxConfig} {k : String} {v : Json} (hk : k ∈ firstClassKeys) (hmode : k ≠ "network_mode")
    (h : Dict.get? c.sections k = some v) : Dict.get c.toDict k = v := by
  rw [Dict.get, c.get?_toDict hk hmode, h]
  rfl

theorem arrayOf_arr {κ : Type} {key : Json → Option κ} {xs : List Json} :
    ArrayOf key (.arr xs) ↔ Distinct key xs := by
  simp [ArrayOf, entries]

theorem objectOf_obj {good : String × Json → Prop} {kvs : Dict} :
    ObjectOf good (.obj kvs) ↔ ∀ kv ∈ kvs, good kv := by
  simp [ObjectOf, items]

theorem pyEq_one {n : Int} : (Json.int n).pyEq (.int 1) = true ↔ n = 1 := by
  rw [Json.pyEq_iff]
  simp [Json.canon]

theorem networkMode_toDict {c : BoxConfig} :
    (Dict.get c.toDict "network_mode" = .null ∨
      ∃ mode ∈ networkModes, Dict.get c.toDict "network_mode" = .str mode) ↔
    (c.networkMode = .null ∨ ∃ mode ∈ networkModes, c.networkMode = .str mode) := by
  rw [Dict.get, c.get?_networkMode]
  split_ifs with hmode
  · rw [hmode]
    exact iff_of_true (.inl rfl) (.inr ⟨_, by decide, rfl⟩)
  · rfl

/-- **Writing.** A configuration is valid exactly when the document it is written as is accepted. -/
theorem accepted_toDict {c : BoxConfig} : Accepted T c.toDict ↔ Valid T c := by
  have hversion : Dict.get c.toDict "version" = .int c.version := get_toDict (by decide) (by decide) rfl
  have hmounts : Dict.get c.toDict "mounts" = .arr (c.mounts.map Mount.toJson) :=
    get_toDict (by decide) (by decide) rfl
  have hvolumes : Dict.get c.toDict "volumes" = .arr (c.volumes.map Volume.toJson) :=
    get_toDict (by decide) (by decide) rfl
  have henv : Dict.get c.toDict "env" = .obj c.env := get_toDict (by decide) (by decide) rfl
  have hpip : Dict.get c.toDict "pip_packages" = .arr c.pipPackages := get_toDict (by decide) (by decide) rfl
  have hapt : Dict.get c.toDict "apt_packages" = .arr c.aptPackages := get_toDict (by decide) (by decide) rfl
  have hsysctl : Dict.get c.toDict "sysctl" = .obj c.sysctl := get_toDict (by decide) (by decide) rfl
  have hcargo : Dict.get c.toDict "cargo_packages" = .arr c.cargoPackages := get_toDict (by decide) (by decide) rfl
  have hnpm : Dict.get c.toDict "npm_packages" = .arr c.npmPackages := get_toDict (by decide) (by decide) rfl
  have hudev : Dict.get c.toDict "udev_rules" = .arr (c.udevRules.map UdevRule.toJson) :=
    get_toDict (by decide) (by decide) rfl
  constructor
  · rintro ⟨h1, h2, h3, h4, h5, h6, h7, h8, h9, h10, h11, h12, h13⟩
    rw [hversion, pyEq_one] at h1
    rw [hmounts, arrayOf_arr] at h2
    rw [hvolumes, arrayOf_arr] at h3
    rw [hvolumes, hmounts] at h4
    rw [hmounts] at h5
    rw [henv, objectOf_obj] at h6
    rw [hpip, arrayOf_arr] at h7
    rw [hapt, arrayOf_arr] at h8
    rw [hsysctl, objectOf_obj] at h9
    rw [hcargo, arrayOf_arr] at h10
    rw [hnpm, arrayOf_arr] at h11
    rw [hudev, arrayOf_arr] at h12
    exact ⟨h1, h2, h3, h4, h5, h6, h7, h8, h9, h10, h11, h12, networkMode_toDict.mp h13⟩
  · rintro ⟨h1, h2, h3, h4, h5, h6, h7, h8, h9, h10, h11, h12, h13⟩
    refine ⟨?_, ?_, ?_, ?_, ?_, ?_, ?_, ?_, ?_, ?_, ?_, ?_, networkMode_toDict.mpr h13⟩
    · rw [hversion, pyEq_one]
      exact h1
    · rw [hmounts, arrayOf_arr]
      exact h2
    · rw [hvolumes, arrayOf_arr]
      exact h3
    · rw [hvolumes, hmounts]
      exact h4
    · rw [hmounts]
      exact h5
    · rw [henv, objectOf_obj]
      exact h6
    · rw [hpip, arrayOf_arr]
      exact h7
    · rw [hapt, arrayOf_arr]
      exact h8
    · rw [hsysctl, objectOf_obj]
      exact h9
    · rw [hcargo, arrayOf_arr]
      exact h10
    · rw [hnpm, arrayOf_arr]
      exact h11
    · rw [hudev, arrayOf_arr]
      exact h12

theorem validate_toDict {c : BoxConfig} : validate T (.obj c.toDict) = [] ↔ Valid T c := by
  rw [← accepted_toDict]
  exact validateDict_eq_nil

/-! ### The configuration a document stands for -/

def Mount.read (x : Json) : Mount :=
  ⟨Dict.get (items x) "host", Dict.get (items x) "container",
    (Dict.getD (items x) "readonly" (.bool false)).truthy⟩

def Volume.read (x : Json) : Volume := ⟨Dict.get (items x) "name", Dict.get (items x) "container"⟩

variable (T) in
def loaded (raw : Dict) : BoxConfig where
  version := schemaVersion
  mounts := (entries (Dict.get raw "mounts")).map Mount.read
  volumes := (entries (Dict.get raw "volumes")).map Volume.read
  env := items (Dict.get raw "env")
  pipPackages := entries (Dict.get raw "pip_packages")
  aptPackages := entries (Dict.get raw "apt_packages")
  sysctl := items (Dict.get raw "sysctl")
  cargoPackages := entries (Dict.get raw "cargo_packages")
  npmPackages := entries (Dict.get raw "npm_packages")
  udevRules := (entries (Dict.get raw "udev_rules")).map fun x => UdevRule.ofDict T (items x)
  networkMode := Dict.getD raw "network_mode" (.str defaultNetworkMode)
  extras := extrasOf raw
  extras_apart := extrasOf_apart raw

/-! ### Entries -/

theorem mountKey_isSome {x : Json} (h : (mountKey T x).isSome = true) :
    ∃ m, x = .obj m ∧ mountErrors T 0 [] m = [] := by
  cases x with
  | obj m =>
    rw [mountKey] at h
    split_ifs at h with herrors
    · exact ⟨m, rfl, herrors⟩
    · cases h
  | _ => cases h

theorem mount_ofJson {x : Json} (h : (mountKey T x).isSome = true) : Mount.ofJson x = .ok (Mount.read x) := by
  obtain ⟨m, rfl, herrors⟩ := mountKey_isSome h
  obtain ⟨host, container, hhost, hcontainer, -⟩ := mountErrors_eq_nil.mp herrors
  have hh := Dict.get?_of_get hhost (by simp)
  have hc := Dict.get?_of_get hcontainer (by simp)
  simp only [Mount.ofJson, Json.item, Json.getOr, hh, hc, Mount.read, items, hhost, hcontainer]
  rfl

/-- A mount written back keeps its container path. -/
theorem mountKey_toJson_read {x : Json} (h : (mountKey T x).isSome = true) :
    mountKey T (Mount.read x).toJson = mountKey T x ∧ containerOf (Mount.read x).toJson = containerOf x := by
  obtain ⟨m, rfl, herrors⟩ := mountKey_isSome h
  obtain ⟨host, container, hhost, hcontainer, -, hpaths⟩ := mountErrors_eq_nil.mp herrors
  have hkey : containerOf (Mount.read (.obj m)).toJson = containerOf (.obj m) := by
    rfl
  have hwritten : mountErrors T 0 [] [("host", (Mount.read (.obj m)).host),
      ("container", (Mount.read (.obj m)).container), ("readonly", .bool (Mount.read (.obj m)).readonly)] = [] := by
    refine mountErrors_eq_nil.mpr ⟨host, container, hhost, hcontainer, ?_, hpaths⟩
    rintro v hv
    cases hv
    exact ⟨_, rfl⟩
  refine ⟨?_, hkey⟩
  rw [Mount.toJson, mountKey, if_pos hwritten, mountKey, if_pos herrors]
  exact hkey

theorem volumeKey_isSome {x : Json} (h : (volumeKey T x).isSome = true) :
    ∃ v name container, x = .obj v ∧ Dict.get v "name" = .str name ∧ Dict.get v "container" = .str container := by
  cases x with
  | obj v =>
    simp only [volumeKey, volumeNameOf] at h
    split_ifs at h with herrors
    · obtain ⟨c, hc, -⟩ := volumeContainerErrors_eq_nil.mp herrors
      split at h
      · rename_i name hname
        exact ⟨v, name, c, rfl, hname, hc⟩
      · cases h
    · cases h
  | _ => cases h

theorem volume_ofJson {x : Json} (h : (volumeKey T x).isSome = true) : Volume.ofJson x = .ok (Volume.read x) := by
  obtain ⟨v, name, container, rfl, hname, hcontainer⟩ := volumeKey_isSome h
  have hn := Dict.get?_of_get hname (by simp)
  have hc := Dict.get?_of_get hcontainer (by simp)
  simp only [Volume.ofJson, Json.item, hn, hc, Volume.read, items, hname, hcontainer]
  rfl

theorem volumeKey_toJson_read {x : Json} (h : (volumeKey T x).isSome = true) :
    volumeKey T (Volume.read x).toJson = volumeKey T x ∧ containerOf (Volume.read x).toJson = containerOf x := by
  obtain ⟨v, name, container, rfl, -, -⟩ := volumeKey_isSome h
  exact ⟨rfl, rfl⟩

theorem udevKey_eq_some {x : Json} {k : Json × Json} (h : udevKey T x = some k) :
    ∃ r, x = .obj r ∧ udevKeyOf T r = some k := by
  cases x with
  | obj r =>
    rw [udevKey] at h
    split_ifs at h
    exact ⟨r, rfl, h⟩
  | _ => cases h

theorem getD_vid {r : Dict} {key : String} {re : RegularExpression Char}
    (h : isTextMatching re (normalizeUdevId T (Dict.get r key)) = true) :
    Dict.getD r key (.str "") = Dict.get r key := by
  refine Dict.getD_of_get? (Dict.get?_of_get rfl fun hnull => ?_) _
  rw [hnull, isTextMatching_normalize_null] at h
  cases h

/-- A rule that is written has a boolean flag. -/
theorem udevKey_toJson {u : UdevRule} {k : Json × Json} : udevKey T u.toJson = some k ↔
    validateUdevFormat T u.vid u.pid u.mode = none ∧ (normalizeUdevId T u.vid, normalizeUdevId T u.pid) = k := by
  have hflag : optionalBool "udev_rules" 0 "usbtmc"
      [("vid", u.vid), ("pid", u.pid), ("mode", u.mode), ("usbtmc", .bool u.usbtmc)] = [] := rfl
  rw [UdevRule.toJson, udevKey, if_pos hflag, udevKeyOf_eq_some]
  rfl

/-- A rule written back keeps its ids, which are in normal form now. -/
theorem udevKey_toJson_ofDict {x : Json} (h : (udevKey T x).isSome = true) :
    udevKey T (UdevRule.ofDict T (items x)).toJson = udevKey T x := by
  obtain ⟨k, hk⟩ := Option.isSome_iff_exists.mp h
  rw [hk]
  obtain ⟨r, rfl, hr⟩ := udevKey_eq_some hk
  obtain ⟨hformat, rfl⟩ := udevKeyOf_eq_some.mp hr
  obtain ⟨hvid, hpid, hmode⟩ := validateUdevFormat_eq_none.mp hformat
  have hv := normalizeUdevId_idem hvid
  have hp := normalizeUdevId_idem hpid
  rw [udevKey_toJson, UdevRule.ofDict, items, getD_vid hvid, getD_vid hpid, validateUdevFormat_eq_none]
  simp only [hv, hp]
  exact ⟨⟨hvid, hpid, hmode⟩, trivial⟩

/-! ### Sections -/

theorem listSection_eq {κ : Type} {key : Json → Option κ} {raw : Dict} {k : String}
    (h : ArrayOf key (Dict.get raw k)) (hnull : Dict.get? raw k ≠ some .null) :
    listSection raw k = .ok (entries (Dict.get raw k)) := by
  rw [listSection, Dict.getD]
  rw [Dict.get] at h ⊢
  cases hk : Dict.get? raw k with
  | none => rfl
  | some v =>
    rw [hk] at h hnull
    rcases h.1 with hv | ⟨xs, hv⟩
    · exact absurd (congrArg some hv) hnull
    · rw [Option.getD_some] at hv
      rw [hv]
      rfl

theorem dictSection_eq {good : String × Json → Prop} {raw : Dict} {k : String}
    (h : ObjectOf good (Dict.get raw k)) (hnull : Dict.get? raw k ≠ some .null) :
    dictSection raw k = .ok (items (Dict.get raw k)) := by
  rw [dictSection, Dict.getD]
  rw [Dict.get] at h ⊢
  cases hk : Dict.get? raw k with
  | none => rfl
  | some v =>
    rw [hk] at h hnull
    rcases h.1 with hv | ⟨xs, hv⟩
    · exact absurd (congrArg some hv) hnull
    · rw [Option.getD_some] at hv
      rw [hv]
      rfl

theorem listSection_not_null {raw : Dict} {k : String} {xs : List Json} (h : listSection raw k = .ok xs) :
    Dict.get? raw k ≠ some .null := by
  intro hk
  rw [listSection, Dict.getD_of_get? hk] at h
  cases h

theorem dictSection_not_null {raw : Dict} {k : String} {d : Dict} (h : dictSection raw k = .ok d) :
    Dict.get? raw k ≠ some .null := by
  intro hk
  rw [dictSection, Dict.getD_of_get? hk] at h
  cases h

theorem intOf_version {v : Json} (h : v.pyEq (.int 1) = true) : intOf v = .ok schemaVersion := by
  rw [Json.pyEq_iff] at h
  cases v with
  | bool b => cases b <;> simp_all [Json.canon, intOf, schemaVersion]
  | int n => simp_all [Json.canon, intOf, schemaVersion]
  | float x =>
    have hx : x = .fin 1 := by simpa [Json.canon] using h.2
    rw [hx]
    rfl
  | _ => simp_all [Json.canon]

/-! ### The whole document -/

/-- Past validation, the sections that are not `null` are all that `from_dict` needs. -/
theorem build_eq {raw : Dict} (h : Accepted T raw) (hnull : NoNullSection raw) :
    build T raw = .ok (loaded T raw) := by
  have hsec : ∀ k ∈ sectionKeys, Dict.get? raw k ≠ some .null := hnull
  have hmounts := listSection_eq h.mounts (hsec _ (by decide))
  have hvolumes := listSection_eq h.volumes (hsec _ (by decide))
  have henv := dictSection_eq h.env (hsec _ (by decide))
  have hpip := listSection_eq h.pip (hsec _ (by decide))
  have hapt := listSection_eq h.apt (hsec _ (by decide))
  have hsysctl := dictSection_eq h.sysctl (hsec _ (by decide))
  have hcargo := listSection_eq h.cargo (hsec _ (by decide))
  have hnpm := listSection_eq h.npm (hsec _ (by decide))
  have hudev := listSection_eq h.udev (hsec _ (by decide))
  have hreadMounts := Lib.mapM_eq_ok fun x hx => mount_ofJson (h.mounts.2.1 x hx)
  have hreadVolumes := Lib.mapM_eq_ok fun x hx => volume_ofJson (h.volumes.2.1 x hx)
  have hrules : (entries (Dict.get raw "udev_rules")).filterMap (UdevRule.ofJson T) =
      (entries (Dict.get raw "udev_rules")).map fun x => UdevRule.ofDict T (items x) := by
    rw [← List.filterMap_eq_map]
    refine List.filterMap_congr fun x hx => ?_
    obtain ⟨k, hk⟩ := Option.isSome_iff_exists.mp (h.udev.2.1 x hx)
    obtain ⟨r, rfl, -⟩ := udevKey_eq_some hk
    rfl
  have hversion : (Json.obj raw).item "version" = .ok (Dict.get raw "version") := by
    have hv : Dict.get? raw "version" = some (Dict.get raw "version") := by
      refine Dict.get?_of_get rfl fun hv => ?_
      have := h.version
      rw [hv] at this
      cases this
    rw [Json.item, hv]
  simp only [build, hmounts, hvolumes, henv, hpip, hapt, hsysctl, hcargo, hnpm, hudev, bind, Except.bind,
    hreadMounts, hreadVolumes, hrules, hversion, intOf_version h.version]
  rfl

/-- What `from_dict` has read was not `null`. -/
theorem noNull_of_build {raw : Dict} {c : BoxConfig} (h : build T raw = .ok c) : NoNullSection raw := by
  obtain ⟨_, h1, h⟩ := Lib.bind_eq_ok h
  obtain ⟨_, -, h⟩ := Lib.bind_eq_ok h
  obtain ⟨_, h2, h⟩ := Lib.bind_eq_ok h
  obtain ⟨_, -, h⟩ := Lib.bind_eq_ok h
  obtain ⟨_, h3, h⟩ := Lib.bind_eq_ok h
  obtain ⟨_, h4, h⟩ := Lib.bind_eq_ok h
  obtain ⟨_, h5, h⟩ := Lib.bind_eq_ok h
  obtain ⟨_, h6, h⟩ := Lib.bind_eq_ok h
  obtain ⟨_, h7, h⟩ := Lib.bind_eq_ok h
  obtain ⟨_, h8, h⟩ := Lib.bind_eq_ok h
  obtain ⟨_, h9, h⟩ := Lib.bind_eq_ok h
  simp only [NoNullSection, sectionKeys, List.forall_mem_cons, List.not_mem_nil, false_implies, implies_true,
    and_true]
  exact ⟨listSection_not_null h1, listSection_not_null h2, dictSection_not_null h3, listSection_not_null h4,
    listSection_not_null h5, dictSection_not_null h6, listSection_not_null h7, listSection_not_null h8,
    listSection_not_null h9⟩

theorem migrateRaw_accepted {d : Dict} (h : Accepted T d) : migrateRaw (.obj d) = .ok (.obj d) := by
  have hversion := h.version
  simp only [migrateRaw]
  split
  · rename_i v hv
    rw [hv, pyEq_one] at hversion
    rw [hversion]
    rfl
  · rfl

theorem migrateRaw_ok {raw migrated : Json} (h : migrateRaw raw = .ok migrated) : migrated = raw := by
  unfold migrateRaw at h
  split at h
  · split at h
    · split_ifs at h
      cases h
      rfl
    · cases h
      rfl
  · cases h
    rfl

/-- **Loading.** `from_dict` returns exactly on accepted documents without a `null` section. -/
theorem fromDict_eq_ok {raw : Json} {c : BoxConfig} :
    fromDict T raw = .ok c ↔ ∃ d, raw = .obj d ∧ Accepted T d ∧ NoNullSection d ∧ c = loaded T d := by
  constructor
  · intro h
    rw [fromDict] at h
    split at h
    · cases h
    · rename_i migrated hmigrate
      cases migrateRaw_ok hmigrate
      split at h
      · rename_i d hvalid
        have hacc : Accepted T d := validateDict_eq_nil.mp hvalid
        cases hbuild : build T d with
        | error e =>
          rw [hbuild] at h
          cases h
        | ok c' =>
          have hnull := noNull_of_build hbuild
          rw [hbuild] at h
          rw [build_eq hacc hnull] at hbuild
          cases h
          cases hbuild
          exact ⟨d, rfl, hacc, hnull, rfl⟩
      · cases h
  · rintro ⟨d, rfl, hacc, hnull, rfl⟩
    rw [fromDict, migrateRaw_accepted hacc]
    simp only [validate_eq_nil.mpr ⟨d, rfl, hacc⟩, build_eq hacc hnull]
    rfl

theorem loads_of_validate {d : Dict} (hvalid : validate T (.obj d) = []) (hnull : NoNullSection d) :
    fromDict T (.obj d) = .ok (loaded T d) :=
  fromDict_eq_ok.mpr ⟨d, rfl, validateDict_eq_nil.mp hvalid, hnull, rfl⟩

/-- A loaded configuration is valid. -/
theorem valid_loaded {d : Dict} (h : Accepted T d) : Valid T (loaded T d) := by
  have hcontainers : ((entries (Dict.get d "mounts")).map Mount.read |>.map Mount.toJson).filterMap containerOf =
      containers (Dict.get d "mounts") := by
    rw [List.map_map, List.filterMap_map]
    exact List.filterMap_congr fun x hx => (mountKey_toJson_read (h.mounts.2.1 x hx)).2
  have hvolumes : ((entries (Dict.get d "volumes")).map Volume.read |>.map Volume.toJson).filterMap containerOf =
      containers (Dict.get d "volumes") := by
    rw [List.map_map, List.filterMap_map]
    exact List.filterMap_congr fun x hx => (volumeKey_toJson_read (h.volumes.2.1 x hx)).2
  refine ⟨rfl, ?_, ?_, ?_, ?_, h.env.2, h.pip.2, h.apt.2, h.sysctl.2, h.cargo.2, h.npm.2, ?_, ?_⟩
  · simp only [loaded, List.map_map]
    exact h.mounts.2.map fun x hx => (mountKey_toJson_read (h.mounts.2.1 x hx)).1
  · simp only [loaded, List.map_map]
    exact h.volumes.2.map fun x hx => (volumeKey_toJson_read (h.volumes.2.1 x hx)).1
  · simp only [loaded]
    rw [hcontainers, hvolumes]
    exact h.apart
  · simp only [loaded]
    rw [hcontainers]
    exact h.unreserved
  · simp only [loaded, List.map_map]
    exact h.udev.2.map fun x hx => udevKey_toJson_ofDict (h.udev.2.1 x hx)
  · have hmode := h.networkMode
    simp only [loaded, Dict.getD]
    rw [Dict.get] at hmode
    cases hk : Dict.get? d "network_mode" with
    | none => exact .inr ⟨defaultNetworkMode, by decide, rfl⟩
    | some v =>
      rw [hk] at hmode
      exact hmode

theorem valid_of_fromDict {raw : Json} {c : BoxConfig} (h : fromDict T raw = .ok c) : Valid T c := by
  obtain ⟨d, -, hacc, -, rfl⟩ := fromDict_eq_ok.mp h
  exact valid_loaded hacc

/-- `to_dict` writes no `null` section. -/
theorem noNull_toDict (c : BoxConfig) : NoNullSection c.toDict := by
  have hkeys : ∀ k ∈ sectionKeys, k ∈ firstClassKeys ∧ k ≠ "network_mode" := by decide
  have hsections : ∀ k ∈ sectionKeys, Dict.get? c.sections k ≠ some .null := by
    simp only [sectionKeys, List.forall_mem_cons, List.not_mem_nil, false_implies, implies_true, and_true]
    refine ⟨?_, ?_, ?_, ?_, ?_, ?_, ?_, ?_, ?_⟩ <;> exact fun h => nomatch Option.some.inj h
  intro k hk
  rw [c.get?_toDict (hkeys k hk).1 (hkeys k hk).2]
  exact hsections k hk

/-- What is written and accepted loads. -/
theorem fromDict_toDict {c : BoxConfig} (h : Valid T c) : fromDict T (.obj c.toDict) = .ok (loaded T c.toDict) :=
  fromDict_eq_ok.mpr ⟨_, rfl, accepted_toDict.mpr h, noNull_toDict c, rfl⟩

/-- **An accepted file loads**, and what is written back is accepted again, exactly when none of the nine sections
is present with the value `null`. -/
theorem accepted_loads_iff (T : TextOps) (raw migrated : Json) (hmigrate : migrateRaw raw = .ok migrated)
    (hvalid : validate T migrated = []) :
    (∃ c, fromDict T migrated = .ok c ∧ validate T (.obj c.toDict) = []) ↔ NoNullSection (items migrated) := by
  obtain ⟨d, rfl, hacc⟩ := validate_eq_nil.mp hvalid
  constructor
  · rintro ⟨c, hload, -⟩
    obtain ⟨d', hd, -, hnull, -⟩ := fromDict_eq_ok.mp hload
    cases hd
    exact hnull
  · intro hnull
    exact ⟨loaded T d, fromDict_eq_ok.mpr ⟨d, rfl, hacc, hnull, rfl⟩, validate_toDict.mpr (valid_loaded hacc)⟩

/-- A document with one entry in most sections, and a key of its own. -/
def smallDocument : Dict :=
  [("version", .int 1), ("mounts", .arr [.obj [("host", .str "/srv/a"), ("container", .str "/data")]]),
    ("env", .obj [("DEBUG", .str "1")]), ("pip_packages", .arr [.str "foo==1"]), ("network_mode", .null),
    ("udev_rules", .arr [.obj [("vid", .str "0x1209"), ("pid", .str "00aB")]]), ("hooks", .obj [])]

theorem accepted_loads_smallDocument : migrateRaw (.obj smallDocument) = .ok (.obj smallDocument) ∧
    ∃ c, fromDict asciiText (.obj smallDocument) = .ok c ∧ validate asciiText (.obj c.toDict) = [] := by
  have hvalid : validate asciiText (.obj smallDocument) = [] := by decide +kernel
  have hnull : NoNullSection smallDocument := by
    unfold NoNullSection
    decide +kernel
  exact ⟨rfl, (accepted_loads_iff asciiText (.obj smallDocument) _ rfl hvalid).mpr hnull⟩

/-- A section that is `null`. -/
def nullMounts : Json := .obj [("version", .int 1), ("mounts", .null)]

/-- `validate` takes it for an absent one and `from_dict` iterates over it. -/
theorem null_section_raises : migrateRaw nullMounts = .ok nullMounts ∧ validate asciiText nullMounts = [] ∧
    fromDict asciiText nullMounts = .error (.raised .typeError) :=
  ⟨rfl, by decide +kernel, rfl⟩

end Lager.BoxConfig
