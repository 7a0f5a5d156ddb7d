import Lager.BoxConfig.Accepted

/-!
# Where mounts and volumes land in the container

Docker takes `/data` and `/data/` for the same mount point. `SafePaths` is what a start of the container needs:
all container paths of mounts and volumes are different up to trailing slashes, absolute, and none of them is
the root or a path that `start_box.sh` mounts itself. `validate` compares spellings, looks for equal paths among
the mounts and between mounts and volumes, and for reserved paths among the mounts. What it leaves out is
`Spelled`, and for an accepted configuration this is all that is missing.
-/

namespace Lager.BoxConfig

open Lager.Py

/-- A path without its trailing slashes. -/
def mountPoint (path : String) : List Char := (path.toList.reverse.dropWhile (· == '/')).reverse

/-- The mount points no entry may use: the root and the reserved paths. -/
def takenPoints : List (List Char) := mountPoint "/" :: reservedPaths.map mountPoint

/-- The container paths of all mounts and volumes. -/
def allContainers (raw : Dict) : List String :=
  containers (Dict.get raw "mounts") ++ containers (Dict.get raw "volumes")

structure SafePaths (raw : Dict) : Prop where
  distinct : ((allContainers raw).map mountPoint).Nodup
  free : ∀ c ∈ allContainers raw, startsWith c "/" = true ∧ mountPoint c ∉ takenPoints

/-- What `validate` does not look at: paths that differ in trailing slashes only, two volumes on one path, mounts
on a taken point spelled with trailing slashes, and volumes on a taken point. -/
structure Spelled (raw : Dict) : Prop where
  noVariants : ∀ c ∈ allContainers raw, ∀ c' ∈ allContainers raw, mountPoint c = mountPoint c' → c = c'
  volumesApart : (containers (Dict.get raw "volumes")).Nodup
  mountsPlain : ∀ c ∈ containers (Dict.get raw "mounts"), mountPoint c ∈ takenPoints →
    c = "/" ∨ c ∈ reservedPaths
  volumesFree : ∀ c ∈ containers (Dict.get raw "volumes"), mountPoint c ∉ takenPoints

variable {T : TextOps}

/-- The container path of an accepted mount is its key, and absolute. -/
theorem mountKey_spec {x : Json} {k : String} (h : mountKey T x = some k) :
    containerOf x = some k ∧ startsWith k "/" = true ∧ k ≠ "/" := by
  cases x with
  | obj m =>
    rw [mountKey] at h
    split_ifs at h with herrors
    obtain ⟨host, container, -, hcontainer, -, -, habs, hroot, -⟩ := mountErrors_eq_nil.mp herrors
    have hkey : containerOf (.obj m) = some container := by
      simp only [containerOf, hcontainer]
    obtain rfl : container = k := Option.some.inj (hkey.symm.trans h)
    exact ⟨h, habs, hroot⟩
  | _ => cases h

theorem volumeKey_spec {x : Json} (h : (volumeKey T x).isSome = true) :
    ∃ c, containerOf x = some c ∧ startsWith c "/" = true ∧ c ≠ "/" := by
  cases x with
  | obj v =>
    rw [volumeKey] at h
    split_ifs at h with herrors
    · obtain ⟨c, hc, habs, hroot⟩ := volumeContainerErrors_eq_nil.mp herrors
      refine ⟨c, ?_, habs, hroot⟩
      simp only [containerOf, hc]
    · cases h
  | _ => cases h

/-- Accepted mounts have different container paths. -/
theorem Accepted.mount_containers {raw : Dict} (h : Accepted T raw) :
    (containers (Dict.get raw "mounts")).Nodup ∧
      ∀ c ∈ containers (Dict.get raw "mounts"), startsWith c "/" = true ∧ c ≠ "/" := by
  obtain ⟨hall, hnodup⟩ := h.mounts.2
  have hkeys : ∀ x ∈ entries (Dict.get raw "mounts"), containerOf x = mountKey T x := by
    intro x hx
    obtain ⟨k, hk⟩ := Option.isSome_iff_exists.mp (hall x hx)
    rw [hk]
    exact (mountKey_spec hk).1
  rw [containers, List.filterMap_congr hkeys]
  refine ⟨hnodup, fun c hc => ?_⟩
  obtain ⟨x, -, hx⟩ := List.mem_filterMap.mp hc
  exact (mountKey_spec hx).2

theorem Accepted.volume_containers {raw : Dict} (h : Accepted T raw) :
    ∀ c ∈ containers (Dict.get raw "volumes"), startsWith c "/" = true := by
  intro c hc
  obtain ⟨x, hx, hcx⟩ := List.mem_filterMap.mp hc
  obtain ⟨c', hc', habs, -⟩ := volumeKey_spec (h.volumes.2.1 x hx)
  obtain rfl : c' = c := Option.some.inj (hc'.symm.trans hcx)
  exact habs

/-- Accepted entries use different paths, except that volumes may share one. -/
theorem Accepted.allContainers_nodup {raw : Dict} (h : Accepted T raw)
    (hvolumes : (containers (Dict.get raw "volumes")).Nodup) : (allContainers raw).Nodup := by
  rw [allContainers, List.nodup_append]
  refine ⟨h.mount_containers.1, hvolumes, ?_⟩
  rintro c hc _ hc' rfl
  exact h.apart c hc' hc

/-- **Container paths.** In an accepted configuration the container paths are safe exactly when none of the
unchecked situations occurs. -/
theorem container_paths_safe_iff (T : TextOps) (raw : Dict) (h : validate T (.obj raw) = []) :
    SafePaths raw ↔ Spelled raw := by
  have hacc : Accepted T raw := validateDict_eq_nil.mp h
  constructor
  · intro hsafe
    refine ⟨fun c hc c' hc' heq => ?_, ?_, fun c hc htaken => ?_, fun c hc => ?_⟩
    · exact List.inj_on_of_nodup_map hsafe.distinct hc hc' heq
    · exact (List.Nodup.of_append_right (List.Nodup.of_map _ hsafe.distinct))
    · exact absurd htaken (hsafe.free c (List.mem_append_left _ hc)).2
    · exact (hsafe.free c (List.mem_append_right _ hc)).2
  · intro hspelled
    refine ⟨(hacc.allContainers_nodup hspelled.volumesApart).map_on hspelled.noVariants, fun c hc => ?_⟩
    rcases List.mem_append.mp hc with hm | hv
    · obtain ⟨habs, hroot⟩ := hacc.mount_containers.2 c hm
      refine ⟨habs, fun htaken => ?_⟩
      rcases hspelled.mountsPlain c hm htaken with hslash | hreserved
      · exact hroot hslash
      · exact hacc.unreserved c hm hreserved
    · exact ⟨hacc.volume_containers c hv, hspelled.volumesFree c hv⟩

/-- One mount and one volume next to each other. -/
def mountAndVolume : Dict :=
  [("version", .int 1),
    ("mounts", .arr [.obj [("host", .str "/srv/a"), ("container", .str "/data")]]),
    ("volumes", .arr [.obj [("name", .str "tools"), ("container", .str "/data2/")]])]

theorem spelled_mountAndVolume : Spelled mountAndVolume := by
  refine ⟨?_, ?_, ?_, ?_⟩ <;> decide +kernel

theorem container_paths_safe_beside :
    validate asciiText (.obj mountAndVolume) = [] ∧ SafePaths mountAndVolume := by
  have h : validate asciiText (.obj mountAndVolume) = [] := by decide +kernel
  exact ⟨h, (container_paths_safe_iff asciiText mountAndVolume h).mpr spelled_mountAndVolume⟩

/-- Two volumes on one path, which nothing checks. -/
def sharedPath : Dict :=
  [("version", .int 1),
    ("volumes", .arr [.obj [("name", .str "logs"), ("container", .str "/data")],
      .obj [("name", .str "cache"), ("container", .str "/data")]])]

theorem volumes_share_path : validate asciiText (.obj sharedPath) = [] ∧ ¬SafePaths sharedPath := by
  refine ⟨by decide +kernel, fun h => ?_⟩
  exact absurd h.distinct (by decide +kernel)

end Lager.BoxConfig
