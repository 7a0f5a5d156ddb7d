import Lager.Drivers.NormalForm

/-!
# The arguments of a call

`coerce_args` of `drivers/manifest.py` on a manifest in normal form: what it answers has the declared types, choices
and bounds, and leaves nothing out that is required or has a default (`coerceFields_ok`). With `NormalForm`, a manifest
and a call to it are lawful exactly when no integer that is too large for a double is reached and no name of the
manifest ends in a line break (`lawful_iff`).
-/

namespace Lager.Drivers.Schema

open Lager.Lib Lager.Py

/-! ### Calls that overflow -/

/-- A `float` that is given an integer too large for one. -/
def GivenTooLarge (raw : Dict) (entry : String × Field) : Prop :=
  entry.2.kind = .float ∧ ∃ x, given raw entry.1 = some x ∧ TooLarge x

/-- The first thing wrong with the arguments is an integer that is too large. -/
def FieldsTooLarge (rt : Runtime) (fields : List (String × Field)) (raw : Json) (what : String) : Prop :=
  ∃ d, rawDict raw (what ++ "s must be an object") = .ok d ∧ unknownKeys d (fields.map Prod.fst) = [] ∧
    FirstAt (fun entry => ∃ value, valueOf rt d what entry = .ok value) (GivenTooLarge d) fields

def CallTooLarge (rt : Runtime) (m : Manifest) (action : String) (raw : Json) : Prop :=
  ∃ a, m.actions.lookup action = some a ∧ FieldsTooLarge rt a.args raw "arg"

theorem raises_coerceValue (rt : Runtime) (raw : Json) (f : Field) (label : String) :
    Raises (f.kind = .float ∧ TooLarge raw) (coerceValue rt raw f label) :=
  ⟨fun _ he => (coerceValue_error he).imp_right And.left, coerceValue_overflow_iff⟩

theorem raises_map {α β : Type} {P : Prop} {x : Except Raised α} (f : α → β) (h : Raises P x) : Raises P (x.map f) :=
  ⟨fun e he => h.refused e (map_eq_error.mp he), map_eq_error.trans h.overflow⟩

theorem raises_valueOf (rt : Runtime) (raw : Dict) (what : String) (entry : String × Field) :
    Raises (GivenTooLarge raw entry) (valueOf rt raw what entry) := by
  unfold valueOf GivenTooLarge
  cases hgiven : given raw entry.1 with
  | some x =>
    apply (raises_map some (raises_coerceValue rt x entry.2 _)).congr
    simp
  | none =>
    have hfalse : False ↔ entry.2.kind = .float ∧ ∃ x, (none : Option Json) = some x ∧ TooLarge x := by simp
    dsimp only
    cases entry.2.default with
    | some v => exact (raises_ok _).congr hfalse
    | none =>
      apply Raises.congr (raises_of_refused fun e he => ?_) hfalse
      dsimp only at he
      split_ifs at he
      exact ⟨_, (Except.error.inj he).symm⟩

theorem raises_rawDict (raw : Json) (message : String) : Raises False (rawDict raw message) := by
  unfold rawDict
  split
  · exact raises_ok _
  · exact raises_objectOf _ _

/-- **What the coercion of arguments raises.** -/
theorem raises_coerceFields (rt : Runtime) (fields : List (String × Field)) (raw : Json) (what : String) :
    Raises (FieldsTooLarge rt fields raw what) (coerceFields rt fields raw what) := by
  apply (raises_rawDict _ _).after
  intro d _
  refine ((raises_require _ _).after fun _ _ => raises_foldlM (raises_valueOf rt d what)).congr ?_
  constructor
  · rintro ⟨_, hrequire, hlarge⟩
    exact ⟨List.isEmpty_iff.mp (require_ok hrequire), hlarge⟩
  · rintro ⟨hknown, hlarge⟩
    refine ⟨(), ?_, hlarge⟩
    rw [hknown, List.isEmpty_nil, require_true]

/-! ### What a call is answered with -/

theorem valueOf_ok {rt : Runtime} {raw : Dict} {what : String} {entry : String × Field} {value : Option Json}
    (h : valueOf rt raw what entry = .ok value) :
    (∀ v, value = some v → Declared entry.2 v ∨ entry.2.default = some v) ∧
      (entry.2.required = true ∨ entry.2.default ≠ none → value ≠ none) := by
  unfold valueOf at h
  split at h
  · rename_i x _
    cases hcoerce : coerceValue rt x entry.2 (what ++ " '" ++ entry.1 ++ "'") with
    | error e =>
      rw [hcoerce] at h
      cases h
    | ok v =>
      rw [hcoerce] at h
      obtain rfl := Except.ok.inj h
      refine ⟨fun w hw => Or.inl ?_, fun _ => Option.some_ne_none v⟩
      rw [← Option.some.inj hw]
      exact coerceValue_ok hcoerce
  · split at h
    · rename_i v hdefault
      obtain rfl := Except.ok.inj h
      exact ⟨fun w hw => Or.inr (hdefault.trans hw), fun _ => Option.some_ne_none v⟩
    · rename_i hdefault
      split_ifs at h with hrequired
      obtain rfl := Except.ok.inj h
      refine ⟨fun w hw => absurd hw.symm (Option.some_ne_none w), fun hneeded => ?_⟩
      exact absurd hdefault (hneeded.resolve_left hrequired)

/-- The fields that were gone through, and what came out for them. -/
structure Filled (done : List (String × Field)) (out : Dict) : Prop where
  declared : ∀ name v, Dict.get? out name = some v →
    ∃ f, (name, f) ∈ done ∧ (Declared f v ∨ f.default = some v)
  complete : ∀ entry ∈ done, entry.2.required = true ∨ entry.2.default ≠ none → ∃ v, Dict.get? out entry.1 = some v

theorem filled_put {done : List (String × Field)} {out : Dict} {entry : String × Field} {value : Option Json}
    (h : Filled done out) (hdeclared : ∀ v, value = some v → Declared entry.2 v ∨ entry.2.default = some v)
    (hcomplete : entry.2.required = true ∨ entry.2.default ≠ none → value ≠ none) :
    Filled (done ++ [entry]) (put out entry value) := by
  cases value with
  | none =>
    refine ⟨fun name v hv => ?_, fun other hother hneeded => ?_⟩
    · obtain ⟨f, hf, hv⟩ := h.declared name v hv
      exact ⟨f, List.mem_append_left _ hf, hv⟩
    · rcases List.mem_append.mp hother with hold | hnew
      · exact h.complete other hold hneeded
      · obtain rfl := List.mem_singleton.mp hnew
        exact absurd rfl (hcomplete hneeded)
  | some w =>
    have hself : Dict.get? (put out entry (some w)) entry.1 = some w := Dict.get?_set_self out entry.1 w
    refine ⟨fun name v hv => ?_, fun other hother hneeded => ?_⟩
    · by_cases hname : name = entry.1
      · subst hname
        rw [hself] at hv
        exact ⟨entry.2, List.mem_append_right _ List.mem_cons_self, hdeclared v hv⟩
      · rw [put, Dict.get?_set_ne out w hname] at hv
        obtain ⟨f, hf, hv⟩ := h.declared name v hv
        exact ⟨f, List.mem_append_left _ hf, hv⟩
    · by_cases hname : other.1 = entry.1
      · rw [hname]
        exact ⟨w, hself⟩
      · rw [put, Dict.get?_set_ne out w hname]
        rcases List.mem_append.mp hother with hold | hnew
        · exact h.complete other hold hneeded
        · exact absurd (congrArg Prod.fst (List.mem_singleton.mp hnew)) hname

/-- **What arguments are answered with.** -/
theorem coerceFields_ok {rt : Runtime} {fields : List (String × Field)} {raw : Json} {what : String} {out : Dict}
    (h : coerceFields rt fields raw what = .ok out) : Filled fields out := by
  obtain ⟨d, -, h⟩ := bind_eq_ok h
  obtain ⟨_, -, h⟩ := bind_eq_ok h
  refine foldlM_history Filled (fun done out entry after hdone hstep => ?_) ?_ h
  · obtain ⟨value, hvalue, hafter⟩ := bind_eq_ok hstep
    obtain rfl := Except.ok.inj hafter
    obtain ⟨hdeclared, hcomplete⟩ := valueOf_ok hvalue
    exact filled_put hdone hdeclared hcomplete
  · exact ⟨fun name v hv => absurd hv.symm (Option.some_ne_none v), fun entry hentry => absurd hentry List.not_mem_nil⟩

theorem coerceArgs_some {rt : Runtime} {m : Manifest} {action : String} {a : Action} (h : m.actions.lookup action = some a)
    (raw : Json) : coerceArgs rt m action raw = coerceFields rt a.args raw "arg" := by
  rw [coerceArgs, h]

theorem coerceArgs_none {rt : Runtime} {m : Manifest} {action : String} (h : m.actions.lookup action = none)
    (raw : Json) : coerceArgs rt m action raw = .error (.keyError action) := by
  rw [coerceArgs, h]

theorem coerceArgs_overflow_iff {rt : Runtime} {m : Manifest} {action : String} {raw : Json} :
    coerceArgs rt m action raw = .error .overflowError ↔ CallTooLarge rt m action raw := by
  unfold CallTooLarge
  cases haction : m.actions.lookup action with
  | none => simp [coerceArgs_none haction]
  | some a =>
    rw [coerceArgs_some haction, (raises_coerceFields rt a.args raw "arg").overflow]
    simp

/-- **A call that does not overflow is answered with the declared arguments, or refused.** -/
theorem answered {rt : Runtime} {m : Manifest} {action : String} {raw : Json} (hm : m.Valid)
    (hcall : ¬CallTooLarge rt m action raw) : Answered rt m action raw := by
  cases haction : m.actions.lookup action with
  | none =>
    have hnone := @coerceArgs_none rt m action haction raw
    refine ⟨fun e he => ?_, fun out hout => ?_, fun out hout => ?_⟩
    · rw [hnone] at he
      exact Or.inr ⟨(Except.error.inj he).symm, haction⟩
    · rw [hnone] at hout
      cases hout
    · rw [hnone] at hout
      cases hout
  | some a =>
    have hsome := @coerceArgs_some rt m action a haction raw
    have hargs := (hm.each (action, a) (mem_of_lookup haction)).2.args
    refine ⟨fun e he => ?_, fun out hout name v hv => ?_, fun out hout a' name f ha' hf hneeded => ?_⟩
    · rw [hsome] at he
      rcases (raises_coerceFields rt a.args raw "arg").refused e he with hrefused | rfl
      · exact Or.inl hrefused
      · rw [← hsome] at he
        exact absurd (coerceArgs_overflow_iff.mp he) hcall
    · rw [hsome] at hout
      obtain ⟨f, hf, hv⟩ := (coerceFields_ok hout).declared name v hv
      refine ⟨a, f, haction, lookup_of_mem hargs.nodup hf, ?_⟩
      rcases hv with hv | hdefault
      · exact hv
      · exact (hargs.each (name, f) hf).2.2.default v hdefault
    · rw [hsome] at hout
      obtain rfl := Option.some.inj (haction.symm.trans ha')
      exact (coerceFields_ok hout).complete (name, f) (mem_of_lookup hf) hneeded

/-! ### When both are lawful -/

/-- No integer that is too large is reached, and no name of an accepted manifest ends in a line break. -/
structure Sized (rt : Runtime) (data : Json) (action : String) (raw : Json) : Prop where
  manifest : ¬ManifestTooLarge rt data
  names : (∃ m, parseManifest rt data = .ok m) → ∀ name ∈ namesIn data, name.toList.getLast? ≠ some '\n'
  call : ∀ m, parseManifest rt data = .ok m → ¬CallTooLarge rt m action raw

theorem Manifest.Valid.named {m : Manifest} (h : m.Valid) : ∀ name ∈ m.names, NAME_RE name = true := by
  intro name hname
  rw [Manifest.names, List.mem_append, List.mem_append] at hname
  rcases hname with (hparam | haction) | harg
  · obtain ⟨entry, hentry, rfl⟩ := List.mem_map.mp hparam
    exact (h.params.each entry hentry).1
  · obtain ⟨entry, hentry, rfl⟩ := List.mem_map.mp haction
    exact (h.each entry hentry).1.matched
  · obtain ⟨entry, hentry, harg⟩ := List.mem_flatMap.mp harg
    obtain ⟨arg, hmem, rfl⟩ := List.mem_map.mp harg
    exact ((h.each entry hentry).2.args.each arg hmem).1

/-- **When a manifest and a call to it are lawful.** -/
theorem lawful_iff (rt : Runtime) {data : Json} (hdata : data.WellFormed) (action : String) (raw : Json) :
    Lawful rt data action raw ↔ Sized rt data action raw := by
  constructor
  · intro h
    refine ⟨fun hlarge => ?_, fun ⟨m, hm⟩ name hname => ?_, fun m hm hlarge => ?_⟩
    · obtain ⟨message, hmessage⟩ := h.refused _ ((raises_parseManifest rt data).overflow.mpr hlarge)
      cases hmessage
    · have hmem := (parseManifest_names hdata hm name).mpr hname
      have hmatched := (parseManifest_ok hm).named name hmem
      exact (identifier_iff hmatched).mp ((h.normal m hm).names name hmem)
    · rcases (h.answered m hm).refused _ (coerceArgs_overflow_iff.mpr hlarge) with ⟨message, hmessage⟩ | ⟨hkey, -⟩
      · cases hmessage
      · cases hkey
  · intro h
    refine ⟨fun e he => ?_, fun m hm => ?_, fun m hm => answered (parseManifest_ok hm) (h.call m hm)⟩
    · rcases (raises_parseManifest rt data).refused e he with hrefused | rfl
      · exact hrefused
      · exact absurd ((raises_parseManifest rt data).overflow.mp he) h.manifest
    · have hvalid := parseManifest_ok hm
      refine ⟨parseManifest_again rt hvalid, fun name hname => ?_, hvalid.unreserved⟩
      exact (identifier_iff (hvalid.named name hname)).mpr
        (h.names ⟨m, hm⟩ name ((parseManifest_names hdata hm name).mp hname))

/-! ### Examples of both -/

/-- A runtime whose texts play no part below. -/
def plainRuntime : Runtime := ⟨fun _ => "", fun _ => "", id, fun _ => none⟩

/-- A driver with one action, `jog`, that has one argument. -/
def rigWith (arg : String) (spec : Dict) : Json :=
  .obj [("type", .str "rig"), ("version", .str "1"), ("lager_api", .int 1),
    ("actions", .obj [("jog", .obj [("args", .obj [(arg, .obj spec)])])])]

def jogSpec : Dict := [("type", .str "float"), ("max", .int 30), ("required", .bool true)]

def jogManifest : Manifest :=
  ⟨"rig", "1", .int 1, "", 60, none, [],
    [("jog", ⟨"", 60, [("seconds", ⟨.float, "", true, none, none, none, some (.int 30), none⟩)]⟩)]⟩

/-- A call with a number of seconds is lawful. -/
theorem jog_lawful :
    Lawful plainRuntime (rigWith "seconds" jogSpec) "jog" (.obj [("seconds", .int 2)]) := by
  have hparse : parseManifest plainRuntime (rigWith "seconds" jogSpec) = .ok jogManifest := by decide +kernel
  have hcall : coerceArgs plainRuntime jogManifest "jog" (.obj [("seconds", .int 2)]) =
      .ok [("seconds", .float (.fin 2))] := by decide +kernel
  have hwell : (rigWith "seconds" jogSpec).WellFormed := by
    simp [rigWith, jogSpec, Json.WellFormed, Json.WellFormedItems]
  apply (lawful_iff plainRuntime hwell "jog" _).mpr
  refine ⟨fun hlarge => ?_, fun _ => by decide +kernel, fun m hm hlarge => ?_⟩
  · rw [← (raises_parseManifest plainRuntime _).overflow, hparse] at hlarge
    cases hlarge
  · rw [hparse] at hm
    obtain rfl := Except.ok.inj hm
    rw [← coerceArgs_overflow_iff, hcall] at hlarge
    cases hlarge

/-- **A name with a line break, and integers too large for a double.** The first manifest is accepted, the second
raises `OverflowError`, as does a call with a value that is too large. -/
theorem unlawful :
    ¬Lawful plainRuntime (rigWith "seconds\n" jogSpec) "jog" .null ∧
      ¬Lawful plainRuntime (rigWith "seconds" [("type", .str "float"), ("max", .int (10 ^ 400))]) "jog" .null ∧
      ¬Lawful plainRuntime (rigWith "seconds" jogSpec) "jog" (.obj [("seconds", .int (10 ^ 400))]) := by
  refine ⟨fun h => ?_, fun h => ?_, fun h => ?_⟩
  · have hparse : parseManifest plainRuntime (rigWith "seconds\n" jogSpec) =
        .ok { jogManifest with actions := [("jog", ⟨"", 60,
          [("seconds\n", ⟨.float, "", true, none, none, none, some (.int 30), none⟩)]⟩)] } := by decide +kernel
    obtain ⟨c, rest, hname, hc, hrest⟩ := (h.normal _ hparse).names "seconds\n" (by decide +kernel)
    have hmem : '\n' ∈ rest := by
      have hlast : "seconds\n".toList = 's' :: ['e', 'c', 'o', 'n', 'd', 's', '\n'] := by decide +kernel
      rw [hlast] at hname
      rw [← (List.cons.inj hname).2]
      decide
    exact absurd (hrest _ hmem) (by decide)
  · have hraises : parseManifest plainRuntime
        (rigWith "seconds" [("type", .str "float"), ("max", .int (10 ^ 400))]) = .error .overflowError := by
      decide +kernel
    obtain ⟨message, hmessage⟩ := h.refused _ hraises
    cases hmessage
  · have hparse : parseManifest plainRuntime (rigWith "seconds" jogSpec) = .ok jogManifest := by decide +kernel
    have hraises : coerceArgs plainRuntime jogManifest "jog" (.obj [("seconds", .int (10 ^ 400))]) =
        .error .overflowError := by decide +kernel
    rcases (h.answered _ hparse).refused _ hraises with ⟨message, hmessage⟩ | ⟨hkey, -⟩
    · cases hmessage
    · cases hkey

end Lager.Drivers.Schema
