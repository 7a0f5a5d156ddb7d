import Lager.Drivers.Schema

/-!
# The normal form of a manifest

What a manifest that is accepted keeps to (`parseManifest_ok`), and that a manifest which keeps to it is parsed to
itself (`parseManifest_again`). The names are identifiers but for those with a line break at the end, and they are
the names in the JSON text (`parseManifest_names`).
-/

namespace Lager.Drivers.Schema

open Lager.Lib Lager.Py

/-- Fields under their names. -/
structure FieldsValid (allowed : List Kind) (fields : List (String × Field)) : Prop where
  nodup : (fields.map Prod.fst).Nodup
  each : ∀ entry ∈ fields, NAME_RE entry.1 = true ∧ entry.2.kind ∈ allowed ∧ entry.2.Valid

def InTime (seconds : Int) : Prop := 1 ≤ seconds ∧ seconds ≤ MAX_TIMEOUT_S

structure Action.Valid (a : Action) : Prop where
  timeout : InTime a.timeoutS
  args : FieldsValid SCALAR_TYPES a.args
  free : ∀ entry ∈ a.args, entry.1 ∉ RESERVED_ARG_NAMES

/-- The name of an action. -/
structure ActionName (name : String) : Prop where
  matched : NAME_RE name = true
  free : name.toList.head? ≠ some '_' ∧ name ∉ ["setup", "teardown"]

structure Manifest.Valid (m : Manifest) : Prop where
  type : TYPE_RE m.type = true
  unreserved : m.type ∉ RESERVED_TYPES
  version : m.version ≠ "" ∧ stripText m.version = m.version
  api : m.lagerApi.pyEq (.int 1) = true
  timeout : InTime m.timeoutS
  requirements : ∀ file, m.requirements = some file → REQUIREMENTS_RE file = true
  params : FieldsValid PARAM_TYPES m.params
  nodup : (m.actions.map Prod.fst).Nodup
  nonempty : m.actions ≠ []
  each : ∀ entry ∈ m.actions, ActionName entry.1 ∧ entry.2.Valid

/-! ### Accepted manifests -/

theorem checkTimeout_ok {value : Json} {place : String} {n : Int} (h : checkTimeout value place = .ok n) : InTime n := by
  unfold checkTimeout at h
  split at h
  · split_ifs at h with hrange
    rw [← Except.ok.inj h]
    exact hrange
  · cases h

theorem typeOf_ok {d : Dict} {dtype : String} (h : typeOf d = .ok dtype) : TYPE_RE dtype = true := by
  unfold typeOf at h
  split at h
  · split_ifs at h with hmatch
    rw [← Except.ok.inj h]
    exact hmatch
  · cases h

theorem stripText_stripText (s : String) : stripText (stripText s) = stripText s := by
  unfold stripText
  rw [String.toList_ofList, strip_strip]

theorem versionOf_ok {d : Dict} {version : String} (h : versionOf d = .ok version) :
    version ≠ "" ∧ stripText version = version := by
  unfold versionOf at h
  split at h
  · split_ifs at h with hempty
    rw [← Except.ok.inj h]
    exact ⟨hempty, stripText_stripText _⟩
  · cases h

theorem requirementsOf_ok {d : Dict} {requirements : Option String} (h : requirementsOf d = .ok requirements) :
    ∀ file, requirements = some file → REQUIREMENTS_RE file = true := by
  intro file hfile
  subst hfile
  unfold requirementsOf at h
  split at h
  · cases h
  · split_ifs at h with hmatch
    rw [← Option.some.inj (Except.ok.inj h)]
    exact hmatch
  · cases h

/-- What the head of an accepted manifest keeps to. -/
structure Head.Valid (head : Head) : Prop where
  type : TYPE_RE head.type = true
  unreserved : head.type ∉ RESERVED_TYPES
  version : head.version ≠ "" ∧ stripText head.version = head.version
  api : (Dict.get head.dict "lager_api").pyEq (.int 1) = true
  timeout : InTime head.timeoutS
  requirements : ∀ file, head.requirements = some file → REQUIREMENTS_RE file = true

theorem readHead_ok {rt : Runtime} {data : Json} {head : Head} (h : readHead rt data = .ok head) :
    data = .obj head.dict ∧ head.Valid := by
  obtain ⟨d, hd, h⟩ := bind_eq_ok h
  obtain ⟨_, -, h⟩ := bind_eq_ok h
  obtain ⟨dtype, htype, h⟩ := bind_eq_ok h
  obtain ⟨_, hreserved, h⟩ := bind_eq_ok h
  obtain ⟨version, hversion, h⟩ := bind_eq_ok h
  obtain ⟨_, hapi, h⟩ := bind_eq_ok h
  obtain ⟨timeout, htimeout, h⟩ := bind_eq_ok h
  obtain ⟨requirements, hrequirements, h⟩ := bind_eq_ok h
  obtain rfl := Except.ok.inj h
  exact ⟨objectOf_ok hd, typeOf_ok htype, of_decide_eq_true (require_ok hreserved), versionOf_ok hversion,
    require_ok hapi, checkTimeout_ok htimeout, requirementsOf_ok hrequirements⟩

theorem collect_valid {f : String → Json → Except Raised Field} {allowed : List Kind} {d : Dict}
    {fields : List (String × Field)}
    (hf : ∀ name spec field, f name spec = .ok field → NAME_RE name = true ∧ field.kind ∈ allowed ∧ field.Valid)
    (h : collect f d = .ok fields) : FieldsValid allowed fields := by
  refine ⟨(collect_ok h).nodup, fun entry hentry => ?_⟩
  obtain ⟨spec, -, hspec⟩ := (collect_ok h).made entry hentry
  exact hf entry.1 spec entry.2 hspec

theorem parseArg_ok {rt : Runtime} {place name : String} {spec : Json} {f : Field}
    (h : parseArg rt place name spec = .ok f) :
    name ∉ RESERVED_ARG_NAMES ∧ NAME_RE name = true ∧ f.kind ∈ SCALAR_TYPES ∧ f.Valid := by
  obtain ⟨_, hfree, h⟩ := bind_eq_ok h
  exact ⟨of_decide_eq_true (require_ok hfree), parseField_ok h⟩

theorem actionHead_ok {rt : Runtime} {timeout : Int} {name : String} {spec : Json} {head : Dict × Dict × Int}
    (h : actionHead rt timeout name spec = .ok head) :
    ActionName name ∧ spec = .obj head.1 ∧ Dict.getD head.1 "args" (.obj []) = .obj head.2.1 ∧ InTime head.2.2 := by
  obtain ⟨_, hname, h⟩ := bind_eq_ok h
  obtain ⟨_, hfree, h⟩ := bind_eq_ok h
  obtain ⟨d, hd, h⟩ := bind_eq_ok h
  obtain ⟨_, -, h⟩ := bind_eq_ok h
  obtain ⟨args, hargs, h⟩ := bind_eq_ok h
  obtain ⟨seconds, hseconds, h⟩ := bind_eq_ok h
  obtain rfl := Except.ok.inj h
  exact ⟨⟨require_ok hname, of_decide_eq_true (require_ok hfree)⟩, objectOf_ok hd, objectOf_ok hargs,
    checkTimeout_ok hseconds⟩

theorem parseAction_ok {rt : Runtime} {timeout : Int} {name : String} {spec : Json} {a : Action}
    (h : parseAction rt timeout name spec = .ok a) : ActionName name ∧ a.Valid := by
  obtain ⟨head, hhead, h⟩ := bind_eq_ok h
  obtain ⟨args, hargs, h⟩ := bind_eq_ok h
  obtain rfl := Except.ok.inj h
  obtain ⟨hname, -, -, htimeout⟩ := actionHead_ok hhead
  refine ⟨hname, htimeout, collect_valid (fun arg spec f hf => (parseArg_ok hf).2) hargs, fun entry hentry => ?_⟩
  obtain ⟨spec, -, hspec⟩ := (collect_ok hargs).made entry hentry
  exact (parseArg_ok hspec).1

theorem actionsOf_ok {d actionsIn : Dict} (h : actionsOf d = .ok actionsIn) :
    Dict.get d "actions" = .obj actionsIn ∧ actionsIn ≠ [] := by
  unfold actionsOf at h
  split at h
  · rename_i entry entries hget
    rw [← Except.ok.inj h]
    exact ⟨hget, List.cons_ne_nil _ _⟩
  · cases h

/-- The steps of a manifest that is accepted. -/
theorem parseManifest_steps {rt : Runtime} {data : Json} {m : Manifest} (h : parseManifest rt data = .ok m) :
    ∃ head paramsIn actionsIn, readHead rt data = .ok head ∧ paramsOf head.dict = .ok paramsIn ∧
      collect (parseParam rt) paramsIn = .ok m.params ∧ actionsOf head.dict = .ok actionsIn ∧
      collect (parseAction rt head.timeoutS) actionsIn = .ok m.actions ∧
      m = ⟨head.type, head.version, Dict.get head.dict "lager_api",
        rt.str (Dict.getD head.dict "description" (.str "")), head.timeoutS, head.requirements, m.params, m.actions⟩ := by
  obtain ⟨head, hhead, h⟩ := bind_eq_ok h
  obtain ⟨paramsIn, hparamsIn, h⟩ := bind_eq_ok h
  obtain ⟨params, hparams, h⟩ := bind_eq_ok h
  obtain ⟨actionsIn, hactionsIn, h⟩ := bind_eq_ok h
  obtain ⟨actions, hactions, h⟩ := bind_eq_ok h
  obtain rfl := Except.ok.inj h
  exact ⟨head, paramsIn, actionsIn, hhead, hparamsIn, hparams, hactionsIn, hactions, rfl⟩

/-- **An accepted manifest is in normal form.** -/
theorem parseManifest_ok {rt : Runtime} {data : Json} {m : Manifest} (h : parseManifest rt data = .ok m) : m.Valid := by
  obtain ⟨head, paramsIn, actionsIn, hhead, -, hparams, hactionsIn, hactions, hm⟩ := parseManifest_steps h
  have hvalid := (readHead_ok hhead).2
  have hcollected := collect_ok hactions
  rw [hm]
  refine ⟨hvalid.type, hvalid.unreserved, hvalid.version, hvalid.api, hvalid.timeout, hvalid.requirements,
    collect_valid (fun name spec f hf => parseField_ok hf) hparams, hcollected.nodup, fun hnil => ?_,
    fun entry hentry => ?_⟩
  · dsimp only at hnil
    obtain ⟨entry, hentry⟩ := List.exists_mem_of_ne_nil _ (actionsOf_ok hactionsIn).2
    have hkey := (hcollected.keys entry.1).mpr (List.mem_map_of_mem hentry)
    rw [hnil] at hkey
    exact absurd hkey List.not_mem_nil
  · obtain ⟨spec, -, hspec⟩ := hcollected.made entry hentry
    exact parseAction_ok hspec

/-! ### Parsing what is in normal form -/

theorem checkTimeout_again {n : Int} (h : InTime n) (place : String) : checkTimeout (.int n) place = .ok n := if_pos h

theorem collect_again_fields {f : String → Json → Except Raised Field} {allowed : List Kind}
    {fields : List (String × Field)} (h : FieldsValid allowed fields)
    (hf : ∀ entry ∈ fields, f entry.1 (.obj entry.2.toDict) = .ok entry.2) :
    collect f (fieldsToDict fields) = .ok fields :=
  @collect_again _ _ _ _ _ _ _ (fun field => Json.obj field.toDict) _ h.nodup hf

theorem get?_actionToDict (a : Action) :
    Dict.get? a.toDict "help" = some (.str a.help) ∧ Dict.get? a.toDict "timeout_s" = some (.int a.timeoutS) ∧
      Dict.get? a.toDict "args" = some (.obj (fieldsToDict a.args)) :=
  ⟨rfl, rfl, rfl⟩

theorem actionHead_again (rt : Runtime) {name : String} {a : Action} (hname : ActionName name) (ha : a.Valid)
    (timeout : Int) :
    actionHead rt timeout name (.obj a.toDict) = .ok (a.toDict, fieldsToDict a.args, a.timeoutS) := by
  have hunknown : unknownKeys a.toDict ACTION_KEYS = [] := by
    simp [unknownKeys, Action.toDict, ACTION_KEYS]
  obtain ⟨-, htimeout, hargs⟩ := get?_actionToDict a
  rw [actionHead, hname.matched, require_true, ok_bind, decide_eq_true hname.free, require_true, ok_bind, objectOf,
    ok_bind, checkKeys, hunknown, List.isEmpty_nil, require_true, ok_bind, Dict.getD_of_get? hargs, objectOf, ok_bind,
    Dict.getD_of_get? htimeout, checkTimeout_again ha.timeout, ok_bind]

theorem parseArg_again (rt : Runtime) {a : Action} (ha : a.Valid) (place : String) (entry : String × Field)
    (h : entry ∈ a.args) : parseArg rt place entry.1 (.obj entry.2.toDict) = .ok entry.2 := by
  obtain ⟨hname, hkind, hvalid⟩ := ha.args.each entry h
  rw [parseArg, decide_eq_true (ha.free entry h), require_true, ok_bind, parseField_again rt hname hkind hvalid]

theorem parseAction_again (rt : Runtime) {name : String} {a : Action} (hname : ActionName name) (ha : a.Valid)
    (timeout : Int) : parseAction rt timeout name (.obj a.toDict) = .ok a := by
  have hargs := collect_again_fields ha.args (parseArg_again rt ha ("actions." ++ name))
  have hhelp : helpOf rt a.toDict = a.help := rfl
  rw [parseAction, actionHead_again rt hname ha, ok_bind, hargs, ok_bind, hhelp]

theorem parseParam_again (rt : Runtime) {m : Manifest} (h : m.Valid) (entry : String × Field) (hentry : entry ∈ m.params) :
    parseParam rt entry.1 (.obj entry.2.toDict) = .ok entry.2 := by
  obtain ⟨hname, hkind, hvalid⟩ := h.params.each entry hentry
  exact parseField_again rt hname hkind hvalid _

theorem requirementsOf_again {m : Manifest} (h : m.Valid) : requirementsOf m.toDict = .ok m.requirements := by
  have hget : Dict.get m.toDict "requirements" = textOrNull m.requirements := rfl
  rw [requirementsOf, hget]
  cases hfile : m.requirements with
  | none => rfl
  | some file => exact if_pos (h.requirements file hfile)

theorem readHead_again (rt : Runtime) {m : Manifest} (h : m.Valid) :
    readHead rt (.obj m.toDict) = .ok ⟨m.toDict, m.type, m.version, m.timeoutS, m.requirements⟩ := by
  have hunknown : unknownKeys m.toDict MANIFEST_KEYS = [] := by
    simp [unknownKeys, Manifest.toDict, MANIFEST_KEYS]
  have htype : typeOf m.toDict = .ok m.type := if_pos h.type
  have hversion : versionOf m.toDict = .ok m.version := by
    have hget : Dict.get m.toDict "version" = .str m.version := rfl
    rw [versionOf, hget]
    dsimp only
    rw [h.version.2, if_neg h.version.1]
  have hapi : Dict.get m.toDict "lager_api" = m.lagerApi := rfl
  have htimeout : Dict.get? m.toDict "timeout_s" = some (.int m.timeoutS) := rfl
  rw [readHead, objectOf, ok_bind, checkKeys, hunknown, List.isEmpty_nil, require_true, ok_bind, htype, ok_bind,
    decide_eq_true h.unreserved, require_true, ok_bind, hversion, ok_bind, hapi, h.api, require_true, ok_bind,
    Dict.getD_of_get? htimeout, checkTimeout_again h.timeout, ok_bind, requirementsOf_again h, ok_bind]

/-- **A manifest in normal form is parsed to itself.** -/
theorem parseManifest_again (rt : Runtime) {m : Manifest} (h : m.Valid) :
    parseManifest rt (.obj m.toDict) = .ok m := by
  have hparams : paramsOf m.toDict = .ok (fieldsToDict m.params) := rfl
  have hactionsIn : actionsOf m.toDict = .ok (m.actions.map fun entry => (entry.1, .obj entry.2.toDict)) := by
    have hget : Dict.get m.toDict "actions" = .obj (m.actions.map fun entry => (entry.1, .obj entry.2.toDict)) := rfl
    rw [actionsOf, hget]
    cases hactions : m.actions with
    | nil => exact absurd hactions h.nonempty
    | cons entry entries => rfl
  have hactions : collect (parseAction rt m.timeoutS) (m.actions.map fun entry => (entry.1, .obj entry.2.toDict)) =
      .ok m.actions :=
    @collect_again _ _ _ _ _ _ _ (fun a : Action => Json.obj a.toDict) _ h.nodup fun entry hentry =>
      parseAction_again rt (h.each entry hentry).1 (h.each entry hentry).2 m.timeoutS
  rw [parseManifest, readHead_again rt h, ok_bind, hparams, ok_bind,
    collect_again_fields h.params (parseParam_again rt h), ok_bind, hactionsIn, ok_bind, hactions, ok_bind]
  rfl

/-! ### Names -/

theorem nameChars_spec {l : List Char} (h : nameChars l = true) :
    ∃ c rest, l = c :: rest ∧ c.isLower = true ∧ ∀ d ∈ rest, d.isLower = true ∨ d.isDigit = true ∨ d = '_' := by
  unfold nameChars at h
  split at h
  · rename_i c rest
    simp only [Bool.and_eq_true, List.all_eq_true, Bool.or_eq_true, beq_iff_eq, or_assoc] at h
    exact ⟨c, rest, rfl, h.1.1, h.2⟩
  · cases h

theorem isAlphanum_of_name {d : Char} (h : d.isLower = true ∨ d.isDigit = true ∨ d = '_') :
    d.isAlphanum = true ∨ d = '_' := by
  rcases h with h | h | h
  · left
    simp [Char.isAlphanum, Char.isAlpha, h]
  · left
    simp [Char.isAlphanum, h]
  · exact Or.inr h

theorem last_ne_of_nameChars {l : List Char} (h : nameChars l = true) : l.getLast? ≠ some '\n' := by
  intro hlast
  obtain ⟨c, rest, rfl, hc, hrest⟩ := nameChars_spec h
  rcases List.mem_cons.mp (List.mem_of_getLast? hlast) with rfl | hmem
  · exact absurd hc (by decide)
  · exact absurd (hrest _ hmem) (by decide)

/-- A name that is accepted is an identifier, but for a line break at the end. -/
theorem identifier_iff {name : String} (h : NAME_RE name = true) :
    Identifier name ↔ name.toList.getLast? ≠ some '\n' := by
  constructor
  · rintro ⟨c, rest, hname, hc, hrest⟩ hlast
    rw [hname] at hlast
    rcases List.mem_cons.mp (List.mem_of_getLast? hlast) with rfl | hmem
    · exact absurd hc (by decide)
    · exact absurd (hrest _ hmem) (by decide)
  · intro hlast
    rw [NAME_RE, Bool.or_eq_true] at h
    rcases h with h | h
    · obtain ⟨c, rest, hname, hc, hrest⟩ := nameChars_spec h
      refine ⟨c, rest, hname, Or.inl ?_, fun d hd => isAlphanum_of_name (hrest d hd)⟩
      simp [Char.isAlpha, hc]
    · rw [Bool.and_eq_true, beq_iff_eq] at h
      exact absurd h.1 hlast

/-- The items of a dict. -/
def items : Json → Dict
  | .obj d => d
  | _ => []

/-- The names of the parameters, of the actions and of their arguments. -/
def namesIn (data : Json) : List String :=
  (items (Dict.get (items data) "params")).map Prod.fst ++
    (items (Dict.get (items data) "actions")).map Prod.fst ++
    (items (Dict.get (items data) "actions")).flatMap fun entry =>
      (items (Dict.get (items entry.2) "args")).map Prod.fst

@[simp] theorem items_obj (d : Dict) : items (.obj d) = d := rfl

theorem items_getD (d : Dict) (k : String) : items (Dict.getD d k (.obj [])) = items (Dict.get d k) := by
  unfold Dict.getD Dict.get
  cases Dict.get? d k with
  | none => rfl
  | some v => rfl

/-- The arguments of an action are those in its text. -/
theorem parseAction_keys {rt : Runtime} {timeout : Int} {name : String} {spec : Json} {a : Action}
    (h : parseAction rt timeout name spec = .ok a) (arg : String) :
    arg ∈ a.args.map Prod.fst ↔ arg ∈ (items (Dict.get (items spec) "args")).map Prod.fst := by
  obtain ⟨head, hhead, h⟩ := bind_eq_ok h
  obtain ⟨args, hargs, h⟩ := bind_eq_ok h
  obtain rfl := Except.ok.inj h
  obtain ⟨-, rfl, hargsIn, -⟩ := actionHead_ok hhead
  have hitems : items (Dict.get (items (.obj head.1)) "args") = head.2.1 := by
    rw [items_obj, ← items_getD, hargsIn, items_obj]
  rw [hitems]
  exact (collect_ok hargs).keys arg

/-- **The names of an accepted manifest are those in its text.** -/
theorem parseManifest_names {rt : Runtime} {data : Json} {m : Manifest} (hdata : data.WellFormed)
    (h : parseManifest rt data = .ok m) (name : String) : name ∈ m.names ↔ name ∈ namesIn data := by
  obtain ⟨head, paramsIn, actionsIn, hhead, hparamsIn, hparams, hactionsIn, hactions, -⟩ := parseManifest_steps h
  obtain ⟨rfl, -⟩ := readHead_ok hhead
  have hparamsGet : items (Dict.get head.dict "params") = paramsIn := by
    rw [← items_getD, objectOf_ok hparamsIn, items_obj]
  have hactionsGet := (actionsOf_ok hactionsIn).1
  have hnodup : (actionsIn.map Prod.fst).Nodup := by
    have hwell := Json.WellFormed.get hdata "actions"
    rw [hactionsGet, Json.WellFormed] at hwell
    exact hwell.1
  have hcollected := collect_ok hactions
  have hargs : (∃ entry ∈ m.actions, name ∈ entry.2.args.map Prod.fst) ↔
      ∃ entry ∈ actionsIn, name ∈ (items (Dict.get (items entry.2) "args")).map Prod.fst := by
    constructor
    · rintro ⟨entry, hentry, hname⟩
      obtain ⟨spec, hspec, hparse⟩ := hcollected.made entry hentry
      exact ⟨(entry.1, spec), hspec, (parseAction_keys hparse name).mp hname⟩
    · rintro ⟨entry, hentry, hname⟩
      have hkey := (hcollected.keys entry.1).mpr (List.mem_map_of_mem hentry)
      obtain ⟨made, hmade, hfst⟩ := List.mem_map.mp hkey
      obtain ⟨spec, hspec, hparse⟩ := hcollected.made made hmade
      -- a dict has every key once, so the text is that of the entry
      have hsame : some spec = some entry.2 := by
        rw [← lookup_of_mem hnodup hspec, ← lookup_of_mem hnodup hentry, hfst]
      rw [Option.some.inj hsame] at hparse
      exact ⟨made, hmade, (parseAction_keys hparse name).mpr hname⟩
  simp only [Manifest.names, namesIn, items_obj, hparamsGet, hactionsGet, List.mem_append, List.mem_flatMap, hargs,
    (collect_ok hparams).keys name, hcollected.keys name]

end Lager.Drivers.Schema
