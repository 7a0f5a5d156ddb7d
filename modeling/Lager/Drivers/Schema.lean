import Lager.Drivers.Fields
import Lager.Drivers.Store
import Lager.Lib.Collect
import Lager.Py.Sorted

/-!
# Driver manifests and the arguments of a call

`parse_manifest` and `coerce_args` of `drivers/manifest.py`. A manifest that is accepted is in a normal form, which is
parsed to itself; the arguments of a call come out with the types, choices and bounds the manifest declares, none
missing that is required or has a default. Two things get through: an integer that does not fit into a double
(`Fields`), and a line break at the end of a name.
-/

namespace Lager.Drivers.Schema

open Lager.Lib Lager.Py

structure Action where
  help : String
  timeoutS : Int
  args : List (String × Field)
  deriving DecidableEq

structure Manifest where
  type : String
  version : String
  lagerApi : Json
  description : String
  timeoutS : Int
  requirements : Option String
  params : List (String × Field)
  actions : List (String × Action)
  deriving DecidableEq

/-! ### As a dict -/

def fieldsToDict (fields : List (String × Field)) : Dict := fields.map fun entry => (entry.1, .obj entry.2.toDict)

def Action.toDict (a : Action) : Dict :=
  [("help", .str a.help), ("timeout_s", .int a.timeoutS), ("args", .obj (fieldsToDict a.args))]

def textOrNull : Option String → Json
  | some s => .str s
  | none => .null

def Manifest.toDict (m : Manifest) : Dict :=
  [("type", .str m.type), ("version", .str m.version), ("lager_api", m.lagerApi), ("description", .str m.description),
    ("timeout_s", .int m.timeoutS), ("requirements", textOrNull m.requirements),
    ("params", .obj (fieldsToDict m.params)),
    ("actions", .obj (m.actions.map fun entry => (entry.1, .obj entry.2.toDict)))]

def Manifest.names (m : Manifest) : List String :=
  m.params.map Prod.fst ++ m.actions.map Prod.fst ++ m.actions.flatMap fun entry => entry.2.args.map Prod.fst

/-! ### Parsing -/

def DEFAULT_TIMEOUT_S : Int := 60

def MAX_TIMEOUT_S : Int := 600

def MANIFEST_KEYS : List String :=
  ["type", "version", "lager_api", "description", "timeout_s", "params", "actions", "requirements"]

def ACTION_KEYS : List String := ["help", "args", "timeout_s"]

def RESERVED_ARG_NAMES : List String :=
  ["box", "json", "as_json", "help", "netname", "action", "role", "quiet", "http_timeout", "ctx", "box_addr", "params"]

/-- A letter or digit, at most 63 letters, digits, dots, dashes and underscores, and `.txt`. -/
def requirementsChars (text : List Char) : Bool :=
  ['.', 't', 'x', 't'].isSuffixOf text &&
    match text.dropLast.dropLast.dropLast.dropLast with
    | c :: rest =>
      c.isAlphanum && decide (rest.length ≤ 63) &&
        rest.all fun c => c.isAlphanum || c == '.' || c == '_' || c == '-'
    | [] => false

/-- `REQUIREMENTS_RE.match` -/
def REQUIREMENTS_RE (text : String) : Bool :=
  requirementsChars text.toList ||
    (text.toList.getLast? == some '\n' && requirementsChars text.toList.dropLast)

/-- `_check_timeout` -/
def checkTimeout (value : Json) (place : String) : Except Raised Int :=
  match value with
  | .int n =>
    if 1 ≤ n ∧ n ≤ MAX_TIMEOUT_S then .ok n
    else .error (.manifestError (place ++ s!": timeout_s must be an integer from 1 to {MAX_TIMEOUT_S}"))
  | _ => .error (.manifestError (place ++ s!": timeout_s must be an integer from 1 to {MAX_TIMEOUT_S}"))

def typeOf (d : Dict) : Except Raised String :=
  match Dict.get d "type" with
  | .str dtype =>
    if TYPE_RE dtype then .ok dtype
    else .error (.manifestError ("type must be 2-32 lower case letters, digits, '-' or '_', " ++
      "starting with a letter"))
  | _ => .error (.manifestError ("type must be 2-32 lower case letters, digits, '-' or '_', " ++
      "starting with a letter"))

def stripText (s : String) : String := String.ofList (strip s.toList)

def versionOf (d : Dict) : Except Raised String :=
  match Dict.get d "version" with
  | .str version =>
    if stripText version = "" then .error (.manifestError "version is required") else .ok (stripText version)
  | _ => .error (.manifestError "version is required")

def requirementsOf (d : Dict) : Except Raised (Option String) :=
  match Dict.get d "requirements" with
  | .null => .ok none
  | .str requirements =>
    if REQUIREMENTS_RE requirements then .ok (some requirements)
    else .error (.manifestError ("requirements must name a .txt file at the top of the bundle, " ++
      "such as \"requirements.txt\""))
  | _ => .error (.manifestError ("requirements must name a .txt file at the top of the bundle, " ++
      "such as \"requirements.txt\""))

/-- What a manifest says before its params and actions. -/
structure Head where
  dict : Dict
  type : String
  version : String
  timeoutS : Int
  requirements : Option String

def readHead (rt : Runtime) (data : Json) : Except Raised Head :=
  objectOf data "manifest must be a JSON object" >>= fun d =>
  checkKeys rt d MANIFEST_KEYS "manifest" >>= fun _ =>
  typeOf d >>= fun dtype =>
  require (decide (dtype ∉ RESERVED_TYPES))
    ("type '" ++ dtype ++ "' is the name of a built-in net role or lager command") >>= fun _ =>
  versionOf d >>= fun version =>
  require ((Dict.get d "lager_api").pyEq (.int 1)) ("lager_api " ++ rt.repr (Dict.get d "lager_api") ++
    " is not supported by this box (supported: 1)") >>= fun _ =>
  checkTimeout (Dict.getD d "timeout_s" (.int DEFAULT_TIMEOUT_S)) "manifest" >>= fun timeout =>
  requirementsOf d >>= fun requirements =>
  .ok ⟨d, dtype, version, timeout, requirements⟩

def paramsOf (d : Dict) : Except Raised Dict := objectOf (Dict.getD d "params" (.obj [])) "params must be an object"

def actionsOf (d : Dict) : Except Raised Dict :=
  match Dict.get d "actions" with
  | .obj (entry :: entries) => .ok (entry :: entries)
  | _ => .error (.manifestError "actions must be a non-empty object")

/-- `_parse_arg` -/
def parseArg (rt : Runtime) (place name : String) (spec : Json) : Except Raised Field :=
  require (decide (name ∉ RESERVED_ARG_NAMES)) (place ++ ".args: '" ++ name ++ "' is reserved by the lager CLI") >>=
    fun _ => parseField rt name spec (place ++ ".args") SCALAR_TYPES

/-- The checks of an action up to its arguments. -/
def actionHead (rt : Runtime) (timeout : Int) (name : String) (spec : Json) : Except Raised (Dict × Dict × Int) :=
  require (NAME_RE name) ("action name '" ++ name ++ "' must be lower case letters, digits and _") >>= fun _ =>
  require (decide (name.toList.head? ≠ some '_' ∧ name ∉ ["setup", "teardown"]))
    ("action name '" ++ name ++ "' is reserved") >>= fun _ =>
  objectOf spec ("actions." ++ name ++ " must be an object") >>= fun d =>
  checkKeys rt d ACTION_KEYS ("actions." ++ name) >>= fun _ =>
  objectOf (Dict.getD d "args" (.obj [])) ("actions." ++ name ++ ".args must be an object") >>= fun args =>
  checkTimeout (Dict.getD d "timeout_s" (.int timeout)) ("actions." ++ name) >>= fun seconds =>
  .ok (d, args, seconds)

def parseAction (rt : Runtime) (timeout : Int) (name : String) (spec : Json) : Except Raised Action :=
  actionHead rt timeout name spec >>= fun head =>
  collect (parseArg rt ("actions." ++ name)) head.2.1 >>= fun args =>
  .ok ⟨helpOf rt head.1, head.2.2, args⟩

def parseParam (rt : Runtime) (name : String) (spec : Json) : Except Raised Field :=
  parseField rt name spec "params" PARAM_TYPES

/-- `parse_manifest` -/
def parseManifest (rt : Runtime) (data : Json) : Except Raised Manifest :=
  readHead rt data >>= fun head =>
  paramsOf head.dict >>= fun paramsIn =>
  collect (parseParam rt) paramsIn >>= fun params =>
  actionsOf head.dict >>= fun actionsIn =>
  collect (parseAction rt head.timeoutS) actionsIn >>= fun actions =>
  .ok ⟨head.type, head.version, Dict.get head.dict "lager_api",
    rt.str (Dict.getD head.dict "description" (.str "")), head.timeoutS, head.requirements, params, actions⟩

/-! ### Calling -/

/-- `raw[name]` where it is given and not `None`. -/
def given (raw : Dict) (name : String) : Option Json := (Dict.get? raw name).filter fun x => decide (x ≠ .null)

/-- The value of one field, `none` for a field that is left out. -/
def valueOf (rt : Runtime) (raw : Dict) (what : String) (entry : String × Field) : Except Raised (Option Json) :=
  match given raw entry.1 with
  | some x => (coerceValue rt x entry.2 (what ++ " '" ++ entry.1 ++ "'")).map some
  | none =>
    match entry.2.default with
    | some value => .ok (some value)
    | none =>
      if entry.2.required then .error (.manifestError ("missing required " ++ what ++ " '" ++ entry.1 ++ "'"))
      else .ok none

def put (out : Dict) (entry : String × Field) : Option Json → Dict
  | some value => Dict.set out entry.1 value
  | none => out

/-- `raw or {}` for what may be `None`. -/
def rawDict (raw : Json) (message : String) : Except Raised Dict :=
  match raw with
  | .null => .ok []
  | x => objectOf x message

/-- `_coerce_fields`, with the word for one of the fields. -/
def coerceFields (rt : Runtime) (fields : List (String × Field)) (raw : Json) (what : String) : Except Raised Dict :=
  rawDict raw (what ++ "s must be an object") >>= fun d =>
  require (unknownKeys d (fields.map Prod.fst)).isEmpty
    ("unknown " ++ what ++ "s: " ++ ", ".intercalate (sortedTexts (unknownKeys d (fields.map Prod.fst))) ++
      " (expected: " ++ (if fields = [] then "none" else ", ".intercalate (sortedTexts (fields.map Prod.fst))) ++
      ")") >>= fun _ =>
  fields.foldlM (fun out entry => valueOf rt d what entry >>= fun value => .ok (put out entry value)) []

/-- `coerce_args` -/
def coerceArgs (rt : Runtime) (m : Manifest) (action : String) (raw : Json) : Except Raised Dict :=
  match m.actions.lookup action with
  | some a => coerceFields rt a.args raw "arg"
  | none => .error (.keyError action)

/-! ### What both must keep to -/

/-- What Python takes for an identifier, of the characters that names have. -/
def Identifier (name : String) : Prop :=
  ∃ c rest, name.toList = c :: rest ∧ (c.isAlpha ∨ c = '_') ∧ ∀ d ∈ rest, d.isAlphanum ∨ d = '_'

/-- A manifest in its normal form. -/
structure Normal (rt : Runtime) (m : Manifest) : Prop where
  again : parseManifest rt (.obj m.toDict) = .ok m
  names : ∀ name ∈ m.names, Identifier name
  type : m.type ∉ RESERVED_TYPES

/-- A call is answered with the declared arguments, or refused. -/
structure Answered (rt : Runtime) (m : Manifest) (action : String) (raw : Json) : Prop where
  refused : ∀ e, coerceArgs rt m action raw = .error e →
    (∃ message, e = .manifestError message) ∨ (e = .keyError action ∧ m.actions.lookup action = none)
  declared : ∀ out, coerceArgs rt m action raw = .ok out → ∀ name v, Dict.get? out name = some v →
    ∃ a f, m.actions.lookup action = some a ∧ a.args.lookup name = some f ∧ Declared f v
  complete : ∀ out, coerceArgs rt m action raw = .ok out → ∀ a name f, m.actions.lookup action = some a →
    a.args.lookup name = some f → f.required = true ∨ f.default ≠ none → ∃ v, Dict.get? out name = some v

/-- A manifest and a call to one of its actions. -/
structure Lawful (rt : Runtime) (data : Json) (action : String) (raw : Json) : Prop where
  refused : ∀ e, parseManifest rt data = .error e → ∃ message, e = .manifestError message
  normal : ∀ m, parseManifest rt data = .ok m → Normal rt m
  answered : ∀ m, parseManifest rt data = .ok m → Answered rt m action raw

/-! ### Errors -/

/-- What fails is refused, or overflows, which it does under the condition. -/
structure Raises {α : Type} (P : Prop) (x : Except Raised α) : Prop where
  refused : ∀ e, x = .error e → (∃ message, e = .manifestError message) ∨ e = .overflowError
  overflow : x = .error .overflowError ↔ P

/-- Only refusals. -/
theorem raises_of_refused {α : Type} {x : Except Raised α} (h : ∀ e, x = .error e → ∃ message, e = .manifestError message) :
    Raises False x := by
  refine ⟨fun e he => Or.inl (h e he), fun he => ?_, False.elim⟩
  obtain ⟨message, hmessage⟩ := h _ he
  cases hmessage

theorem Raises.bind {α β : Type} {P : Prop} {Q : α → Prop} {x : Except Raised α} {f : α → Except Raised β}
    (hx : Raises P x) (hf : ∀ a, x = .ok a → Raises (Q a) (f a)) :
    Raises (P ∨ ∃ a, x = .ok a ∧ Q a) (x >>= f) := by
  constructor
  · intro e he
    rcases bind_eq_error_iff.mp he with h | ⟨a, ha, h⟩
    · exact hx.refused e h
    · exact (hf a ha).refused e h
  · rw [bind_eq_error_iff, hx.overflow]
    apply or_congr_right
    constructor
    · rintro ⟨a, ha, h⟩
      exact ⟨a, ha, (hf a ha).overflow.mp h⟩
    · rintro ⟨a, ha, h⟩
      exact ⟨a, ha, (hf a ha).overflow.mpr h⟩

theorem Raises.congr {α : Type} {P Q : Prop} {x : Except Raised α} (h : Raises P x) (hiff : P ↔ Q) : Raises Q x :=
  ⟨h.refused, h.overflow.trans hiff⟩

/-- A check in front of what may overflow. -/
theorem Raises.after {α β : Type} {Q : α → Prop} {x : Except Raised α} {f : α → Except Raised β} (hx : Raises False x)
    (hf : ∀ a, x = .ok a → Raises (Q a) (f a)) : Raises (∃ a, x = .ok a ∧ Q a) (x >>= f) :=
  (hx.bind hf).congr (by simp)

theorem raises_ok {α : Type} (a : α) : Raises False (.ok a : Except Raised α) :=
  raises_of_refused fun _ he => by cases he

theorem raises_require (cond : Bool) (message : String) : Raises False (require cond message) :=
  raises_of_refused fun _ he => ⟨message, require_error he⟩

theorem raises_objectOf (x : Json) (message : String) : Raises False (objectOf x message) :=
  raises_of_refused fun _ he => ⟨message, objectOf_error he⟩

/-- A chain of checks. -/
theorem Raises.chain {α β : Type} {x : Except Raised α} {f : α → Except Raised β} (hx : Raises False x)
    (hf : ∀ a, Raises False (f a)) : Raises False (x >>= f) :=
  (hx.after fun a _ => hf a).congr (by simp)

/-- A loop over items that may overflow. -/
theorem raises_foldlM {σ α β : Type} {P : α → Prop} {g : α → Except Raised β} {put : σ → α → β → σ} {s : σ} {xs : List α}
    (h : ∀ x, Raises (P x) (g x)) :
    Raises (FirstAt (fun x => ∃ b, g x = .ok b) P xs) (xs.foldlM (fun s x => g x >>= fun b => .ok (put s x b)) s) := by
  constructor
  · intro e he
    obtain ⟨-, x, -, -, -, hbad⟩ := foldlM_error_iff.mp he
    exact (h x).refused e hbad
  · rw [foldlM_error_iff]
    exact firstAt_congr (fun x => (h x).overflow) xs

theorem raises_collect {β : Type} {P : String × Json → Prop} {f : String → Json → Except Raised β} {d : Dict}
    (h : ∀ entry, Raises (P entry) (f entry.1 entry.2)) :
    Raises (FirstAt (fun entry => ∃ b, f entry.1 entry.2 = .ok b) P d) (collect f d) :=
  raises_foldlM h

theorem raises_parseField (rt : Runtime) (name : String) (spec : Json) (place : String) (allowed : List Kind) :
    Raises (FieldTooLarge rt name spec place allowed) (parseField rt name spec place allowed) :=
  ⟨fun _ he => (parseField_error he).imp_right And.left, parseField_overflow_iff⟩

theorem raises_checkTimeout (value : Json) (place : String) : Raises False (checkTimeout value place) := by
  apply raises_of_refused
  intro e he
  unfold checkTimeout at he
  split at he
  · split_ifs at he
    exact ⟨_, (Except.error.inj he).symm⟩
  · exact ⟨_, (Except.error.inj he).symm⟩

theorem raises_typeOf (d : Dict) : Raises False (typeOf d) := by
  apply raises_of_refused
  intro e he
  unfold typeOf at he
  split at he
  · split_ifs at he
    exact ⟨_, (Except.error.inj he).symm⟩
  · exact ⟨_, (Except.error.inj he).symm⟩

theorem raises_versionOf (d : Dict) : Raises False (versionOf d) := by
  apply raises_of_refused
  intro e he
  unfold versionOf at he
  split at he
  · split_ifs at he
    exact ⟨_, (Except.error.inj he).symm⟩
  · exact ⟨_, (Except.error.inj he).symm⟩

theorem raises_requirementsOf (d : Dict) : Raises False (requirementsOf d) := by
  apply raises_of_refused
  intro e he
  unfold requirementsOf at he
  split at he
  · cases he
  · split_ifs at he
    exact ⟨_, (Except.error.inj he).symm⟩
  · exact ⟨_, (Except.error.inj he).symm⟩

theorem raises_actionsOf (d : Dict) : Raises False (actionsOf d) := by
  apply raises_of_refused
  intro e he
  unfold actionsOf at he
  split at he
  · cases he
  · exact ⟨_, (Except.error.inj he).symm⟩

theorem raises_readHead (rt : Runtime) (data : Json) : Raises False (readHead rt data) := by
  apply (raises_objectOf _ _).chain
  intro d
  apply (raises_require _ _).chain
  intro _
  apply (raises_typeOf d).chain
  intro dtype
  apply (raises_require _ _).chain
  intro _
  apply (raises_versionOf d).chain
  intro version
  apply (raises_require _ _).chain
  intro _
  apply (raises_checkTimeout _ _).chain
  intro timeout
  apply (raises_requirementsOf d).chain
  intro requirements
  exact raises_ok _

theorem raises_actionHead (rt : Runtime) (timeout : Int) (name : String) (spec : Json) :
    Raises False (actionHead rt timeout name spec) := by
  apply (raises_require _ _).chain
  intro _
  apply (raises_require _ _).chain
  intro _
  apply (raises_objectOf _ _).chain
  intro d
  apply (raises_require _ _).chain
  intro _
  apply (raises_objectOf _ _).chain
  intro args
  apply (raises_checkTimeout _ _).chain
  intro seconds
  exact raises_ok _

/-! ### Manifests that overflow -/

def ParamTooLarge (rt : Runtime) (entry : String × Json) : Prop := FieldTooLarge rt entry.1 entry.2 "params" PARAM_TYPES

def ArgTooLarge (rt : Runtime) (place : String) (entry : String × Json) : Prop :=
  entry.1 ∉ RESERVED_ARG_NAMES ∧ FieldTooLarge rt entry.1 entry.2 (place ++ ".args") SCALAR_TYPES

/-- The first thing wrong with the action is an argument with an integer that is too large. -/
def ActionTooLarge (rt : Runtime) (timeout : Int) (entry : String × Json) : Prop :=
  ∃ head, actionHead rt timeout entry.1 entry.2 = .ok head ∧
    FirstAt (fun arg => ∃ f, parseArg rt ("actions." ++ entry.1) arg.1 arg.2 = .ok f)
      (ArgTooLarge rt ("actions." ++ entry.1)) head.2.1

/-- The first thing wrong with the manifest is an integer that is too large, in a parameter or an argument. -/
def ManifestTooLarge (rt : Runtime) (data : Json) : Prop :=
  ∃ head, readHead rt data = .ok head ∧ ∃ paramsIn, paramsOf head.dict = .ok paramsIn ∧
    (FirstAt (fun entry => ∃ f, parseParam rt entry.1 entry.2 = .ok f) (ParamTooLarge rt) paramsIn ∨
      ∃ params, collect (parseParam rt) paramsIn = .ok params ∧ ∃ actionsIn, actionsOf head.dict = .ok actionsIn ∧
        FirstAt (fun entry => ∃ a, parseAction rt head.timeoutS entry.1 entry.2 = .ok a)
          (ActionTooLarge rt head.timeoutS) actionsIn)

theorem raises_parseArg (rt : Runtime) (place : String) (entry : String × Json) :
    Raises (ArgTooLarge rt place entry) (parseArg rt place entry.1 entry.2) := by
  refine ((raises_require _ _).after fun _ _ => raises_parseField _ _ _ _ _).congr ?_
  constructor
  · rintro ⟨_, hrequire, hlarge⟩
    exact ⟨of_decide_eq_true (require_ok hrequire), hlarge⟩
  · rintro ⟨hname, hlarge⟩
    refine ⟨(), ?_, hlarge⟩
    rw [decide_eq_true hname, require_true]

theorem raises_parseAction (rt : Runtime) (timeout : Int) (entry : String × Json) :
    Raises (ActionTooLarge rt timeout entry) (parseAction rt timeout entry.1 entry.2) := by
  apply (raises_actionHead _ _ _ _).after
  intro head _
  exact ((raises_collect fun arg => raises_parseArg rt _ arg).bind fun args _ => raises_ok _).congr (by simp)

/-- **What parsing a manifest raises.** -/
theorem raises_parseManifest (rt : Runtime) (data : Json) :
    Raises (ManifestTooLarge rt data) (parseManifest rt data) := by
  apply (raises_readHead rt data).after
  intro head _
  apply (raises_objectOf _ _).after
  intro paramsIn _
  apply (raises_collect fun entry => raises_parseField _ _ _ _ _).bind
  intro params _
  apply (raises_actionsOf _).after
  intro actionsIn _
  exact ((raises_collect fun entry => raises_parseAction rt _ entry).bind fun actions _ => raises_ok _).congr (by simp)

end Lager.Drivers.Schema
