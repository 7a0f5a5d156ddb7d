import Lager.Lib.Fold
import Lager.Py.Number
import Mathlib

/-!
# Fields of a driver manifest

`_parse_field` and `coerce_value` of `drivers/manifest.py`: what a manifest says of one parameter or argument, brought
to a normal form, and a value that is brought to the type of its field. A field's default is such a value. What is
normal is parsed to itself (`parseField_again`), and a value that was accepted is accepted as it is.

An integer that does not fit into a double makes `math.isfinite` and `float` raise `OverflowError`, which nothing
catches. `str` of what is no text, `repr`, `str.lower` and `float` of a text are given.
-/

namespace Lager.Drivers.Schema

open Lager.Lib Lager.Py

inductive Raised where
  | manifestError (message : String)
  | keyError (key : String)
  | overflowError
  deriving DecidableEq

structure Runtime where
  text : Json → String
  repr : Json → String
  lower : List Char → List Char
  floatOfText : String → Option PyFloat

def Runtime.str (rt : Runtime) : Json → String
  | .str s => s
  | x => rt.text x

/-- `_require` -/
def require (cond : Bool) (message : String) : Except Raised Unit :=
  if cond then .ok () else .error (.manifestError message)

/-! ### What a field says -/

inductive Kind where
  | str
  | int
  | float
  | bool
  | choice
  | net
  deriving DecidableEq

def Kind.name : Kind → String
  | str => "str"
  | int => "int"
  | float => "float"
  | bool => "bool"
  | choice => "choice"
  | net => "net"

def SCALAR_TYPES : List Kind := [.str, .int, .float, .bool, .choice]

def PARAM_TYPES : List Kind := SCALAR_TYPES ++ [.net]

/-- A param or arg spec in its normal form. -/
structure Field where
  kind : Kind
  help : String
  required : Bool
  role : Option String := none
  choices : Option (List String) := none
  min : Option Json := none
  max : Option Json := none
  default : Option Json := none
  deriving DecidableEq

def optional (key : String) : Option Json → Dict
  | some x => [(key, x)]
  | none => []

def Field.toDict (f : Field) : Dict :=
  [("type", .str f.kind.name), ("help", .str f.help), ("required", .bool f.required)] ++
    optional "role" (f.role.map .str) ++ optional "choices" (f.choices.map fun cs => .arr (cs.map .str)) ++
    optional "min" f.min ++ optional "max" f.max ++ optional "default" f.default

/-! ### Values -/

/-- The value of a finite number. -/
def num : Json → ℚ
  | .int n => n
  | .float (.fin q) => q
  | _ => 0

def TRUE : List (List Char) := [['1'], ['t', 'r', 'u', 'e'], ['y', 'e', 's'], ['o', 'n']]

def FALSE : List (List Char) := [['0'], ['f', 'a', 'l', 's', 'e'], ['n', 'o'], ['o', 'f', 'f']]

/-- `isinstance(raw, float) and not raw.is_integer()` -/
def notWhole : Json → Bool
  | .float (.fin q) => q.den != 1
  | .float _ => true
  | _ => false

/-- `float(raw)` of what is no `bool`. -/
def toFloat (rt : Runtime) : Json → Except PyErr PyFloat
  | .int n => floatOfInt n
  | .float x => .ok x
  | .str s =>
    match rt.floatOfText s with
    | some x => .ok x
    | none => .error .valueError
  | .null => .error .typeError
  | .bool _ => .error .valueError
  | .arr _ => .error .typeError
  | .obj _ => .error .typeError

def finite : PyFloat → Except PyErr Json
  | .fin q => .ok (.float (.fin q))
  | _ => .error .valueError

def isBool : Json → Bool
  | .bool _ => true
  | _ => false

attribute [local instance] lawfulBEq_text in
/-- The conversions in the `try` of `coerce_value`. -/
def convert (rt : Runtime) (kind : Kind) (raw : Json) : Except PyErr Json :=
  match kind with
  | .bool =>
    match raw with
    | .bool b => .ok (.bool b)
    | .str s =>
      let word := rt.lower (strip s.toList)
      if word ∈ TRUE ++ FALSE then .ok (.bool (decide (word ∈ TRUE))) else .error .valueError
    | _ => .error .valueError
  | .int => if isBool raw || notWhole raw then .error .valueError else (intOf raw).map .int
  | .float => (toFloat rt raw).bind finite
  | .str | .choice | .net =>
    match raw with
    | .str s => .ok (.str s)
    | .int n => .ok (.str (rt.str (.int n)))
    | .float x => .ok (.str (rt.str (.float x)))
    | _ => .error .valueError

def describe : Kind → String
  | .bool => "true or false"
  | .int => "an integer"
  | .float => "a number"
  | .choice => "one of the listed choices"
  | .net => "a net name"
  | .str => "text"

/-- `except (TypeError, ValueError)` -/
def catchBad (result : Except PyErr Json) (message : String) : Except Raised Json :=
  match result with
  | .ok value => .ok value
  | .error .overflowError => .error .overflowError
  | .error _ => .error (.manifestError message)

def chosen (f : Field) (value : Json) : Bool :=
  decide (f.kind ≠ .choice) || (f.choices.getD []).any fun c => decide (value = .str c)

def aboveMin (f : Field) (value : Json) : Bool := f.min.all fun bound => decide (¬num value < num bound)

def belowMax (f : Field) (value : Json) : Bool := f.max.all fun bound => decide (¬num bound < num value)

def coerceValue (rt : Runtime) (raw : Json) (f : Field) (label : String) : Except Raised Json :=
  catchBad (convert rt f.kind raw) (label ++ " must be " ++ describe f.kind ++ ", got " ++ rt.repr raw) >>= fun value =>
    require (chosen f value) (label ++ " must be one of " ++ ", ".intercalate (f.choices.getD []) ++ ", got " ++
      rt.repr value) >>= fun _ =>
    require (aboveMin f value) (label ++ " must be at least " ++ rt.str (f.min.getD .null) ++ ", got " ++
      rt.str value) >>= fun _ =>
    require (belowMax f value) (label ++ " must be at most " ++ rt.str (f.max.getD .null) ++ ", got " ++
      rt.str value) >>= fun _ =>
    .ok value

/-! ### Parsing a field -/

/-- A lower-case letter, and at most 31 letters, digits and underscores. -/
def nameChars : List Char → Bool
  | c :: rest => c.isLower && decide (rest.length ≤ 31) && rest.all fun c => c.isLower || c.isDigit || c == '_'
  | [] => false

/-- `NAME_RE.match`; its `$` also matches before a line break at the end. -/
def NAME_RE (name : String) : Bool :=
  nameChars name.toList || (name.toList.getLast? == some '\n' && nameChars name.toList.dropLast)

def FIELD_KEYS : List String := ["type", "help", "required", "default", "min", "max", "choices", "role"]

def objectOf (x : Json) (message : String) : Except Raised Dict :=
  match x with
  | .obj d => .ok d
  | _ => .error (.manifestError message)

def sortedTexts (texts : List String) : List String := texts.mergeSort fun a b => !decide (b < a)

def unknownKeys (d : Dict) (known : List String) : List String := ((d.map Prod.fst).filter (· ∉ known)).dedup

def checkKeys (rt : Runtime) (d : Dict) (known : List String) (label : String) : Except Raised Unit :=
  require (unknownKeys d known).isEmpty
    (label ++ ": unknown keys " ++ rt.repr (.arr ((sortedTexts (unknownKeys d known)).map .str)))

def kindOf (d : Dict) (allowed : List Kind) (label : String) : Except Raised Kind :=
  match allowed.find? fun k => decide (Dict.getD d "type" (.str "str") = .str k.name) with
  | some kind => .ok kind
  | none => .error (.manifestError (label ++ ": type must be one of " ++ ", ".intercalate (allowed.map Kind.name)))

/-- The checks up to the type. -/
def fieldHead (rt : Runtime) (name : String) (spec : Json) (place : String) (allowed : List Kind) :
    Except Raised (Dict × Kind) :=
  require (NAME_RE name) (place ++ ": name '" ++ name ++ "' must be lower case letters, digits and _ " ++
    "(start with a letter, at most 32)") >>= fun _ =>
  objectOf spec (place ++ "." ++ name ++ " must be an object") >>= fun d =>
  checkKeys rt d FIELD_KEYS (place ++ "." ++ name) >>= fun _ =>
  kindOf d allowed (place ++ "." ++ name) >>= fun kind =>
  .ok (d, kind)

def isText : Json → Option String
  | .str s => some s
  | _ => none

def roleOf (d : Dict) (label : String) : Except Raised String :=
  match Dict.get d "role" with
  | .str role =>
    if role = "" then .error (.manifestError (label ++ ": a 'net' param must name the role it needs")) else .ok role
  | _ => .error (.manifestError (label ++ ": a 'net' param must name the role it needs"))

def choicesOf (d : Dict) (kind : Kind) (label : String) : Except Raised (Option (List String)) :=
  if kind = .choice then
    match Dict.get d "choices" with
    | .arr xs =>
      match xs.mapM isText with
      | some (c :: cs) => .ok (some (c :: cs))
      | _ => .error (.manifestError (label ++ ": a 'choice' needs a non-empty list of strings"))
    | _ => .error (.manifestError (label ++ ": a 'choice' needs a non-empty list of strings"))
  else .ok none

/-- `_number`: `math.isfinite` makes a double of an integer. -/
def number : Json → Except Raised Bool
  | .int n =>
    match floatOfInt n with
    | .ok _ => .ok true
    | .error _ => .error .overflowError
  | .float (.fin _) => .ok true
  | _ => .ok false

def Kind.numeric (kind : Kind) : Bool := decide (kind = .int ∨ kind = .float)

def boundOf (d : Dict) (kind : Kind) (key label : String) : Except Raised (Option Json) :=
  match Dict.get? d key with
  | none => .ok none
  | some x =>
    (if kind.numeric then number x else .ok false) >>= fun fine =>
      require fine (label ++ ": " ++ key ++ " is only for int and float, and must be a number") >>= fun _ =>
      .ok (some x)

def ordered (min max : Option Json) : Bool := min.all fun a => max.all fun b => decide (num a ≤ num b)

def defaultOf (rt : Runtime) (d : Dict) (f : Field) (label : String) : Except Raised (Option Json) :=
  match Dict.get? d "default" with
  | none => .ok none
  | some raw => (coerceValue rt raw f label).map some

def helpOf (rt : Runtime) (d : Dict) : String := rt.str (Dict.getD d "help" (.str ""))

def requiredOf (d : Dict) : Bool := (Dict.getD d "required" (.bool false)).truthy

/-- The checks of what a field other than a net says. -/
def parseScalar (rt : Runtime) (d : Dict) (kind : Kind) (label : String) : Except Raised Field :=
  choicesOf d kind label >>= fun choices =>
  boundOf d kind "min" label >>= fun min =>
  boundOf d kind "max" label >>= fun max =>
  require (ordered min max) (label ++ ": min is above max") >>= fun _ =>
  defaultOf rt d ⟨kind, helpOf rt d, requiredOf d, none, choices, min, max, none⟩ label >>= fun default =>
  .ok ⟨kind, helpOf rt d, requiredOf d, none, choices, min, max, default⟩

/-- `_parse_field` -/
def parseField (rt : Runtime) (name : String) (spec : Json) (place : String) (allowed : List Kind) :
    Except Raised Field :=
  fieldHead rt name spec place allowed >>= fun head =>
    if head.2 = .net then
      roleOf head.1 (place ++ "." ++ name) >>= fun role =>
      .ok ⟨.net, helpOf rt head.1, requiredOf head.1, some role, none, none, none, none⟩
    else parseScalar rt head.1 head.2 (place ++ "." ++ name)

/-! ### Checks -/

@[simp] theorem require_true (message : String) : require true message = .ok () := rfl

theorem require_ok {cond : Bool} {message : String} {u : Unit} (h : require cond message = .ok u) : cond = true := by
  cases cond with
  | true => rfl
  | false => cases h

theorem require_error {cond : Bool} {message : String} {e : Raised} (h : require cond message = .error e) :
    e = .manifestError message := by
  cases cond with
  | true => cases h
  | false => exact (Except.error.inj h).symm

theorem objectOf_ok {x : Json} {message : String} {d : Dict} (h : objectOf x message = .ok d) : x = .obj d := by
  cases x with
  | obj d' => rw [Except.ok.inj h]
  | null => cases h
  | bool b => cases h
  | int n => cases h
  | float x => cases h
  | str s => cases h
  | arr xs => cases h

theorem objectOf_error {x : Json} {message : String} {e : Raised} (h : objectOf x message = .error e) :
    e = .manifestError message := by
  cases x with
  | obj d => cases h
  | null => exact (Except.error.inj h).symm
  | bool b => exact (Except.error.inj h).symm
  | int n => exact (Except.error.inj h).symm
  | float x => exact (Except.error.inj h).symm
  | str s => exact (Except.error.inj h).symm
  | arr xs => exact (Except.error.inj h).symm

/-! ### Integers that do not fit -/

/-- An integer that `float` refuses. -/
def TooLarge (x : Json) : Prop := ∃ n, x = .int n ∧ floatOfInt n = .error .overflowError

theorem floatOfInt_error {n : Int} {e : PyErr} (h : floatOfInt n = .error e) : e = .overflowError := by
  unfold floatOfInt at h
  dsimp only at h
  split_ifs at h
  exact (Except.error.inj h).symm

theorem toFloat_overflow_iff {rt : Runtime} {raw : Json} :
    toFloat rt raw = .error .overflowError ↔ TooLarge raw := by
  cases raw with
  | int n => simp [toFloat, TooLarge]
  | str s =>
    have hne : toFloat rt (.str s) ≠ .error .overflowError := by
      unfold toFloat
      dsimp only
      split <;> simp
    simp [hne, TooLarge]
  | null => simp [toFloat, TooLarge]
  | bool b => simp [toFloat, TooLarge]
  | float x => simp [toFloat, TooLarge]
  | arr xs => simp [toFloat, TooLarge]
  | obj d => simp [toFloat, TooLarge]

theorem finite_ne_overflow (x : PyFloat) : finite x ≠ .error .overflowError := by
  cases x <;> simp [finite]

theorem intOf_ne_overflow {raw : Json} (h : notWhole raw = false) : intOf raw ≠ .error .overflowError := by
  cases raw with
  | float x =>
    cases x with
    | fin q => simp [intOf]
    | posInf => cases h
    | negInf => cases h
    | nan => cases h
  | str s =>
    unfold intOf
    dsimp only
    split <;> simp
  | null => simp [intOf]
  | bool b => simp [intOf]
  | int n => simp [intOf]
  | arr xs => simp [intOf]
  | obj d => simp [intOf]

theorem map_eq_error {ε α β : Type} {x : Except ε α} {f : α → β} {e : ε} : x.map f = .error e ↔ x = .error e := by
  cases x with
  | error e' => exact ⟨fun h => congrArg _ (Except.error.inj h), fun h => congrArg _ (Except.error.inj h)⟩
  | ok a => simp [Except.map]

/-- Only `float` makes a double. -/
theorem convert_overflow_iff {rt : Runtime} {kind : Kind} {raw : Json} :
    convert rt kind raw = .error .overflowError ↔ kind = .float ∧ TooLarge raw := by
  have htext (k : Kind) (hk : k = .str ∨ k = .choice ∨ k = .net) : convert rt k raw ≠ .error .overflowError := by
    rcases hk with rfl | rfl | rfl
    · cases raw <;> simp [convert]
    · cases raw <;> simp [convert]
    · cases raw <;> simp [convert]
  cases kind with
  | float =>
    have hbind : convert rt .float raw = toFloat rt raw >>= finite := rfl
    rw [hbind, bind_eq_error_iff, toFloat_overflow_iff]
    refine ⟨?_, fun h => Or.inl h.2⟩
    rintro (h | ⟨x, -, hx⟩)
    · exact ⟨rfl, h⟩
    · exact absurd hx (finite_ne_overflow x)
  | int =>
    have hne : convert rt .int raw ≠ .error .overflowError := by
      unfold convert
      dsimp only
      split_ifs with hbad
      · simp
      · rw [Ne, map_eq_error]
        rw [Bool.not_eq_true, Bool.or_eq_false_iff] at hbad
        exact intOf_ne_overflow hbad.2
    simp [hne]
  | bool =>
    have hne : convert rt .bool raw ≠ .error .overflowError := by
      cases raw with
      | str s =>
        unfold convert
        dsimp only
        split_ifs <;> simp
      | null => simp [convert]
      | bool b => simp [convert]
      | int n => simp [convert]
      | float x => simp [convert]
      | arr xs => simp [convert]
      | obj d => simp [convert]
    simp [hne]
  | str => simp [htext .str (Or.inl rfl)]
  | choice => simp [htext .choice (Or.inr (Or.inl rfl))]
  | net => simp [htext .net (Or.inr (Or.inr rfl))]

theorem catchBad_error {result : Except PyErr Json} {message : String} {e : Raised}
    (h : catchBad result message = .error e) :
    e = .manifestError message ∨ (e = .overflowError ∧ result = .error .overflowError) := by
  unfold catchBad at h
  split at h
  · cases h
  · exact Or.inr ⟨(Except.error.inj h).symm, rfl⟩
  · exact Or.inl (Except.error.inj h).symm

theorem coerceValue_error {rt : Runtime} {raw : Json} {f : Field} {label : String} {e : Raised}
    (h : coerceValue rt raw f label = .error e) :
    (∃ message, e = .manifestError message) ∨ (e = .overflowError ∧ f.kind = .float ∧ TooLarge raw) := by
  rcases bind_eq_error_iff.mp h with h | ⟨value, -, h⟩
  · rcases catchBad_error h with h | ⟨h, hconvert⟩
    · exact Or.inl ⟨_, h⟩
    · exact Or.inr ⟨h, convert_overflow_iff.mp hconvert⟩
  left
  rcases bind_eq_error_iff.mp h with h | ⟨-, -, h⟩
  · exact ⟨_, require_error h⟩
  rcases bind_eq_error_iff.mp h with h | ⟨-, -, h⟩
  · exact ⟨_, require_error h⟩
  rcases bind_eq_error_iff.mp h with h | ⟨-, -, h⟩
  · exact ⟨_, require_error h⟩
  · cases h

theorem coerceValue_overflow_iff {rt : Runtime} {raw : Json} {f : Field} {label : String} :
    coerceValue rt raw f label = .error .overflowError ↔ f.kind = .float ∧ TooLarge raw := by
  constructor
  · intro h
    rcases coerceValue_error h with ⟨message, h⟩ | ⟨-, h⟩
    · cases h
    · exact h
  · intro h
    rw [coerceValue, convert_overflow_iff.mpr h]
    rfl

/-- The value under the key is such an integer. -/
def TooLargeAt (d : Dict) (key : String) : Prop := ∃ x, Dict.get? d key = some x ∧ TooLarge x

/-- The first thing wrong with the field is an integer that is too large: a bound, or the default of a `float`. -/
def ScalarTooLarge (d : Dict) (kind : Kind) (label : String) : Prop :=
  kind.numeric = true ∧ (TooLargeAt d "min" ∨ ∃ min, boundOf d kind "min" label = .ok min ∧
    (TooLargeAt d "max" ∨ ∃ max, boundOf d kind "max" label = .ok max ∧ ordered min max = true ∧ kind = .float ∧
      TooLargeAt d "default"))

def FieldTooLarge (rt : Runtime) (name : String) (spec : Json) (place : String) (allowed : List Kind) : Prop :=
  ∃ d kind, fieldHead rt name spec place allowed = .ok (d, kind) ∧ ScalarTooLarge d kind (place ++ "." ++ name)

theorem number_overflow_iff {x : Json} {e : Raised} : number x = .error e ↔ e = .overflowError ∧ TooLarge x := by
  have hother {fine : Bool} (hok : number x = .ok fine) (hx : ∀ n, x ≠ .int n) :
      number x = .error e ↔ e = .overflowError ∧ TooLarge x := by
    rw [hok]
    constructor
    · intro h
      cases h
    · rintro ⟨-, n, hn, -⟩
      exact absurd hn (hx n)
  cases x with
  | int n =>
    unfold number TooLarge
    dsimp only
    cases hfloat : floatOfInt n with
    | ok x => simp [hfloat]
    | error e' =>
      rw [floatOfInt_error hfloat] at hfloat
      simp [hfloat, eq_comm]
  | float x =>
    cases x with
    | fin q => exact @hother true rfl fun n hn => by cases hn
    | posInf => exact @hother false rfl fun n hn => by cases hn
    | negInf => exact @hother false rfl fun n hn => by cases hn
    | nan => exact @hother false rfl fun n hn => by cases hn
  | null => exact @hother false rfl fun n hn => by cases hn
  | bool b => exact @hother false rfl fun n hn => by cases hn
  | str s => exact @hother false rfl fun n hn => by cases hn
  | arr xs => exact @hother false rfl fun n hn => by cases hn
  | obj d => exact @hother false rfl fun n hn => by cases hn

theorem boundOf_error {d : Dict} {kind : Kind} {key label : String} {e : Raised}
    (h : boundOf d kind key label = .error e) :
    (∃ message, e = .manifestError message) ∨ (e = .overflowError ∧ kind.numeric = true ∧ TooLargeAt d key) := by
  unfold boundOf at h
  split at h
  · cases h
  · rename_i x hx
    rcases bind_eq_error_iff.mp h with h | ⟨fine, -, h⟩
    · split_ifs at h with hkind
      obtain ⟨he, hlarge⟩ := number_overflow_iff.mp h
      exact Or.inr ⟨he, hkind, x, hx, hlarge⟩
    · left
      rcases bind_eq_error_iff.mp h with h | ⟨-, -, h⟩
      · exact ⟨_, require_error h⟩
      · cases h

theorem boundOf_overflow {d : Dict} {kind : Kind} {key : String} (label : String) (hkind : kind.numeric = true)
    (h : TooLargeAt d key) : boundOf d kind key label = .error .overflowError := by
  obtain ⟨x, hx, hlarge⟩ := h
  unfold boundOf
  rw [hx, hkind]
  dsimp only
  rw [if_pos rfl, number_overflow_iff.mpr ⟨rfl, hlarge⟩]
  rfl

theorem kindOf_error {d : Dict} {allowed : List Kind} {label : String} {e : Raised}
    (h : kindOf d allowed label = .error e) : ∃ message, e = .manifestError message := by
  unfold kindOf at h
  split at h
  · cases h
  · exact ⟨_, (Except.error.inj h).symm⟩

theorem fieldHead_error {rt : Runtime} {name : String} {spec : Json} {place : String} {allowed : List Kind} {e : Raised}
    (h : fieldHead rt name spec place allowed = .error e) : ∃ message, e = .manifestError message := by
  rcases bind_eq_error_iff.mp h with h | ⟨-, -, h⟩
  · exact ⟨_, require_error h⟩
  rcases bind_eq_error_iff.mp h with h | ⟨d, -, h⟩
  · exact ⟨_, objectOf_error h⟩
  rcases bind_eq_error_iff.mp h with h | ⟨-, -, h⟩
  · exact ⟨_, require_error h⟩
  rcases bind_eq_error_iff.mp h with h | ⟨kind, -, h⟩
  · exact kindOf_error h
  · cases h

theorem choicesOf_error {d : Dict} {kind : Kind} {label : String} {e : Raised}
    (h : choicesOf d kind label = .error e) : ∃ message, e = .manifestError message := by
  unfold choicesOf at h
  split at h
  · split at h
    · split at h
      · cases h
      · exact ⟨_, (Except.error.inj h).symm⟩
    · exact ⟨_, (Except.error.inj h).symm⟩
  · cases h

theorem roleOf_error {d : Dict} {label : String} {e : Raised} (h : roleOf d label = .error e) :
    ∃ message, e = .manifestError message := by
  unfold roleOf at h
  split at h
  · split at h
    · exact ⟨_, (Except.error.inj h).symm⟩
    · cases h
  · exact ⟨_, (Except.error.inj h).symm⟩

theorem defaultOf_error {rt : Runtime} {d : Dict} {f : Field} {label : String} {e : Raised}
    (h : defaultOf rt d f label = .error e) :
    (∃ message, e = .manifestError message) ∨ (e = .overflowError ∧ f.kind = .float ∧ TooLargeAt d "default") := by
  unfold defaultOf at h
  split at h
  · cases h
  · rename_i raw hraw
    rcases coerceValue_error (map_eq_error.mp h) with h | ⟨he, hkind, hlarge⟩
    · exact Or.inl h
    · exact Or.inr ⟨he, hkind, raw, hraw, hlarge⟩

theorem parseScalar_error {rt : Runtime} {d : Dict} {kind : Kind} {label : String} {e : Raised}
    (h : parseScalar rt d kind label = .error e) :
    (∃ message, e = .manifestError message) ∨ (e = .overflowError ∧ ScalarTooLarge d kind label) := by
  rcases bind_eq_error_iff.mp h with h | ⟨choices, -, h⟩
  · exact Or.inl (choicesOf_error h)
  rcases bind_eq_error_iff.mp h with h | ⟨min, hmin, h⟩
  · rcases boundOf_error h with h | ⟨he, hkind, hlarge⟩
    · exact Or.inl h
    · exact Or.inr ⟨he, hkind, Or.inl hlarge⟩
  rcases bind_eq_error_iff.mp h with h | ⟨max, hmax, h⟩
  · rcases boundOf_error h with h | ⟨he, hkind, hlarge⟩
    · exact Or.inl h
    · exact Or.inr ⟨he, hkind, Or.inr ⟨min, hmin, Or.inl hlarge⟩⟩
  rcases bind_eq_error_iff.mp h with h | ⟨_, hordered, h⟩
  · exact Or.inl ⟨_, require_error h⟩
  rcases bind_eq_error_iff.mp h with h | ⟨default, -, h⟩
  · rcases defaultOf_error h with h | ⟨he, hkind, hlarge⟩
    · exact Or.inl h
    · have hfloat : kind = .float := hkind
      have hnumeric : kind.numeric = true := by
        rw [hfloat]
        rfl
      exact Or.inr ⟨he, hnumeric, Or.inr ⟨min, hmin, Or.inr ⟨max, hmax, require_ok hordered, hfloat, hlarge⟩⟩⟩
  · cases h

theorem parseScalar_overflow {rt : Runtime} {d : Dict} {kind : Kind} {label : String}
    (h : ScalarTooLarge d kind label) : parseScalar rt d kind label = .error .overflowError := by
  obtain ⟨hkind, h⟩ := h
  have hchoices : choicesOf d kind label = .ok none := by
    apply if_neg
    rintro rfl
    cases hkind
  rw [parseScalar, hchoices, ok_bind]
  rcases h with hmin | ⟨min, hmin, hmax | ⟨max, hmax, hordered, hfloat, raw, hraw, hlarge⟩⟩
  · rw [boundOf_overflow label hkind hmin]
    rfl
  · rw [hmin, ok_bind, boundOf_overflow label hkind hmax]
    rfl
  · rw [hmin, ok_bind, hmax, ok_bind, hordered, require_true, ok_bind, defaultOf, hraw]
    dsimp only
    rw [coerceValue_overflow_iff.mpr ⟨hfloat, hlarge⟩]
    rfl

theorem parseField_error {rt : Runtime} {name : String} {spec : Json} {place : String} {allowed : List Kind}
    {e : Raised} (h : parseField rt name spec place allowed = .error e) :
    (∃ message, e = .manifestError message) ∨ (e = .overflowError ∧ FieldTooLarge rt name spec place allowed) := by
  rcases bind_eq_error_iff.mp h with h | ⟨⟨d, kind⟩, hhead, h⟩
  · exact Or.inl (fieldHead_error h)
  dsimp only at h
  split_ifs at h
  · rcases bind_eq_error_iff.mp h with h | ⟨role, -, h⟩
    · exact Or.inl (roleOf_error h)
    · cases h
  · exact (parseScalar_error h).imp_right fun ⟨he, hlarge⟩ => ⟨he, d, kind, hhead, hlarge⟩

/-- **When parsing a field overflows.** -/
theorem parseField_overflow_iff {rt : Runtime} {name : String} {spec : Json} {place : String} {allowed : List Kind} :
    parseField rt name spec place allowed = .error .overflowError ↔ FieldTooLarge rt name spec place allowed := by
  constructor
  · intro h
    rcases parseField_error h with ⟨message, h⟩ | ⟨-, h⟩
    · cases h
    · exact h
  · rintro ⟨d, kind, hhead, hlarge⟩
    have hnet : kind ≠ .net := by
      rintro rfl
      cases hlarge.1
    rw [parseField, hhead, ok_bind]
    dsimp only
    rw [if_neg hnet]
    exact parseScalar_overflow hlarge

/-! ### Values of a field -/

def HasKind : Kind → Json → Prop
  | .bool, v => ∃ b, v = .bool b
  | .int, v => ∃ n, v = .int n
  | .float, v => ∃ q, v = .float (.fin q)
  | .str, v => ∃ s, v = .str s
  | .choice, v => ∃ s, v = .str s
  | .net, v => ∃ s, v = .str s

/-- The value has the declared type and lies within the choices and the bounds. -/
structure Declared (f : Field) (v : Json) : Prop where
  typed : HasKind f.kind v
  chosen : f.kind = .choice → ∃ choices, f.choices = some choices ∧ ∃ c ∈ choices, v = .str c
  above : ∀ bound, f.min = some bound → num bound ≤ num v
  below : ∀ bound, f.max = some bound → num v ≤ num bound

theorem convert_text {rt : Runtime} {kind : Kind} {raw v : Json} (hkind : kind = .str ∨ kind = .choice ∨ kind = .net)
    (h : convert rt kind raw = .ok v) : ∃ s, v = .str s := by
  have hraw : convert rt .str raw = .ok v := by
    rcases hkind with rfl | rfl | rfl
    · exact h
    · exact h
    · exact h
  cases raw with
  | str s => exact ⟨s, (Except.ok.inj hraw).symm⟩
  | int n => exact ⟨_, (Except.ok.inj hraw).symm⟩
  | float x => exact ⟨_, (Except.ok.inj hraw).symm⟩
  | null => cases hraw
  | bool b => cases hraw
  | arr xs => cases hraw
  | obj d => cases hraw

theorem convert_typed {rt : Runtime} {kind : Kind} {raw v : Json} (h : convert rt kind raw = .ok v) :
    HasKind kind v := by
  cases kind with
  | bool =>
    cases raw with
    | bool b => exact ⟨b, (Except.ok.inj h).symm⟩
    | str s =>
      unfold convert at h
      dsimp only at h
      split_ifs at h
      exact ⟨_, (Except.ok.inj h).symm⟩
    | null => cases h
    | int n => cases h
    | float x => cases h
    | arr xs => cases h
    | obj d => cases h
  | int =>
    unfold convert at h
    dsimp only at h
    split_ifs at h
    cases hint : intOf raw with
    | error e =>
      rw [hint] at h
      cases h
    | ok n =>
      rw [hint] at h
      exact ⟨n, (Except.ok.inj h).symm⟩
  | float =>
    obtain ⟨x, -, hx⟩ := bind_eq_ok h
    cases x with
    | fin q => exact ⟨q, (Except.ok.inj hx).symm⟩
    | posInf => cases hx
    | negInf => cases hx
    | nan => cases hx
  | str => exact convert_text (Or.inl rfl) h
  | choice => exact convert_text (Or.inr (Or.inl rfl)) h
  | net => exact convert_text (Or.inr (Or.inr rfl)) h

/-- A value of the type is left as it is. -/
theorem convert_same (rt : Runtime) {kind : Kind} {v : Json} (h : HasKind kind v) : convert rt kind v = .ok v := by
  cases kind with
  | bool =>
    obtain ⟨b, rfl⟩ := h
    rfl
  | int =>
    obtain ⟨n, rfl⟩ := h
    rfl
  | float =>
    obtain ⟨q, rfl⟩ := h
    rfl
  | str =>
    obtain ⟨s, rfl⟩ := h
    rfl
  | choice =>
    obtain ⟨s, rfl⟩ := h
    rfl
  | net =>
    obtain ⟨s, rfl⟩ := h
    rfl

theorem catchBad_ok {result : Except PyErr Json} {message : String} {v : Json} (h : catchBad result message = .ok v) :
    result = .ok v := by
  unfold catchBad at h
  split at h
  · rw [Except.ok.inj h]
  · cases h
  · cases h

theorem coerceValue_ok {rt : Runtime} {raw : Json} {f : Field} {label : String} {v : Json}
    (h : coerceValue rt raw f label = .ok v) : Declared f v := by
  obtain ⟨value, hvalue, h⟩ := bind_eq_ok h
  obtain ⟨_, hchosen, h⟩ := bind_eq_ok h
  obtain ⟨_, habove, h⟩ := bind_eq_ok h
  obtain ⟨_, hbelow, h⟩ := bind_eq_ok h
  obtain rfl := Except.ok.inj h
  refine ⟨convert_typed (catchBad_ok hvalue), fun hkind => ?_, fun bound hbound => ?_, fun bound hbound => ?_⟩
  · have hany := require_ok hchosen
    rw [chosen, hkind, Bool.or_eq_true] at hany
    rcases hany with hne | hany
    · exact absurd rfl (of_decide_eq_true hne)
    · obtain ⟨c, hc, heq⟩ := List.any_eq_true.mp hany
      cases hchoices : f.choices with
      | none =>
        rw [hchoices] at hc
        exact absurd hc List.not_mem_nil
      | some choices =>
        rw [hchoices] at hc
        exact ⟨choices, rfl, c, hc, of_decide_eq_true heq⟩
  · have hall := require_ok habove
    simp only [aboveMin, hbound, Option.all_some, decide_eq_true_eq] at hall
    exact Rat.not_lt.mp hall
  · have hall := require_ok hbelow
    simp only [belowMax, hbound, Option.all_some, decide_eq_true_eq] at hall
    exact Rat.not_lt.mp hall

/-- A declared value is accepted as it is. -/
theorem coerceValue_same (rt : Runtime) {f : Field} {v : Json} (h : Declared f v) (label : String) :
    coerceValue rt v f label = .ok v := by
  have hchosen : chosen f v = true := by
    unfold chosen
    by_cases hkind : f.kind = .choice
    · obtain ⟨choices, hchoices, c, hc, heq⟩ := h.chosen hkind
      rw [hchoices, Bool.or_eq_true]
      exact Or.inr (List.any_eq_true.mpr ⟨c, hc, decide_eq_true heq⟩)
    · rw [decide_eq_true hkind, Bool.true_or]
  have habove : aboveMin f v = true := by
    unfold aboveMin
    cases hmin : f.min with
    | none => rfl
    | some bound => exact decide_eq_true (Rat.not_lt.mpr (h.above bound hmin))
  have hbelow : belowMax f v = true := by
    unfold belowMax
    cases hmax : f.max with
    | none => rfl
    | some bound => exact decide_eq_true (Rat.not_lt.mpr (h.below bound hmax))
  simp only [coerceValue, convert_same rt h.typed, catchBad, ok_bind, hchosen, habove, hbelow, require_true]

/-! ### The normal form of a field -/

/-- What a parsed field keeps to. -/
structure Field.Valid (f : Field) : Prop where
  net : f.kind = .net → ∃ role, role ≠ "" ∧ f = ⟨.net, f.help, f.required, some role, none, none, none, none⟩
  role : f.kind ≠ .net → f.role = none
  choices : f.kind = .choice → ∃ c cs, f.choices = some (c :: cs)
  no_choices : f.kind ≠ .choice → f.choices = none
  min : ∀ x, f.min = some x → f.kind.numeric = true ∧ number x = .ok true
  max : ∀ x, f.max = some x → f.kind.numeric = true ∧ number x = .ok true
  ordered : ordered f.min f.max = true
  default : ∀ v, f.default = some v → Declared f v

theorem boundOf_ok {d : Dict} {kind : Kind} {key label : String} {bound : Option Json}
    (h : boundOf d kind key label = .ok bound) :
    bound = Dict.get? d key ∧ ∀ x, bound = some x → kind.numeric = true ∧ number x = .ok true := by
  unfold boundOf at h
  split at h
  · rename_i hnone
    obtain rfl := Except.ok.inj h
    exact ⟨hnone.symm, fun x hx => by cases hx⟩
  · rename_i x hx
    obtain ⟨fine, hfine, h⟩ := bind_eq_ok h
    obtain ⟨_, hrequire, h⟩ := bind_eq_ok h
    obtain rfl := Except.ok.inj h
    obtain rfl := require_ok hrequire
    refine ⟨hx.symm, fun y hy => ?_⟩
    obtain rfl := Option.some.inj hy
    split_ifs at hfine with hkind
    · exact ⟨hkind, hfine⟩
    · cases hfine

theorem choicesOf_ok {d : Dict} {kind : Kind} {label : String} {choices : Option (List String)}
    (h : choicesOf d kind label = .ok choices) :
    (kind = .choice → ∃ c cs, choices = some (c :: cs)) ∧ (kind ≠ .choice → choices = none) := by
  unfold choicesOf at h
  split at h
  · rename_i hkind
    split at h
    · split at h
      · exact ⟨fun _ => ⟨_, _, (Except.ok.inj h).symm⟩, fun hne => absurd hkind hne⟩
      · cases h
    · cases h
  · rename_i hkind
    exact ⟨fun hchoice => absurd hchoice hkind, fun _ => (Except.ok.inj h).symm⟩

theorem roleOf_ok {d : Dict} {label role : String} (h : roleOf d label = .ok role) : role ≠ "" := by
  unfold roleOf at h
  split at h
  · split_ifs at h with hempty
    rw [← Except.ok.inj h]
    exact hempty
  · cases h

theorem parseScalar_ok {rt : Runtime} {d : Dict} {kind : Kind} {label : String} {f : Field} (hnet : kind ≠ .net)
    (h : parseScalar rt d kind label = .ok f) : f.kind = kind ∧ f.Valid := by
  obtain ⟨choices, hchoices, h⟩ := bind_eq_ok h
  obtain ⟨min, hmin, h⟩ := bind_eq_ok h
  obtain ⟨max, hmax, h⟩ := bind_eq_ok h
  obtain ⟨_, hordered, h⟩ := bind_eq_ok h
  obtain ⟨default, hdefault, h⟩ := bind_eq_ok h
  obtain rfl := Except.ok.inj h
  obtain ⟨hchoice, hnone⟩ := choicesOf_ok hchoices
  refine ⟨rfl, fun hkind => absurd hkind hnet, fun _ => rfl, hchoice, hnone, (boundOf_ok hmin).2, (boundOf_ok hmax).2,
    require_ok hordered, fun v hv => ?_⟩
  obtain rfl : default = some v := hv
  unfold defaultOf at hdefault
  split at hdefault
  · cases hdefault
  · rename_i raw hraw
    cases hcoerce : coerceValue rt raw ⟨kind, helpOf rt d, requiredOf d, none, choices, min, max, none⟩ label with
    | error e =>
      rw [hcoerce] at hdefault
      cases hdefault
    | ok value =>
      rw [hcoerce] at hdefault
      obtain rfl := Option.some.inj (Except.ok.inj hdefault)
      have hdeclared := coerceValue_ok hcoerce
      exact ⟨hdeclared.typed, hdeclared.chosen, hdeclared.above, hdeclared.below⟩

theorem kindOf_ok {d : Dict} {allowed : List Kind} {label : String} {kind : Kind} (h : kindOf d allowed label = .ok kind) :
    kind ∈ allowed := by
  unfold kindOf at h
  split at h
  · rename_i found hfound
    rw [← Except.ok.inj h]
    exact List.mem_of_find?_eq_some hfound
  · cases h

theorem fieldHead_ok {rt : Runtime} {name : String} {spec : Json} {place : String} {allowed : List Kind} {d : Dict}
    {kind : Kind} (h : fieldHead rt name spec place allowed = .ok (d, kind)) :
    NAME_RE name = true ∧ kind ∈ allowed := by
  obtain ⟨_, hname, h⟩ := bind_eq_ok h
  obtain ⟨d', -, h⟩ := bind_eq_ok h
  obtain ⟨_, -, h⟩ := bind_eq_ok h
  obtain ⟨kind', hkind, h⟩ := bind_eq_ok h
  obtain ⟨-, rfl⟩ := Prod.mk.inj (Except.ok.inj h)
  exact ⟨require_ok hname, kindOf_ok hkind⟩

theorem parseField_ok {rt : Runtime} {name : String} {spec : Json} {place : String} {allowed : List Kind} {f : Field}
    (h : parseField rt name spec place allowed = .ok f) : NAME_RE name = true ∧ f.kind ∈ allowed ∧ f.Valid := by
  obtain ⟨⟨d, kind⟩, hhead, h⟩ := bind_eq_ok h
  obtain ⟨hname, hallowed⟩ := fieldHead_ok hhead
  dsimp only at h
  split_ifs at h with hnet
  · obtain ⟨role, hrole, h⟩ := bind_eq_ok h
    obtain rfl := Except.ok.inj h
    subst hnet
    have hnone {x : Json} {P : Prop} (hx : (none : Option Json) = some x) : P := by cases hx
    exact ⟨hname, hallowed, fun _ => ⟨role, roleOf_ok hrole, rfl⟩, fun hne => absurd rfl hne,
      fun hkind => Kind.noConfusion hkind, fun _ => rfl, fun _ => hnone, fun _ => hnone, rfl, fun _ => hnone⟩
  · obtain ⟨rfl, hvalid⟩ := parseScalar_ok hnet h
    exact ⟨hname, hallowed, hvalid⟩

/-! ### Parsing what is normal -/

theorem get?_append (a b : Dict) (k : String) : Dict.get? (a ++ b) k = (Dict.get? a k).or (Dict.get? b k) :=
  List.lookup_append

theorem get?_optional (key k : String) (x : Option Json) :
    Dict.get? (optional key x) k = if k = key then x else none := by
  cases x with
  | none => simp [optional, Dict.get?]
  | some x =>
    by_cases h : k = key
    · simp [optional, Dict.get?, h]
    · simp [optional, Dict.get?, List.lookup_cons, beq_false_of_ne h, h]

/-- What `toDict` has under each key. -/
theorem get?_toDict (f : Field) :
    Dict.get? f.toDict "type" = some (.str f.kind.name) ∧ Dict.get? f.toDict "help" = some (.str f.help) ∧
      Dict.get? f.toDict "required" = some (.bool f.required) ∧
      Dict.get? f.toDict "role" = f.role.map .str ∧
      Dict.get? f.toDict "choices" = (f.choices.map fun cs => .arr (cs.map .str)) ∧
      Dict.get? f.toDict "min" = f.min ∧ Dict.get? f.toDict "max" = f.max ∧
      Dict.get? f.toDict "default" = f.default := by
  unfold Field.toDict
  simp only [get?_append, get?_optional]
  refine ⟨rfl, rfl, rfl, ?_, ?_, ?_, ?_, ?_⟩ <;> simp [Dict.get?, List.lookup]

theorem unknownKeys_toDict (f : Field) : unknownKeys f.toDict FIELD_KEYS = [] := by
  have hoptional (key : String) (x : Option Json) (hkey : key ∈ FIELD_KEYS) :
      ∀ k ∈ (optional key x).map Prod.fst, k ∈ FIELD_KEYS := by
    cases x with
    | none => exact fun _ hk => absurd hk List.not_mem_nil
    | some x =>
      intro k hk
      rwa [List.mem_singleton.mp hk]
  rw [unknownKeys, List.filter_eq_nil_iff.mpr, List.dedup_nil]
  intro k hk
  rw [decide_eq_true_eq, not_not]
  unfold Field.toDict at hk
  simp only [List.map_append, List.mem_append] at hk
  rcases hk with ((((hk | hk) | hk) | hk) | hk) | hk
  · have hfixed : k = "type" ∨ k = "help" ∨ k = "required" := by simpa using hk
    rcases hfixed with rfl | rfl | rfl
    · decide
    · decide
    · decide
  · exact hoptional _ _ (by decide) k hk
  · exact hoptional _ _ (by decide) k hk
  · exact hoptional _ _ (by decide) k hk
  · exact hoptional _ _ (by decide) k hk
  · exact hoptional _ _ (by decide) k hk

theorem Kind.name_inj {k l : Kind} (h : k.name = l.name) : k = l := by
  cases k <;> cases l <;> first | rfl | exact absurd h (by decide)

theorem kindOf_toDict {f : Field} {allowed : List Kind} (h : f.kind ∈ allowed) (label : String) :
    kindOf f.toDict allowed label = .ok f.kind := by
  have hfound : allowed.find? (fun k => decide (Dict.getD f.toDict "type" (.str "str") = .str k.name)) = some f.kind := by
    rw [Dict.getD_of_get? (get?_toDict f).1]
    cases hfind : allowed.find? fun k => decide (Json.str f.kind.name = .str k.name) with
    | none => exact absurd (decide_eq_true rfl) (List.find?_eq_none.mp hfind f.kind h)
    | some k =>
      have heq : f.kind.name = k.name := by simpa using List.find?_some hfind
      rw [Kind.name_inj heq]
  rw [kindOf, hfound]

theorem fieldHead_again (rt : Runtime) {name : String} {f : Field} {allowed : List Kind} (hname : NAME_RE name = true)
    (h : f.kind ∈ allowed) (place : String) :
    fieldHead rt name (.obj f.toDict) place allowed = .ok (f.toDict, f.kind) := by
  rw [fieldHead, hname, require_true, ok_bind, objectOf, ok_bind, checkKeys, unknownKeys_toDict]
  dsimp only [List.isEmpty_nil]
  rw [require_true, ok_bind, kindOf_toDict h, ok_bind]

theorem helpOf_toDict (rt : Runtime) (f : Field) : helpOf rt f.toDict = f.help := by
  rw [helpOf, Dict.getD_of_get? (get?_toDict f).2.1]
  rfl

theorem requiredOf_toDict (f : Field) : requiredOf f.toDict = f.required := by
  rw [requiredOf, Dict.getD_of_get? (get?_toDict f).2.2.1]
  rfl

theorem mapM_isText (cs : List String) : (cs.map Json.str).mapM isText = some cs := by
  induction cs with
  | nil => rfl
  | cons c cs ih =>
    rw [List.map_cons, List.mapM_cons, ih]
    rfl

theorem choicesOf_toDict {f : Field} (h : f.Valid) (label : String) :
    choicesOf f.toDict f.kind label = .ok f.choices := by
  unfold choicesOf
  split_ifs with hkind
  · obtain ⟨c, cs, hchoices⟩ := h.choices hkind
    have hget : Dict.get f.toDict "choices" = .arr ((c :: cs).map .str) := by
      rw [Dict.get, (get?_toDict f).2.2.2.2.1, hchoices]
      rfl
    rw [hget, hchoices]
    dsimp only
    rw [mapM_isText]
  · rw [h.no_choices hkind]

theorem boundOf_again {d : Dict} {kind : Kind} {key : String} {bound : Option Json} (hget : Dict.get? d key = bound)
    (h : ∀ x, bound = some x → kind.numeric = true ∧ number x = .ok true) (label : String) :
    boundOf d kind key label = .ok bound := by
  unfold boundOf
  rw [hget]
  cases bound with
  | none => rfl
  | some x =>
    obtain ⟨hkind, hnumber⟩ := h x rfl
    dsimp only
    rw [if_pos hkind, hnumber]
    rfl

theorem defaultOf_toDict (rt : Runtime) {f : Field} (h : f.Valid) (label : String) :
    defaultOf rt f.toDict { f with default := none } label = .ok f.default := by
  unfold defaultOf
  rw [(get?_toDict f).2.2.2.2.2.2.2]
  cases hdefault : f.default with
  | none => rfl
  | some v =>
    have hv := h.default v hdefault
    have hsame := coerceValue_same rt (f := { f with default := none }) ⟨hv.typed, hv.chosen, hv.above, hv.below⟩ label
    dsimp only
    rw [hsame]
    rfl

/-- **A normal field is parsed to itself.** -/
theorem parseField_again (rt : Runtime) {name : String} {f : Field} {allowed : List Kind} (hname : NAME_RE name = true)
    (hkind : f.kind ∈ allowed) (h : f.Valid) (place : String) :
    parseField rt name (.obj f.toDict) place allowed = .ok f := by
  rw [parseField, fieldHead_again rt hname hkind, ok_bind]
  dsimp only
  obtain ⟨-, -, -, hrole, -, hmin, hmax, -⟩ := get?_toDict f
  split_ifs with hnet
  · obtain ⟨role, hne, hf⟩ := h.net hnet
    have hget : Dict.get f.toDict "role" = .str role := by
      rw [Dict.get, hrole, hf]
      rfl
    rw [roleOf, hget]
    dsimp only
    rw [if_neg hne, ok_bind, helpOf_toDict, requiredOf_toDict, ← hf]
  · rw [parseScalar, choicesOf_toDict h, ok_bind, boundOf_again hmin h.min, ok_bind, boundOf_again hmax h.max, ok_bind,
      h.ordered, require_true, ok_bind, helpOf_toDict, requiredOf_toDict]
    have hdefault := defaultOf_toDict rt h (place ++ "." ++ name)
    have hnorole := h.role hnet
    obtain ⟨kind, help, required, role, choices, min, max, default⟩ := f
    subst hnorole
    rw [hdefault]
    rfl

end Lager.Drivers.Schema
