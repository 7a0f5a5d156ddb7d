import Lager.Py.Number

/-!
# The safety interlock

`safety.py`, the hard tier: `hardware_service.invoke` calls `check_invocation` with the payload's description of
the net, the driver method and its arguments, before any driver is touched. The description is the caller's;
the limits are read from the saved nets, through a name that is either the description's own or that of the
first saved net with its address and channel.

`floatOfText` is `float(text)` and stays a parameter. Time and the counters of the rate cap are arguments.
-/

namespace Lager.Safety

open Lager.Py

/-- The exceptions of the interlock, and the ones it lets through. -/
inductive Refusal where
  | safetyViolation (netName limitKind : String) (limitValue requested : PyFloat) (functionName : String)
  | protectionOffRefused (netName limitKind : String) (limitValue : PyFloat) (functionName : String)
  | rateLimitExceeded (netName functionName : String) (maxCalls : Nat) (windowSeconds : ℚ)
  | unidentifiedNet (functionName : String)
  | raised (e : PyErr)

/-! ### The tables -/

/-- `_VALUE_LIMITS`: which limit key applies to which role and driver method. -/
def valueLimits : List ((String × String) × String) :=
  [(("power-supply", "voltage"), "max_voltage"), (("power-supply", "ovp"), "max_voltage"),
    (("power-supply", "current"), "max_current"), (("power-supply", "ocp"), "max_current"),
    (("power-supply-2q", "voltage"), "max_voltage"), (("power-supply-2q", "ovp"), "max_voltage"),
    (("power-supply-2q", "current"), "max_current"), (("power-supply-2q", "ocp"), "max_current"),
    (("battery", "voc"), "max_voltage"), (("battery", "voltage_full"), "max_voltage"),
    (("battery", "voltage_empty"), "max_voltage"), (("battery", "ovp"), "max_voltage"),
    (("battery", "current_limit"), "max_current"), (("battery", "ocp"), "max_current"),
    (("eload", "set_current"), "max_current"), (("eload", "set_voltage"), "max_voltage")]

/-- `_PROTECTION_OFF`. -/
def protectionOff : List (String × String) :=
  [("disable_ocp", "max_current"), ("disable_overcurrent_protection", "max_current"),
    ("disable_ovp", "max_voltage"), ("disable_overvoltage_protection", "max_voltage")]

/-- `_RATE_LIMITED_FUNCTIONS`. -/
def rateLimitedFunctions : List String :=
  valueLimits.map (fun entry => entry.1.2) ++ ["clear_ovp", "clear_ocp", "enable", "disable"]

/-- `_GUARDED_ROLES`. -/
def guardedRoles : List String := valueLimits.map fun entry => entry.1.1

/-- `_POSSIBLY_GUARDED_FUNCTIONS`. -/
def possiblyGuardedFunctions : List String :=
  rateLimitedFunctions ++ valueLimits.map (fun entry => entry.1.2) ++ protectionOff.map Prod.fst

/-- `is_guarded`. -/
def isGuarded (role : Option String) (functionName : String) : Bool :=
  match role with
  | none => false
  | some role =>
    if role = "" then false
    else if (valueLimits.lookup (role, functionName)).isSome || (protectionOff.lookup functionName).isSome then true
    else decide (role ∈ guardedRoles) && decide (functionName ∈ rateLimitedFunctions)

/-! ### Reading the saved nets -/

/-- `NetsCache`: a name that is a list or a dict cannot be put into the index, and the access that loads the file
raises. -/
def getNets (nets : List Dict) : Except PyErr (List Dict) :=
  if nets.all fun net => match Dict.get net "name" with
      | .arr xs => xs.isEmpty
      | .obj kvs => kvs.isEmpty
      | _ => true
  then .ok nets else .error .typeError

/-- `find_by_name`: the index keeps the last record of a name. -/
def findByName (nets : List Dict) (name : String) : Option Dict :=
  nets.reverse.find? fun net => decide (name ≠ "" ∧ Dict.get net "name" = .str name)

/-- `record.get("safety_limits")` when it is a dict with something in it. -/
def limitsOf (record : Dict) : Option Dict :=
  match Dict.get record "safety_limits" with
  | .obj limits => if limits = [] then none else some limits
  | _ => none

/-- `limits_for_net`. -/
def limitsForNet (nets : List Dict) (netName : String) : Option Dict := (findByName nets netName).bind limitsOf

/-- The role of a record, when it is a text. -/
def roleOf (record : Dict) : Option String :=
  match Dict.get record "role" with
  | .str role => some role
  | _ => none

/-- `role_for_net`. -/
def roleForNet (nets : List Dict) (netName : String) : Option String := (findByName nets netName).bind roleOf

/-- `any_limits_configured`. -/
def anyLimitsConfigured (nets : List Dict) : Bool := nets.any fun record => (limitsOf record).isSome

/-- The saved net a description without a name falls back to. -/
def fallbackMatches (address channel : Json) (record : Dict) : Bool :=
  (Dict.get record "address").pyEq address && (decide (channel = .null) || (Dict.get record "channel").pyEq channel)

/-- A name that is a text with something in it. -/
def properName (value : Json) : Option String :=
  match value with
  | .str name => if name = "" then none else some name
  | _ => none

/-- `resolve_net_name`. -/
def resolveNetName (nets : List Dict) (netInfo : Json) : Except PyErr (Option String) :=
  match netInfo with
  | .obj info =>
    match properName (Dict.get info "name") with
    | some name => .ok (some name)
    | none =>
      let address := Dict.get info "address"
      if address.truthy = false then .ok none
      else (getNets nets).map fun nets => nets.findSome? fun record =>
        if fallbackMatches address (Dict.get info "channel") record then properName (Dict.get record "name") else none
  | _ => .ok none

/-! ### Values -/

section Values

variable (floatOfText : String → Option PyFloat)

/-- `float(x)`. -/
def floatOf : Json → Except PyErr PyFloat
  | .bool b => .ok (.fin (if b then 1 else 0))
  | .int n => floatOfInt n
  | .float x => .ok x
  | .str s =>
    match floatOfText s with
    | some x => .ok x
    | none => .error .valueError
  | .null => .error .typeError
  | .arr _ => .error .typeError
  | .obj _ => .error .typeError

/-- `_coerce_float`: no number is no value; an `int` too large for a float is an `OverflowError`. -/
def coerceFloat (candidate : Json) : Except PyErr (Option PyFloat) :=
  match candidate with
  | .null => .ok none
  | .bool _ => .ok none
  | candidate =>
    match floatOf floatOfText candidate with
    | .ok x => .ok (some x)
    | .error .typeError => .ok none
    | .error .valueError => .ok none
    | .error e => .error e

/-- The argument `extract_value` takes for the setpoint. -/
def setpoint (args kwargs : Json) : Json :=
  let positional := match args with
    | .arr (first :: _) => first
    | _ => .null
  match kwargs with
  | .obj kw => if Dict.get kw "value" ≠ .null then Dict.get kw "value" else positional
  | _ => positional

/-- `extract_value`. -/
def extractValue (args kwargs : Json) : Except PyErr (Option PyFloat) := coerceFloat floatOfText (setpoint args kwargs)

/-- `float(configured)`, for a limit that is a number. -/
def ceiling (limits : Dict) (key : String) : Option (Except PyErr PyFloat) :=
  match Dict.get limits key with
  | .int n => some (floatOfInt n)
  | .float x => some (.ok x)
  | _ => none

/-- `_enforce`. -/
def enforce (netName functionName : String) (limits : Dict) (key : String) (requested : Option PyFloat) :
    Except Refusal Unit :=
  match requested, ceiling limits key with
  | some requested, some (.ok limit) =>
    if requested.abs.gt limit then .error (.safetyViolation netName key limit requested functionName) else .ok ()
  | some _, some (.error e) => .error (.raised e)
  | _, _ => .ok ()

/-- What a call commands: the limit key, how the message calls it, and the argument. First the setpoint of a
method of the table, then the trips that the power setters take inline. -/
def commanded (role functionName : String) (args kwargs : Json) : List (String × String × Json) :=
  (match valueLimits.lookup (role, functionName) with
    | some key => [(key, functionName, setpoint args kwargs)]
    | none => []) ++
  (match kwargs with
    | .obj kw => [("ovp", "max_voltage"), ("ocp", "max_current")].filterMap fun (trip, key) =>
        if Dict.get kw trip ≠ .null then some (key, functionName ++ "(" ++ trip ++ "=)", Dict.get kw trip) else none
    | _ => [])

/-- One commanded value against the limits. -/
def enforceOne (netName : String) (limits : Dict) (command : String × String × Json) : Except Refusal Unit :=
  match coerceFloat floatOfText command.2.2 with
  | .error e => .error (.raised e)
  | .ok requested => enforce netName command.2.1 limits command.1 requested

end Values

/-! ### The check -/

/-- `_rate_state`: the start of the window and the calls in it, for a net and a method. -/
abbrev RateState := String × String → Option (ℚ × Nat)

structure Config where
  floatOfText : String → Option PyFloat
  /-- `_rate_window_seconds()`. -/
  window : ℚ
  /-- `_rate_max_calls()`. -/
  maxCalls : Nat
  /-- `_env_int` falls back to 60 on anything that is not positive. -/
  maxCalls_pos : 0 < maxCalls

/-- `_check_rate`. -/
def checkRate (cfg : Config) (now : ℚ) (rate : RateState) (netName functionName : String) :
    Except Refusal RateState :=
  let (start, count) := (rate (netName, functionName)).getD (now, 0)
  let (start, count) := if now - start ≥ cfg.window then (now, 0) else (start, count)
  let rate' : RateState := fun key => if key = (netName, functionName) then some (start, count + 1) else rate key
  if count + 1 > cfg.maxCalls then .error (.rateLimitExceeded netName functionName cfg.maxCalls cfg.window)
  else .ok rate'

/-- `check`, with the saved nets loaded. -/
def check (cfg : Config) (now : ℚ) (rate : RateState) (nets : List Dict) (netName functionName : String)
    (args kwargs : Json) : Except Refusal RateState :=
  let role := roleForNet nets netName
  if isGuarded role functionName = false then .ok rate
  else match limitsForNet nets netName with
    | none => .ok rate
    | some limits =>
      match (protectionOff.lookup functionName).bind fun key => (ceiling limits key).map fun limit => (key, limit) with
      | some (key, .ok limit) => .error (.protectionOffRefused netName key limit functionName)
      | some (_, .error e) => .error (.raised e)
      | none =>
        match (commanded (role.getD "") functionName args kwargs).forM (enforceOne cfg.floatOfText netName limits) with
        | .error refusal => .error refusal
        | .ok () =>
          if functionName ∈ rateLimitedFunctions then checkRate cfg now rate netName functionName else .ok rate

/-- `check_invocation`: the counters after an accepted call. -/
def checkInvocation (cfg : Config) (now : ℚ) (rate : RateState) (nets : List Dict) (netInfo : Json)
    (functionName : String) (args kwargs : Json) : Except Refusal RateState :=
  match resolveNetName nets netInfo with
  | .error e => .error (.raised e)
  | .ok none =>
    if functionName ∈ possiblyGuardedFunctions then
      match getNets nets with
      | .error e => .error (.raised e)
      | .ok nets => if anyLimitsConfigured nets then .error (.unidentifiedNet functionName) else .ok rate
    else .ok rate
  | .ok (some netName) =>
    match getNets nets with
    | .error e => .error (.raised e)
    | .ok nets => check cfg now rate nets netName functionName args kwargs

end Lager.Safety
