import Lager.Safety.Coverage

/-!
# Every way to pass a value

The power setters are `voltage(value, ocp, ovp)` and `current(value, ocp, ovp)`, and Python binds a call to these
parameters by position, by keyword, or some of each. The check reads the arguments by rules of its own: the
setpoint by keyword or as the first argument, the two trips by keyword only, and every value as a `float`.
`accepted_within_iff` compares the two.
-/

namespace Lager.Safety

open Lager.Py

/-- `check` with the `role` its caller resolved, or looked up when there is none. -/
def checkAs (cfg : Config) (now : ℚ) (rate : RateState) (nets : List Dict) (netName functionName : String)
    (args kwargs : Json) (role : Option String) : Except Refusal RateState :=
  let resolvedRole := role.orElse fun _ => roleForNet nets netName
  if isGuarded resolvedRole functionName = false then .ok rate
  else match limitsForNet nets netName with
    | none => .ok rate
    | some limits =>
      match (protectionOff.lookup functionName).bind fun key => (ceiling limits key).map fun limit => (key, limit) with
      | some (key, .ok limit) => .error (.protectionOffRefused netName key limit functionName)
      | some (_, .error e) => .error (.raised e)
      | none =>
        match (commanded (resolvedRole.getD "") functionName args kwargs).forM
            (enforceOne cfg.floatOfText netName limits) with
        | .error refusal => .error refusal
        | .ok () =>
          if functionName ∈ rateLimitedFunctions then checkRate cfg now rate netName functionName else .ok rate

/-- The hard tier passes no role. -/
theorem check_eq_checkAs (cfg : Config) (now : ℚ) (rate : RateState) (nets : List Dict)
    (netName functionName : String) (args kwargs : Json) :
    check cfg now rate nets netName functionName args kwargs =
      checkAs cfg now rate nets netName functionName args kwargs none := rfl

/-! ### What Python binds -/

/-- The parameters of `voltage` and `current`, in order; each has a default. -/
def parameters : List String := ["value", "ocp", "ovp"]

/-- Python binds the arguments: no more of them than parameters, and every keyword names one of the parameters
that are left. -/
def Binds (args : List Json) (kwargs : Dict) : Prop :=
  args.length ≤ parameters.length ∧ (kwargs.map Prod.fst).Nodup ∧
    ∀ parameter ∈ kwargs.map Prod.fst, parameter ∈ parameters.drop args.length

instance (args : List Json) (kwargs : Dict) : Decidable (Binds args kwargs) := by
  unfold Binds
  infer_instance

/-- The parameters a call binds, with what they are bound to. -/
def passed (args : List Json) (kwargs : Dict) : List (String × Json) := parameters.zip args ++ kwargs

/-- The limit that applies to a parameter. -/
def limitFor (functionName parameter : String) : String :=
  if parameter = "ocp" then "max_current"
  else if parameter = "ovp" then "max_voltage"
  else if functionName = "voltage" then "max_voltage"
  else "max_current"

/-- A number, as it is written. -/
def number : Json → Option PyFloat
  | .int n => some (.fin n)
  | .float x => some x
  | _ => none

section Values

variable (cfg : Config) (limits : Dict) (functionName : String)

/-- The parameter is bound to a number that is not at most its limit in magnitude. -/
def Exceeds (b : String × Json) : Prop :=
  match number b.2, number (Dict.get limits (limitFor functionName b.1)) with
  | some value, some limit => value.abs.le limit = false
  | _, _ => False

/-- `float` makes the value and its limit numbers of which the first is not greater: one is a NaN, or they are
integers too close to each other for a double. -/
def Blurred (b : String × Json) : Prop :=
  match coerceFloat cfg.floatOfText b.2, ceiling limits (limitFor functionName b.1) with
  | .ok (some value), some (.ok limit) => value = .nan ∨ limit = .nan ∨ value.abs.le limit = true
  | _, _ => False

/-- A trip passed by position. -/
def TripByPosition (args : List Json) (b : String × Json) : Prop := b ∈ parameters.zip args ∧ b.1 ≠ "value"

/-- A call that the comparisons of the check stop at one of the values it reads. -/
def Tripped (role : String) (args : List Json) (kwargs : Dict) : Prop :=
  ∃ command ∈ commanded role functionName (.arr args) (.obj kwargs), Trips cfg limits command

/-- What slips past the reading of one value is stopped at another. -/
def Backstopped (role : String) (args : List Json) (kwargs : Dict) : Prop :=
  ∀ b ∈ passed args kwargs, Exceeds limits functionName b →
    TripByPosition args b ∨ Blurred cfg limits functionName b → Tripped cfg limits functionName role args kwargs

/-! ### One value -/

variable {cfg limits functionName}

theorem coerceFloat_number {x : Json} {value : PyFloat} (h : number x = some value) :
    (∃ v, coerceFloat cfg.floatOfText x = .ok (some v)) ∨ ∃ e, coerceFloat cfg.floatOfText x = .error e := by
  cases x with
  | int n =>
    have hcoerce : coerceFloat cfg.floatOfText (.int n) =
        if 2 ^ 1024 ≤ roundNat n.natAbs then .error .overflowError
        else .ok (some (.fin (if n < 0 then -(roundNat n.natAbs : ℚ) else (roundNat n.natAbs : ℚ)))) := by
      simp only [coerceFloat, floatOf, floatOfInt]
      by_cases hbig : 2 ^ 1024 ≤ roundNat n.natAbs
      · rw [if_pos hbig, if_pos hbig]
      · rw [if_neg hbig, if_neg hbig]
    rw [hcoerce]
    by_cases hbig : 2 ^ 1024 ≤ roundNat n.natAbs
    · exact .inr ⟨_, if_pos hbig⟩
    · exact .inl ⟨_, if_neg hbig⟩
  | float x => exact .inl ⟨x, rfl⟩
  | null => cases h
  | bool b => cases h
  | str s => cases h
  | arr xs => cases h
  | obj kvs => cases h

theorem ceiling_number {key : String} {limit : PyFloat} (h : number (Dict.get limits key) = some limit) :
    (∃ l, ceiling limits key = some (.ok l)) ∨ ∃ e, ceiling limits key = some (.error e) := by
  unfold ceiling
  cases hget : Dict.get limits key with
  | int n =>
    cases hfloat : floatOfInt n with
    | ok l => exact .inl ⟨l, by rw [← hfloat]⟩
    | error e => exact .inr ⟨e, by rw [← hfloat]⟩
  | float x => exact .inl ⟨x, rfl⟩
  | null => simp [hget, number] at h
  | bool b => simp [hget, number] at h
  | str s => simp [hget, number] at h
  | arr xs => simp [hget, number] at h
  | obj kvs => simp [hget, number] at h

theorem abs_eq_nan {x : PyFloat} : x.abs = .nan ↔ x = .nan := by
  cases x <;> simp [PyFloat.abs]

/-- A number beyond its limit makes the comparison raise, unless `float` blurs the two. -/
theorem trips_of_exceeds {b : String × Json} {label : String} (h : Exceeds limits functionName b)
    (hsharp : ¬Blurred cfg limits functionName b) : Trips cfg limits (limitFor functionName b.1, label, b.2) := by
  unfold Exceeds at h
  cases hvalue : number b.2 with
  | none => simp [hvalue] at h
  | some value =>
    cases hlimit : number (Dict.get limits (limitFor functionName b.1)) with
    | none => simp [hvalue, hlimit] at h
    | some limit =>
      unfold Trips
      unfold Blurred at hsharp
      rcases @coerceFloat_number cfg _ _ hvalue with ⟨v, hv⟩ | ⟨e, he⟩
      · rcases ceiling_number hlimit with ⟨l, hl⟩ | ⟨e, he⟩
        · simp only [hv, hl, not_or, Bool.not_eq_true] at hsharp ⊢
          obtain ⟨hvNan, hlNan, hle⟩ := hsharp
          simp only [PyFloat.gt, Bool.and_eq_true, bne_iff_ne, ne_eq, Bool.not_eq_true']
          exact ⟨⟨fun hc => hvNan (abs_eq_nan.mp hc), hlNan⟩, hle⟩
        · simp only [hv, he]
      · simp only [he]

/-! ### Reading the arguments -/

variable {role : String} {args : List Json} {kwargs : Dict}

theorem get_of_mem (hkeys : (kwargs.map Prod.fst).Nodup) {b : String × Json} (hb : b ∈ kwargs) :
    Dict.get kwargs b.1 = b.2 := by
  rw [Dict.get, Dict.get?, Lib.lookup_of_mem hkeys hb, Option.getD_some]

theorem get_eq_null {key : String} (h : key ∉ kwargs.map Prod.fst) : Dict.get kwargs key = .null := by
  rw [Dict.get, Dict.get?, Lib.lookup_eq_none_iff_fst.mpr h, Option.getD_none]

/-- The setpoint that the check reads is what `value` is bound to. -/
theorem setpoint_eq (hbinds : Binds args kwargs) {x : Json} (hx : x ≠ .null) (h : ("value", x) ∈ passed args kwargs) :
    setpoint (.arr args) (.obj kwargs) = x := by
  rcases List.mem_append.mp h with hpos | hkey
  · cases args with
    | nil => cases hpos
    | cons first rest =>
      have hfirst : x = first := by
        have hnames : ∀ y, ("value", y) ∉ (["ocp", "ovp"] : List String).zip rest := by
          intro y hy
          have := (List.of_mem_zip hy).1
          simp at this
        rcases List.mem_cons.mp hpos with heq | htail
        · exact (Prod.mk.inj heq).2
        · exact absurd htail (hnames x)
      have hnone : Dict.get kwargs "value" = .null := by
        refine get_eq_null fun hin => ?_
        have := hbinds.2.2 "value" hin
        have hdrop : parameters.drop (first :: rest).length = (["ocp", "ovp"] : List String).drop rest.length := rfl
        rw [hdrop] at this
        have := List.mem_of_mem_drop this
        simp at this
      rw [setpoint, hnone, if_neg (by simp), hfirst]
  · have hget := get_of_mem hbinds.2.1 hkey
    dsimp only at hget
    simp only [setpoint, hget]
    exact if_pos hx

/-- Every parameter bound to a number is read by the check, but for the trips passed by position. -/
theorem commanded_of_passed (hrole : role = "power-supply" ∨ role = "power-supply-2q")
    (hfunction : functionName = "voltage" ∨ functionName = "current") (hbinds : Binds args kwargs)
    {b : String × Json} (hb : b ∈ passed args kwargs) (hnumber : b.2 ≠ .null) (hread : ¬TripByPosition args b) :
    ∃ label, (limitFor functionName b.1, label, b.2) ∈ commanded role functionName (.arr args) (.obj kwargs) := by
  by_cases hvalue : b.1 = "value"
  · have hset : setpoint (.arr args) (.obj kwargs) = b.2 := setpoint_eq hbinds hnumber (hvalue ▸ hb)
    have hkey : valueLimits.lookup (role, functionName) = some (limitFor functionName b.1) := by
      rw [hvalue]
      rcases hrole with rfl | rfl <;> rcases hfunction with rfl | rfl <;> decide
    refine ⟨functionName, List.mem_append_left _ ?_⟩
    rw [hkey, hset]
    exact List.mem_singleton.mpr rfl
  · have hkeyword : b ∈ kwargs := by
      rcases List.mem_append.mp hb with hpos | hkey
      · exact absurd ⟨hpos, hvalue⟩ hread
      · exact hkey
    have hget := get_of_mem hbinds.2.1 hkeyword
    have hname : b.1 = "ovp" ∨ b.1 = "ocp" := by
      have := List.mem_of_mem_drop (hbinds.2.2 b.1 (List.mem_map_of_mem hkeyword))
      simp only [parameters, List.mem_cons, List.not_mem_nil, or_false] at this
      rcases this with h | h | h
      · exact absurd h hvalue
      · exact .inr h
      · exact .inl h
    refine ⟨functionName ++ "(" ++ b.1 ++ "=)", List.mem_append_right _ (List.mem_filterMap.mpr ?_)⟩
    rcases hname with h | h
    · refine ⟨("ovp", "max_voltage"), by simp, ?_⟩
      rw [h] at hget ⊢
      simp [hget, hnumber, limitFor]
    · refine ⟨("ocp", "max_current"), by simp, ?_⟩
      rw [h] at hget ⊢
      simp [hget, hnumber, limitFor]

/-! ### The call -/

/-- An accepted call trips at none of the values the check reads. -/
theorem not_tripped_of_accepted {now : ℚ} {rate rate' : RateState} {nets : List Dict} {netName : String}
    {args kwargs : Json} {given : Option String} (hrole : given.or (roleForNet nets netName) = some role)
    (hguard : isGuarded (some role) functionName = true) (hlimits : limitsForNet nets netName = some limits)
    (hoff : protectionOff.lookup functionName = none)
    (haccept : checkAs cfg now rate nets netName functionName args kwargs given = .ok rate') :
    ∀ command ∈ commanded role functionName args kwargs, ¬Trips cfg limits command := by
  simp only [checkAs, Option.orElse_eq_or, hrole, hguard, hlimits, hoff, Option.bind_none, Option.getD_some,
    Bool.true_eq_false, if_false] at haccept
  cases hforM : (commanded role functionName args kwargs).forM (enforceOne cfg.floatOfText netName limits) with
  | error refusal =>
    rw [hforM] at haccept
    cases haccept
  | ok _ => exact fun command hcommand => enforceOne_ok_iff.mp (forM_ok_iff.mp hforM command hcommand)

/-- While the rate cap has room, a call that trips at none of them is accepted. -/
theorem accepted_of_not_tripped {nets : List Dict} {netName : String} {args kwargs : Json} {given : Option String}
    (hrole : given.or (roleForNet nets netName) = some role) (hguard : isGuarded (some role) functionName = true)
    (hlimits : limitsForNet nets netName = some limits) (hoff : protectionOff.lookup functionName = none)
    (hfree : ∀ command ∈ commanded role functionName args kwargs, ¬Trips cfg limits command) :
    ∃ rate', checkAs cfg 0 (fun _ => none) nets netName functionName args kwargs given = .ok rate' := by
  have hforM : (commanded role functionName args kwargs).forM (enforceOne cfg.floatOfText netName limits) = .ok () :=
    forM_ok_iff.mpr fun command hcommand => enforceOne_ok_iff.mpr (hfree command hcommand)
  simp only [checkAs, Option.orElse_eq_or, hrole, hguard, hlimits, hoff, Option.bind_none, Option.getD_some,
    Bool.true_eq_false, if_false, hforM]
  by_cases hrated : functionName ∈ rateLimitedFunctions
  · rw [if_pos hrated]
    exact checkRate_fresh
  · exact ⟨_, if_neg hrated⟩

end Values

/-- **When an accepted call keeps to the limits.** For a net with limits, a power setter and arguments that
Python binds: in every state of the rate cap, each parameter of an accepted call that is bound to a number is
within its limit, if and only if a number beyond its limit that the check cannot see, because it is a trip
passed by position or because `float` blurs the comparison, comes with another value that trips the check. -/
theorem accepted_within_iff (cfg : Config) (nets : List Dict) (netName functionName role : String)
    (given : Option String) (limits : Dict) (args : List Json) (kwargs : Dict)
    (hrole : given.or (roleForNet nets netName) = some role)
    (hsupply : role = "power-supply" ∨ role = "power-supply-2q")
    (hfunction : functionName = "voltage" ∨ functionName = "current")
    (hlimits : limitsForNet nets netName = some limits) (hbinds : Binds args kwargs) :
    (∀ (now : ℚ) (rate rate' : RateState),
        checkAs cfg now rate nets netName functionName (.arr args) (.obj kwargs) given = .ok rate' →
        ∀ b ∈ passed args kwargs, ¬Exceeds limits functionName b) ↔
      Backstopped cfg limits functionName role args kwargs := by
  have hguard : isGuarded (some role) functionName = true := by
    rcases hsupply with rfl | rfl <;> rcases hfunction with rfl | rfl <;> decide
  have hoff : protectionOff.lookup functionName = none := by
    rcases hfunction with rfl | rfl <;> decide
  constructor
  · intro hwithin b hb hexceeds _
    by_contra hnone
    obtain ⟨rate', haccept⟩ := accepted_of_not_tripped hrole hguard hlimits hoff
      fun command hcommand htrips => hnone ⟨command, hcommand, htrips⟩
    exact hwithin 0 (fun _ => none) rate' haccept b hb hexceeds
  · intro hstopped now rate rate' haccept b hb hexceeds
    have hfree := not_tripped_of_accepted hrole hguard hlimits hoff haccept
    by_cases hslips : TripByPosition args b ∨ Blurred cfg limits functionName b
    · obtain ⟨command, hcommand, htrips⟩ := hstopped b hb hexceeds hslips
      exact hfree command hcommand htrips
    · rw [not_or] at hslips
      have hnumber : b.2 ≠ .null := by
        intro hnull
        simp [Exceeds, hnull, number] at hexceeds
      obtain ⟨label, hcommand⟩ := commanded_of_passed hsupply hfunction hbinds hb hnumber hslips.1
      exact hfree _ hcommand (trips_of_exceeds hexceeds hslips.2)

/-- `voltage(3.0, 2.0, 30.0)` on a net with a ceiling of five volts. -/
theorem trip_by_position_accepted :
    (∃ rate', checkAs defaultConfig 0 (fun _ => none) [limitedNet] "vbat" "voltage"
        (.arr [.float (.fin 3), .float (.fin 2), .float (.fin 30)]) (.obj []) none = .ok rate') ∧
      Binds [.float (.fin 3), .float (.fin 2), .float (.fin 30)] [] ∧
      ("ovp", Json.float (.fin 30)) ∈ passed [.float (.fin 3), .float (.fin 2), .float (.fin 30)] [] ∧
      Exceeds [("max_voltage", .float (.fin 5))] "voltage" ("ovp", .float (.fin 30)) := by
  have hrole : none.or (roleForNet [limitedNet] "vbat") = some "power-supply" := rfl
  refine ⟨accepted_of_not_tripped hrole (by decide) rfl (by decide) ?_, by decide, by decide, ?_⟩
  · intro command hcommand
    obtain rfl : command = ("max_voltage", "voltage", .float (.fin 3)) := List.mem_singleton.mp hcommand
    show ¬((PyFloat.fin 3).abs).gt (.fin 5) = true
    decide
  · show ((PyFloat.fin 30).abs).le (.fin 5) = false
    decide

/-- The same values by keyword: nothing slips past the check. -/
theorem accepted_within_keywords :
    (("ovp", Json.float (.fin 30)) ∈ passed [.float (.fin 3)] [("ocp", .float (.fin 2)), ("ovp", .float (.fin 30))]) ∧
      ∀ (now : ℚ) (rate rate' : RateState),
        checkAs defaultConfig now rate [limitedNet] "vbat" "voltage" (.arr [.float (.fin 3)])
          (.obj [("ocp", .float (.fin 2)), ("ovp", .float (.fin 30))]) none = .ok rate' →
        ∀ b ∈ passed [.float (.fin 3)] [("ocp", .float (.fin 2)), ("ovp", .float (.fin 30))],
          ¬Exceeds [("max_voltage", .float (.fin 5))] "voltage" b := by
  refine ⟨by decide, (accepted_within_iff defaultConfig [limitedNet] "vbat" "voltage" "power-supply" none
    [("max_voltage", .float (.fin 5))] [.float (.fin 3)] [("ocp", .float (.fin 2)), ("ovp", .float (.fin 30))] rfl
    (.inl rfl) (.inl rfl) rfl (by decide)).mpr ?_⟩
  intro b hb hexceeds _
  refine ⟨("max_voltage", "voltage(ovp=)", .float (.fin 30)), by decide, ?_⟩
  show ((PyFloat.fin 30).abs).gt (.fin 5) = true
  decide

end Lager.Safety
