import Lager.Lib.Assoc
import Lager.Safety.Interlock

/-!
# What the interlock covers

A call reaches the output that its description addresses: an instrument address and a channel or pin. The nets
with limits are the saved nets at that output. The interlock compares the call with the limits of one record
only, the one its name lookup ends at; `interlock_covers_iff` says exactly when that is enough.
-/

namespace Lager.Safety

open Lager.Py

/-! ### The output a call reaches -/

/-- The channel of a description or a record, or else its pin. -/
def outputOf (d : Dict) : Json := if Dict.get d "channel" ≠ .null then Dict.get d "channel" else Dict.get d "pin"

/-- The saved net sits at the address and the channel or pin that the payload addresses. -/
def Addresses (netInfo : Json) (record : Dict) : Prop :=
  match netInfo with
  | .obj info => (Dict.get info "address").truthy = true ∧
      (Dict.get record "address").pyEq (Dict.get info "address") = true ∧
      (outputOf record).pyEq (outputOf info) = true
  | _ => False

instance (netInfo : Json) (record : Dict) : Decidable (Addresses netInfo record) := by
  unfold Addresses
  split <;> infer_instance

section Limits

variable (cfg : Config)

/-- A commanded value is not within the ceiling for its key: the key has a ceiling, and the value is a number
that is not at most it in magnitude (an `int` that no float can hold is above every ceiling). -/
def NotWithin (limits : Dict) (command : String × String × Json) : Prop :=
  match ceiling limits command.1, coerceFloat cfg.floatOfText command.2.2 with
  | some (.ok limit), .ok (some value) => value.abs.le limit = false
  | some (.ok _), .error _ => True
  | _, _ => False

/-- The value makes the comparison of `_enforce` raise. -/
def Trips (limits : Dict) (command : String × String × Json) : Prop :=
  match coerceFloat cfg.floatOfText command.2.2, ceiling limits command.1 with
  | .error _, _ => True
  | .ok (some value), some (.ok limit) => value.abs.gt limit = true
  | .ok (some _), some (.error _) => True
  | _, _ => False

/-- The call is a guarded one for this record and commands a value beyond one of its ceilings. -/
def Beyond (record : Dict) (functionName : String) (args kwargs : Json) : Prop :=
  ∃ role limits, roleOf record = some role ∧ limitsOf record = some limits ∧
    isGuarded (some role) functionName = true ∧
    ∃ command ∈ commanded role functionName args kwargs, NotWithin cfg limits command

/-- The record's own limits stop the call: it turns off a protection that one of its ceilings relies on, or it
commands a value above one. -/
def Stops (record : Dict) (functionName : String) (args kwargs : Json) : Prop :=
  ∃ role limits, roleOf record = some role ∧ limitsOf record = some limits ∧
    isGuarded (some role) functionName = true ∧
    ((∃ key, protectionOff.lookup functionName = some key ∧ (ceiling limits key).isSome = true) ∨
      ∃ command ∈ commanded role functionName args kwargs, Trips cfg limits command)

/-- A call beyond a ceiling of a net at the output it reaches is also stopped by the limits of the record that
its name lookup ends at. -/
def Covered (nets : List Dict) (netInfo : Json) (functionName : String) (args kwargs : Json) : Prop :=
  ∀ name, resolveNetName nets netInfo = .ok (some name) → getNets nets = .ok nets →
    ∀ record ∈ nets, Addresses netInfo record → Beyond cfg record functionName args kwargs →
      ∃ owner, findByName nets name = some owner ∧ Stops cfg owner functionName args kwargs

/-! ### The check, record by record -/

variable {cfg}

theorem forM_ok_iff {α : Type} {f : α → Except Refusal Unit} {xs : List α} :
    xs.forM f = .ok () ↔ ∀ x ∈ xs, f x = .ok () := by
  induction xs with
  | nil => simp [List.forM_nil, pure, Except.pure]
  | cons x xs ih =>
    rw [List.forall_mem_cons, ← ih, List.forM_eq_forM, List.forM_cons]
    cases h : f x with
    | error e => simp [bind, Except.bind]
    | ok u => simp [bind, Except.bind]

theorem enforceOne_ok_iff {netName : String} {limits : Dict} {command : String × String × Json} :
    enforceOne cfg.floatOfText netName limits command = .ok () ↔ ¬Trips cfg limits command := by
  unfold enforceOne Trips
  cases coerceFloat cfg.floatOfText command.2.2 with
  | error e => simp
  | ok requested =>
    cases requested with
    | none => simp [enforce]
    | some value =>
      cases hc : ceiling limits command.1 with
      | none => simp [enforce, hc]
      | some limit =>
        cases limit with
        | error e => simp [enforce, hc]
        | ok limit =>
          simp only [enforce, hc]
          split_ifs with hgt
          · simp [hgt]
          · simp [hgt]

theorem role_limits_of_guarded {nets : List Dict} {name functionName : String} {limits : Dict}
    (hguard : isGuarded (roleForNet nets name) functionName = true) (hlimits : limitsForNet nets name = some limits) :
    ∃ owner role, findByName nets name = some owner ∧ roleOf owner = some role ∧
      roleForNet nets name = some role ∧ limitsOf owner = some limits := by
  obtain ⟨owner, howner, hlim⟩ := Option.bind_eq_some_iff.mp hlimits
  have hrole : roleForNet nets name = roleOf owner := by
    rw [roleForNet, howner]
    rfl
  cases hr : roleOf owner with
  | none =>
    rw [hrole, hr] at hguard
    cases hguard
  | some role => exact ⟨owner, role, howner, hr, hrole.trans hr, hlim⟩

/-- A call that the limits of its record stop is not accepted. -/
theorem check_stopped {now : ℚ} {rate rate' : RateState} {nets : List Dict} {name functionName : String}
    {args kwargs : Json} {owner : Dict} (howner : findByName nets name = some owner)
    (hstops : Stops cfg owner functionName args kwargs) :
    check cfg now rate nets name functionName args kwargs ≠ .ok rate' := by
  obtain ⟨role, limits, hrole, hlimits, hguard, hstop⟩ := hstops
  have hroleFor : roleForNet nets name = some role := by
    rw [roleForNet, howner]
    exact hrole
  have hlimitsFor : limitsForNet nets name = some limits := by
    rw [limitsForNet, howner]
    exact hlimits
  simp only [check, hroleFor, hlimitsFor, hguard, Bool.true_eq_false, if_false, Option.getD_some]
  rcases hstop with ⟨key, hkey, hceiling⟩ | ⟨command, hcommand, htrips⟩
  · obtain ⟨limit, hlimit⟩ := Option.isSome_iff_exists.mp hceiling
    simp only [hkey, Option.bind_some, hlimit, Option.map_some]
    cases limit with
    | error e => simp
    | ok l => simp
  · split
    · simp
    · simp
    · split
      · simp
      · rename_i hforM
        exact absurd htrips (enforceOne_ok_iff.mp (forM_ok_iff.mp hforM command hcommand))

theorem checkRate_fresh {now : ℚ} {name functionName : String} :
    ∃ rate', checkRate cfg now (fun _ => none) name functionName = .ok rate' := by
  have hmax : ¬0 + 1 > cfg.maxCalls := Nat.not_lt.mpr cfg.maxCalls_pos
  simp only [checkRate, Option.getD_none, ite_self]
  exact ⟨_, if_neg hmax⟩

/-- A call that the limits of its record do not stop is accepted while the rate cap has room. -/
theorem check_accepted {now : ℚ} {nets : List Dict} {name functionName : String} {args kwargs : Json}
    (hfree : ∀ owner, findByName nets name = some owner → ¬Stops cfg owner functionName args kwargs) :
    ∃ rate', check cfg now (fun _ => none) nets name functionName args kwargs = .ok rate' := by
  by_cases hguard : isGuarded (roleForNet nets name) functionName = true
  · cases hlimits : limitsForNet nets name with
    | none => exact ⟨fun _ => none, by simp [check, hguard, hlimits]⟩
    | some limits =>
      obtain ⟨owner, role, howner, hrole, hroleFor, hlim⟩ := role_limits_of_guarded hguard hlimits
      have hnot := hfree owner howner
      have hprot : ((protectionOff.lookup functionName).bind fun key =>
          (ceiling limits key).map fun limit => (key, limit)) = none := by
        cases hkey : protectionOff.lookup functionName with
        | none => rfl
        | some key =>
          cases hceil : ceiling limits key with
          | none => simp [hceil]
          | some limit =>
            refine absurd ⟨role, limits, hrole, hlim, hroleFor ▸ hguard, .inl ⟨key, hkey, ?_⟩⟩ hnot
            rw [hceil]
            rfl
      have hforM : (commanded role functionName args kwargs).forM (enforceOne cfg.floatOfText name limits) = .ok () := by
        refine forM_ok_iff.mpr fun command hcommand => enforceOne_ok_iff.mpr fun htrips => hnot ?_
        exact ⟨role, limits, hrole, hlim, hroleFor ▸ hguard, .inr ⟨command, hcommand, htrips⟩⟩
      rw [hroleFor] at hguard
      simp only [check, hroleFor, hguard, hlimits, hprot, Option.getD_some, hforM, Bool.true_eq_false, if_false]
      split_ifs
      · exact checkRate_fresh
      · exact ⟨_, rfl⟩
  · rw [Bool.not_eq_true] at hguard
    exact ⟨fun _ => none, by simp [check, hguard]⟩

/-! ### Coverage -/

theorem mem_possiblyGuarded {role functionName : String} (h : isGuarded (some role) functionName = true) :
    functionName ∈ possiblyGuardedFunctions := by
  simp only [possiblyGuardedFunctions, List.mem_append, List.mem_map]
  simp only [isGuarded] at h
  split_ifs at h with hrole htable
  · rcases Bool.or_eq_true_iff.mp htable with hvalue | hoff
    · obtain ⟨key, hkey⟩ := Option.isSome_iff_exists.mp hvalue
      exact .inl (.inr ⟨_, Lib.mem_of_lookup hkey, rfl⟩)
    · obtain ⟨key, hkey⟩ := Option.isSome_iff_exists.mp hoff
      exact .inr ⟨_, Lib.mem_of_lookup hkey, rfl⟩
  · exact .inl (.inl (of_decide_eq_true (Bool.and_eq_true_iff.mp h).2))

theorem getNets_eq {nets nets' : List Dict} (h : getNets nets = .ok nets') : nets' = nets := by
  unfold getNets at h
  split_ifs at h
  cases h
  rfl

/-- Without a name for the net, a guarded call is refused as soon as one net has limits. -/
theorem unresolved_refused {now : ℚ} {rate rate' : RateState} {nets : List Dict} {netInfo : Json}
    {functionName : String} {args kwargs : Json} {record : Dict} (hrecord : record ∈ nets)
    (hbeyond : Beyond cfg record functionName args kwargs) (hname : resolveNetName nets netInfo = .ok none) :
    checkInvocation cfg now rate nets netInfo functionName args kwargs ≠ .ok rate' := by
  obtain ⟨role, limits, -, hlimits, hguard, -⟩ := hbeyond
  have hany : anyLimitsConfigured nets = true := List.any_eq_true.mpr ⟨record, hrecord, by rw [hlimits]; rfl⟩
  simp only [checkInvocation, hname, mem_possiblyGuarded hguard, if_true]
  cases hnets : getNets nets with
  | error e => simp
  | ok nets' => simp [getNets_eq hnets, hany]

/-- **When the hard tier covers the wire it protects.** For a table, a payload, a function and its arguments: in
every state of the rate cap an accepted call commands only values within the limits of every saved net at the
output it reaches, if and only if the call, whenever it is beyond such a limit, is also stopped by the limits of
the record that the payload's name, or else its address and channel, leads to. -/
theorem interlock_covers_iff (cfg : Config) (nets : List Dict) (netInfo : Json) (functionName : String)
    (args kwargs : Json) :
    (∀ (now : ℚ) (rate rate' : RateState),
        checkInvocation cfg now rate nets netInfo functionName args kwargs = .ok rate' →
        ∀ record ∈ nets, Addresses netInfo record → ¬Beyond cfg record functionName args kwargs) ↔
      Covered cfg nets netInfo functionName args kwargs := by
  constructor
  · intro hcovers name hname hnets record hrecord haddr hbeyond
    by_contra hnone
    obtain ⟨rate', haccept⟩ : ∃ rate', check cfg 0 (fun _ => none) nets name functionName args kwargs = .ok rate' :=
      check_accepted fun owner howner hstops => hnone ⟨owner, howner, hstops⟩
    refine hcovers 0 (fun _ => none) rate' ?_ record hrecord haddr hbeyond
    simp only [checkInvocation, hname, hnets]
    exact haccept
  · intro hcovered now rate rate' haccept record hrecord haddr hbeyond
    cases hname : resolveNetName nets netInfo with
    | error e => simp [checkInvocation, hname] at haccept
    | ok resolved =>
      cases resolved with
      | none => exact unresolved_refused hrecord hbeyond hname haccept
      | some name =>
        cases hnets : getNets nets with
        | error e => simp [checkInvocation, hname, hnets] at haccept
        | ok nets' =>
          obtain rfl := getNets_eq hnets
          obtain ⟨owner, howner, hstops⟩ := hcovered name hname hnets record hrecord haddr hbeyond
          simp only [checkInvocation, hname, hnets] at haccept
          exact check_stopped howner hstops haccept

/-- Between numbers, not within a ceiling is above it. -/
theorem trips_of_notWithin {limits : Dict} {command : String × String × Json} (h : NotWithin cfg limits command)
    (hvalue : coerceFloat cfg.floatOfText command.2.2 ≠ .ok (some .nan))
    (hceiling : ceiling limits command.1 ≠ some (.ok .nan)) : Trips cfg limits command := by
  unfold NotWithin at h
  unfold Trips
  split at h
  · rename_i limit value hlimit hval
    rw [hlimit] at hceiling ⊢
    rw [hval] at hvalue ⊢
    have hvalue' : value ≠ .nan := fun hc => hvalue (by rw [hc])
    have hlimit' : limit ≠ .nan := fun hc => hceiling (by rw [hc])
    have habs : value.abs ≠ .nan := by
      cases value <;> simp_all [PyFloat.abs]
    simp only [PyFloat.gt, Bool.and_eq_true, bne_iff_ne, ne_eq, Bool.not_eq_true']
    exact ⟨⟨habs, hlimit'⟩, h⟩
  · rename_i hval
    rw [hval]
    trivial
  · cases h

/-- A payload whose name leads to the net at its output is covered, as long as no NaN is involved. -/
theorem covered_of_named {nets : List Dict} {netInfo : Json} {functionName : String} {args kwargs : Json}
    (howner : ∀ name, resolveNetName nets netInfo = .ok (some name) → ∀ record ∈ nets, Addresses netInfo record →
      Beyond cfg record functionName args kwargs → findByName nets name = some record)
    (hvalues : ∀ role, ∀ command ∈ commanded role functionName args kwargs,
      coerceFloat cfg.floatOfText command.2.2 ≠ .ok (some .nan))
    (hceilings : ∀ record ∈ nets, ∀ limits, limitsOf record = some limits → ∀ key,
      ceiling limits key ≠ some (.ok .nan)) :
    Covered cfg nets netInfo functionName args kwargs := by
  intro name hname hnets record hrecord haddr hbeyond
  refine ⟨record, howner name hname record hrecord haddr hbeyond, ?_⟩
  obtain ⟨role, limits, hrole, hlimits, hguard, command, hcommand, hnot⟩ := hbeyond
  exact ⟨role, limits, hrole, hlimits, hguard, .inr ⟨command, hcommand,
    trips_of_notWithin hnot (hvalues role command hcommand) (hceilings record hrecord limits hlimits _)⟩⟩

end Limits

/-- A box with the default rate cap and no numbers in texts. -/
def defaultConfig : Config where
  floatOfText _ := none
  window := 10
  maxCalls := 60
  maxCalls_pos := by decide

/-- A supply net with a ceiling of five volts. -/
def limitedNet : Dict :=
  [("name", .str "vbat"), ("role", .str "power-supply"), ("address", .str "USB0::0x1AB1"), ("pin", .int 1),
    ("safety_limits", .obj [("max_voltage", .float (.fin 5))])]

/-- A payload that addresses the output of that net under a name that is not saved. -/
def unknownName : Json :=
  .obj [("name", .str "bench"), ("address", .str "USB0::0x1AB1"), ("channel", .int 1)]

/-- An unknown name gets 24 V past a ceiling of five. -/
theorem unknown_name_not_covered :
    (∃ rate', checkInvocation defaultConfig 0 (fun _ => none) [limitedNet] unknownName "voltage"
        (.arr [.float (.fin 24)]) (.obj []) = .ok rate') ∧
      Addresses unknownName limitedNet ∧ Beyond defaultConfig limitedNet "voltage" (.arr [.float (.fin 24)]) (.obj []) := by
  refine ⟨⟨_, rfl⟩, by decide, "power-supply", [("max_voltage", .float (.fin 5))], rfl, rfl, by decide, ?_⟩
  refine ⟨("max_voltage", "voltage", .float (.fin 24)), by decide, ?_⟩
  show ((PyFloat.fin 24).abs).le (.fin 5) = false
  decide

end Lager.Safety
