import Lager.Py.Json
import Lager.Py.Text
import Lager.Lib.Group

/-!
# Probing the nets of one instrument

The part of `http_handlers/nets_handler.py` that asks an instrument for the state of its nets: how nets are
grouped into work units, the three paths of `_probe_group_entries`, and the entries they produce. What a probe
function answers or raises comes from the instrument and is an argument here.

The fields the sweep itself reads are text, `""` when they are missing. Times are in milliseconds.
-/

namespace Lager.Nets.Sweep

open Lager.Py Lager.Lib

/-- A saved net. -/
structure NetRec where
  name : String
  role : String
  instrument : String
  address : String
  /-- The other fields, which the probes read. -/
  other : Dict
  deriving DecidableEq

/-- One net's answer. -/
structure Entry where
  name : String
  role : String
  state : Json
  enabled : Option Bool
  reason : Option String
  reasonCode : Option String
  deriving DecidableEq

/-- A net is known to a client by its name and role. -/
def NetRec.net (rec : NetRec) : String × String := (rec.name, rec.role)

def Entry.net (e : Entry) : String × String := (e.name, e.role)

/-- The entry is about the net. -/
def AnswerOf (rec : NetRec) (e : Entry) : Prop := e.net = rec.net

/-! ### Entries and reasons -/

def reasonDeadline : String := "deadline"
def reasonNoProbe : String := "no probe for role"
def codeAbsent : String := "instrument-absent"
def codeTimeout : String := "instrument-timeout"
def codeBusy : String := "device-busy"
def codeCooldown : String := "probe-cooldown"

/-- `_entry`; an empty reason or code is as good as none. -/
def entry (name role : String) (state : Json) (reason code : Option String) (enabled : Option Bool) : Entry where
  name := name
  role := role
  state := state
  enabled := if state = .null then none else enabled
  reason := if state = .null then reason.filter (· ≠ "") else none
  reasonCode := if state = .null ∧ (reason.filter (· ≠ "")).isSome then code.filter (· ≠ "") else none

@[simp] theorem entry_net (name role : String) (state : Json) (reason code : Option String) (enabled : Option Bool) :
    (entry name role state reason code enabled).net = (name, role) := rfl

/-- `_unreadable` -/
def unreadable (detail : String) : String :=
  let detail := String.ofList (strip detail.toList)
  if detail = "" then "unreadable" else "unreadable: " ++ detail

/-- `_unknown` -/
def unknown (rec : NetRec) (reason : String) : Entry := entry rec.name rec.role .null (some reason) none none

def textOr (text default : String) : String := if text = "" then default else text

/-- Division that rounds a half to the even neighbour, as `format` does. -/
def roundDiv (n d : Nat) : Nat :=
  if 2 * (n % d) < d ∨ (2 * (n % d) = d ∧ n / d % 2 = 0) then n / d else n / d + 1

/-- `f"{t:.0f}"` -/
def seconds (ms : Nat) : String := toString (roundDiv ms 1000)

/-- `f"{t:.1f}"` -/
def tenths (ms : Nat) : String := toString (roundDiv ms 100 / 10) ++ "." ++ toString (roundDiv ms 100 % 10)

/-- `_timed_out` -/
def timedOut (rec : NetRec) (budget : Option Nat) : Entry :=
  let within := match budget with
    | some ms => " within " ++ tenths ms ++ "s"
    | none => ""
  entry rec.name rec.role .null
    (some ("timed out: no answer from " ++ textOr rec.instrument "the instrument" ++ within)) (some codeTimeout) none

theorem unknown_answer (rec : NetRec) (reason : String) : AnswerOf rec (unknown rec reason) := rfl

theorem timedOut_answer (rec : NetRec) (budget : Option Nat) : AnswerOf rec (timedOut rec budget) := rfl

/-! ### Work units -/

/-- `labjack[_\-\s]*t7` at the start of the text, letters in either case. The Kelvin sign is the one character
outside ASCII that Unicode folds to a letter of the pattern. -/
def startsLabjackT7 (text : List Char) : Bool :=
  let fold (c : Char) : Char := if c.toNat = 0x212a then 'k' else c.toLower
  let rest := (text.drop 7).dropWhile fun c => c = '_' || c = '-' || isSpace c
  (text.take 7).map fold == ['l', 'a', 'b', 'j', 'a', 'c', 'k'] && (rest.take 2).map fold == ['t', '7']

/-- `_is_labjack_t7` -/
def isLabjackT7 (rec : NetRec) : Bool := rec.instrument.toList.tails.any startsLabjackT7

def labjackBatchRoles : List String := ["gpio", "adc", "dac"]

/-- The roles of `_BATCH_PROBES`. -/
def batchProbes : List String := ["usb", "power-supply"]

/-- The roles of `_BRIEF_PROBES`. -/
def briefProbes : List String :=
  ["power-supply", "battery", "usb", "gpio", "adc", "dac", "thermocouple", "hsm", "eload", "webcam", "watt-meter",
    "energy-analyzer", "arm", "debug", "solar", "router", "mikrotik", "i2c"]

abbrev GroupKey := String × String × String

/-- A LabJack net that the batch endpoint reads. -/
def labjackBatched (rec : NetRec) : Bool := isLabjackT7 rec && labjackBatchRoles.contains rec.role

/-- `_group_key` -/
def groupKey (rec : NetRec) : GroupKey :=
  if labjackBatched rec then ("_labjack_", rec.instrument, rec.address) else (rec.role, rec.instrument, rec.address)

/-! ### One net -/

/-- What a probe function returns: a value, or a text with an on/off. -/
inductive Brief where
  | value (v : Json)
  | pair (text enabled : Json)
  deriving DecidableEq

/-- A call to `hardware_service` that failed under a budget. -/
inductive Failure where
  | busy (text : String)
  | timeout
  | other (text : String)
  deriving DecidableEq

/-- How a probe function ends: `raised` with `"Type: message"`. -/
inductive Outcome where
  | answered (value : Brief) (failures : List Failure)
  | raised (text : String)
  deriving DecidableEq

/-- `_enabled_or_none` -/
def enabledOrNone : Json → Option Bool
  | .bool b => some b
  | _ => none

/-- `_split_brief` -/
def splitBrief (role : String) : Brief → Json × Option Bool
  | .pair text enabled => (text, enabledOrNone enabled)
  | .value v =>
    if role = "usb" ∧ (v = .str "enabled" ∨ v = .str "disabled") then (v, some (decide (v = .str "enabled")))
    else (v, none)

/-- `_device_failure` -/
def deviceFailure (rec : NetRec) : Failure → String × Option String
  | .busy text => (unreadable text, some codeBusy)
  | .timeout => ("timed out: no answer from " ++ textOr rec.instrument "the instrument", some codeTimeout)
  | .other text => (unreadable text, none)

/-- `_probe_net_state`, under a deadline. -/
def probeNetState (rec : NetRec) (outcome : Outcome) : Entry :=
  if !briefProbes.contains rec.role then entry rec.name rec.role .null (some reasonNoProbe) none none
  else match outcome with
    | .raised text => entry rec.name rec.role .null (some (unreadable text)) none none
    | .answered value failures =>
      let (state, enabled) := splitBrief rec.role value
      match failures.getLast? with
      | some failure =>
        if state = .null then
          let (reason, code) := deviceFailure rec failure
          entry rec.name rec.role .null (some reason) code none
        else entry rec.name rec.role state none none enabled
      | none => entry rec.name rec.role state none none enabled

theorem probeNetState_answer (rec : NetRec) (outcome : Outcome) : AnswerOf rec (probeNetState rec outcome) := by
  unfold AnswerOf probeNetState
  split_ifs
  · rfl
  · cases outcome with
    | raised text => rfl
    | answered value failures =>
      simp only
      split
      · split_ifs <;> rfl
      · rfl

/-! ### One instrument -/

/-- How a batch probe ends. `unusable`: it returns something that has no `get`, which raises in the caller. -/
inductive Batch (α : Type) where
  | answered (states : String → α) (causes codes : String → Option String)
  | raised (text : String)
  | unusable

/-- The three paths of `_probe_group_entries`. -/
inductive Path where
  | labjack
  | batch (role : String)
  | perNet
  deriving DecidableEq

/-- The path is chosen by the first net of the group. -/
def path : List NetRec → Path
  | [] => .perNet
  | first :: _ =>
    if labjackBatched first then .labjack
    else if batchProbes.contains first.role then .batch first.role
    else .perNet

/-- The reason of a net that a batch left out: the cause it gave, or the generic wording. -/
def batchReason (causes : String → Option String) (name : String) : String :=
  unreadable (textOr ((causes name).getD "") "no value from instrument")

/-- Path 1: one call for all GPIO, ADC and DAC nets of a LabJack. -/
def labjackEntries (recs : List NetRec) : Batch Json → Except PyErr (List Entry)
  | .unusable => .error .attributeError
  | .raised text => .ok (recs.map fun rec => unknown rec (unreadable text))
  | .answered states causes codes => .ok (recs.map fun rec =>
      entry rec.name rec.role (states rec.name) (some (batchReason causes rec.name)) (codes rec.name) none)

/-- Path 2: one call for all nets of a role; every entry carries the role of the first net. -/
def batchEntries (role : String) (recs : List NetRec) : Batch Brief → Except PyErr (List Entry)
  | .unusable => .error .attributeError
  | .raised text => .ok (recs.map fun rec => unknown rec (unreadable text))
  | .answered states causes codes => .ok (recs.map fun rec =>
      let (state, enabled) := splitBrief role (states rec.name)
      entry rec.name role state (some (batchReason causes rec.name)) (codes rec.name) enabled)

/-- Entries for the nets, in their order. -/
abbrev Answers (recs : List NetRec) (entries : List Entry) : Prop := List.Forall₂ AnswerOf recs entries

theorem answers_map {recs : List NetRec} {f : NetRec → Entry} (h : ∀ rec ∈ recs, AnswerOf rec (f rec)) :
    Answers recs (recs.map f) := by
  rw [Answers, List.forall₂_map_right_iff, List.forall₂_same]
  exact h

theorem labjackEntries_answers {recs : List NetRec} {outcome : Batch Json} {out : List Entry}
    (h : labjackEntries recs outcome = .ok out) : Answers recs out := by
  cases outcome with
  | unusable => cases h
  | raised text =>
    cases h
    exact answers_map fun rec _ => unknown_answer rec _
  | answered states causes codes =>
    cases h
    exact answers_map fun _ _ => rfl

theorem batchEntries_answers {role : String} {recs : List NetRec} {outcome : Batch Brief} {out : List Entry}
    (hrole : ∀ rec ∈ recs, rec.role = role) (h : batchEntries role recs outcome = .ok out) : Answers recs out := by
  cases outcome with
  | unusable => cases h
  | raised text =>
    cases h
    exact answers_map fun rec _ => unknown_answer rec _
  | answered states causes codes =>
    cases h
    apply answers_map
    intro rec hrec
    rw [AnswerOf, entry_net, NetRec.net, hrole rec hrec]

/-- The nets of a group on path 2 have the role of its first net: no other key has a batch role in front. -/
theorem role_of_path_batch {recs : List NetRec} {key : GroupKey} {role : String}
    (hkey : ∀ rec ∈ recs, groupKey rec = key) (hpath : path recs = .batch role) :
    ∀ rec ∈ recs, rec.role = role := by
  cases recs with
  | nil => cases hpath
  | cons first rest =>
    rw [path] at hpath
    split_ifs at hpath with hlabjack hbatch
    cases hpath
    have hfirst : key.1 = first.role := by
      rw [← hkey first List.mem_cons_self, groupKey, if_neg (by simpa using hlabjack)]
    intro rec hrec
    have hsame := hkey rec hrec
    rw [groupKey] at hsame
    split_ifs at hsame with hrec'
    · rw [← hsame] at hfirst
      have hno : batchProbes.contains "_labjack_" = false := by decide
      rw [← hfirst] at hbatch
      exact absurd (hno.symm.trans hbatch) Bool.false_ne_true
    · rw [← hfirst, ← hsame]

end Lager.Nets.Sweep
