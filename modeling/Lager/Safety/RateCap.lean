import Lager.Lib.Outputs
import Lager.Safety.Interlock
import Mathlib.Algebra.Order.Ring.Unbundled.Rat
import Mathlib.Tactic.Linarith

/-!
# The rate cap

`_check_rate` counts the calls of a net and a method in a window of fixed length. The window starts with a call
and counts every call in it, the refused ones as well. `rate_cap` says what this bounds over a run of calls on any
keys.
-/

namespace Lager.Safety

open Lager.Lib

/-- A call of `_check_rate`: `time.monotonic()`, the net and the method. -/
structure Call where
  time : ℚ
  key : String × String
  deriving DecidableEq

/-- What becomes of a call: the window it is counted in, which call of that window it is, and whether it passes. -/
structure Counted extends Call where
  windowStart : ℚ
  count : Nat
  accepted : Bool
  deriving DecidableEq

/-- The call starts the window of its key. -/
abbrev Counted.Opens (o : Counted) : Prop := o.count = 1

/-- `_check_rate`, with the counters it leaves also when it raises. -/
def countCall (cfg : Config) (rate : RateState) (call : Call) : RateState × Counted :=
  let (start, count) := (rate call.key).getD (call.time, 0)
  let (start, count) := if call.time - start ≥ cfg.window then (call.time, 0) else (start, count)
  (fun key => if key = call.key then some (start, count + 1) else rate key,
    { call with windowStart := start, count := count + 1, accepted := decide (¬count + 1 > cfg.maxCalls) })

-- the equation of a call, for all the lemmas below
section
attribute [local simp] countCall
end

theorem checkRate_eq_countCall (cfg : Config) (now : ℚ) (rate : RateState) (netName functionName : String) :
    checkRate cfg now rate netName functionName =
      if (countCall cfg rate ⟨now, (netName, functionName)⟩).2.accepted = true
      then .ok (countCall cfg rate ⟨now, (netName, functionName)⟩).1
      else .error (.rateLimitExceeded netName functionName cfg.maxCalls cfg.window) := by
  simp only [checkRate, countCall, decide_eq_true_eq]
  rw [ite_not]

/-- The accepted calls of a key. -/
def acceptedOf (key : String × String) (os : List Counted) : Nat :=
  os.countP fun o => decide (o.key = key) && o.accepted

section Run

variable (cfg : Config)

/-- What becomes of a run of calls from a fresh start. -/
def counted (calls : List Call) : List Counted := outputs (countCall cfg) (fun _ => none) calls

variable {cfg}

/-! ### One call -/

@[simp] theorem countCall_call (rate : RateState) (call : Call) : (countCall cfg rate call).2.toCall = call := rfl

theorem countCall_accepted (rate : RateState) (call : Call) :
    (countCall cfg rate call).2.accepted = true ↔ (countCall cfg rate call).2.count ≤ cfg.maxCalls := by
  simp [countCall]

theorem countCall_pos (rate : RateState) (call : Call) : 1 ≤ (countCall cfg rate call).2.count := by
  simp [countCall]

theorem countCall_self (rate : RateState) (call : Call) :
    (countCall cfg rate call).1 call.key =
      some ((countCall cfg rate call).2.windowStart, (countCall cfg rate call).2.count) := by
  simp [countCall]

theorem countCall_other (rate : RateState) (call : Call) {key : String × String} (h : key ≠ call.key) :
    (countCall cfg rate call).1 key = rate key := by
  simp [countCall, h]

/-- A call within a window's length of the start of the window in force is the next one of it. -/
theorem countCall_near {rate : RateState} {call : Call} {start : ℚ} {n : Nat}
    (hentry : rate call.key = some (start, n)) (hnear : call.time - start < cfg.window) :
    (countCall cfg rate call).2.windowStart = start ∧ (countCall cfg rate call).2.count = n + 1 := by
  simp [countCall, hentry, not_le.mpr hnear]

/-- A call starts its window, or it is the next one of the window in force. -/
theorem countCall_cases (rate : RateState) (call : Call) :
    ((countCall cfg rate call).2.windowStart = call.time ∧ (countCall cfg rate call).2.count = 1) ∨
      ∃ start n, rate call.key = some (start, n) ∧ call.time - start < cfg.window ∧
        (countCall cfg rate call).2.windowStart = start ∧ (countCall cfg rate call).2.count = n + 1 := by
  cases hentry : rate call.key with
  | none =>
    left
    simp [countCall, hentry]
  | some entry =>
    obtain ⟨start, n⟩ := entry
    by_cases hover : call.time - start ≥ cfg.window
    · left
      simp [countCall, hentry, hover]
    · right
      exact ⟨start, n, rfl, not_le.mp hover, countCall_near hentry (not_le.mp hover)⟩

theorem map_toCall (rate : RateState) (calls : List Call) :
    (outputs (countCall cfg) rate calls).map Counted.toCall = calls := map_outputs (fun _ _ => rfl) _ _

/-! ### One window -/

/-- How many calls of the key its window has counted. -/
def used (rate : RateState) (key : String × String) : Nat := ((rate key).getD (0, 0)).2

theorem acceptedOf_cons (key : String × String) (o : Counted) (os : List Counted) :
    acceptedOf key (o :: os) = acceptedOf key os + if o.key = key ∧ o.accepted = true then 1 else 0 := by
  simp [acceptedOf, List.countP_cons]

theorem acceptedOf_append (key : String × String) (os os' : List Counted) :
    acceptedOf key (os ++ os') = acceptedOf key os + acceptedOf key os' := List.countP_append

/-- As long as no call starts another window, the window has room for what the cap leaves. -/
theorem acceptedOf_le_room {key : String × String} {rate : RateState} {calls : List Call}
    (hsame : ∀ o ∈ outputs (countCall cfg) rate calls, o.key = key → ¬o.Opens) :
    acceptedOf key (outputs (countCall cfg) rate calls) ≤ cfg.maxCalls - used rate key := by
  induction calls generalizing rate with
  | nil => exact Nat.zero_le _
  | cons call calls ih =>
    have hrest := ih fun o ho => hsame o (List.mem_cons_of_mem _ ho)
    show acceptedOf key ((countCall cfg rate call).2 :: _) ≤ _
    rw [acceptedOf_cons]
    by_cases hkey : call.key = key
    · obtain rfl := hkey
      have hnot : (countCall cfg rate call).2.count ≠ 1 := hsame _ List.mem_cons_self rfl
      rcases @countCall_cases cfg rate call with ⟨-, hone⟩ | ⟨start, n, hentry, -, -, hcount⟩
      · exact absurd hone hnot
      · have hused : used rate call.key = n := by rw [used, hentry, Option.getD_some]
        have hused' : used (countCall cfg rate call).1 call.key = n + 1 := by
          rw [used, countCall_self, Option.getD_some, hcount]
        rw [hused'] at hrest
        rw [hused]
        split_ifs with haccepted
        · have := (countCall_accepted rate call).mp haccepted.2
          omega
        · omega
    · have hused : used (countCall cfg rate call).1 key = used rate key := by
        rw [used, countCall_other rate call fun hc => hkey hc.symm, used]
      rw [hused] at hrest
      rw [if_neg fun h => hkey h.1]
      exact hrest

/-- A stretch in which only the first call may start a window has at most the cap accepted. -/
theorem acceptedOf_le_maxCalls {key : String × String} {rate : RateState} {calls : List Call} {first : Counted}
    {rest : List Counted} (hrun : outputs (countCall cfg) rate calls = first :: rest)
    (hsame : ∀ o ∈ rest, o.key = key → ¬o.Opens) : acceptedOf key (first :: rest) ≤ cfg.maxCalls := by
  obtain ⟨call, calls, rfl, rfl, rfl⟩ := outputs_eq_cons hrun
  have hrest := acceptedOf_le_room hsame
  rw [acceptedOf_cons]
  split_ifs with haccepted
  · obtain ⟨rfl, haccepted⟩ := haccepted
    have hcap := (countCall_accepted rate call).mp haccepted
    have hused : used (countCall cfg rate call).1 (countCall cfg rate call).2.key =
        (countCall cfg rate call).2.count := by
      show used _ call.key = _
      rw [used, countCall_self, Option.getD_some]
    have hpos : 1 ≤ (countCall cfg rate call).2.count := by simp [countCall]
    omega
  · omega

/-! ### One interval -/

/-- Calls within a window's length of its start stay in it. -/
theorem not_opens_of_near {key : String × String} {start : ℚ} {n : Nat} {rate : RateState} (hpos : 0 < n)
    (hentry : rate key = some (start, n)) {calls : List Call}
    (hnear : ∀ call ∈ calls, call.time - start < cfg.window) :
    ∀ o ∈ outputs (countCall cfg) rate calls, o.key = key → ¬o.Opens := by
  refine outputs_forall (fun rate => ∃ n, 0 < n ∧ rate key = some (start, n)) ?_ ⟨n, hpos, hentry⟩ hnear
  rintro rate call ⟨n, hpos, hentry⟩ hnear
  by_cases hkey : call.key = key
  · obtain rfl := hkey
    obtain ⟨hstart, hcount⟩ := countCall_near hentry hnear
    refine ⟨⟨n + 1, Nat.succ_pos n, ?_⟩, fun _ hone => ?_⟩
    · rw [countCall_self, hstart, hcount]
    · rw [Counted.Opens, hcount] at hone
      omega
  · refine ⟨⟨n, hpos, ?_⟩, fun hc => absurd hc hkey⟩
    rw [countCall_other rate call fun hc => hkey hc.symm]
    exact hentry

/-- In an interval shorter than the window, the window in force and one more share the accepted calls. -/
theorem acceptedOf_interval {key : String × String} {a b : ℚ} (hshort : b - a < cfg.window) {rate : RateState}
    {calls : List Call} (hin : ∀ call ∈ calls, a ≤ call.time ∧ call.time ≤ b) :
    acceptedOf key (outputs (countCall cfg) rate calls) ≤ cfg.maxCalls - used rate key + cfg.maxCalls := by
  induction calls generalizing rate with
  | nil => exact Nat.zero_le _
  | cons call calls ih =>
    have hhead := hin call List.mem_cons_self
    have htail : ∀ c ∈ calls, a ≤ c.time ∧ c.time ≤ b := fun c hc => hin c (List.mem_cons_of_mem _ hc)
    show acceptedOf key ((countCall cfg rate call).2 :: _) ≤ _
    by_cases hkey : call.key = key
    · obtain rfl := hkey
      rcases @countCall_cases cfg rate call with ⟨hstart, hone⟩ | ⟨start, n, hentry, -, -, hcount⟩
      · -- the call starts the other window, and the interval ends before that is over
        have hentry : (countCall cfg rate call).1 call.key = some (call.time, 1) := by
          rw [countCall_self, hstart, hone]
        have hnear : ∀ c ∈ calls, c.time - call.time < cfg.window := fun c hc => by
          linarith [(htail c hc).2, hhead.1]
        have hrun : outputs (countCall cfg) rate (call :: calls) =
            (countCall cfg rate call).2 :: outputs (countCall cfg) (countCall cfg rate call).1 calls := rfl
        exact (acceptedOf_le_maxCalls hrun (not_opens_of_near Nat.one_pos hentry hnear)).trans (Nat.le_add_left _ _)
      · have hrest := @ih (countCall cfg rate call).1 htail
        have hused : used rate call.key = n := by rw [used, hentry, Option.getD_some]
        have hused' : used (countCall cfg rate call).1 call.key = n + 1 := by
          rw [used, countCall_self, Option.getD_some, hcount]
        rw [hused'] at hrest
        rw [acceptedOf_cons, hused]
        split_ifs with haccepted
        · have := (countCall_accepted rate call).mp haccepted.2
          omega
        · omega
    · have hused : used (countCall cfg rate call).1 key = used rate key := by
        rw [used, countCall_other rate call fun hc => hkey hc.symm, used]
      have hrest := @ih (countCall cfg rate call).1 htail
      rw [hused] at hrest
      rw [acceptedOf_cons, if_neg fun h => hkey h.1]
      exact hrest

/-! ### What a refusal says -/

/-- The window of a key that a run has led to: its first call and the calls since. -/
def InWindow (cfg : Config) (done : List Counted) (key : String × String) (start : ℚ) (n : Nat) : Prop :=
  ∃ before first rest, done = before ++ first :: rest ∧ first.key = key ∧ first.Opens ∧ first.time = start ∧
    (∀ o ∈ rest, o.key = key → ¬o.Opens) ∧ acceptedOf key (first :: rest) = min n cfg.maxCalls

theorem InWindow.snoc {done : List Counted} {key : String × String} {start : ℚ} {n m : Nat}
    (h : InWindow cfg done key start n) {o : Counted} (ho : o.key = key → ¬o.Opens)
    (hcount : min n cfg.maxCalls + (if o.key = key ∧ o.accepted = true then 1 else 0) = min m cfg.maxCalls) :
    InWindow cfg (done ++ [o]) key start m := by
  obtain ⟨before, first, rest, rfl, hkey, hopens, hstart, hsame, haccepted⟩ := h
  refine ⟨before, first, rest ++ [o], by simp, hkey, hopens, hstart, ?_, ?_⟩
  · intro x hx
    rcases List.mem_append.mp hx with hx | hx
    · exact hsame x hx
    · rw [List.mem_singleton.mp hx]
      exact ho
  · rw [← List.cons_append, acceptedOf_append, haccepted, acceptedOf_cons, acceptedOf, List.countP_nil, Nat.zero_add]
    exact hcount

/-- The counter of a key says which calls its window has had. -/
def Tracks (cfg : Config) (done : List Counted) (rate : RateState) : Prop :=
  ∀ key start n, rate key = some (start, n) → 0 < n ∧ InWindow cfg done key start n

theorem Tracks.step {done : List Counted} {rate : RateState} (h : Tracks cfg done rate) (call : Call) :
    Tracks cfg (done ++ [(countCall cfg rate call).2]) (countCall cfg rate call).1 := by
  intro key start n hentry
  by_cases hkey : key = call.key
  · subst hkey
    rw [countCall_self] at hentry
    obtain ⟨rfl, rfl⟩ := Prod.mk.inj (Option.some.inj hentry)
    refine ⟨countCall_pos rate call, ?_⟩
    rcases @countCall_cases cfg rate call with ⟨hstart, hone⟩ | ⟨start, n, hentry, -, hstart, hcount⟩
    · refine ⟨done, (countCall cfg rate call).2, [], rfl, rfl, hone, hstart.symm, by simp, ?_⟩
      have haccepted : (countCall cfg rate call).2.accepted = true := by
        rw [countCall_accepted, hone]
        exact cfg.maxCalls_pos
      rw [acceptedOf_cons, if_pos ⟨rfl, haccepted⟩, hone, Nat.min_eq_left cfg.maxCalls_pos]
      rfl
    · obtain ⟨hpos, hwindow⟩ := h call.key start n hentry
      rw [hstart, hcount]
      refine hwindow.snoc (fun _ hone => ?_) ?_
      · rw [Counted.Opens, hcount] at hone
        omega
      · have haccepted := @countCall_accepted cfg rate call
        rw [hcount] at haccepted
        by_cases hle : n + 1 ≤ cfg.maxCalls
        · rw [if_pos ⟨rfl, haccepted.mpr hle⟩]
          omega
        · rw [if_neg fun hc => hle (haccepted.mp hc.2)]
          omega
  · rw [countCall_other rate call hkey] at hentry
    obtain ⟨hpos, hwindow⟩ := h key start n hentry
    have hne : (countCall cfg rate call).2.key ≠ key := fun hc => hkey hc.symm
    refine ⟨hpos, hwindow.snoc (fun hc => absurd hc hne) ?_⟩
    rw [if_neg fun hc => hne hc.1, Nat.add_zero]

theorem tracks_run (calls : List Call) :
    Tracks cfg (counted cfg calls) (after (countCall cfg) (fun _ => none) calls) :=
  outputs_history (Tracks cfg) (fun _ _ call h => h.step call) (fun _ _ _ h => by cases h) calls

/-! ### Keys apart -/

/-- The calls of a key are counted as if there were no others. -/
theorem outputs_filter {key : String × String} {rate rate' : RateState} (h : rate key = rate' key)
    (calls : List Call) :
    (outputs (countCall cfg) rate calls).filter (fun o => decide (o.key = key)) =
      outputs (countCall cfg) rate' (calls.filter fun call => decide (call.key = key)) := by
  induction calls generalizing rate rate' with
  | nil => rfl
  | cons call calls ih =>
    show List.filter _ ((countCall cfg rate call).2 :: _) = _
    by_cases hkey : call.key = key
    · obtain rfl := hkey
      have hsame : (countCall cfg rate call).2 = (countCall cfg rate' call).2 := by simp only [countCall, h]
      have hentry : (countCall cfg rate call).1 call.key = (countCall cfg rate' call).1 call.key := by
        rw [countCall_self, countCall_self, hsame]
      rw [List.filter_cons_of_pos (by simp), List.filter_cons_of_pos (by simp)]
      show _ = (countCall cfg rate' call).2 :: _
      rw [ih hentry, hsame]
    · rw [List.filter_cons_of_neg (by simp [hkey]), List.filter_cons_of_neg (by simp [hkey])]
      exact ih ((countCall_other rate call fun hc => hkey hc.symm).trans h)

end Run

/-- **The rate cap.** For every run of calls at times in order, on any keys: a stretch in which a key starts no
window but with its first call has at most the cap of it accepted, an interval shorter than the window has at
most twice the cap, a call is refused only when its window has had the cap accepted, and the calls of a key are
treated as if there were no others. -/
theorem rate_cap (cfg : Config) (calls : List Call) (horder : calls.Pairwise fun c d => c.time ≤ d.time)
    (key : String × String) :
    (∀ before first rest later, counted cfg calls = before ++ (first :: rest) ++ later →
        (∀ o ∈ rest, o.key = key → ¬o.Opens) → acceptedOf key (first :: rest) ≤ cfg.maxCalls) ∧
      (∀ a b : ℚ, b - a < cfg.window →
        acceptedOf key ((counted cfg calls).filter fun o => decide (a ≤ o.time) && decide (o.time ≤ b)) ≤
          2 * cfg.maxCalls) ∧
      (∀ before o later, counted cfg calls = before ++ o :: later → o.accepted = false →
        ∃ earlier first rest, before = earlier ++ first :: rest ∧ first.key = o.key ∧ first.Opens ∧
          (∀ x ∈ rest, x.key = o.key → ¬x.Opens) ∧ ¬o.Opens ∧ o.time - first.time < cfg.window ∧
          acceptedOf o.key (first :: rest) = cfg.maxCalls) ∧
      (counted cfg calls).filter (fun o => decide (o.key = key)) =
        counted cfg (calls.filter fun call => decide (call.key = key)) := by
  refine ⟨?_, ?_, ?_, outputs_filter rfl calls⟩
  · intro before first rest later hrun hsame
    rw [List.append_assoc] at hrun
    obtain ⟨_, _, -, -, hrun⟩ := outputs_eq_append hrun
    obtain ⟨_, _, -, hrun, -⟩ := outputs_eq_append hrun
    exact acceptedOf_le_maxCalls hrun hsame
  · intro a b hshort
    have htimes : (counted cfg calls).Pairwise fun o p => o.time ≤ p.time := by
      rw [← map_toCall (fun _ => none) calls, List.pairwise_map] at horder
      exact horder
    obtain ⟨pre, post, hrun⟩ := exists_stretch htimes htimes a b
    rw [List.append_assoc] at hrun
    obtain ⟨_, _, -, -, hrun⟩ := outputs_eq_append hrun
    obtain ⟨inside, _, -, hinside, -⟩ := outputs_eq_append hrun
    rw [← hinside]
    refine (acceptedOf_interval hshort fun call hcall => ?_).trans (by omega)
    rw [← @map_toCall cfg _ inside, hinside] at hcall
    obtain ⟨o, ho, rfl⟩ := List.mem_map.mp hcall
    simpa using (List.mem_filter.mp ho).2
  · intro before o later hrun hrefused
    obtain ⟨earlier, rest, rfl, rfl, hrest⟩ := outputs_eq_append hrun
    obtain ⟨call, _, rfl, rfl, -⟩ := outputs_eq_cons hrest
    have htracks := @tracks_run cfg earlier
    have hover : ¬(countCall cfg (after (countCall cfg) (fun _ => none) earlier) call).2.count ≤ cfg.maxCalls := by
      rw [← countCall_accepted, hrefused]
      simp
    have hcap := cfg.maxCalls_pos
    rcases @countCall_cases cfg (after (countCall cfg) (fun _ => none) earlier) call with
      ⟨-, hone⟩ | ⟨start, n, hentry, hnear, -, hcount⟩
    · omega
    · obtain ⟨hpos, before, first, rest, hsplit, hkey, hopens, rfl, hsame, haccepted⟩ :=
        htracks call.key start n hentry
      refine ⟨before, first, rest, hsplit, hkey, hopens, hsame, fun hone => ?_, hnear, ?_⟩
      · rw [Counted.Opens, hcount] at hone
        omega
      · rw [hcount] at hover
        exact haccepted.trans (by omega)

/-- One call in ten seconds. -/
def oncePerTen : Config where
  floatOfText _ := none
  window := 10
  maxCalls := 1
  maxCalls_pos := by decide

/-- Three calls of one key, the second within the window of the first. -/
def threeCalls : List Call :=
  [⟨0, ("vbat", "voltage")⟩, ⟨4, ("vbat", "voltage")⟩, ⟨10, ("vbat", "voltage")⟩]

example : (counted oncePerTen threeCalls).map Counted.accepted = [true, false, true] := by decide +kernel

theorem rate_cap_nine_seconds :
    acceptedOf ("vbat", "voltage")
      ((counted oncePerTen threeCalls).filter fun o => decide (4 ≤ o.time) && decide (o.time ≤ 13)) ≤ 2 :=
  (rate_cap oncePerTen threeCalls (by decide) ("vbat", "voltage")).2.1 4 13 (by decide +kernel)

end Lager.Safety
