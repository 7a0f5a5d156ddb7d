import Lager.Lib.Split
import Lager.Py.Text

/-!
# Test output matchers

`UnityMatcher` and `EndsWithMatcher` of `cli/core/matchers.py`. Output comes in whatever pieces the serial port was
read in; both keep the partial line from one call of `feed` to the next. Unity has the output cut at its newlines
however it came, and never looks at a last line without one. `EndsWithMatcher` takes what follows a newline at the end
of a call for a line, so that the calls show in what it echoes, and echoes a last partial line without looking at it.

An echo is the line that is written and its colour; with a colour the line is decoded first.
-/

namespace Lager.Cli.Matchers

open Lager.Lib Lager.Py

def NEWLINE : UInt8 := 10

inductive Color where
  | red
  | green
  | yellow
  deriving DecidableEq

/-- One line that is written; `ended` is whether a newline follows. -/
structure Echo where
  line : Bytes
  color : Option Color
  ended : Bool
  deriving DecidableEq

/-- What a test run shows. -/
structure Outcome where
  echoes : List Echo
  exitCode : Nat
  deriving DecidableEq

/-! ### Unity -/

structure UnityMatcher where
  state : Bytes
  hasFail : Bool
  inSummary : Bool
  echoes : List Echo

namespace UnityMatcher

def summarySeparator : Bytes := encode "-----------------------".toList

/-- `marker in line` -/
def contains (marker line : Bytes) : Bool := line.tails.any (marker.isPrefixOf ·)

def isFail (line : Bytes) : Bool := contains (encode ":FAIL".toList) line

def start : UnityMatcher := ⟨[], false, false, []⟩

def echo (m : UnityMatcher) (line : Bytes) (color : Option Color) : UnityMatcher :=
  { m with echoes := m.echoes ++ [⟨line, color, true⟩] }

/-- One pass of the loop of `feed`. -/
def process (m : UnityMatcher) (line : Bytes) : UnityMatcher :=
  if line = summarySeparator then { m with inSummary := true }.echo line none
  else if m.inSummary then m.echo line (some (if m.hasFail then .red else .green))
  else if isFail line then { m with hasFail := true }.echo line (some .red)
  else if contains (encode ":PASS".toList) line then m.echo line (some .green)
  else if contains (encode ":INFO".toList) line then m.echo line (some .yellow)
  else m.echo line none

def feed (m : UnityMatcher) (data : Bytes) : UnityMatcher :=
  let state := m.state ++ data
  if NEWLINE ∉ data then { m with state := state }
  else
    let lines := state.splitOn NEWLINE
    lines.dropLast.foldl process { m with state := lines.getLastD [] }

def exitCode (m : UnityMatcher) : Nat := if m.hasFail then 1 else 0

end UnityMatcher

/-- The calls of `feed`; `done` does nothing. -/
def unity (chunks : List Bytes) : Outcome :=
  let m := chunks.foldl UnityMatcher.feed .start
  ⟨m.echoes, m.exitCode⟩

/-! ### Lines that end with -/

structure EndsWithMatcher where
  state : Bytes
  exitCode : Nat
  echoes : List Echo

/-- The searches of the two compiled expressions, where they are given. -/
structure Expressions where
  success : Option (Bytes → Bool)
  failure : Option (Bytes → Bool)

def Expressions.fails (e : Expressions) (line : Bytes) : Bool := e.failure.any (· line)

def Expressions.succeeds (e : Expressions) (line : Bytes) : Bool := e.success.any (· line)

namespace EndsWithMatcher

variable (e : Expressions)

def start : EndsWithMatcher := ⟨[], 0, []⟩

/-- One pass of the loop of `feed`. -/
def process (m : EndsWithMatcher) (line : Bytes) : EndsWithMatcher :=
  if e.fails line then ⟨m.state, 1, m.echoes ++ [⟨line, some .red, true⟩]⟩
  else if e.succeeds line then { m with echoes := m.echoes ++ [⟨line, some .green, true⟩] }
  else { m with echoes := m.echoes ++ [⟨line, none, true⟩] }

def feed (m : EndsWithMatcher) (data : Bytes) : EndsWithMatcher :=
  let data := m.state ++ data
  let lines := data.splitOn NEWLINE
  if data.getLast? = some NEWLINE then lines.foldl (process e) { m with state := [] }
  else lines.dropLast.foldl (process e) { m with state := lines.getLastD [] }

def done (m : EndsWithMatcher) : EndsWithMatcher :=
  if m.state ≠ [] then { m with echoes := m.echoes ++ [⟨m.state, none, false⟩] } else m

end EndsWithMatcher

/-- The calls of `feed` and that of `done`. -/
def endsWith (e : Expressions) (chunks : List Bytes) : Outcome :=
  let m := (chunks.foldl (EndsWithMatcher.feed e) .start).done
  ⟨m.echoes, m.exitCode⟩

/-! ### What an output says -/

/-- The lines of an output, with a last one that no newline ends. -/
def linesOf (output : Bytes) : List Bytes :=
  complete NEWLINE output ++ if rest NEWLINE output = [] then [] else [rest NEWLINE output]

/-- A line before the summary is a failure. -/
def UnityFails (output : Bytes) : Prop :=
  ∃ line ∈ (linesOf output).takeWhile (· ≠ UnityMatcher.summarySeparator), UnityMatcher.isFail line = true

/-- A line matches the failure expression. -/
def EndsWithFails (e : Expressions) (output : Bytes) : Prop := ∃ line ∈ linesOf output, e.fails line = true

/-- The outcome is that of the output as a whole: every line is echoed once, and the exit code tells a failure. -/
structure Independent (outcome : List Bytes → Outcome) (fails : Bytes → Prop) (chunks : List Bytes) : Prop where
  whole : outcome chunks = outcome [chunks.flatten]
  once : (outcome chunks).echoes.map Echo.line = linesOf chunks.flatten
  verdict : (outcome chunks).exitCode = 1 ↔ fails chunks.flatten

/-! ### Unity's state -/

section Unity

namespace UnityMatcher

variable {m : UnityMatcher}

theorem echoes_process (m : UnityMatcher) (line : Bytes) :
    (m.process line).echoes.map Echo.line = m.echoes.map Echo.line ++ [line] := by
  unfold process echo
  split_ifs <;> simp

theorem echoes_foldl (lines : List Bytes) (m : UnityMatcher) :
    (lines.foldl process m).echoes.map Echo.line = m.echoes.map Echo.line ++ lines := by
  induction lines generalizing m with
  | nil => simp
  | cons line lines ih => rw [List.foldl_cons, ih, echoes_process, List.append_assoc, List.singleton_append]

/-- Induction over the lines: a failure counts while the summary has not begun. -/
theorem hasFail_foldl (lines : List Bytes) (m : UnityMatcher) : (lines.foldl process m).hasFail =
    (m.hasFail || !m.inSummary && (lines.takeWhile (· ≠ summarySeparator)).any isFail) := by
  induction lines generalizing m with
  | nil => simp
  | cons line lines ih =>
    rw [List.foldl_cons, ih]
    unfold process echo
    by_cases hsep : line = summarySeparator
    · simp [hsep]
    · rw [if_neg hsep, List.takeWhile_cons_of_pos (by simpa using hsep), List.any_cons]
      by_cases hsummary : m.inSummary = true
      · simp [hsummary]
      · by_cases hfail : isFail line = true
        · simp [hsummary, hfail]
        · rw [if_neg hsummary, if_neg hfail]
          split_ifs <;> simp [hfail]

end UnityMatcher

/-- The state after some output: the complete lines are processed, and what comes after them is kept. -/
def unityAfter (output : Bytes) : UnityMatcher :=
  { (complete NEWLINE output).foldl UnityMatcher.process .start with state := rest NEWLINE output }

theorem process_state (m : UnityMatcher) (state line : Bytes) :
    UnityMatcher.process { m with state := state } line = { m.process line with state := state } := by
  unfold UnityMatcher.process UnityMatcher.echo
  split_ifs <;> rfl

theorem foldl_process_state (lines : List Bytes) (m : UnityMatcher) (state : Bytes) :
    lines.foldl UnityMatcher.process { m with state := state } =
      { lines.foldl UnityMatcher.process m with state := state } := by
  induction lines generalizing m with
  | nil => rfl
  | cons line lines ih => rw [List.foldl_cons, process_state, ih, List.foldl_cons]

theorem feed_unityAfter (output data : Bytes) :
    (unityAfter output).feed data = unityAfter (output ++ data) := by
  unfold UnityMatcher.feed unityAfter
  rw [complete_append, rest_append, List.foldl_append]
  by_cases hdata : NEWLINE ∈ data
  · rw [if_neg (not_not_intro hdata)]
    exact foldl_process_state (complete NEWLINE (rest NEWLINE output ++ data))
      ((complete NEWLINE output).foldl UnityMatcher.process .start) (rest NEWLINE (rest NEWLINE output ++ data))
  · have hfree : NEWLINE ∉ rest NEWLINE output ++ data := by
      rw [List.mem_append, not_or]
      exact ⟨not_mem_rest NEWLINE output, hdata⟩
    obtain ⟨hcomplete, hrest⟩ := splitOn_of_not_mem hfree
    rw [if_pos hdata, hcomplete, hrest]
    rfl

theorem foldl_feed_unityAfter (chunks : List Bytes) (output : Bytes) :
    chunks.foldl UnityMatcher.feed (unityAfter output) = unityAfter (output ++ chunks.flatten) := by
  induction chunks generalizing output with
  | nil => rw [List.flatten_nil, List.append_nil, List.foldl_nil]
  | cons chunk chunks ih =>
    rw [List.foldl_cons, feed_unityAfter, ih, List.flatten_cons, List.append_assoc]

theorem unity_eq (chunks : List Bytes) :
    unity chunks = ⟨(unityAfter chunks.flatten).echoes, (unityAfter chunks.flatten).exitCode⟩ := by
  unfold unity
  have hstart : UnityMatcher.start = unityAfter [] := rfl
  rw [hstart, foldl_feed_unityAfter, List.nil_append]

theorem unity_echoes (chunks : List Bytes) :
    (unity chunks).echoes.map Echo.line = complete NEWLINE chunks.flatten := by
  rw [unity_eq]
  exact UnityMatcher.echoes_foldl _ .start

theorem unity_exitCode (chunks : List Bytes) : (unity chunks).exitCode = 1 ↔
    ∃ line ∈ (complete NEWLINE chunks.flatten).takeWhile (· ≠ UnityMatcher.summarySeparator),
      UnityMatcher.isFail line = true := by
  have hfail : (unityAfter chunks.flatten).hasFail =
      (List.takeWhile (· ≠ UnityMatcher.summarySeparator) (complete NEWLINE chunks.flatten)).any UnityMatcher.isFail :=
    UnityMatcher.hasFail_foldl (complete NEWLINE chunks.flatten) .start
  rw [← List.any_eq_true, ← hfail, unity_eq]
  show (if (unityAfter chunks.flatten).hasFail = true then 1 else 0) = 1 ↔ _
  split_ifs with h
  · simp [h]
  · simp [h]

theorem independent_unity_iff (chunks : List Bytes) :
    Independent unity UnityFails chunks ↔ rest NEWLINE chunks.flatten = [] := by
  constructor
  · intro h
    by_contra hrest
    have honce := h.once
    rw [unity_echoes, linesOf, if_neg hrest] at honce
    have hlength := congrArg List.length honce
    simp at hlength
  · intro hrest
    have hlines : linesOf chunks.flatten = complete NEWLINE chunks.flatten := by
      rw [linesOf, if_pos hrest, List.append_nil]
    refine ⟨?_, ?_, ?_⟩
    · rw [unity_eq, unity_eq, List.flatten_singleton]
    · rw [unity_echoes, hlines]
    · rw [unity_exitCode, UnityFails, hlines]

end Unity

/-! ### The state of the other matcher -/

section EndsWith

variable {e : Expressions}

namespace EndsWithMatcher

theorem echoes_foldl (lines : List Bytes) (m : EndsWithMatcher) :
    (lines.foldl (process e) m).echoes.map Echo.line = m.echoes.map Echo.line ++ lines := by
  induction lines generalizing m with
  | nil => simp
  | cons line lines ih =>
    rw [List.foldl_cons, ih]
    unfold process
    split_ifs <;> simp

theorem exitCode_foldl (lines : List Bytes) (m : EndsWithMatcher) :
    (lines.foldl (process e) m).exitCode = if lines.any e.fails then 1 else m.exitCode := by
  induction lines generalizing m with
  | nil => simp
  | cons line lines ih =>
    rw [List.foldl_cons, ih]
    unfold process
    by_cases hfails : e.fails line = true
    · simp [hfails]
    · have hkept : (if e.succeeds line then
          { m with echoes := m.echoes ++ [⟨line, some .green, true⟩] }
        else { m with echoes := m.echoes ++ [⟨line, none, true⟩] } : EndsWithMatcher).exitCode = m.exitCode := by
        split_ifs <;> rfl
      rw [if_neg hfails, hkept, List.any_cons, Bool.eq_false_iff.mpr hfails, Bool.false_or]

theorem state_foldl (lines : List Bytes) (m : EndsWithMatcher) : (lines.foldl (process e) m).state = m.state := by
  induction lines generalizing m with
  | nil => rfl
  | cons line lines ih =>
    rw [List.foldl_cons, ih]
    unfold process
    split_ifs <;> rfl

/-- A call is at the end of a line where its data is: what was kept has no newline. -/
theorem getLast?_append_rest {output data : Bytes} :
    (rest NEWLINE output ++ data).getLast? = some NEWLINE ↔ data.getLast? = some NEWLINE := by
  rw [List.getLast?_append]
  cases hlast : data.getLast? with
  | some b => rfl
  | none =>
    constructor
    · intro h
      exact absurd (List.mem_of_getLast? h) (not_mem_rest NEWLINE output)
    · nofun

/-- What a call does that does not end at a newline. -/
theorem feed_inside {m : EndsWithMatcher} {output data : Bytes} (hstate : m.state = rest NEWLINE output)
    (h : data.getLast? ≠ some NEWLINE) :
    m.feed e data = (complete NEWLINE (rest NEWLINE output ++ data)).foldl (process e)
      { m with state := rest NEWLINE (output ++ data) } := by
  unfold feed
  rw [hstate, if_neg fun hlast => h (getLast?_append_rest.mp hlast), rest_append]
  rfl

/-- And one that does: the empty rest is a line too. -/
theorem feed_ended {m : EndsWithMatcher} {output data : Bytes} (hstate : m.state = rest NEWLINE output)
    (h : data.getLast? = some NEWLINE) :
    m.feed e data = (complete NEWLINE (rest NEWLINE output ++ data) ++ [[]]).foldl (process e)
        { m with state := [] } ∧ rest NEWLINE (output ++ data) = [] := by
  have hrest : rest NEWLINE (rest NEWLINE output ++ data) = [] :=
    rest_eq_nil_iff.mpr (Or.inr (getLast?_append_rest.mpr h))
  refine ⟨?_, by rw [rest_append, hrest]⟩
  unfold feed
  rw [hstate, if_pos (getLast?_append_rest.mpr h), splitOn_eq, hrest]

/-- Induction over the calls: what is kept is what comes after the last newline, and every call that ends at a
newline adds a line. -/
theorem foldl_feed (chunks : List Bytes) {m : EndsWithMatcher} {output : Bytes} (hstate : m.state = rest NEWLINE output)
    (hechoes : m.echoes.length = (complete NEWLINE output).length + n) :
    (chunks.foldl (feed e) m).state = rest NEWLINE (output ++ chunks.flatten) ∧
      (chunks.foldl (feed e) m).echoes.length = (complete NEWLINE (output ++ chunks.flatten)).length +
        (n + chunks.countP (·.getLast? == some NEWLINE)) := by
  induction chunks generalizing m output n with
  | nil => simpa using ⟨hstate, hechoes⟩
  | cons data chunks ih =>
    have hcount : ∀ (lines : List Bytes) (m : EndsWithMatcher),
        (lines.foldl (process e) m).echoes.length = m.echoes.length + lines.length := by
      intro lines m
      have hlength := congrArg List.length (@echoes_foldl e lines m)
      simpa using hlength
    rw [List.foldl_cons, List.flatten_cons, ← List.append_assoc]
    by_cases hended : data.getLast? = some NEWLINE
    · obtain ⟨hfeed, hrest⟩ := @feed_ended e _ _ _ hstate hended
      have hnext := @ih (n + 1) (m.feed e data) (output ++ data) (by rw [hfeed, state_foldl, hrest]) (by
        rw [hfeed, hcount, complete_append output data]
        simp only [List.length_append, List.length_singleton]
        omega)
      rw [List.countP_cons_of_pos (by simpa using hended)]
      exact ⟨hnext.1, by rw [hnext.2]; omega⟩
    · have hfeed := @feed_inside e _ _ _ hstate hended
      have hnext := @ih n (m.feed e data) (output ++ data) (by rw [hfeed, state_foldl]) (by
        rw [hfeed, hcount, complete_append output data]
        simp only [List.length_append]
        omega)
      rw [List.countP_cons_of_neg (by simpa using hended)]
      exact hnext

theorem foldl_process_state (lines : List Bytes) (m : EndsWithMatcher) (state : Bytes) :
    lines.foldl (process e) { m with state := state } = { lines.foldl (process e) m with state := state } := by
  induction lines generalizing m with
  | nil => rfl
  | cons line lines ih =>
    have hstep : process e { m with state := state } line = { process e m line with state := state } := by
      unfold process
      split_ifs <;> rfl
    rw [List.foldl_cons, hstep, ih, List.foldl_cons]

end EndsWithMatcher

/-- The state after some output whose calls do not end at a newline. -/
def endsWithAfter (e : Expressions) (output : Bytes) : EndsWithMatcher :=
  { (complete NEWLINE output).foldl (EndsWithMatcher.process e) .start with state := rest NEWLINE output }

theorem foldl_feed_endsWithAfter {chunks : List Bytes} (h : ∀ chunk ∈ chunks, chunk.getLast? ≠ some NEWLINE)
    (output : Bytes) :
    chunks.foldl (EndsWithMatcher.feed e) (endsWithAfter e output) = endsWithAfter e (output ++ chunks.flatten) := by
  induction chunks generalizing output with
  | nil => rw [List.flatten_nil, List.append_nil, List.foldl_nil]
  | cons data chunks ih =>
    have hfeed : (endsWithAfter e output).feed e data = endsWithAfter e (output ++ data) := by
      rw [EndsWithMatcher.feed_inside rfl (h data List.mem_cons_self)]
      unfold endsWithAfter
      rw [complete_append output data, List.foldl_append]
      exact EndsWithMatcher.foldl_process_state _ ((complete NEWLINE output).foldl (EndsWithMatcher.process e) .start) _
    rw [List.foldl_cons, hfeed, ih fun chunk hchunk => h chunk (List.mem_cons_of_mem data hchunk), List.flatten_cons,
      List.append_assoc]

/-- Pieces that do not end at a newline make an output that does not. -/
theorem getLast?_flatten_ne {chunks : List Bytes} (h : ∀ chunk ∈ chunks, chunk.getLast? ≠ some NEWLINE) :
    chunks.flatten.getLast? ≠ some NEWLINE := by
  induction chunks with
  | nil => nofun
  | cons chunk chunks ih =>
    have hlater := ih fun c hc => h c (List.mem_cons_of_mem chunk hc)
    rw [List.flatten_cons, List.getLast?_append]
    cases hlast : chunks.flatten.getLast? with
    | some b =>
      rw [hlast] at hlater
      exact hlater
    | none => exact h chunk List.mem_cons_self

theorem endsWith_eq {chunks : List Bytes} (h : ∀ chunk ∈ chunks, chunk.getLast? ≠ some NEWLINE) :
    endsWith e chunks =
      ⟨(endsWithAfter e chunks.flatten).done.echoes, (endsWithAfter e chunks.flatten).done.exitCode⟩ := by
  unfold endsWith
  have hstart : EndsWithMatcher.start = endsWithAfter e [] := rfl
  rw [hstart, foldl_feed_endsWithAfter h, List.nil_append]

theorem exitCode_done (m : EndsWithMatcher) : m.done.exitCode = m.exitCode := by
  unfold EndsWithMatcher.done
  split_ifs <;> rfl

theorem endsWith_echoes {chunks : List Bytes} (h : ∀ chunk ∈ chunks, chunk.getLast? ≠ some NEWLINE) :
    (endsWith e chunks).echoes.map Echo.line = linesOf chunks.flatten := by
  have hechoes : (endsWithAfter e chunks.flatten).echoes.map Echo.line = complete NEWLINE chunks.flatten :=
    EndsWithMatcher.echoes_foldl _ .start
  have hstate : (endsWithAfter e chunks.flatten).state = rest NEWLINE chunks.flatten := rfl
  rw [endsWith_eq h, linesOf]
  unfold EndsWithMatcher.done
  rw [hstate]
  by_cases hrest : rest NEWLINE chunks.flatten = []
  · rw [if_neg (not_not_intro hrest), if_pos hrest, List.append_nil]
    exact hechoes
  · rw [if_pos hrest, if_neg hrest, ← hechoes]
    simp

theorem endsWith_exitCode {chunks : List Bytes} (h : ∀ chunk ∈ chunks, chunk.getLast? ≠ some NEWLINE) :
    (endsWith e chunks).exitCode = 1 ↔ ∃ line ∈ complete NEWLINE chunks.flatten, e.fails line = true := by
  have hcode : (endsWithAfter e chunks.flatten).exitCode =
      if (complete NEWLINE chunks.flatten).any e.fails then 1 else 0 := EndsWithMatcher.exitCode_foldl _ .start
  rw [endsWith_eq h, exitCode_done, hcode, ← List.any_eq_true]
  split_ifs with hany
  · simp [hany]
  · simp [hany]

/-- A last line that fails is seen by no one: some other line has to. -/
def Seen (e : Expressions) (output : Bytes) : Prop :=
  rest NEWLINE output ≠ [] → e.fails (rest NEWLINE output) = true →
    ∃ line ∈ complete NEWLINE output, e.fails line = true

theorem mem_linesOf {output line : Bytes} :
    line ∈ linesOf output ↔ line ∈ complete NEWLINE output ∨ (rest NEWLINE output ≠ [] ∧ line = rest NEWLINE output) := by
  unfold linesOf
  split_ifs with h
  · simp [h]
  · simp [h]

/-- The count of the echoes: one more for each call that ends at a newline. -/
theorem length_endsWith (chunks : List Bytes) : (endsWith e chunks).echoes.length =
    (linesOf chunks.flatten).length + chunks.countP (·.getLast? == some NEWLINE) := by
  obtain ⟨hstate, hlength⟩ := @EndsWithMatcher.foldl_feed e 0 chunks .start [] rfl rfl
  rw [List.nil_append] at hstate hlength
  unfold endsWith EndsWithMatcher.done linesOf
  rw [hstate]
  by_cases hrest : rest NEWLINE chunks.flatten = []
  · rw [if_neg (not_not_intro hrest), if_pos hrest, List.append_nil, hlength]
    omega
  · rw [if_pos hrest, if_neg hrest]
    simp only [List.length_append, List.length_singleton, hlength]
    omega

theorem independent_endsWith_iff (e : Expressions) (chunks : List Bytes) :
    Independent (endsWith e) (EndsWithFails e) chunks ↔
      (∀ chunk ∈ chunks, chunk.getLast? ≠ some NEWLINE) ∧ Seen e chunks.flatten := by
  constructor
  · intro h
    have hlength := @length_endsWith e chunks
    rw [← h.once, List.length_map] at hlength
    have hnone : chunks.countP (·.getLast? == some NEWLINE) = 0 := by omega
    have hinside : ∀ chunk ∈ chunks, chunk.getLast? ≠ some NEWLINE := fun chunk hchunk hended =>
      List.countP_eq_zero.mp hnone chunk hchunk (by simpa using hended)
    refine ⟨hinside, fun hrest hfails => ?_⟩
    rw [← endsWith_exitCode hinside, h.verdict]
    exact ⟨_, mem_linesOf.mpr (Or.inr ⟨hrest, rfl⟩), hfails⟩
  · rintro ⟨hinside, hseen⟩
    have hwhole : ∀ chunk ∈ [chunks.flatten], chunk.getLast? ≠ some NEWLINE := by
      simpa using getLast?_flatten_ne hinside
    refine ⟨?_, endsWith_echoes hinside, ?_⟩
    · rw [endsWith_eq hinside, endsWith_eq hwhole, List.flatten_singleton]
    · rw [endsWith_exitCode hinside]
      constructor
      · rintro ⟨line, hline, hfails⟩
        exact ⟨line, mem_linesOf.mpr (Or.inl hline), hfails⟩
      · rintro ⟨line, hline, hfails⟩
        rcases mem_linesOf.mp hline with hline | ⟨hrest, rfl⟩
        · exact ⟨line, hline, hfails⟩
        · exact hseen hrest hfails

end EndsWith

/-! ### Both matchers -/

/-- **Packetisation.** Unity's outcome is that of the whole output exactly where the output is empty or ends at a
newline; that of the other matcher, exactly where no call ends at a newline, and a last line that fails is not the only
one to fail. -/
theorem independent_iff (e : Expressions) (chunks : List Bytes) :
    (Independent unity UnityFails chunks ↔ chunks.flatten = [] ∨ chunks.flatten.getLast? = some NEWLINE) ∧
      (Independent (endsWith e) (EndsWithFails e) chunks ↔
        (∀ chunk ∈ chunks, chunk.getLast? ≠ some NEWLINE) ∧ Seen e chunks.flatten) :=
  ⟨(independent_unity_iff chunks).trans rest_eq_nil_iff, independent_endsWith_iff e chunks⟩

/-- A failure in the last line, and a line in one call. -/
theorem dependent :
    ¬Independent unity UnityFails [encode "a:FAIL".toList] ∧
      ¬∀ e, Independent (endsWith e) (EndsWithFails e) [encode "a\n".toList] := by
  constructor
  · rw [independent_unity_iff]
    decide
  · intro h
    have hinside := ((independent_endsWith_iff ⟨none, none⟩ [encode "a\n".toList]).mp (h ⟨none, none⟩)).1
    exact hinside _ (List.mem_singleton_self _) (by decide)

end Lager.Cli.Matchers
