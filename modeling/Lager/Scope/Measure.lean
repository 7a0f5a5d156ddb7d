import Lager.Scope.Loop
import Mathlib.Algebra.Order.Field.Rat
import Mathlib.Algebra.BigOperators.Group.List.Basic
import Mathlib.Tactic.FieldSimp
import Mathlib.Tactic.Linarith
import Mathlib.Tactic.Positivity
import Mathlib.Tactic.Ring

/-!
# The measurements of one channel

`protocol/src/measure.rs`. The numbers are exact: a finite `f32` or `f64` of the frame stands for its rational value,
and the arithmetic on them is that of ℚ. The square root of the effective voltage is a parameter.
-/

namespace Lager.Scope.Measure

open Lager.Lib

/-! ### Values -/

/-- The value of a finite IEEE number with `p` bits of fraction and `w` of exponent. -/
def floatValue (p w bits : Nat) : ℚ :=
  let fraction := bits % 2 ^ p
  let exponent := bits / 2 ^ p % 2 ^ w
  let sign : ℚ := if bits / 2 ^ (p + w) % 2 = 1 then -1 else 1
  let mantissa := if exponent = 0 then fraction else 2 ^ p + fraction
  sign * (mantissa * 2 ^ max exponent 1) / 2 ^ (2 ^ (w - 1) - 1 + p)

def f32Value (bits : BitVec 32) : ℚ := floatValue 23 8 bits.toNat
def f64Value (bits : BitVec 64) : ℚ := floatValue 52 11 bits.toNat

/-- `f64::EPSILON`. -/
def EPSILON : ℚ := 1 / 2 ^ 52

structure MeasurementSet where
  vmax : ℚ
  vmin : ℚ
  vpp : ℚ
  vavg : ℚ
  vrms : ℚ
  period : Option ℚ
  frequency : Option ℚ
  dutyCyclePositive : Option ℚ
  dutyCycleNegative : Option ℚ
  pulseWidthPositive : Option ℚ
  pulseWidthNegative : Option ℚ
  riseTime : Option ℚ
  fallTime : Option ℚ
  overshoot : Option ℚ
  deriving DecidableEq

/-! ### Level crossings -/

structure Crossing where
  position : ℚ
  rising : Bool
  deriving DecidableEq

def interpolate (before after level : ℚ) (index : Nat) : ℚ :=
  let span := after - before
  if |span| < EPSILON then index else index + (level - before) / span

/-- The loop of `find_crossings`; `before` is the sample at `index`, and `samples` those after it. -/
def crossingsLoop (upper lower mid : ℚ) : Bool → Nat → ℚ → List ℚ → List Crossing
  | _, _, _, [] => []
  | stateHigh, index, before, value :: samples =>
    if stateHigh = false ∧ value > upper then
      ⟨interpolate before value mid index, true⟩ :: crossingsLoop upper lower mid true (index + 1) value samples
    else if stateHigh = true ∧ value < lower then
      ⟨interpolate before value mid index, false⟩ :: crossingsLoop upper lower mid false (index + 1) value samples
    else crossingsLoop upper lower mid stateHigh (index + 1) value samples

def findCrossings (samples : List ℚ) (low high mid : ℚ) : List Crossing :=
  match samples with
  | [] | [_] => []
  | first :: rest =>
    let hysteresis := (high - low) * (1 / 10)
    crossingsLoop (mid + hysteresis) (mid - hysteresis) mid (decide (first > mid)) 0 first rest

/-! ### Rise and fall times -/

def crossedFrom (rising : Bool) (level previous current : ℚ) : Bool :=
  if rising then previous < level ∧ current ≥ level else previous > level ∧ current ≤ level

def fellBack (rising : Bool) (level current : ℚ) : Bool :=
  if rising then current < level else current > level

/-- The loop of `transition_time`; `previous` is the sample at `index`. A passage of `toLevel` is tested as one of
`fromLevel` is. -/
def transitionLoop (intervalS fromLevel toLevel : ℚ) (rising : Bool) : Option ℚ → Nat → ℚ → List ℚ → Option ℚ
  | _, _, _, [] => none
  | start, index, previous, current :: samples =>
    if start = none ∧ crossedFrom rising fromLevel previous current then
      transitionLoop intervalS fromLevel toLevel rising (some (interpolate previous current fromLevel index))
        (index + 1) current samples
    else if fellBack rising fromLevel current then
      transitionLoop intervalS fromLevel toLevel rising none (index + 1) current samples
    else
      match start with
      | some startPosition =>
        if crossedFrom rising toLevel previous current then
          some ((interpolate previous current toLevel index - startPosition) * intervalS)
        else transitionLoop intervalS fromLevel toLevel rising start (index + 1) current samples
      | none => transitionLoop intervalS fromLevel toLevel rising none (index + 1) current samples

def transitionTime (samples : List ℚ) (intervalS fromLevel toLevel : ℚ) (rising : Bool) : Option ℚ :=
  match samples with
  | [] => none
  | first :: rest => transitionLoop intervalS fromLevel toLevel rising none 0 first rest

/-! ### One channel -/

/-- What the sample loop of `measure_channel` has read: the volts, their extremes and their distance in time. -/
structure Reading where
  samples : List ℚ
  intervalS : ℚ
  vmin : ℚ
  vmax : ℚ
  deriving DecidableEq

def toVolts (descriptor : ChannelFrame) (count : BitVec 16) : ℚ :=
  count.toInt * f32Value descriptor.scaleVPerCount + f32Value descriptor.offsetV

/-- `chunks_exact(2)`. -/
def chunksExact {α : Type} : List α → List (α × α)
  | a :: b :: rest => (a, b) :: chunksExact rest
  | _ => []

/-- The extremes start at the two infinities, and are read only where there is a sample. -/
def readVolts (f : CaptureFrame) (descriptor : ChannelFrame) (counts : List (BitVec 16)) : Option Reading :=
  if f.flags &&& FLAG_ENVELOPE ≠ 0 then
    let pairs := ((chunksExact counts).filter fun pair => pair.1 ≠ NO_SAMPLE ∧ pair.2 ≠ NO_SAMPLE).map
      fun pair => (toVolts descriptor pair.1, toVolts descriptor pair.2)
    match (pairs.map (·.1)).min?, (pairs.map (·.2)).max? with
    | some vmin, some vmax =>
      some ⟨pairs.map fun pair => (pair.1 + pair.2) / 2, f64Value f.sampleIntervalNs * 2 / 1000000000, vmin, vmax⟩
    | _, _ => none
  else
    let volts := (counts.filter (· ≠ NO_SAMPLE)).map (toVolts descriptor)
    match volts.min?, volts.max? with
    | some vmin, some vmax => some ⟨volts, f64Value f.sampleIntervalNs / 1000000000, vmin, vmax⟩
    | _, _ => none

/-- `windows(2)`. -/
def windows {α : Type} (l : List α) : List (α × α) := l.zip l.tail

/-- One turn of the loop that looks for the first complete high and the first complete low interval. -/
def widthStep (intervalS : ℚ) (widths : Option ℚ × Option ℚ) (pair : Crossing × Crossing) : Option ℚ × Option ℚ :=
  let width := (pair.2.position - pair.1.position) * intervalS
  if pair.1.rising = true ∧ widths.1 = none then (some width, widths.2)
  else if pair.1.rising = false ∧ widths.2 = none then (widths.1, some width)
  else widths

def risingPositions (crossings : List Crossing) : List ℚ := (crossings.filter (·.rising)).map (·.position)

/-- All cycles present are averaged. -/
def periodOf (intervalS : ℚ) (crossings : List Crossing) : Option ℚ :=
  let rising := risingPositions crossings
  if crossings.length ≥ 3 ∧ rising.length ≥ 2 then
    some ((rising.getLastD 0 - rising.headD 0) / ((rising.length - 1 : Nat) : ℚ) * intervalS)
  else none

def widthsOf (intervalS : ℚ) (crossings : List Crossing) : Option ℚ × Option ℚ :=
  if crossings.length ≥ 3 then (windows crossings).foldl (widthStep intervalS) (none, none) else (none, none)

def Reading.mid (r : Reading) : ℚ := (r.vmax + r.vmin) / 2

def Reading.crossings (r : Reading) : List Crossing := findCrossings r.samples r.vmin r.vmax r.mid

/-- `measure_channel` after the samples are read. -/
def measure (sqrt : ℚ → ℚ) (r : Reading) : MeasurementSet :=
  let n : ℚ := r.samples.length
  let vpp := r.vmax - r.vmin
  let period := periodOf r.intervalS r.crossings
  let widths := widthsOf r.intervalS r.crossings
  let frequency := (period.filter (0 < ·)).map (1 / ·)
  let dutyCyclePositive :=
    match widths.1, period with
    | some width, some p => if p > 0 then some (width / p * 100) else none
    | _, _ => none
  let lowThreshold := r.vmin + vpp * (1 / 10)
  let highThreshold := r.vmin + vpp * (9 / 10)
  let above := r.samples.filter (· > r.mid)
  let excess := r.vmax - above.sum / above.length
  { vmax := r.vmax, vmin := r.vmin, vpp, vavg := r.samples.sum / n,
    vrms := sqrt ((r.samples.map fun v => v * v).sum / n), period, frequency, dutyCyclePositive,
    dutyCycleNegative := dutyCyclePositive.map (100 - ·),
    pulseWidthPositive := widths.1, pulseWidthNegative := widths.2,
    riseTime := if vpp > 0 then transitionTime r.samples r.intervalS lowThreshold highThreshold true else none,
    fallTime := if vpp > 0 then transitionTime r.samples r.intervalS highThreshold lowThreshold false else none,
    overshoot :=
      if above ≠ [] ∧ vpp > 0 then if excess > 0 then some (excess / vpp * 100) else some 0 else none }

def readChannel (f : CaptureFrame) (channelIndex : Nat) : Except Fault (Option Reading) := do
  match f.channels[channelIndex]?, ← channelSamples f channelIndex with
  | some descriptor, some counts => pure (readVolts f descriptor counts)
  | _, _ => pure none

def measureChannel (sqrt : ℚ → ℚ) (f : CaptureFrame) (channelIndex : Nat) :
    Except Fault (Option MeasurementSet) := do
  pure ((← readChannel f channelIndex).map (measure sqrt))

end Lager.Scope.Measure
