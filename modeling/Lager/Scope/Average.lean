import Lager.Lib.Outputs
import Lager.Scope.Loop
import Mathlib.Algebra.BigOperators.Group.List.Basic
import Mathlib.Algebra.Order.Field.Basic
import Mathlib.Data.Rat.Floor
import Mathlib.Tactic.FieldSimp
import Mathlib.Tactic.Linarith
import Mathlib.Tactic.Ring

/-!
# The running average of captures

`Averager.feed` over any arithmetic of the kept values: with that of `f32` it is the loop's own (`feed_float`),
and here it is followed in rational numbers. The captures are of one shape, from the one that starts the average
over: `averaging` gives the kept value after each of them, and where the samples handed on lie.
-/

namespace Lager.Scope

open Lager.Lib

/-- What the average does with numbers. -/
structure Arith (K : Type) where
  /-- `f32::from(sample)`. -/
  ofSample : BitVec 16 → K
  /-- `sum + (x - sum) * (1.0 / taken as f32)`. -/
  blend : K → K → Nat → K
  /-- `sum.round().clamp(-32767.0, 32767.0) as i16`. -/
  toSample : K → BitVec 16

/-- An `Averager` that keeps values of `K`. -/
structure Average (K : Type) where
  sums : List K
  taken : Nat
  shape : Option (List ChannelId × BitVec 32)

/-- The channels of a capture and its depth. -/
def shapeOf (frame : CaptureFrame) : List ChannelId × BitVec 32 :=
  (frame.channels.map (·.channel), frame.samplesPerChannel)

namespace Average

variable {K : Type} (A : Arith K)

/-- `reset`. -/
def reset (_ : Average K) : Average K := ⟨[], 0, none⟩

/-- The capture is not of the shape that is being averaged. -/
def StartsOver (a : Average K) (frame : CaptureFrame) : Prop :=
  a.shape ≠ some (shapeOf frame) ∨ a.sums.length ≠ frame.samples.length

instance (a : Average K) (frame : CaptureFrame) : Decidable (a.StartsOver frame) := by
  unfold StartsOver
  infer_instance

/-- `feed`: the average and the capture that is handed on. -/
def feed (count : Nat) (a : Average K) (frame : CaptureFrame) : Average K × CaptureFrame :=
  if a.StartsOver frame then (⟨frame.samples.map A.ofSample, 1, some (shapeOf frame)⟩, frame)
  else
    let taken := min (a.taken + 1) (max count 1)
    let sums := List.zipWith (fun sum s => A.blend sum (A.ofSample s) taken) a.sums frame.samples
    (⟨sums, taken, a.shape⟩, { frame with samples := sums.map A.toSample })

end Average

/-- The arithmetic of the loop. -/
def floatArith : Arith Float32 where
  ofSample := f32OfSample
  blend sum x taken := sum + (x - sum) * (1 / Float32.ofNat taken)
  toSample := sampleOfF32

theorem feed_float (a : Averager) (frame : CaptureFrame) (count : Nat) :
    ((⟨a.sums, a.taken, a.shape⟩ : Average Float32).feed floatArith count frame).2 = (a.feed frame count).1 ∧
      ((⟨a.sums, a.taken, a.shape⟩ : Average Float32).feed floatArith count frame).1 =
        ⟨(a.feed frame count).2.sums, (a.feed frame count).2.taken, (a.feed frame count).2.shape⟩ := by
  unfold Average.feed Averager.feed
  by_cases h : (⟨a.sums, a.taken, a.shape⟩ : Average Float32).StartsOver frame
  · have hcode : a.shape ≠ some (frame.channels.map (·.channel), frame.samplesPerChannel) ∨
        a.sums.length ≠ frame.samples.length := h
    constructor
    · simp only [if_pos h, if_pos hcode]
    · simp only [if_pos h, if_pos hcode]
      rfl
  · have hcode : ¬(a.shape ≠ some (frame.channels.map (·.channel), frame.samplesPerChannel) ∨
        a.sums.length ≠ frame.samples.length) := h
    constructor
    · simp only [if_neg h, if_neg hcode]
      rfl
    · simp only [if_neg h, if_neg hcode]
      rfl

/-! ### Exact arithmetic -/

/-- `round`: to the nearest integer, halves away from zero. -/
def roundAway (x : ℚ) : ℤ := if 0 ≤ x then ⌊x + 1 / 2⌋ else -⌊-x + 1 / 2⌋

/-- The arithmetic of rational numbers. -/
def exact : Arith ℚ where
  ofSample s := s.toInt
  blend sum x taken := sum + (x - sum) * (1 / taken)
  toSample x := BitVec.ofInt 16 (max (-32767) (min (roundAway x) 32767))

theorem roundAway_le {x : ℚ} {n : ℤ} (h : x ≤ n) : roundAway x ≤ n := by
  unfold roundAway
  split_ifs with hx
  · rw [← Int.lt_add_one_iff, Int.floor_lt]
    push_cast
    linarith
  · have hfloor : -n ≤ ⌊-x + 1 / 2⌋ := by
      rw [Int.le_floor]
      push_cast
      linarith
    omega

theorem le_roundAway {x : ℚ} {n : ℤ} (h : n ≤ x) : n ≤ roundAway x := by
  unfold roundAway
  split_ifs with hx
  · rw [Int.le_floor]
    linarith
  · have hfloor : ⌊-x + 1 / 2⌋ ≤ -n := by
      rw [← Int.lt_add_one_iff, Int.floor_lt]
      push_cast
      linarith
    omega

/-- A kept value between two samples is handed on between them. -/
theorem toSample_between {x : ℚ} {lo hi : ℤ} (hlo : lo ≤ x) (hhi : x ≤ hi) (htop : lo ≤ 32767)
    (hbottom : -32767 ≤ hi) : lo ≤ (exact.toSample x).toInt ∧ (exact.toSample x).toInt ≤ hi := by
  have hvalue : (exact.toSample x).toInt = max (-32767) (min (roundAway x) 32767) := by
    show (BitVec.ofInt 16 _).toInt = _
    rw [BitVec.toInt_ofInt, Int.bmod_eq_of_le] <;> omega
  rw [hvalue]
  have := roundAway_le hhi
  have := le_roundAway hlo
  omega

/-- The sample at a position of a capture. -/
def sampleAt (i : Nat) (frame : CaptureFrame) : ℤ := (frame.samples.getD i 0).toInt

/-- The mean of the samples at a position. -/
def meanAt (i : Nat) (frames : List CaptureFrame) : ℚ :=
  (frames.map fun frame => (sampleAt i frame : ℚ)).sum / frames.length

/-! ### A run of captures of one shape -/

section Run

variable {count : Nat} {a : Average ℚ} {first : CaptureFrame}

theorem getD_zipWith {α β γ : Type} {f : α → β → γ} {as : List α} {bs : List β} (h : as.length = bs.length)
    {i : Nat} (hi : i < as.length) (x : α) (y : β) (z : γ) :
    (List.zipWith f as bs).getD i z = f (as.getD i x) (bs.getD i y) := by
  have hj : i < bs.length := h ▸ hi
  simp [List.getD_eq_getElem?_getD, List.getElem?_zipWith, List.getElem?_eq_getElem hi,
    List.getElem?_eq_getElem hj]

theorem getD_map {α β : Type} {f : α → β} {as : List α} {i : Nat} (hi : i < as.length) (x : α) (y : β) :
    (as.map f).getD i y = f (as.getD i x) := by
  simp [List.getD_eq_getElem?_getD, List.getElem?_eq_getElem hi]

/-- The capture has the channels, the depth and the samples of the first. -/
def SameShape (first frame : CaptureFrame) : Prop :=
  shapeOf frame = shapeOf first ∧ frame.samples.length = first.samples.length

/-- What the average is after the captures of one run. -/
structure Averages (count : Nat) (first : CaptureFrame) (frames : List CaptureFrame) (a : Average ℚ) : Prop where
  shape : a.shape = some (shapeOf first)
  length : a.sums.length = first.samples.length
  nonempty : 0 < frames.length
  taken : a.taken = min frames.length count
  mean : frames.length ≤ count → ∀ i < first.samples.length, a.sums.getD i 0 = meanAt i frames
  between : ∀ i < first.samples.length, ∀ lo hi : ℤ,
    (∀ frame ∈ frames, lo ≤ sampleAt i frame ∧ sampleAt i frame ≤ hi) → lo ≤ a.sums.getD i 0 ∧ a.sums.getD i 0 ≤ hi

theorem averages_first (hcount : 1 ≤ count) (hstart : a.StartsOver first) :
    Averages count first [first] (a.feed exact count first).1 := by
  have hfeed : (a.feed exact count first).1 = ⟨first.samples.map exact.ofSample, 1, some (shapeOf first)⟩ := by
    rw [Average.feed, if_pos hstart]
  have hvalue : ∀ i < first.samples.length, (first.samples.map exact.ofSample).getD i 0 = sampleAt i first :=
    fun i hi => getD_map hi 0 0
  rw [hfeed]
  refine ⟨rfl, by simp, Nat.one_pos, (Nat.min_eq_left hcount).symm, fun _ i hi => ?_, fun i hi lo hi' hin => ?_⟩
  · show (first.samples.map exact.ofSample).getD i 0 = _
    rw [hvalue i hi]
    simp [meanAt]
  · show _ ≤ (first.samples.map exact.ofSample).getD i 0 ∧ (first.samples.map exact.ofSample).getD i 0 ≤ _
    rw [hvalue i hi]
    exact_mod_cast hin first (List.mem_singleton_self first)

theorem blend_eq (s x : ℚ) (n : Nat) : exact.blend s x n = s + (x - s) / n := by
  show s + (x - s) * (1 / n) = _
  rw [mul_one_div]

/-- A blend of two values lies between them. -/
theorem blend_between {s x lo hi : ℚ} {n : Nat} (hn : 0 < n) (hs : lo ≤ s ∧ s ≤ hi) (hx : lo ≤ x ∧ x ≤ hi) :
    lo ≤ exact.blend s x n ∧ exact.blend s x n ≤ hi := by
  have hpos : (0 : ℚ) < n := Nat.cast_pos.mpr hn
  have hone : (1 : ℚ) ≤ n := by exact_mod_cast hn
  rw [blend_eq]
  have hform : s + (x - s) / n = (s * (n - 1) + x) / n := by
    field_simp
    ring
  rw [hform, le_div_iff₀ hpos, div_le_iff₀ hpos]
  constructor
  · nlinarith [mul_nonneg (sub_nonneg.mpr hs.1) (sub_nonneg.mpr hone)]
  · nlinarith [mul_nonneg (sub_nonneg.mpr hs.2) (sub_nonneg.mpr hone)]

/-- The mean with one more value. -/
theorem meanAt_append {i : Nat} {frames : List CaptureFrame} {frame : CaptureFrame} (hne : 0 < frames.length) :
    meanAt i (frames ++ [frame]) =
      meanAt i frames + (sampleAt i frame - meanAt i frames) / (frames.length + 1 : ℕ) := by
  have hpos : (0 : ℚ) < frames.length := Nat.cast_pos.mpr hne
  simp only [meanAt, List.map_append, List.map_cons, List.map_nil, List.sum_append, List.sum_singleton,
    List.length_append, List.length_singleton]
  push_cast
  field_simp
  ring

theorem not_startsOver {frames : List CaptureFrame} (h : Averages count first frames a) {frame : CaptureFrame}
    (hsame : SameShape first frame) : ¬a.StartsOver frame := by
  rintro (hshape | hlength)
  · exact hshape (h.shape.trans (congrArg some hsame.1.symm))
  · exact hlength (h.length.trans hsame.2.symm)

/-- What one more capture of the shape does to the kept values. -/
theorem feed_sums {frames : List CaptureFrame} (h : Averages count first frames a) {frame : CaptureFrame}
    (hsame : SameShape first frame) {i : Nat} (hi : i < first.samples.length) :
    (a.feed exact count frame).1.sums.getD i 0 =
      exact.blend (a.sums.getD i 0) (sampleAt i frame) (min (a.taken + 1) (max count 1)) := by
  rw [Average.feed, if_neg (not_startsOver h hsame)]
  exact getD_zipWith (h.length.trans hsame.2.symm) (h.length ▸ hi) 0 0 0

theorem Averages.feed (hcount : 1 ≤ count) {frames : List CaptureFrame} (h : Averages count first frames a)
    {frame : CaptureFrame} (hsame : SameShape first frame) :
    Averages count first (frames ++ [frame]) (a.feed exact count frame).1 := by
  have htaken : (a.feed exact count frame).1.taken = min (frames ++ [frame]).length count := by
    rw [Average.feed, if_neg (not_startsOver h hsame)]
    show min (a.taken + 1) (max count 1) = _
    rw [h.taken, List.length_append, List.length_singleton]
    omega
  have hmax : max count 1 = count := Nat.max_eq_left hcount
  refine ⟨?_, ?_, by simp, htaken, fun hle i hi => ?_, fun i hi lo hi' hin => ?_⟩
  · rw [Average.feed, if_neg (not_startsOver h hsame)]
    exact h.shape
  · rw [Average.feed, if_neg (not_startsOver h hsame)]
    show (List.zipWith _ a.sums frame.samples).length = _
    rw [List.length_zipWith, h.length, hsame.2, Nat.min_self]
  · rw [List.length_append, List.length_singleton] at hle
    have hnow : min (a.taken + 1) count = frames.length + 1 := by
      rw [h.taken]
      omega
    rw [feed_sums h hsame hi, hmax, hnow, h.mean (by omega) i hi, meanAt_append h.nonempty, blend_eq]
  · have hold := h.between i hi lo hi' fun f hf => hin f (List.mem_append_left _ hf)
    have hnew := hin frame (List.mem_append_right _ (List.mem_singleton_self frame))
    rw [feed_sums h hsame hi]
    refine blend_between (by omega) hold ?_
    exact_mod_cast hnew

theorem averages_run (hcount : 1 ≤ count) (hstart : a.StartsOver first) {rest : List CaptureFrame}
    (hsame : ∀ frame ∈ rest, SameShape first frame) :
    Averages count first (first :: rest) (after (Average.feed exact count) a (first :: rest)) := by
  induction rest using List.reverseRecOn with
  | nil => exact averages_first hcount hstart
  | append_singleton rest frame ih =>
    rw [← List.cons_append, after_append]
    exact (ih fun f hf => hsame f (List.mem_append_left _ hf)).feed hcount
      (hsame frame (List.mem_append_right _ (List.mem_singleton_self frame)))

theorem feed_startsOver (hstart : a.StartsOver first) :
    a.feed exact count first = (⟨first.samples.map exact.ofSample, 1, some (shapeOf first)⟩, first) := if_pos hstart

theorem startsOver_reset (a : Average ℚ) (frame : CaptureFrame) : a.reset.StartsOver frame :=
  .inl (Option.some_ne_none _).symm

theorem Averages.startsOver {frames : List CaptureFrame} (h : Averages count first frames a) {other : CaptureFrame}
    (hother : ¬SameShape first other) : a.StartsOver other := by
  by_contra hnot
  simp only [Average.StartsOver, not_or, not_not] at hnot
  refine hother ⟨?_, hnot.2.symm.trans h.length⟩
  exact Option.some.inj (hnot.1.symm.trans h.shape)

/-- What is handed on lies between the captures so far. -/
theorem Averages.output_between (hcount : 1 ≤ count) {frames : List CaptureFrame} (h : Averages count first frames a)
    {frame : CaptureFrame} (hsame : SameShape first frame) {i : Nat} (hi : i < first.samples.length) {lo hi' : ℤ}
    (hin : ∀ f ∈ frames ++ [frame], lo ≤ sampleAt i f ∧ sampleAt i f ≤ hi') (hmin : -32768 < sampleAt i frame) :
    lo ≤ sampleAt i (a.feed exact count frame).2 ∧ sampleAt i (a.feed exact count frame).2 ≤ hi' := by
  have hnext := h.feed hcount hsame
  have hsample : sampleAt i (a.feed exact count frame).2 =
      (exact.toSample ((a.feed exact count frame).1.sums.getD i 0)).toInt := by
    have hlength := hnext.length
    rw [Average.feed, if_neg (not_startsOver h hsame)] at hlength ⊢
    exact congrArg BitVec.toInt (getD_map (hlength ▸ hi) 0 0)
  have hframe := hin frame (List.mem_append_right _ (List.mem_singleton_self frame))
  have htop : sampleAt i frame < 2 ^ 15 := BitVec.toInt_lt
  obtain ⟨hlo, hhi⟩ := hnext.between i hi lo hi' hin
  rw [hsample]
  exact toSample_between hlo hhi (by omega) (by omega)

end Run

/-- **Capture averaging.** An average of `count` captures that starts over with a capture hands that one on and
keeps, through the captures of its shape that follow, the mean of them while there are at most `count`; from then
on a further one moves each kept value a `count`-th of the way to its sample. Every sample handed on lies between
the samples of the run at its position, and a capture of another shape is treated as after a reset. -/
theorem averaging (count : Nat) (hcount : 1 ≤ count) (a : Average ℚ) (first : CaptureFrame)
    (rest : List CaptureFrame) (hstart : a.StartsOver first) (hsame : ∀ frame ∈ rest, SameShape first frame) :
    (a.feed exact count first).2 = first ∧
      (rest.length + 1 ≤ count → ∀ i < first.samples.length,
        (after (Average.feed exact count) a (first :: rest)).sums.getD i 0 = meanAt i (first :: rest)) ∧
      (∀ frame, SameShape first frame →
        (count ≤ rest.length + 1 → ∀ i < first.samples.length,
          (after (Average.feed exact count) a (first :: rest ++ [frame])).sums.getD i 0 =
            (after (Average.feed exact count) a (first :: rest)).sums.getD i 0 +
              (sampleAt i frame - (after (Average.feed exact count) a (first :: rest)).sums.getD i 0) / count) ∧
        ∀ i < first.samples.length, ∀ lo hi : ℤ,
          (∀ f ∈ first :: rest ++ [frame], lo ≤ sampleAt i f ∧ sampleAt i f ≤ hi ∧ -32768 < sampleAt i f) →
          lo ≤ sampleAt i ((after (Average.feed exact count) a (first :: rest)).feed exact count frame).2 ∧
            sampleAt i ((after (Average.feed exact count) a (first :: rest)).feed exact count frame).2 ≤ hi) ∧
      ∀ other, ¬SameShape first other →
        (after (Average.feed exact count) a (first :: rest)).feed exact count other =
          (after (Average.feed exact count) a (first :: rest)).reset.feed exact count other := by
  have hrun := averages_run hcount hstart hsame
  refine ⟨congrArg Prod.snd (feed_startsOver hstart), fun hle i hi => hrun.mean hle i hi,
    fun frame hframe => ⟨?_, ?_⟩, fun other hother => ?_⟩
  · intro hle i hi
    have hfull : min ((after (Average.feed exact count) a (first :: rest)).taken + 1) (max count 1) = count := by
      rw [hrun.taken, List.length_cons]
      omega
    rw [after_append]
    show ((after (Average.feed exact count) a (first :: rest)).feed exact count frame).1.sums.getD i 0 = _
    rw [feed_sums hrun hframe hi, hfull, blend_eq]
  · intro i hi lo hi' hin
    exact hrun.output_between hcount hframe hi (fun f hf => ⟨(hin f hf).1, (hin f hf).2.1⟩)
      (hin frame (List.mem_append_right _ (List.mem_singleton_self frame))).2.2
  · rw [feed_startsOver (hrun.startsOver hother), feed_startsOver (startsOver_reset _ other)]

/-- A capture of one sample. -/
def oneSample (sample : BitVec 16) : CaptureFrame where
  seq := 0
  captureMonoNs := 0
  sampleIntervalNs := 0
  preTriggerSamples := 0
  postTriggerSamples := 1
  samplesPerChannel := 1
  resolutionBits := 8
  overflowMask := 0
  flags := 0
  screenSamples := 0
  channels := []
  samples := [sample]

theorem averaging_two_captures :
    (after (Average.feed exact 4) ⟨[], 0, none⟩ [oneSample 100, oneSample 300]).sums.getD 0 0 =
      meanAt 0 [oneSample 100, oneSample 300] := by
  have hsame : ∀ frame ∈ [oneSample 300], SameShape (oneSample 100) frame := by
    rintro frame hframe
    obtain rfl := List.mem_singleton.mp hframe
    exact ⟨rfl, rfl⟩
  exact (averaging 4 (by decide) ⟨[], 0, none⟩ (oneSample 100) [oneSample 300] (by decide) hsame).2.1
    (by decide) 0 (by decide)

end Lager.Scope
