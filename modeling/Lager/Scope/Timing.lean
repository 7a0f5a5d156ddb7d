import Lager.Scope.Measure
import Mathlib.Data.List.Chain
import Mathlib.Algebra.Order.Ring.Rat

/-!
# Periods and pulse widths

A crossing is found at a hysteresis threshold and placed where the straight line between its two samples meets the mid
level. Where the first of the two is not yet past that level the crossing lies between them, and since each pair of
samples gives at most one crossing, their positions increase. The period is the mean over all cycles, while a width is
that of the first interval of its kind: the two compare where no interval is longer than a cycle.
-/

namespace Lager.Scope.Measure

/-! ### The samples behind a crossing -/

/-- The samples at `index` and after it, of which the second has taken the signal past a threshold. -/
structure Edge where
  index : Nat
  before : ℚ
  after : ℚ
  rising : Bool
  deriving DecidableEq

def edgesLoop (upper lower : ℚ) : Bool → Nat → ℚ → List ℚ → List Edge
  | _, _, _, [] => []
  | stateHigh, index, before, value :: samples =>
    if stateHigh = false ∧ value > upper then
      ⟨index, before, value, true⟩ :: edgesLoop upper lower true (index + 1) value samples
    else if stateHigh = true ∧ value < lower then
      ⟨index, before, value, false⟩ :: edgesLoop upper lower false (index + 1) value samples
    else edgesLoop upper lower stateHigh (index + 1) value samples

/-- The edges of a capture, in the order in which `find_crossings` meets them. -/
def edges (samples : List ℚ) (low high mid : ℚ) : List Edge :=
  match samples with
  | [] => []
  | first :: rest =>
    edgesLoop (mid + (high - low) * (1 / 10)) (mid - (high - low) * (1 / 10)) (decide (first > mid)) 0 first rest

def Edge.crossing (mid : ℚ) (e : Edge) : Crossing := ⟨interpolate e.before e.after mid e.index, e.rising⟩

/-- The sample before the edge is not yet past `mid`, and the one after it is. -/
def Edge.Straddles (mid : ℚ) (e : Edge) : Prop :=
  if e.rising then e.before ≤ mid ∧ mid < e.after else e.after < mid ∧ mid ≤ e.before

instance (mid : ℚ) (e : Edge) : Decidable (e.Straddles mid) := by
  unfold Edge.Straddles
  infer_instance

/-- The first half of `Straddles`. -/
def Edge.NotYetPast (mid : ℚ) (e : Edge) : Prop := if e.rising then e.before ≤ mid else mid ≤ e.before

theorem crossingsLoop_eq_map (upper lower mid : ℚ) (samples : List ℚ) : ∀ stateHigh index before,
    crossingsLoop upper lower mid stateHigh index before samples =
      (edgesLoop upper lower stateHigh index before samples).map (Edge.crossing mid) := by
  induction samples with
  | nil => intro stateHigh index before; rfl
  | cons value samples ih =>
    intro stateHigh index before
    rw [crossingsLoop, edgesLoop]
    split_ifs with hup hdown
    · rw [List.map_cons, ih]; rfl
    · rw [List.map_cons, ih]; rfl
    · exact ih _ _ _

theorem findCrossings_eq_map (samples : List ℚ) (low high mid : ℚ) :
    findCrossings samples low high mid = (edges samples low high mid).map (Edge.crossing mid) := by
  match samples with
  | [] => rfl
  | [_] => rfl
  | first :: second :: rest => exact crossingsLoop_eq_map _ _ _ _ _ _ _

/-- Rising and falling edges take turns, and the first is one that leaves the state. -/
theorem edgesLoop_alternate (upper lower : ℚ) (samples : List ℚ) : ∀ stateHigh index before,
    (edgesLoop upper lower stateHigh index before samples).IsChain (fun e e' => e.rising ≠ e'.rising) ∧
      ∀ e ∈ (edgesLoop upper lower stateHigh index before samples).head?, e.rising ≠ stateHigh := by
  induction samples with
  | nil => intro stateHigh index before; simp [edgesLoop]
  | cons value samples ih =>
    intro stateHigh index before
    rw [edgesLoop]
    split_ifs with hup hdown
    · obtain ⟨hchain, hhead⟩ := ih true (index + 1) value
      refine ⟨List.isChain_cons.mpr ⟨fun e he => (hhead e he).symm, hchain⟩, ?_⟩
      simp [hup.1]
    · obtain ⟨hchain, hhead⟩ := ih false (index + 1) value
      refine ⟨List.isChain_cons.mpr ⟨fun e he => (hhead e he).symm, hchain⟩, ?_⟩
      simp [hdown.1]
    · exact ih _ _ _

/-- Each edge is between two neighbouring samples, later than those before it. -/
theorem edgesLoop_samples {upper lower : ℚ} {s : List ℚ} (samples : List ℚ) : ∀ stateHigh index before,
    s.drop index = before :: samples →
      (edgesLoop upper lower stateHigh index before samples).Pairwise (fun e e' => e.index < e'.index) ∧
        ∀ e ∈ edgesLoop upper lower stateHigh index before samples,
          index ≤ e.index ∧ s[e.index]? = some e.before ∧ s[e.index + 1]? = some e.after := by
  induction samples with
  | nil => intro stateHigh index before _; simp [edgesLoop]
  | cons value samples ih =>
    intro stateHigh index before hdrop
    have hbefore : s[index]? = some before := by
      rw [← List.head?_drop, hdrop]
      rfl
    have hdrop' : s.drop (index + 1) = value :: samples := by
      rw [← List.drop_drop, hdrop]
      rfl
    have hvalue : s[index + 1]? = some value := by
      rw [← List.head?_drop, hdrop']
      rfl
    have hpush : ∀ b, (⟨index, before, value, b⟩ :: edgesLoop upper lower b (index + 1) value samples).Pairwise
          (fun e e' : Edge => e.index < e'.index) ∧
        ∀ e ∈ (⟨index, before, value, b⟩ : Edge) :: edgesLoop upper lower b (index + 1) value samples,
          index ≤ e.index ∧ s[e.index]? = some e.before ∧ s[e.index + 1]? = some e.after := by
      intro b
      obtain ⟨hpair, hmem⟩ := ih b (index + 1) value hdrop'
      refine ⟨List.pairwise_cons.mpr ⟨fun e he => ?_, hpair⟩, fun e he => ?_⟩
      · have := (hmem e he).1
        show index < e.index
        omega
      · rcases List.mem_cons.mp he with rfl | he
        · exact ⟨le_rfl, hbefore, hvalue⟩
        · obtain ⟨hle, h⟩ := hmem e he
          exact ⟨by omega, h⟩
    rw [edgesLoop]
    split_ifs with hup hdown
    · exact hpush true
    · exact hpush false
    · obtain ⟨hpair, hmem⟩ := ih stateHigh (index + 1) value hdrop'
      refine ⟨hpair, fun e he => ?_⟩
      obtain ⟨hle, h⟩ := hmem e he
      exact ⟨by omega, h⟩

theorem edges_samples (samples : List ℚ) (low high mid : ℚ) :
    (edges samples low high mid).Pairwise (fun e e' => e.index < e'.index) ∧
      ∀ e ∈ edges samples low high mid,
        samples[e.index]? = some e.before ∧ samples[e.index + 1]? = some e.after := by
  cases samples with
  | nil => simp [edges]
  | cons first rest =>
    obtain ⟨hpair, hmem⟩ := edgesLoop_samples (s := first :: rest) rest (decide (first > mid)) 0 first rfl
    exact ⟨hpair, fun e he => (hmem e he).2⟩

theorem edgesLoop_threshold {upper lower : ℚ} (samples : List ℚ) : ∀ stateHigh index before,
    ∀ e ∈ edgesLoop upper lower stateHigh index before samples,
      if e.rising then upper < e.after else e.after < lower := by
  induction samples with
  | nil => intro stateHigh index before; simp [edgesLoop]
  | cons value samples ih =>
    intro stateHigh index before
    rw [edgesLoop]
    split_ifs with hup hdown
    · exact List.forall_mem_cons.mpr ⟨hup.2, ih _ _ _⟩
    · exact List.forall_mem_cons.mpr ⟨hdown.2, ih _ _ _⟩
    · exact ih _ _ _

/-- With the extremes in order, the sample after an edge is past the mid level by the threshold. -/
theorem edges_straddle_iff {samples : List ℚ} {low high mid : ℚ} (hle : low ≤ high) :
    ∀ e ∈ edges samples low high mid, e.Straddles mid ↔ e.NotYetPast mid := by
  intro e he
  cases samples with
  | nil => simp [edges] at he
  | cons first rest =>
    have hafter := edgesLoop_threshold rest _ _ _ e he
    have hthreshold : 0 ≤ (high - low) * (1 / 10) := mul_nonneg (by linarith) (by norm_num)
    unfold Edge.Straddles Edge.NotYetPast
    split_ifs at hafter ⊢ with hrising
    · exact and_iff_left (by linarith)
    · exact and_iff_right (by linarith)

theorem findCrossings_alternate (samples : List ℚ) (low high mid : ℚ) :
    (findCrossings samples low high mid).IsChain fun c c' => c.rising ≠ c'.rising := by
  rw [findCrossings_eq_map, List.isChain_map]
  cases samples with
  | nil => exact List.isChain_nil
  | cons first rest => exact (edgesLoop_alternate _ _ rest _ _ _).1

/-! ### Positions -/

theorem interpolate_mem {before after mid : ℚ} (index : Nat)
    (h : before ≤ mid ∧ mid < after ∨ after < mid ∧ mid ≤ before) :
    index ≤ interpolate before after mid index ∧ interpolate before after mid index < index + 1 := by
  simp only [interpolate]
  split_ifs with hsmall
  · exact ⟨le_rfl, by linarith⟩
  have hfraction : 0 ≤ (mid - before) / (after - before) ∧ (mid - before) / (after - before) < 1 := by
    rcases h with ⟨hle, hlt⟩ | ⟨hlt, hle⟩
    · have hspan : 0 < after - before := by linarith
      exact ⟨div_nonneg (by linarith) hspan.le, (div_lt_one hspan).mpr (by linarith)⟩
    · have hspan : after - before < 0 := by linarith
      exact ⟨div_nonneg_of_nonpos (by linarith) hspan.le, (div_lt_one_of_neg hspan).mpr (by linarith)⟩
  constructor <;> linarith [hfraction.1, hfraction.2]

theorem Edge.Straddles.position_mem {mid : ℚ} {e : Edge} (h : e.Straddles mid) :
    e.index ≤ (e.crossing mid).position ∧ (e.crossing mid).position < e.index + 1 := by
  apply interpolate_mem
  unfold Edge.Straddles at h
  split_ifs at h with hrising
  · exact Or.inl h
  · exact Or.inr h

/-- **The crossings of straddling edges are in order.** -/
theorem positions_increase {samples : List ℚ} {low high mid : ℚ}
    (h : ∀ e ∈ edges samples low high mid, e.Straddles mid) :
    (findCrossings samples low high mid).Pairwise (fun c c' => c.position < c'.position) := by
  rw [findCrossings_eq_map, List.pairwise_map]
  refine (edges_samples samples low high mid).1.imp_of_mem fun {e e'} he he' hlt => ?_
  have h1 := (h e he).position_mem.2
  have h2 := (h e' he').position_mem.1
  have hindex : (e.index : ℚ) + 1 ≤ e'.index := by exact_mod_cast hlt
  linarith

/-! ### Widths and the period -/

theorem mem_windows_lt {l : List Crossing} (h : l.Pairwise fun c c' => c.position < c'.position)
    {pair : Crossing × Crossing} (hpair : pair ∈ windows l) : pair.1.position < pair.2.position := by
  induction l with
  | nil => simp [windows] at hpair
  | cons c l ih =>
    cases l with
    | nil => simp [windows] at hpair
    | cons c' l =>
      obtain ⟨hhead, htail⟩ := List.pairwise_cons.mp h
      rcases List.mem_cons.mp hpair with rfl | hpair
      · exact hhead c' List.mem_cons_self
      · exact ih htail hpair

/-- A width that the loop has found is that of one of the windows. -/
theorem widths_mem (intervalS : ℚ) (pairs : List (Crossing × Crossing)) (w : ℚ)
    (hw : (pairs.foldl (widthStep intervalS) (none, none)).1 = some w ∨
      (pairs.foldl (widthStep intervalS) (none, none)).2 = some w) :
    ∃ pair ∈ pairs, w = (pair.2.position - pair.1.position) * intervalS := by
  induction pairs using List.reverseRecOn with
  | nil => simp at hw
  | append_singleton pairs last ih =>
    rw [List.foldl_append, List.foldl_cons, List.foldl_nil] at hw
    generalize pairs.foldl (widthStep intervalS) (none, none) = widths at hw ih
    have hold : widths.1 = some w ∨ widths.2 = some w →
        ∃ pair ∈ pairs ++ [last], w = (pair.2.position - pair.1.position) * intervalS := by
      intro h
      obtain ⟨pair, hpair, hv⟩ := ih h
      exact ⟨pair, List.mem_append_left _ hpair, hv⟩
    have hnew : some ((last.2.position - last.1.position) * intervalS) = some w →
        ∃ pair ∈ pairs ++ [last], w = (pair.2.position - pair.1.position) * intervalS := fun h =>
      ⟨last, by simp, (Option.some.inj h).symm⟩
    unfold widthStep at hw
    split_ifs at hw with hhigh hlow
    · exact hw.elim hnew fun h => hold (Or.inr h)
    · exact hw.elim (fun h => hold (Or.inl h)) hnew
    · exact hold hw

theorem widthsOf_mem {intervalS w : ℚ} {crossings : List Crossing}
    (hw : (widthsOf intervalS crossings).1 = some w ∨ (widthsOf intervalS crossings).2 = some w) :
    ∃ pair ∈ windows crossings, w = (pair.2.position - pair.1.position) * intervalS := by
  unfold widthsOf at hw
  split_ifs at hw with hlen
  · exact widths_mem intervalS _ w hw
  · simp at hw

theorem periodOf_some {intervalS p : ℚ} {crossings : List Crossing} (hp : periodOf intervalS crossings = some p) :
    ∃ a l, risingPositions crossings = a :: l ∧ l ≠ [] ∧ p = (l.getLastD a - a) / l.length * intervalS := by
  simp only [periodOf] at hp
  split_ifs at hp with hlen
  have hrising := hlen.2
  cases hl : risingPositions crossings with
  | nil => simp [hl] at hrising
  | cons a l =>
    rw [hl] at hrising hp
    refine ⟨a, l, rfl, ?_, ?_⟩
    · rintro rfl
      simp at hrising
    · rw [List.getLastD_cons, List.headD_cons, List.length_cons, Nat.add_sub_cancel] at hp
      exact (Option.some.inj hp).symm

theorem period_pos {intervalS p : ℚ} {crossings : List Crossing} (hinterval : 0 < intervalS)
    (h : crossings.Pairwise fun c c' => c.position < c'.position) (hp : periodOf intervalS crossings = some p) :
    0 < p := by
  obtain ⟨a, l, hrising, hne, rfl⟩ := periodOf_some hp
  have hsorted : (a :: l).Pairwise (· < ·) := by
    rw [← hrising, risingPositions, List.pairwise_map]
    exact h.filter _
  have hlast : a < l.getLastD a := by
    rw [List.getLastD_eq_getLast?, List.getLast?_eq_some_getLast hne]
    exact (List.pairwise_cons.mp hsorted).1 _ (List.getLast_mem hne)
  have hlength : (0 : ℚ) < l.length := by exact_mod_cast List.length_pos_of_ne_nil hne
  have hspan : 0 < l.getLastD a - a := by linarith
  positivity

/-- The first and the last of a list are at least as far apart as its neighbours are together. -/
theorem mul_length_le_span {w : ℚ} (l : List ℚ) : ∀ a, (∀ cycle ∈ windows (a :: l), w ≤ cycle.2 - cycle.1) →
    w * l.length ≤ l.getLastD a - a := by
  induction l with
  | nil => intro a _; simp
  | cons b l ih =>
    intro a h
    have hfirst : w ≤ b - a := h (a, b) (by simp [windows])
    have hrest := ih b fun cycle hcycle => h cycle (by simpa [windows] using Or.inr hcycle)
    have hlength : ((b :: l).length : ℚ) = l.length + 1 := by simp
    rw [hlength, List.getLastD_cons]
    linarith [mul_add w l.length 1]

/-- No interval between two crossings is longer than a cycle from one rising crossing to the next. -/
def Regular (crossings : List Crossing) : Prop :=
  ∀ cycle ∈ windows (risingPositions crossings), ∀ pair ∈ windows crossings,
    pair.2.position - pair.1.position ≤ cycle.2 - cycle.1

instance (crossings : List Crossing) : Decidable (Regular crossings) := by
  unfold Regular
  infer_instance

theorem width_le_period {intervalS p w : ℚ} {crossings : List Crossing} (hinterval : 0 < intervalS)
    (h : Regular crossings) (hp : periodOf intervalS crossings = some p)
    (hw : (widthsOf intervalS crossings).1 = some w ∨ (widthsOf intervalS crossings).2 = some w) : w ≤ p := by
  obtain ⟨a, l, hrising, hne, rfl⟩ := periodOf_some hp
  obtain ⟨pair, hpair, rfl⟩ := widthsOf_mem hw
  have hlength : (0 : ℚ) < l.length := by exact_mod_cast List.length_pos_of_ne_nil hne
  have hspan := mul_length_le_span l a fun cycle hcycle => h cycle (hrising ▸ hcycle) pair hpair
  exact mul_le_mul_of_nonneg_right ((le_div_iff₀ hlength).mpr hspan) hinterval.le

theorem width_pos {intervalS w : ℚ} {crossings : List Crossing} (hinterval : 0 < intervalS)
    (h : crossings.Pairwise fun c c' => c.position < c'.position)
    (hw : (widthsOf intervalS crossings).1 = some w ∨ (widthsOf intervalS crossings).2 = some w) : 0 < w := by
  obtain ⟨pair, hpair, rfl⟩ := widthsOf_mem hw
  have hlt := mem_windows_lt h hpair
  exact mul_pos (by linarith) hinterval

theorem duty_some {sqrt : ℚ → ℚ} {r : Reading} {d : ℚ} (hd : (measure sqrt r).dutyCyclePositive = some d) :
    ∃ w p, (measure sqrt r).pulseWidthPositive = some w ∧ (measure sqrt r).period = some p ∧ 0 < p ∧
      d = w / p * 100 := by
  simp only [measure] at hd ⊢
  cases hw : (widthsOf r.intervalS r.crossings).1 with
  | none => simp [hw] at hd
  | some w =>
    cases hp : periodOf r.intervalS r.crossings with
    | none => simp [hw, hp] at hd
    | some p =>
      simp only [hw, hp] at hd
      split_ifs at hd with hpos
      exact ⟨w, p, rfl, rfl, hpos, (Option.some.inj hd).symm⟩

/-! ### What a channel reports -/

theorem measureChannel_eq {sqrt : ℚ → ℚ} {f : CaptureFrame} {channel : Nat} {r : Reading}
    (h : readChannel f channel = .ok (some r)) : measureChannel sqrt f channel = .ok (some (measure sqrt r)) := by
  rw [measureChannel, h]
  rfl

def Reading.edges (r : Reading) : List Edge := Measure.edges r.samples r.vmin r.vmax r.mid

/-- **Crossings alternate; those of straddling edges are in order, and periods and widths are then positive.** Where no
interval is longer than a cycle, the period is at least each width and the duty cycles are percentages. -/
theorem timing_consistent :
    (∀ samples low high mid,
      (findCrossings samples low high mid).IsChain (fun c c' => c.rising ≠ c'.rising) ∧
      findCrossings samples low high mid = (edges samples low high mid).map (Edge.crossing mid) ∧
      (∀ e ∈ edges samples low high mid,
        samples[e.index]? = some e.before ∧ samples[e.index + 1]? = some e.after ∧
          (low ≤ high → (e.Straddles mid ↔ e.NotYetPast mid))) ∧
      ((∀ e ∈ edges samples low high mid, e.Straddles mid) →
        (findCrossings samples low high mid).Pairwise (fun c c' => c.position < c'.position) ∧
        ∀ e ∈ edges samples low high mid,
          e.index ≤ (e.crossing mid).position ∧ (e.crossing mid).position < e.index + 1)) ∧
    ∀ sqrt f channel r, readChannel f channel = .ok (some r) → 0 < r.intervalS →
      measureChannel sqrt f channel = .ok (some (measure sqrt r)) ∧
      ((∀ e ∈ r.edges, e.Straddles r.mid) →
        (∀ p, (measure sqrt r).period = some p → 0 < p) ∧
        (∀ w, (measure sqrt r).pulseWidthPositive = some w ∨ (measure sqrt r).pulseWidthNegative = some w → 0 < w) ∧
        (Regular r.crossings →
          (∀ w p, (measure sqrt r).pulseWidthPositive = some w ∨ (measure sqrt r).pulseWidthNegative = some w →
            (measure sqrt r).period = some p → w ≤ p) ∧
          ∀ d, (measure sqrt r).dutyCyclePositive = some d ∨ (measure sqrt r).dutyCycleNegative = some d →
            0 ≤ d ∧ d ≤ 100)) := by
  constructor
  · intro samples low high mid
    have hsamples := (edges_samples samples low high mid).2
    refine ⟨findCrossings_alternate samples low high mid, findCrossings_eq_map samples low high mid, ?_, ?_⟩
    · exact fun e he => ⟨(hsamples e he).1, (hsamples e he).2, fun hle => edges_straddle_iff hle e he⟩
    · exact fun h => ⟨positions_increase h, fun e he => (h e he).position_mem⟩
  intro sqrt f channel r hread hinterval
  refine ⟨measureChannel_eq hread, fun hstraddle => ?_⟩
  have horder : r.crossings.Pairwise fun c c' => c.position < c'.position := positions_increase hstraddle
  refine ⟨fun p hp => period_pos hinterval horder hp, fun w hw => width_pos hinterval horder hw, fun hregular => ?_⟩
  have hle : ∀ w p, (measure sqrt r).pulseWidthPositive = some w ∨ (measure sqrt r).pulseWidthNegative = some w →
      (measure sqrt r).period = some p → w ≤ p := fun w p hw hp => width_le_period hinterval hregular hp hw
  have hduty : ∀ d, (measure sqrt r).dutyCyclePositive = some d → 0 ≤ d ∧ d ≤ 100 := by
    intro d hd
    obtain ⟨w, p, hw, hp, hpos, rfl⟩ := duty_some hd
    have hwpos : 0 < w := width_pos hinterval horder (Or.inl hw)
    have hratio : w / p ≤ 1 := (div_le_one hpos).mpr (hle w p (Or.inl hw) hp)
    exact ⟨by positivity, by linarith⟩
  refine ⟨hle, fun d hd => ?_⟩
  rcases hd with hd | hd
  · exact hduty d hd
  · obtain ⟨d', hd', rfl⟩ := Option.map_eq_some_iff.mp hd
    have := hduty d' hd'
    constructor <;> linarith

/-- A capture of one channel with 1 V per count and the given nanoseconds between the samples. -/
def capture (sampleIntervalNs : BitVec 64) (counts : List (BitVec 16)) : CaptureFrame :=
  { seq := 0, captureMonoNs := 0, sampleIntervalNs, preTriggerSamples := 0,
    postTriggerSamples := BitVec.ofNat 32 counts.length, samplesPerChannel := BitVec.ofNat 32 counts.length,
    resolutionBits := 16, overflowMask := 0, flags := 0, screenSamples := 0,
    channels := [⟨.alphabetic 'A', 0, .DC, 0x3F800000, 0⟩], samples := counts }

/-- A second, in nanoseconds. -/
def second : BitVec 64 := 0x41CDCD6500000000

def squareWave : CaptureFrame := capture second [0, 10, 10, 0, 0, 10, 10, 0, 0, 10]

theorem timing_of_square : ∃ r, readChannel squareWave 0 = .ok (some r) ∧
    (measure id r).period = some 4 ∧ (measure id r).pulseWidthPositive = some 2 ∧ (2 : ℚ) ≤ 4 := by
  have hread : readChannel squareWave 0 = .ok (some ⟨[0, 10, 10, 0, 0, 10, 10, 0, 0, 10], 1, 0, 10⟩) := by
    decide +kernel
  have hmeasure := (timing_consistent.2 id squareWave 0 _ hread (by decide +kernel)).2 (by decide +kernel)
  have hperiod : (measure id ⟨[0, 10, 10, 0, 0, 10, 10, 0, 0, 10], 1, 0, 10⟩).period = some 4 := by decide +kernel
  have hwidth : (measure id ⟨[0, 10, 10, 0, 0, 10, 10, 0, 0, 10], 1, 0, 10⟩).pulseWidthPositive = some 2 := by
    decide +kernel
  exact ⟨_, hread, hperiod, hwidth, (hmeasure.2.2 (by decide +kernel)).1 2 4 (Or.inl hwidth) hperiod⟩

/-- A fall that pauses between the mid level and the threshold gives a negative width, a long first pulse a width
beyond the period, and a sample interval of zero a period of zero. -/
theorem timing_inconsistent :
    (∃ m, measureChannel id (capture second [0, 10000, 4001, 3999, 10000]) 0 = .ok (some m) ∧
      m.pulseWidthPositive = some (-498)) ∧
    (∃ m, measureChannel id (capture second [0, 10, 10, 10, 10, 0, 10, 0, 10]) 0 = .ok (some m) ∧
      m.period = some (7 / 2) ∧ m.pulseWidthPositive = some 4 ∧ m.dutyCyclePositive = some (800 / 7)) ∧
    ∃ m, measureChannel id (capture 0 [0, 10, 0, 10]) 0 = .ok (some m) ∧ m.period = some 0 := by
  refine ⟨⟨_, rfl, ?_⟩, ⟨_, rfl, ?_⟩, _, rfl, ?_⟩
  · decide +kernel
  · decide +kernel
  · decide +kernel

end Lager.Scope.Measure
