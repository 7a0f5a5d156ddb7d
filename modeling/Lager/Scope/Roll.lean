import Lager.Scope.Loop
import Lager.Lib.Bytes
import Mathlib.Data.List.DropRight

/-!
# What a rolling screen shows

`Roller::absorb`, `Roller::snapshot` and `roll_step` of `daemon/src/scope_thread.rs`. Each streamed channel has a ring
of pairs that is fed in bursts of any size and read at two lengths: with the history before the screen, which is
published, and the screen alone, which is measured.

A ring of limit `k` is the newest `k` pairs of the whole stream (`feedRing_rtake`), and everything a snapshot shows
follows from that.
-/

namespace Lager.Scope

open Lager.Lib

abbrev Pair := BitVec 16 × BitVec 16

/-! ### Feeding the rings -/

/-- `RollSink::clear`. -/
def RollSink.clear (sink : RollSink) : RollSink := sink.map fun _ => []

/-- `poll_roll`: the sink is resized to the streamed channels and each list gets the pairs that have arrived. -/
def RollSink.extend (sink : RollSink) (arrived : List (List Pair)) : RollSink :=
  List.zipWith (· ++ ·) (sink.take arrived.length ++ List.replicate (arrived.length - sink.length) []) arrived

/-- A pair enters a ring; a full ring loses its oldest first. -/
def pushPair (limit : Nat) (ring : List Pair) (pair : Pair) : List Pair :=
  (if ring.length = limit then ring.tail else ring) ++ [pair]

def feedRing (limit : Nat) (ring pairs : List Pair) : List Pair := pairs.foldl (pushPair limit) ring

/-- The most pairs a ring holds. -/
def Roller.limit (r : Roller) : Nat := ROLL_COLUMNS + r.history

/-- `Roller::absorb`, pair by pair, with the number it returns. -/
def Roller.absorbPairs (r : Roller) (sink : RollSink) : Roller × Nat :=
  let fed := List.zipWith (feedRing r.limit) r.rings sink
  let arrived := (List.zipWith (fun _ pairs => pairs.length) r.rings sink).foldl max 0
  ({ r with rings := fed ++ r.rings.drop fed.length, fresh := r.fresh || decide (0 < arrived) }, arrived)

/-- What one `poll_roll` delivers: as many pairs for every streamed channel. -/
structure Delivery (channels : Nat) where
  pairs : List (List Pair)
  each : pairs.length = channels
  even : ∀ a ∈ pairs, ∀ b ∈ pairs, a.length = b.length

structure Rolling where
  roller : Roller
  sink : RollSink

def Rolling.start (info : RollInfo) (timePerDiv : Float) : Rolling := ⟨Roller.new info timePerDiv, []⟩

/-- `roll_step` at a time: collect, and publish when it is due. -/
def Rolling.step {channels : Nat} (r : Rolling) (e : Delivery channels × Nat) : Rolling :=
  let sink := r.sink.clear.extend e.1.pairs
  let roller := (r.roller.absorbPairs sink).1
  if roller.fresh && roller.isDue e.2 then
    ⟨{ roller with fresh := false, nextPublish := some (roller.nextDue e.2) }, sink⟩
  else ⟨roller, sink⟩

/-- The roller after these steps. -/
def rolled (info : RollInfo) (timePerDiv : Float) (es : List (Delivery info.channels.length × Nat)) : Rolling :=
  es.foldl Rolling.step (Rolling.start info timePerDiv)

/-- All that was streamed of a channel. -/
def streamed {channels : Nat} (es : List (Delivery channels × Nat)) (c : Nat) : List Pair :=
  es.flatMap fun e => e.1.pairs.getD c []

/-! ### A ring is the newest pairs -/

theorem pushPair_rtake (k : Nat) (stream : List Pair) (pair : Pair) :
    pushPair (k + 1) (stream.rtake (k + 1)) pair = (stream ++ [pair]).rtake (k + 1) := by
  rw [List.rtake_concat_succ, pushPair]
  congr 1
  have hlength : (stream.rtake (k + 1)).length = min stream.length (k + 1) := by
    rw [List.rtake, List.length_drop]
    omega
  by_cases hfull : k + 1 ≤ stream.length
  · rw [if_pos (by omega), List.rtake, List.tail_drop, List.rtake]
    congr 1
    omega
  · rw [if_neg (by omega), List.rtake, List.rtake]
    congr 1
    omega

theorem feedRing_rtake {limit : Nat} (hlimit : 0 < limit) (stream pairs : List Pair) :
    feedRing limit (stream.rtake limit) pairs = (stream ++ pairs).rtake limit := by
  obtain ⟨k, rfl⟩ := Nat.exists_eq_add_of_lt hlimit
  rw [Nat.zero_add] at *
  induction pairs generalizing stream with
  | nil => rw [List.append_nil, feedRing, List.foldl_nil]
  | cons pair pairs ih =>
    have hstep : feedRing (k + 1) (stream.rtake (k + 1)) (pair :: pairs) =
        feedRing (k + 1) (pushPair (k + 1) (stream.rtake (k + 1)) pair) pairs := List.foldl_cons ..
    rw [hstep, pushPair_rtake, ih, List.append_assoc, List.singleton_append]

/-- After `clear`, the sink is what `poll_roll` has delivered. -/
theorem extend_clear {sink : RollSink} {arrived : List (List Pair)} (h : sink = [] ∨ sink.length = arrived.length) :
    sink.clear.extend arrived = arrived := by
  have hlength : sink.clear.length = sink.length := List.length_map ..
  have hempty : sink.clear.take arrived.length ++ List.replicate (arrived.length - sink.clear.length) [] =
      List.replicate arrived.length [] := by
    rcases h with rfl | h
    · simp [RollSink.clear]
    · rw [hlength, h, Nat.sub_self, List.replicate_zero, List.append_nil, ← h, ← hlength, List.take_length, hlength]
      exact List.map_const' ..
  rw [RollSink.extend, hempty]
  apply List.ext_getElem
  · simp
  · intro i h₁ h₂
    simp

/-- The loop keeps what `Roller.absorb` says it keeps. -/
theorem absorb_eq {r : Roller} (h : ∀ ring ∈ r.rings, ring.length ≤ r.limit) (sink : RollSink) :
    (r.absorbPairs sink).1.rings = (r.absorb sink).rings := by
  have hfeed : List.zipWith (feedRing r.limit) r.rings sink =
      List.zipWith (fun ring pairs => (ring ++ pairs).drop ((ring ++ pairs).length - r.limit)) r.rings sink := by
    apply List.ext_getElem
    · simp
    · intro i h₁ h₂
      have hi : i < r.rings.length := by
        rw [List.length_zipWith] at h₁
        omega
      have hring := h _ (List.getElem_mem hi)
      rw [List.getElem_zipWith, List.getElem_zipWith]
      have hself : r.rings[i].rtake r.limit = r.rings[i] := by
        rw [List.rtake, Nat.sub_eq_zero_of_le hring, List.drop_zero]
      have hlimit : 0 < r.limit := Nat.add_pos_left (by decide) _
      rw [← hself, feedRing_rtake hlimit, hself, List.rtake]
  show List.zipWith (feedRing r.limit) r.rings sink ++ _ = _
  rw [hfeed]
  rfl

/-! ### The rings of a run -/

variable {info : RollInfo} {timePerDiv : Float}

/-- After these steps: each ring is the newest pairs of its channel's stream. -/
structure Rolling.Follows (r : Rolling) (es : List (Delivery info.channels.length × Nat)) : Prop where
  same : r.roller.info = info
  history : r.roller.history ≤ ROLL_COLUMNS
  rings : r.roller.rings = (List.range info.channels.length).map fun c => (streamed es c).rtake r.roller.limit
  sink : r.sink = [] ∨ r.sink.length = info.channels.length

theorem start_follows : @Rolling.Follows info (Rolling.start info timePerDiv) [] where
  same := rfl
  history := Nat.min_le_right _ _
  rings := by
    show info.channels.map (fun _ => []) = (List.range info.channels.length).map fun _ => [].drop _
    simp only [List.drop_nil, List.map_const', List.length_range]
  sink := Or.inl rfl

theorem zipWith_range {α β γ : Type} (f : α → β → γ) (g : Nat → α) (default : β) {l : List β} {n : Nat}
    (h : l.length = n) :
    List.zipWith f ((List.range n).map g) l = (List.range n).map fun c => f (g c) (l.getD c default) := by
  subst h
  apply List.ext_getElem
  · simp
  · intro i h₁ h₂
    simp at h₁
    simp [h₁]

theorem step_follows {r : Rolling} {es : List (Delivery info.channels.length × Nat)}
    (e : Delivery info.channels.length × Nat) (h : r.Follows es) : (r.step e).Follows (es ++ [e]) := by
  have hsink : r.sink.clear.extend e.1.pairs = e.1.pairs := by
    apply extend_clear
    rw [e.1.each]
    exact h.sink
  have hlimit : 0 < r.roller.limit := Nat.add_pos_left (by decide) _
  have hfed : List.zipWith (feedRing r.roller.limit) r.roller.rings e.1.pairs =
      (List.range info.channels.length).map fun c => (streamed (es ++ [e]) c).rtake r.roller.limit := by
    rw [h.rings, zipWith_range _ _ [] e.1.each]
    apply List.map_congr_left
    intro c _
    rw [feedRing_rtake hlimit]
    simp [streamed]
  have hrings : ((r.roller.absorbPairs e.1.pairs).1).rings =
      (List.range info.channels.length).map fun c => (streamed (es ++ [e]) c).rtake r.roller.limit := by
    show List.zipWith (feedRing r.roller.limit) r.roller.rings e.1.pairs ++ List.drop _ r.roller.rings = _
    rw [hfed, List.drop_of_length_le, List.append_nil]
    rw [h.rings]
    simp
  rw [Rolling.step, hsink]
  split
  · exact ⟨h.same, h.history, hrings, Or.inr e.1.each⟩
  · exact ⟨h.same, h.history, hrings, Or.inr e.1.each⟩

/-- A run of `roll_step`s keeps the rings in step with the streams. -/
theorem rolled_follows (es : List (Delivery info.channels.length × Nat)) :
    (rolled info timePerDiv es).Follows es := by
  induction es using List.reverseRecOn with
  | nil => exact start_follows
  | append_singleton es e ih =>
    rw [rolled, List.foldl_append]
    exact step_follows e ih

/-! ### What a snapshot shows -/

/-- A pair as two samples. -/
def Pair.samples (p : Pair) : List (BitVec 16) := [p.1, p.2]

/-- The newest `k` pairs at the right edge, and what has not been streamed yet marked as not captured. -/
def padded (k : Nat) (stream : List Pair) : List Pair :=
  List.replicate (k - (stream.rtake k).length) (NO_SAMPLE, NO_SAMPLE) ++ stream.rtake k

theorem length_rtake {α : Type} (k : Nat) (l : List α) : (l.rtake k).length = min l.length k := by
  rw [List.rtake, List.length_drop]
  omega

theorem length_padded (k : Nat) (stream : List Pair) : (padded k stream).length = k := by
  rw [padded, List.length_append, List.length_replicate, length_rtake]
  omega

theorem flatMap_replicate (k : Nat) :
    (List.replicate k ((NO_SAMPLE, NO_SAMPLE) : Pair)).flatMap Pair.samples = List.replicate (k * 2) NO_SAMPLE := by
  induction k with
  | zero => rfl
  | succ k ih =>
    rw [List.replicate_succ, List.flatMap_cons, ih, Nat.succ_mul, Nat.add_comm, List.replicate_add]
    rfl

/-- A shorter screen is the end of a longer one. -/
theorem drop_padded {k m : Nat} (h : k ≤ m) (stream : List Pair) :
    (padded m stream).drop (m - k) = padded k stream := by
  rw [padded, padded, length_rtake, length_rtake, List.drop_append, List.length_replicate, List.drop_replicate,
    List.rtake, List.rtake, List.drop_drop]
  congr 2 <;> omega

/-- What a channel shows in a snapshot. -/
theorem sub_snapshot {r : Rolling} {es : List (Delivery info.channels.length × Nat)} (h : r.Follows es) (history : Bool)
    (monoNs interval : BitVec 64) {c : Nat} (hc : c < info.channels.length) :
    let k := ROLL_COLUMNS + if history then r.roller.history else 0
    sub (r.roller.snapshot history monoNs interval).samples (k * 2 * c) (k * 2) =
      (padded k (streamed es c)).flatMap Pair.samples := by
  intro k
  have hk : k ≤ r.roller.limit := by
    show ROLL_COLUMNS + (if history then r.roller.history else 0) ≤ ROLL_COLUMNS + r.roller.history
    split
    · exact Nat.le_refl _
    · exact Nat.le_add_right ..
  have hblock (stream : List Pair) :
      List.replicate ((k - min (stream.rtake r.roller.limit).length k) * 2) NO_SAMPLE ++
        ((stream.rtake r.roller.limit).drop ((stream.rtake r.roller.limit).length -
          min (stream.rtake r.roller.limit).length k)).flatMap Pair.samples =
        (padded k stream).flatMap Pair.samples := by
    have hkept : min (stream.rtake r.roller.limit).length k = (stream.rtake k).length := by
      rw [length_rtake, length_rtake]
      omega
    have hnewest : (stream.rtake r.roller.limit).drop ((stream.rtake r.roller.limit).length - (stream.rtake k).length) =
        stream.rtake k := by
      rw [length_rtake, length_rtake, List.rtake, List.rtake, List.drop_drop]
      congr 1
      omega
    rw [hkept, hnewest, padded, List.flatMap_append, flatMap_replicate]
  have hsamples : (r.roller.snapshot history monoNs interval).samples =
      (List.range info.channels.length).flatMap fun c => (padded k (streamed es c)).flatMap Pair.samples := by
    show r.roller.rings.flatMap _ = _
    rw [h.rings, List.flatMap_map]
    exact congrArg (List.flatMap · _) (funext fun c => hblock (streamed es c))
  have hlength (c : Nat) : ((padded k (streamed es c)).flatMap Pair.samples).length = k * 2 := by
    rw [length_flatMap_of_length (k := 2) (fun _ => rfl), length_padded, Nat.mul_comm]
  obtain ⟨rest, hrest⟩ := drop_flatMap_getElem hlength (l := List.range info.channels.length) (i := c) (by simpa using hc)
  rw [hsamples, sub, hrest, List.getElem_range, ← hlength c, List.take_left]

theorem perChannel_toNat {r : Rolling} {es : List (Delivery info.channels.length × Nat)} (h : r.Follows es)
    (history : Bool) (monoNs interval : BitVec 64) :
    (r.roller.snapshot history monoNs interval).samplesPerChannel.toNat =
      (ROLL_COLUMNS + if history then r.roller.history else 0) * 2 := by
  have hhistory := h.history
  have hle : (if history then r.roller.history else 0) ≤ ROLL_COLUMNS := by
    split
    · exact hhistory
    · exact Nat.zero_le _
  show (BitVec.ofNat 32 _).toNat = _
  rw [BitVec.toNat_ofNat, Nat.mod_eq_of_lt]
  simp only [ROLL_COLUMNS] at hle ⊢
  omega

theorem length_snapshot {r : Rolling} {es : List (Delivery info.channels.length × Nat)} (h : r.Follows es)
    (history : Bool) (monoNs interval : BitVec 64) :
    (r.roller.snapshot history monoNs interval).samples.length =
      (ROLL_COLUMNS + if history then r.roller.history else 0) * 2 * info.channels.length := by
  have hrings : r.roller.rings.length = info.channels.length := by
    rw [h.rings]
    simp
  show (r.roller.rings.flatMap _).length = _
  rw [length_flatMap_of_length (k := (ROLL_COLUMNS + if history then r.roller.history else 0) * 2), hrings]
  intro ring
  rw [List.length_append, List.length_replicate, length_flatMap_of_length (k := 2) (fun _ => rfl), List.length_drop]
  omega

/-- **The rolling screen.** After any number of deliveries of any sizes, both snapshots are well formed, every channel
shows the newest pairs of its whole stream at the right edge with what is missing marked as not captured, and the
screen alone is the end of the streamed screen that its header names. -/
theorem rolling_screen (info : RollInfo) (timePerDiv : Float) (es : List (Delivery info.channels.length × Nat))
    (monoNs interval : BitVec 64) :
    let roller := (rolled info timePerDiv es).roller
    let shown (history : Bool) := roller.snapshot history monoNs interval
    let channel (history : Bool) (c : Nat) :=
      sub (shown history).samples (c * (shown history).samplesPerChannel.toNat) (shown history).samplesPerChannel.toNat
    (∀ history, (shown history).samples.length =
      (shown history).samplesPerChannel.toNat * (shown history).channels.length) ∧
    (∀ history, ∀ c < (shown history).channels.length,
      let k := ROLL_COLUMNS + if history then roller.history else 0
      let newest := (streamed es c).rtake k
      channel history c =
        List.replicate ((k - newest.length) * 2) NO_SAMPLE ++ newest.flatMap fun pair => [pair.1, pair.2]) ∧
    ∀ c < (shown true).channels.length,
      channel false c = (channel true c).rtake (shown true).screenSamples.toNat := by
  intro roller shown channel
  have h : (rolled info timePerDiv es).Follows es := rolled_follows es
  have hper (history : Bool) : (shown history).samplesPerChannel.toNat =
      (ROLL_COLUMNS + if history then roller.history else 0) * 2 := perChannel_toNat h history monoNs interval
  have hchannels (history : Bool) : (shown history).channels = info.channels := congrArg RollInfo.channels h.same
  have hchannel (history : Bool) (c : Nat) (hc : c < info.channels.length) : channel history c =
      (padded (ROLL_COLUMNS + if history then roller.history else 0) (streamed es c)).flatMap Pair.samples := by
    show sub (shown history).samples (c * (shown history).samplesPerChannel.toNat)
      (shown history).samplesPerChannel.toNat = _
    rw [hper, Nat.mul_comm c]
    exact sub_snapshot h history monoNs interval hc
  refine ⟨fun history => ?_, fun history c hc => ?_, fun c hc => ?_⟩
  · rw [hper, hchannels]
    exact length_snapshot h history monoNs interval
  · rw [hchannels] at hc
    rw [hchannel history c hc, padded, List.flatMap_append, flatMap_replicate]
    rfl
  · -- both are the ends of one padded stream
    rw [hchannels] at hc
    have hscreen : (shown true).screenSamples.toNat = ROLL_COLUMNS * 2 := by
      show (BitVec.ofNat 32 (ROLL_COLUMNS * 2)).toNat = ROLL_COLUMNS * 2
      decide
    have hshorter := drop_padded (Nat.le_add_right ROLL_COLUMNS roller.history) (streamed es c)
    have htrue : channel true c =
        (padded (ROLL_COLUMNS + roller.history) (streamed es c)).flatMap Pair.samples := hchannel true c hc
    have hfalse : channel false c = (padded ROLL_COLUMNS (streamed es c)).flatMap Pair.samples := hchannel false c hc
    rw [hfalse, htrue, hscreen, ← hshorter, ← drop_flatMap_of_length (k := 2) (fun _ => rfl), List.rtake,
      length_flatMap_of_length (k := 2) (fun _ => rfl), length_padded]
    have hindex : 2 * (ROLL_COLUMNS + roller.history - ROLL_COLUMNS) =
        2 * (ROLL_COLUMNS + roller.history) - ROLL_COLUMNS * 2 := by omega
    rw [hindex]

end Lager.Scope
