import Lager.Lib.Pacer
import Lager.Scope.Connection
import Lager.Scope.Roll

/-!
# Frame pacing

A subscription with `max_fps` keeps a schedule for its frames, and so does a rolling screen: both are pacers
(`Lib.Pacer`), whatever comes in between. A frame goes out on `take_sendable`, which the connection tries when a
capture has come, when credit has, and when the time it waits for is there.
-/

namespace Lager.Scope.Server

open Lager.Lib
open Lager.Lib.Pacer (Attempt Continuous passed)

/-- What the connection does with a subscription between its attempts to send, and the attempts. -/
inductive Feed where
  /-- A capture has come, and replaces one that is waiting. -/
  | capture (frame : Published)
  | credit (count : Nat)
  | attempt (clock : Clock)

namespace Subscription

/-- The subscription afterwards. An attempt that sends is noted as let through, and one that has a frame and credit
for it and does not send as held. -/
def pace (sub : Subscription) : Feed → Subscription × Option (Attempt × Bool)
  | .capture frame => ({ sub with pending := some frame }, none)
  | .credit count => (sub.refill count, none)
  | .attempt clock =>
    match sub.takeSendable clock with
    | some (_, rest) => (rest, some (⟨clock.now, clock.later⟩, true))
    | none => (sub, if sub.hasCredit && sub.pending.isSome then some (⟨clock.now, clock.later⟩, false) else none)

/-- The attempts that had a frame and credit, with whether they were let through. -/
def paced (sub : Subscription) (es : List Feed) : List (Attempt × Bool) := (outputs pace sub es).filterMap id

end Subscription

/-- The looks at the clock of the attempts. -/
def attemptsOf (es : List Feed) : List Attempt :=
  es.filterMap fun
    | .attempt clock => some ⟨clock.now, clock.later⟩
    | _ => none

/-! ### A subscription is a pacer -/

theorem dueAfter_eq_pacer (previous : Option Nat) (interval now : Nat) :
    Subscription.dueAfter previous interval now = Pacer.dueAfter interval previous now := rfl

section Paced

variable {sub : Subscription} {interval : Nat} (hinterval : sub.minInterval = some interval) {clock : Clock}

/-- The attempt as a pacer sees it. -/
abbrev attemptAt (clock : Clock) : Attempt := ⟨clock.now, clock.later⟩

include hinterval in
theorem pacedUntil_isSome : (sub.pacedUntil clock.now).isSome = !Pacer.isDue sub.nextDue (attemptAt clock) := by
  rw [Subscription.pacedUntil, hinterval, Option.bind_some, Pacer.isDue]
  cases sub.nextDue with
  | none => rfl
  | some due =>
    by_cases hdue : clock.now < due
    · simp [Option.filter, hdue, Nat.not_le.mpr hdue]
    · simp [Option.filter, hdue, Nat.not_lt.mp hdue]

include hinterval in
theorem takeSendable_due {frame : Published} (hcredit : sub.hasCredit = true) (hpending : sub.pending = some frame)
    (hdue : Pacer.isDue sub.nextDue (attemptAt clock) = true) :
    sub.takeSendable clock = some (frame, sub.spend clock.later) := by
  rw [Subscription.takeSendable, pacedUntil_isSome hinterval, hdue, hcredit, hpending]
  rfl

include hinterval in
theorem takeSendable_early (hdue : ¬Pacer.isDue sub.nextDue (attemptAt clock) = true) :
    sub.takeSendable clock = none := by
  rw [Subscription.takeSendable, pacedUntil_isSome hinterval, if_pos (by simp [hdue])]

theorem takeSendable_unready (h : (sub.hasCredit && sub.pending.isSome) = false) :
    sub.takeSendable clock = none := by
  rw [Subscription.takeSendable]
  rcases Bool.and_eq_false_iff.mp h with hcredit | hpending
  · rw [hcredit]
    rfl
  · have hnone : sub.pending = none := by simpa using hpending
    rw [hnone, Option.map_none, ite_self]

include hinterval in
/-- A step leaves the schedule alone, or is an attempt on it. -/
theorem pace_step (e : Feed) :
    (sub.pace e).1.minInterval = some interval ∧
      ((sub.pace e).2 = none ∧ (sub.pace e).1.nextDue = sub.nextDue ∨
        ∃ a, (sub.pace e).2 = some (Pacer.attempt interval sub.nextDue a).2 ∧
          (sub.pace e).1.nextDue = (Pacer.attempt interval sub.nextDue a).1) := by
  cases e with
  | capture frame => exact ⟨hinterval, .inl ⟨rfl, rfl⟩⟩
  | credit count => exact ⟨hinterval, .inl ⟨rfl, rfl⟩⟩
  | attempt clock =>
    unfold Subscription.pace
    dsimp only
    cases hready : sub.hasCredit && sub.pending.isSome with
    | false =>
      rw [takeSendable_unready hready]
      exact ⟨hinterval, .inl ⟨rfl, rfl⟩⟩
    | true =>
      obtain ⟨hcredit, hpending⟩ := Bool.and_eq_true_iff.mp hready
      obtain ⟨frame, hframe⟩ := Option.isSome_iff_exists.mp hpending
      by_cases hdue : Pacer.isDue sub.nextDue (attemptAt clock) = true
      · rw [takeSendable_due hinterval hcredit hframe hdue]
        refine ⟨hinterval, .inr ⟨attemptAt clock, ?_⟩⟩
        rw [Pacer.attempt_due hdue]
        refine ⟨rfl, ?_⟩
        show (sub.spend clock.later).nextDue = _
        rw [Subscription.spend, hinterval]
        exact congrArg some (dueAfter_eq_pacer _ _ _)
      · rw [takeSendable_early hinterval hdue]
        refine ⟨hinterval, .inr ⟨attemptAt clock, ?_⟩⟩
        rw [Pacer.attempt_early hdue]
        exact ⟨rfl, rfl⟩

include hinterval in
theorem paced_eq (es : List Feed) :
    sub.paced es = outputs (Pacer.attempt interval) sub.nextDue ((sub.paced es).map Prod.fst) :=
  Pacer.outputs_paced Subscription.nextDue (fun sub => sub.minInterval = some interval)
    (fun _ e hinterval => pace_step hinterval e) hinterval es

/-- The attempts that count are attempts. -/
theorem paced_sublist (sub : Subscription) (es : List Feed) :
    ((sub.paced es).map Prod.fst).Sublist (attemptsOf es) := by
  refine Pacer.sublist_times (fun sub e p hout => ?_) sub es
  cases e with
  | capture frame => cases hout
  | credit count => cases hout
  | attempt clock =>
    unfold Subscription.pace at hout
    dsimp only at hout
    split at hout
    · rw [← Option.some.inj hout]
    · split_ifs at hout
      rw [← Option.some.inj hout]

end Paced

/-- **Frame pacing.** For a subscription with an interval, whatever captures and credit come between its attempts
to send: in every stretch of the clock of length `T` at most `T / interval + 2` frames are let through. And after
a frame that set the next due time ahead, as long as attempts with a frame and credit come continuously, an
attempt at or after the `k`-th time of the schedule finds that many frames let through, its own included. -/
theorem frame_pacing (sub : Subscription) (interval : Nat) (hinterval : sub.minInterval = some interval)
    (hpos : 0 < interval) (es : List Feed) (horder : Pacer.InOrder (attemptsOf es)) :
    (∀ a T : Nat, passed ((sub.paced es).filter fun p => decide (a ≤ p.1.later) && decide (p.1.now ≤ a + T)) ≤
        T / interval + 2) ∧
      ∀ clock frame rest first, sub.takeSendable clock = some (frame, rest) → rest.nextDue = some first →
        clock.now < first → Continuous interval (attemptAt clock :: (rest.paced es).map Prod.fst) →
        ∀ front x back, rest.paced es = front ++ x :: back → ∀ k, first + k * interval ≤ x.1.now →
          k + 1 ≤ passed (front ++ [x]) := by
  constructor
  · intro a T
    have hrate := @Pacer.passed_filter_le interval a (a + T) sub.nextDue _ hpos
      (horder.sublist (paced_sublist sub es))
    rw [← paced_eq hinterval, Nat.add_sub_cancel_left] at hrate
    exact hrate
  · intro clock frame rest first hsend hfirst hahead hcontinuous front x back hsplit k hk
    have hrest : rest.minInterval = some interval := by
      unfold Subscription.takeSendable at hsend
      split_ifs at hsend
      obtain ⟨_, -, heq⟩ := Option.map_eq_some_iff.mp hsend
      obtain ⟨-, rfl⟩ := Prod.mk.inj heq
      exact hinterval
    have hrun := paced_eq hrest es
    rw [hfirst] at hrun
    have heach : ∀ a ∈ (rest.paced es).map Prod.fst, a.now ≤ a.later := fun a ha =>
      horder.1 a ((paced_sublist rest es).subset ha)
    have htimes : (rest.paced es).map Prod.fst = front.map Prod.fst ++ x.1 :: back.map Prod.fst := by
      rw [hsplit, List.map_append, List.map_cons]
    have hcount := Pacer.passed_on_schedule hahead heach hcontinuous _ _ _ htimes k hk
    rw [hsplit, List.append_cons] at hrun
    obtain ⟨done, _, -, hdone, -⟩ := outputs_eq_append hrun.symm
    have htaken : done = front.map Prod.fst ++ [x.1] := by
      rw [← Pacer.map_attempts (some first) done, hdone, List.map_append, List.map_singleton]
    rw [htaken] at hdone
    rw [hdone] at hcount
    exact hcount

/-- A second's worth of frames at two a second. -/
def twoPerSecond : Subscription where
  next := 0
  credits := none
  pending := none
  minInterval := some 500
  nextDue := none

/-- A capture and an attempt to send it, every 200 ms. -/
def fiveAttempts : List Feed :=
  [0, 200, 400, 600, 800].flatMap fun time => [.capture ⟨time, []⟩, .attempt ⟨time, time⟩]

example : passed (twoPerSecond.paced fiveAttempts) = 2 := by decide

theorem frame_pacing_half_second :
    passed ((twoPerSecond.paced fiveAttempts).filter fun p =>
      decide (100 ≤ p.1.later) && decide (p.1.now ≤ 100 + 600)) ≤ 600 / 500 + 2 :=
  (frame_pacing twoPerSecond 500 rfl (by decide) fiveAttempts (by unfold Pacer.InOrder; decide)).1 100 600

end Lager.Scope.Server

/-! ### A rolling screen is a pacer -/

namespace Lager.Scope

open Lager.Lib
open Lager.Lib.Pacer (Attempt passed)

namespace Rolling

variable {channels : Nat}

/-- `roll_step`, with whether a screen with something new on it was published. -/
def pace (r : Rolling) (e : Delivery channels × Nat) : Rolling × Option (Attempt × Bool) :=
  let roller := (r.roller.absorbPairs (r.sink.clear.extend e.1.pairs)).1
  (r.step e, if roller.fresh then some (⟨e.2, e.2⟩, roller.isDue e.2) else none)

theorem isDue_eq_pacer (r : Roller) (now : Nat) : r.isDue now = Pacer.isDue r.nextPublish ⟨now, now⟩ := by
  unfold Roller.isDue Pacer.isDue
  cases r.nextPublish with
  | none => rfl
  | some time => rfl

theorem pace_step (r : Rolling) (e : Delivery channels × Nat) :
    (r.pace e).2 = none ∧ (r.pace e).1.roller.nextPublish = r.roller.nextPublish ∨
      ∃ a, (r.pace e).2 = some (Pacer.attempt ROLL_FRAME_INTERVAL r.roller.nextPublish a).2 ∧
        (r.pace e).1.roller.nextPublish = (Pacer.attempt ROLL_FRAME_INTERVAL r.roller.nextPublish a).1 := by
  have hkept : (r.roller.absorbPairs (r.sink.clear.extend e.1.pairs)).1.nextPublish = r.roller.nextPublish := rfl
  unfold pace step
  dsimp only
  generalize (r.roller.absorbPairs (r.sink.clear.extend e.1.pairs)).1 = roller at hkept ⊢
  rw [isDue_eq_pacer, ← hkept]
  cases hfresh : roller.fresh with
  | false => exact .inl ⟨rfl, rfl⟩
  | true =>
    refine .inr ⟨⟨e.2, e.2⟩, ?_⟩
    by_cases hdue : Pacer.isDue roller.nextPublish ⟨e.2, e.2⟩ = true
    · rw [Pacer.attempt_due hdue, hdue]
      exact ⟨rfl, rfl⟩
    · rw [Pacer.attempt_early hdue]
      rw [Bool.not_eq_true] at hdue
      rw [hdue]
      exact ⟨rfl, rfl⟩

theorem pace_time (r : Rolling) (e : Delivery channels × Nat) (p : Attempt × Bool) (hout : (r.pace e).2 = some p) :
    some (Attempt.mk e.2 e.2) = some p.1 := by
  unfold pace at hout
  dsimp only at hout
  split_ifs at hout
  rw [← Option.some.inj hout]

/-- In every stretch of the clock of length `T`, at most two more screens are published than `T` has frame
intervals. -/
theorem roll_rate (r : Rolling) (es : List (Delivery channels × Nat)) (horder : es.Pairwise fun d e => d.2 ≤ e.2)
    (a T : Nat) :
    passed (((outputs pace r es).filterMap id).filter fun p =>
      decide (a ≤ p.1.later) && decide (p.1.now ≤ a + T)) ≤ T / ROLL_FRAME_INTERVAL + 2 := by
  have htimes : Pacer.InOrder (es.filterMap fun e => some ⟨e.2, e.2⟩) := by
    rw [List.filterMap_eq_map']
    refine ⟨fun x hx => ?_, List.pairwise_map.mpr horder⟩
    obtain ⟨e, -, rfl⟩ := List.mem_map.mp hx
    exact Nat.le_refl _
  have hsub := Pacer.sublist_times pace_time r es
  have hrate := @Pacer.passed_filter_le ROLL_FRAME_INTERVAL a (a + T) r.roller.nextPublish _ (by decide)
    (htimes.sublist hsub)
  rw [← Pacer.outputs_paced (fun r : Rolling => r.roller.nextPublish) (fun _ => True)
    (fun r e _ => ⟨trivial, pace_step r e⟩) trivial es, Nat.add_sub_cancel_left] at hrate
  exact hrate

/-- A column of one channel, three times in two milliseconds. -/
def threeColumns : List (Delivery 1 × Nat) :=
  [0, 1000000, 2000000].map fun now =>
    (⟨[[(0, 1)]], rfl, fun a ha b hb => by rw [List.mem_singleton.mp ha, List.mem_singleton.mp hb]⟩, now)

theorem roll_rate_threeColumns :
    passed (((outputs pace (Rolling.start ⟨1000000, [⟨.alphabetic 'A', 0, .DC, 0, 0⟩], 8⟩ 1) threeColumns).filterMap
      id).filter fun p => decide (1000000 ≤ p.1.later) && decide (p.1.now ≤ 1000000 + 20000000)) ≤
        20000000 / ROLL_FRAME_INTERVAL + 2 :=
  roll_rate _ threeColumns (by decide) 1000000 20000000

end Rolling

end Lager.Scope
