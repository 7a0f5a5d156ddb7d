import Lager.Lib.Outputs
import Mathlib.Algebra.Group.Nat.Defs
import Mathlib.Order.Nat

/-!
# A pacer on a schedule

A pacer lets attempts through at most once an interval. It keeps the time the next one is due: an interval after
the previous due time, so that one that goes late is followed by one that goes early, and an interval from now when
the schedule is more than an interval behind. An attempt looks at the clock twice, when it asks whether it is due
and when it sets the next time.

`passed_le` bounds what is let through in any interval, and `passed_on_schedule` says that attempts that come
continuously are let through on the schedule of the first.
-/

namespace Lager.Lib.Pacer

structure Attempt where
  now : Nat
  later : Nat
  deriving DecidableEq

/-- Attempts one after the other. -/
def InOrder (as : List Attempt) : Prop :=
  (∀ a ∈ as, a.now ≤ a.later) ∧ as.Pairwise fun a b => a.later ≤ b.now

theorem InOrder.sublist {as bs : List Attempt} (h : InOrder bs) (hsub : as.Sublist bs) : InOrder as :=
  ⟨fun a ha => h.1 a (hsub.subset ha), h.2.sublist hsub⟩

/-- When the one after one let through at `now` is due. -/
def dueAfter (interval : Nat) (due : Option Nat) (now : Nat) : Nat :=
  match due with
  | some due => if now ≤ due + interval then due + interval else now + interval
  | none => now + interval

/-- The attempt comes at its time. -/
def isDue (due : Option Nat) (a : Attempt) : Bool := due.all fun due => decide (due ≤ a.now)

/-- The schedule after an attempt, and the attempt with whether it was let through. -/
def attempt (interval : Nat) (due : Option Nat) (a : Attempt) : Option Nat × Attempt × Bool :=
  if isDue due a then (some (dueAfter interval due a.later), a, true) else (due, a, false)

/-- How many were let through. -/
def passed (ps : List (Attempt × Bool)) : Nat := ps.countP fun p => p.2

variable {interval : Nat}

theorem later_le_dueAfter (due : Option Nat) (now : Nat) : now ≤ dueAfter interval due now := by
  unfold dueAfter
  split
  · split_ifs <;> omega
  · omega

theorem add_le_dueAfter (due now : Nat) : due + interval ≤ dueAfter interval (some due) now := by
  simp only [dueAfter]
  split_ifs <;> omega

theorem dueAfter_eq {due now : Nat} (h : now ≤ due + interval) :
    dueAfter interval (some due) now = due + interval := if_pos h

theorem attempt_due {due : Option Nat} {a : Attempt} (h : isDue due a = true) :
    attempt interval due a = (some (dueAfter interval due a.later), a, true) := if_pos h

theorem attempt_early {due : Option Nat} {a : Attempt} (h : ¬isDue due a = true) :
    attempt interval due a = (due, a, false) := if_neg h

theorem passed_cons (p : Attempt × Bool) (ps : List (Attempt × Bool)) :
    passed (p :: ps) = passed ps + if p.2 = true then 1 else 0 := by
  simp [passed, List.countP_cons]

theorem passed_append (ps qs : List (Attempt × Bool)) : passed (ps ++ qs) = passed ps + passed qs :=
  List.countP_append

theorem map_attempts (due : Option Nat) (as : List Attempt) :
    (outputs (attempt interval) due as).map Prod.fst = as := by
  refine map_outputs (fun due a => ?_) due as
  unfold attempt
  split_ifs <;> rfl

/-- A machine that keeps a schedule: each step leaves it alone, or is an attempt on it. -/
theorem outputs_paced {σ ε : Type*} {step : σ → ε → σ × Option (Attempt × Bool)} (due : σ → Option Nat)
    (I : σ → Prop) (hstep : ∀ s e, I s → I (step s e).1 ∧
      ((step s e).2 = none ∧ due (step s e).1 = due s ∨
        ∃ a, (step s e).2 = some (attempt interval (due s) a).2 ∧
          due (step s e).1 = (attempt interval (due s) a).1)) {s : σ} (hinit : I s) (es : List ε) :
    (outputs step s es).filterMap id =
      outputs (attempt interval) (due s) (((outputs step s es).filterMap id).map Prod.fst) := by
  induction es generalizing s with
  | nil => rfl
  | cons e es ih =>
    obtain ⟨hnext, hout⟩ := hstep s e hinit
    have hrest := ih hnext
    show List.filterMap id ((step s e).2 :: _) = outputs _ _ ((List.filterMap id ((step s e).2 :: _)).map _)
    rcases hout with ⟨hnone, hdue⟩ | ⟨a, hsome, hdue⟩
    · rw [hnone, List.filterMap_cons_none rfl, ← hdue]
      exact hrest
    · have ha : (attempt interval (due s) a).2.1 = a := by
        unfold attempt
        split_ifs <;> rfl
      rw [hsome]
      show (attempt interval (due s) a).2 :: (outputs step (step s e).1 es).filterMap id =
        outputs (attempt interval) (due s)
          ((attempt interval (due s) a).2.1 :: ((outputs step (step s e).1 es).filterMap id).map Prod.fst)
      rw [ha]
      show _ = (attempt interval (due s) a).2 :: outputs _ (attempt interval (due s) a).1 _
      rw [← hdue, ← hrest]

/-- The attempts of such a machine come at the times of its events. -/
theorem sublist_times {σ ε : Type*} {step : σ → ε → σ × Option (Attempt × Bool)} {time : ε → Option Attempt}
    (htime : ∀ s e p, (step s e).2 = some p → time e = some p.1) (s : σ) (es : List ε) :
    (((outputs step s es).filterMap id).map Prod.fst).Sublist (es.filterMap time) := by
  induction es generalizing s with
  | nil => exact List.Sublist.slnil
  | cons e es ih =>
    show ((List.filterMap id ((step s e).2 :: _)).map Prod.fst).Sublist _
    cases hout : (step s e).2 with
    | none =>
      rw [List.filterMap_cons_none rfl]
      refine (ih _).trans ?_
      rw [List.filterMap_cons]
      split
      · exact List.Sublist.refl _
      · exact List.sublist_cons_self _ _
    | some p =>
      rw [List.filterMap_cons_some (htime s e p hout)]
      exact (ih _).cons_cons p.1

/-! ### The rate -/

/-- From a schedule on, the last one let through comes an interval after the one before, and so on. -/
theorem passed_from_due {b : Nat} {due : Nat} {as : List Attempt} (hb : ∀ a ∈ as, a.now ≤ b) :
    passed (outputs (attempt interval) (some due) as) = 0 ∨
      due + passed (outputs (attempt interval) (some due) as) * interval ≤ b + interval := by
  induction as generalizing due with
  | nil => exact .inl rfl
  | cons a as ih =>
    have htail : ∀ x ∈ as, x.now ≤ b := fun x hx => hb x (List.mem_cons_of_mem _ hx)
    have hcons : passed (outputs (attempt interval) (some due) (a :: as)) =
        passed (outputs (attempt interval) (attempt interval (some due) a).1 as) +
          if (attempt interval (some due) a).2.2 = true then 1 else 0 := passed_cons _ _
    rw [hcons]
    by_cases hdue : isDue (some due) a = true
    · have hle : due ≤ a.now := by simpa [isDue] using hdue
      have hnext : due + interval ≤ dueAfter interval (some due) a.later := add_le_dueAfter due a.later
      have hnow := hb a List.mem_cons_self
      simp only [attempt_due hdue, if_true]
      right
      rcases @ih (dueAfter interval (some due) a.later) htail with hnone | hrest
      · rw [hnone, Nat.zero_add, Nat.one_mul]
        omega
      · rw [Nat.add_mul, Nat.one_mul]
        omega
    · rw [attempt_early hdue]
      exact ih htail

/-- In an interval of the clock, two more are let through than it has whole intervals of the pacer. -/
theorem passed_le {a b : Nat} {due : Option Nat} {as : List Attempt} (hpos : 0 < interval)
    (hin : ∀ x ∈ as, a ≤ x.later ∧ x.now ≤ b) :
    passed (outputs (attempt interval) due as) ≤ (b - a) / interval + 2 := by
  induction as generalizing due with
  | nil => exact Nat.zero_le _
  | cons x as ih =>
    have htail : ∀ y ∈ as, a ≤ y.later ∧ y.now ≤ b := fun y hy => hin y (List.mem_cons_of_mem _ hy)
    have hcons : passed (outputs (attempt interval) due (x :: as)) =
        passed (outputs (attempt interval) (attempt interval due x).1 as) +
          if (attempt interval due x).2.2 = true then 1 else 0 := passed_cons _ _
    rw [hcons]
    by_cases hdue : isDue due x = true
    · have hnext : x.later ≤ dueAfter interval due x.later := later_le_dueAfter due x.later
      have hfrom := (hin x List.mem_cons_self).1
      simp only [attempt_due hdue, if_true]
      have hrun := @passed_from_due interval b (dueAfter interval due x.later) as fun y hy => (htail y hy).2
      rcases hrun with hnone | hrest
      · rw [hnone]
        exact Nat.succ_le_succ (Nat.zero_le _)
      · generalize passed (outputs (attempt interval) (some (dueAfter interval due x.later)) as) = n at hrest ⊢
        cases n with
        | zero => exact Nat.succ_le_succ (Nat.zero_le _)
        | succ n =>
          have hn : n * interval ≤ b - a := by
            rw [Nat.add_mul, Nat.one_mul] at hrest
            omega
          exact Nat.add_le_add_right ((Nat.le_div_iff_mul_le hpos).mpr hn) 2
    · rw [attempt_early hdue]
      exact ih htail

theorem passed_filter_le {a b : Nat} {due : Option Nat} {as : List Attempt} (hpos : 0 < interval)
    (horder : InOrder as) :
    passed ((outputs (attempt interval) due as).filter fun p => decide (a ≤ p.1.later) && decide (p.1.now ≤ b)) ≤
      (b - a) / interval + 2 := by
  have hlater : (outputs (attempt interval) due as).Pairwise fun p q => p.1.later ≤ q.1.now := by
    rw [← List.pairwise_map (f := Prod.fst) (R := fun a b : Attempt => a.later ≤ b.now), map_attempts]
    exact horder.2
  have heach : ∀ p ∈ outputs (attempt interval) due as, p.1.now ≤ p.1.later := by
    intro p hp
    refine horder.1 p.1 ?_
    rw [← map_attempts due as]
    exact List.mem_map_of_mem hp
  obtain ⟨pre, post, hrun⟩ := exists_stretch (f := fun p => p.1.now) (g := fun p => p.1.later)
    (hlater.imp_of_mem fun {p q} hp hq h => le_trans (heach p hp) h)
    (hlater.imp_of_mem fun {p q} hp hq h => le_trans h (heach q hq)) a b
  rw [List.append_assoc] at hrun
  obtain ⟨_, _, -, -, hrun⟩ := outputs_eq_append hrun
  obtain ⟨inside, _, -, hinside, -⟩ := outputs_eq_append hrun
  rw [← hinside]
  refine passed_le hpos fun x hx => ?_
  rw [← map_attempts _ inside, hinside] at hx
  obtain ⟨p, hp, rfl⟩ := List.mem_map.mp hx
  simpa using (List.mem_filter.mp hp).2

/-! ### The schedule -/

/-- Each attempt is over within an interval of the one before. -/
def Continuous (interval : Nat) (as : List Attempt) : Prop := as.IsChain fun a b => b.later ≤ a.now + interval

/-- Attempts that come continuously after one that set a schedule ahead of it keep to it: each that comes at or
after the time of the `k`-th on the schedule has at least as many let through, itself included. -/
theorem passed_on_schedule {first : Nat} {start : Attempt} (hahead : start.now < first) {as : List Attempt}
    (horder : ∀ a ∈ as, a.now ≤ a.later) (hcontinuous : Continuous interval (start :: as)) :
    ∀ front x back, as = front ++ x :: back → ∀ k, first + k * interval ≤ x.now →
      k + 1 ≤ passed (outputs (attempt interval) (some first) (front ++ [x])) := by
  intro front x back hsplit k hk
  induction front generalizing start first as k with
  | nil =>
    obtain rfl := hsplit
    have hnear : x.later ≤ start.now + interval := (List.isChain_cons_cons.mp hcontinuous).1
    have hnow := horder x List.mem_cons_self
    have hzero : k = 0 := by
      cases k with
      | zero => rfl
      | succ k =>
        rw [Nat.add_mul, Nat.one_mul] at hk
        omega
    have hdue : isDue (some first) x = true := by
      rw [hzero, Nat.zero_mul, Nat.add_zero] at hk
      exact decide_eq_true hk
    show k + 1 ≤ passed ((attempt interval (some first) x).2 :: [])
    rw [attempt_due hdue, hzero]
    exact Nat.le_refl 1
  | cons y front ih =>
    obtain rfl := hsplit
    obtain ⟨hnear, hrest⟩ := List.isChain_cons_cons.mp hcontinuous
    have hnow := horder y List.mem_cons_self
    have htail : ∀ a ∈ front ++ x :: back, a.now ≤ a.later := fun a ha => horder a (List.mem_cons_of_mem _ ha)
    have hcons : passed (outputs (attempt interval) (some first) (y :: (front ++ [x]))) =
        passed (outputs (attempt interval) (attempt interval (some first) y).1 (front ++ [x])) +
          if (attempt interval (some first) y).2.2 = true then 1 else 0 := passed_cons _ _
    rw [List.cons_append, hcons]
    by_cases hdue : isDue (some first) y = true
    · -- the schedule goes on by one interval, and is ahead of `y` again
      have hon : dueAfter interval (some first) y.later = first + interval := dueAfter_eq (by omega)
      simp only [attempt_due hdue, if_true, hon]
      cases k with
      | zero => exact Nat.succ_le_succ (Nat.zero_le _)
      | succ k =>
        rw [Nat.add_mul, Nat.one_mul] at hk
        exact Nat.succ_le_succ (ih (by omega) htail hrest rfl k (by omega))
    · have hearly : y.now < first := by simpa [isDue] using hdue
      rw [attempt_early hdue]
      exact ih hearly htail hrest rfl k hk

end Lager.Lib.Pacer
