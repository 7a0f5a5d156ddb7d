import Lager.Scope.Measure

/-!
# What a rise time is timed from

`transition_time` keeps the last passage of `from_level` while no later sample falls back below it, and times the first
passage of `to_level` from there. A passage that it has just taken as the start is not looked at as an end: an edge
through both levels between two samples is passed over, and the first slower one is timed in its place.
-/

namespace Lager.Scope.Measure

variable {s : List ℚ} {intervalS low high : ℚ}

/-! ### Rises -/

/-- The samples pass `level` upwards between `i` and `i + 1`. -/
def PassesUp (s : List ℚ) (level : ℚ) (i : Nat) : Prop :=
  ∃ a b, s[i]? = some a ∧ s[i + 1]? = some b ∧ a < level ∧ level ≤ b

/-- A passage of `low` at `j`, a passage of `high` at `i`, and no sample below `low` between the two. -/
structure Rise (s : List ℚ) (low high : ℚ) (j i : Nat) : Prop where
  le : j ≤ i
  passesLow : PassesUp s low j
  passesHigh : PassesUp s high i
  stays : ∀ k x, j < k → k ≤ i → s[k]? = some x → low ≤ x

/-- A rise that holds a sample on or between the levels. -/
def SlowRise (s : List ℚ) (low high : ℚ) (j i : Nat) : Prop := Rise s low high j i ∧ j < i

/-- `P j i` is the earliest of its kind from `n` on, in the order of the ends `i`. -/
def FirstFrom (P : Nat → Nat → Prop) (n j i : Nat) : Prop :=
  n ≤ i ∧ P j i ∧ ∀ j' i', n ≤ i' → P j' i' → i ≤ i'

def FirstRise (s : List ℚ) (low high : ℚ) (j i : Nat) : Prop := FirstFrom (Rise s low high) 0 j i

def FirstSlowRise (s : List ℚ) (low high : ℚ) (j i : Nat) : Prop := FirstFrom (SlowRise s low high) 0 j i

/-- The interpolated position at which the samples pass `level` after `i`. -/
def passage (s : List ℚ) (level : ℚ) (i : Nat) : ℚ := interpolate (s.getD i 0) (s.getD (i + 1) 0) level i

def riseDuration (s : List ℚ) (intervalS low high : ℚ) (j i : Nat) : ℚ :=
  (passage s high i - passage s low j) * intervalS

/-- `t` is the time of the first rise, and there is none only where there is no rise. -/
def IsRiseTime (s : List ℚ) (intervalS low high : ℚ) (t : Option ℚ) : Prop :=
  ∀ v, t = some v ↔ ∃ j i, FirstRise s low high j i ∧ v = riseDuration s intervalS low high j i

theorem Rise.start_unique {j j' i : Nat} (h : Rise s low high j i) (h' : Rise s low high j' i) : j = j' := by
  have hnot : ∀ {a b}, Rise s low high a i → Rise s low high b i → ¬ a < b := by
    intro a b ha hb hlt
    obtain ⟨x, -, hx, -, hbelow, -⟩ := hb.passesLow
    have := ha.stays b x hlt hb.le hx
    linarith
  have h1 := hnot h h'
  have h2 := hnot h' h
  omega

theorem exists_firstFrom {P : Nat → Nat → Prop} {j i : Nat} (h : P j i) : ∃ j' i', FirstFrom P 0 j' i' := by
  classical
  have hex : ∃ i, ∃ j, P j i := ⟨i, j, h⟩
  obtain ⟨j', hj'⟩ := Nat.find_spec hex
  exact ⟨j', Nat.find hex, Nat.zero_le _, hj', fun k l _ hkl => Nat.find_min' hex ⟨k, hkl⟩⟩

theorem FirstFrom.end_unique {P : Nat → Nat → Prop} {n j i j' i' : Nat} (h : FirstFrom P n j i)
    (h' : FirstFrom P n j' i') : i = i' :=
  le_antisymm (h.2.2 j' i' h'.1 h'.2.1) (h'.2.2 j i h.1 h.2.1)

theorem firstFrom_succ {P : Nat → Nat → Prop} {n : Nat} (hnone : ∀ j, ¬ P j n) (j i : Nat) :
    FirstFrom P (n + 1) j i ↔ FirstFrom P n j i := by
  have hne : ∀ {j i}, P j i → i ≠ n := by
    rintro j i hP rfl
    exact hnone j hP
  constructor
  · rintro ⟨hle, hP, hmin⟩
    refine ⟨by omega, hP, fun j' i' hi' hP' => hmin j' i' ?_ hP'⟩
    have := hne hP'
    omega
  · rintro ⟨hle, hP, hmin⟩
    have := hne hP
    exact ⟨by omega, hP, fun j' i' hi' hP' => hmin j' i' (by omega) hP'⟩

theorem firstFrom_here {P : Nat → Nat → Prop} {n k : Nat} (hhere : P k n) (j i : Nat) :
    FirstFrom P n j i ↔ i = n ∧ P j n := by
  constructor
  · rintro ⟨hle, hP, hmin⟩
    have hi : i = n := le_antisymm (hmin k n le_rfl hhere) hle
    exact ⟨hi, hi ▸ hP⟩
  · rintro ⟨rfl, hP⟩
    exact ⟨le_rfl, hP, fun _ _ hle _ => hle⟩

/-! ### The scan -/

/-- A passage of `low` at `j` before `index`, and no sample below `low` from there to `index`. -/
def Pending (s : List ℚ) (low : ℚ) (index j : Nat) : Prop :=
  j < index ∧ PassesUp s low j ∧ ∀ k x, j < k → k ≤ index → s[k]? = some x → low ≤ x

/-- The start that the scan keeps at `index` is the position of the pending passage. -/
def Tracks (s : List ℚ) (low : ℚ) (start : Option ℚ) (index : Nat) : Prop :=
  ∀ p, start = some p ↔ ∃ j, Pending s low index j ∧ p = passage s low j

theorem slowRise_iff (j i : Nat) : SlowRise s low high j i ↔ Pending s low i j ∧ PassesUp s high i := by
  constructor
  · rintro ⟨hrise, hlt⟩
    exact ⟨⟨hlt, hrise.passesLow, hrise.stays⟩, hrise.passesHigh⟩
  · rintro ⟨⟨hlt, hlow, hstays⟩, hhigh⟩
    exact ⟨⟨hlt.le, hlow, hhigh, hstays⟩, hlt⟩

section Step

variable {index : Nat} {previous current : ℚ} (hprevious : s[index]? = some previous)
  (hcurrent : s[index + 1]? = some current)

include hprevious hcurrent

theorem passesUp_iff (level : ℚ) : PassesUp s level index ↔ crossedFrom true level previous current = true := by
  simp [PassesUp, crossedFrom, hprevious, hcurrent]

theorem passage_eq (level : ℚ) : passage s level index = interpolate previous current level index := by
  simp [passage, List.getD_eq_getElem?_getD, hprevious, hcurrent]

omit hcurrent in
theorem Pending.le_sample {j : Nat} (h : Pending s low index j) : low ≤ previous :=
  h.2.2 index previous h.1 le_rfl hprevious

theorem pending_succ (j : Nat) : Pending s low (index + 1) j ↔
    low ≤ current ∧ (Pending s low index j ∨ (j = index ∧ PassesUp s low index)) := by
  constructor
  · rintro ⟨hlt, hpass, hstays⟩
    refine ⟨hstays (index + 1) current hlt le_rfl hcurrent, ?_⟩
    rcases Nat.lt_succ_iff_lt_or_eq.mp hlt with hlt | rfl
    · exact Or.inl ⟨hlt, hpass, fun k x hk hle hx => hstays k x hk (by omega) hx⟩
    · exact Or.inr ⟨rfl, hpass⟩
  · rintro ⟨hcur, h⟩
    have hlast : ∀ k x, k = index + 1 → s[k]? = some x → low ≤ x := by
      rintro k x rfl hx
      rw [hcurrent] at hx
      exact Option.some.inj hx ▸ hcur
    rcases h with ⟨hlt, hpass, hstays⟩ | ⟨rfl, hpass⟩
    · refine ⟨by omega, hpass, fun k x hk hle hx => ?_⟩
      rcases Nat.le_succ_iff.mp hle with hle | hk'
      · exact hstays k x hk hle hx
      · exact hlast k x hk' hx
    · exact ⟨by omega, hpass, fun k x hk hle hx => hlast k x (by omega) hx⟩

variable {start : Option ℚ} (htracks : Tracks s low start index)

include htracks

theorem Tracks.set (hnone : start = none) (hpass : PassesUp s low index) :
    Tracks s low (some (interpolate previous current low index)) (index + 1) := by
  have hno : ∀ j, ¬ Pending s low index j := fun j hj => by
    have := (htracks _).mpr ⟨j, hj, rfl⟩
    simp [hnone] at this
  have hcur : low ≤ current := by
    obtain ⟨_, b, -, hb, -, hle⟩ := hpass
    rw [hcurrent] at hb
    exact Option.some.inj hb ▸ hle
  intro p
  rw [← passage_eq hprevious hcurrent]
  constructor
  · intro h
    exact ⟨index, (pending_succ hprevious hcurrent index).mpr ⟨hcur, Or.inr ⟨rfl, hpass⟩⟩, (Option.some.inj h).symm⟩
  · rintro ⟨j, hj, rfl⟩
    rcases ((pending_succ hprevious hcurrent j).mp hj).2 with hj | ⟨rfl, -⟩
    · exact absurd hj (hno j)
    · rfl

omit htracks in
theorem Tracks.reset (hfell : current < low) : Tracks s low none (index + 1) := by
  intro p
  constructor
  · intro h
    cases h
  · rintro ⟨j, hj, -⟩
    have := ((pending_succ hprevious hcurrent j).mp hj).1
    linarith

theorem Tracks.keep (hnew : start = none → ¬ PassesUp s low index) (hcur : low ≤ current) :
    Tracks s low start (index + 1) := by
  intro p
  rw [htracks p]
  constructor
  · rintro ⟨j, hj, hp⟩
    exact ⟨j, (pending_succ hprevious hcurrent j).mpr ⟨hcur, Or.inl hj⟩, hp⟩
  · rintro ⟨j, hj, hp⟩
    rcases ((pending_succ hprevious hcurrent j).mp hj).2 with hj | ⟨rfl, hpass⟩
    · exact ⟨j, hj, hp⟩
    · -- A second passage of the level cannot come while the first is pending.
      cases hstart : start with
      | none => exact absurd hpass (hnew hstart)
      | some q =>
        obtain ⟨j', hj', -⟩ := (htracks q).mp hstart
        obtain ⟨a, -, ha, -, hbelow, -⟩ := hpass
        have := hj'.le_sample ha
        linarith

end Step

theorem transitionLoop_iff (rest : List ℚ) : ∀ (start : Option ℚ) (index : Nat) (previous : ℚ),
    s.drop index = previous :: rest → Tracks s low start index → ∀ v,
      (transitionLoop intervalS low high true start index previous rest = some v ↔
        ∃ j i, FirstFrom (SlowRise s low high) index j i ∧ v = riseDuration s intervalS low high j i) := by
  induction rest with
  | nil =>
    intro start index previous hdrop _ v
    have hlen : s.length = index + 1 := by
      have := congrArg List.length hdrop
      simp at this
      omega
    constructor
    · intro h
      cases h
    · rintro ⟨j, i, ⟨hle, ⟨hrise, -⟩, -⟩, -⟩
      obtain ⟨_, _, -, hb, -⟩ := hrise.passesHigh
      have := (List.getElem?_eq_some_iff.mp hb).1
      omega
  | cons current rest ih =>
    intro start index previous hdrop htracks v
    have hprevious : s[index]? = some previous := by
      rw [← List.head?_drop, hdrop]
      rfl
    have hdrop' : s.drop (index + 1) = current :: rest := by
      rw [← List.drop_drop, hdrop]
      rfl
    have hcurrent : s[index + 1]? = some current := by
      rw [← List.head?_drop, hdrop']
      rfl
    -- Where no slow rise ends at `index`, the rest of the scan decides.
    have hgo : ∀ start', Tracks s low start' (index + 1) → (∀ j, ¬ SlowRise s low high j index) →
        (transitionLoop intervalS low high true start' (index + 1) current rest = some v ↔
          ∃ j i, FirstFrom (SlowRise s low high) index j i ∧ v = riseDuration s intervalS low high j i) := by
      intro start' htracks' hno
      rw [ih start' (index + 1) current hdrop' htracks' v]
      simp only [firstFrom_succ hno]
    have hno_of_none : start = none → ∀ j, ¬ SlowRise s low high j index := by
      intro hnone j hj
      have := (htracks _).mpr ⟨j, ((slowRise_iff j index).mp hj).1, rfl⟩
      simp [hnone] at this
    rw [transitionLoop.eq_def]
    dsimp only
    by_cases hset : start = none ∧ crossedFrom true low previous current = true
    · rw [if_pos hset]
      have hpass := (passesUp_iff hprevious hcurrent low).mpr hset.2
      exact hgo _ (htracks.set hprevious hcurrent hset.1 hpass) (hno_of_none hset.1)
    rw [if_neg hset]
    by_cases hfell : current < low
    · rw [if_pos (by simpa [fellBack] using hfell)]
      refine hgo _ (Tracks.reset hprevious hcurrent hfell) fun j hj => ?_
      obtain ⟨hpending, a, b, ha, hb, hlt, hle⟩ := (slowRise_iff j index).mp hj
      have := hpending.le_sample ha
      rw [hcurrent] at hb
      cases hb
      linarith
    rw [if_neg (by simpa [fellBack] using hfell)]
    have hkeep := htracks.keep hprevious hcurrent
      (fun hnone hpass => hset ⟨hnone, (passesUp_iff hprevious hcurrent low).mp hpass⟩) (not_lt.mp hfell)
    cases start with
    | none => exact hgo none hkeep (hno_of_none rfl)
    | some p =>
      dsimp only
      obtain ⟨j₀, hj₀, hp⟩ := (htracks p).mp rfl
      by_cases hto : crossedFrom true high previous current = true
      · rw [if_pos hto]
        have hhigh := (passesUp_iff hprevious hcurrent high).mpr hto
        have hslow : SlowRise s low high j₀ index := (slowRise_iff j₀ index).mpr ⟨hj₀, hhigh⟩
        simp only [firstFrom_here hslow, riseDuration]
        rw [← passage_eq hprevious hcurrent, Option.some.injEq]
        constructor
        · rintro rfl
          exact ⟨j₀, index, ⟨rfl, hslow⟩, by rw [hp]⟩
        · rintro ⟨j, i, ⟨rfl, hj⟩, rfl⟩
          rw [hp, hj.1.start_unique hslow.1]
      · rw [if_neg hto]
        refine hgo _ hkeep fun j hj => hto ?_
        exact (passesUp_iff hprevious hcurrent high).mp ((slowRise_iff j index).mp hj).2

/-- **`transition_time` times the first slow rise.** -/
theorem transitionTime_iff (s : List ℚ) (intervalS low high v : ℚ) :
    transitionTime s intervalS low high true = some v ↔
      ∃ j i, FirstSlowRise s low high j i ∧ v = riseDuration s intervalS low high j i := by
  cases s with
  | nil =>
    constructor
    · intro h
      cases h
    · rintro ⟨j, i, ⟨-, ⟨hrise, -⟩, -⟩, -⟩
      obtain ⟨_, _, ha, -⟩ := hrise.passesHigh
      simp at ha
  | cons first rest =>
    refine transitionLoop_iff rest none 0 first rfl (fun p => ?_) v
    constructor
    · intro h
      cases h
    · rintro ⟨j, ⟨hlt, -⟩, -⟩
      omega

/-! ### Falls -/

theorem interpolate_neg (before after level : ℚ) (index : Nat) :
    interpolate (-before) (-after) (-level) index = interpolate before after level index := by
  have hspan : -after - -before = -(after - before) := by ring
  have hlevel : -level - -before = -(level - before) := by ring
  simp only [interpolate, hspan, hlevel, abs_neg, neg_div_neg_eq]

theorem transitionLoop_neg (rest : List ℚ) : ∀ (start : Option ℚ) (index : Nat) (previous : ℚ),
    transitionLoop intervalS (-low) (-high) false start index (-previous) (rest.map (-·)) =
      transitionLoop intervalS low high true start index previous rest := by
  induction rest with
  | nil => intro start index previous; rfl
  | cons current rest ih =>
    intro start index previous
    have hcrossed : ∀ level, crossedFrom false (-level) (-previous) (-current) =
        crossedFrom true level previous current := by
      intro level
      simp [crossedFrom]
    have hfell : fellBack false (-low) (-current) = fellBack true low current := by simp [fellBack]
    cases start with
    | none => simp only [List.map_cons, transitionLoop, hcrossed, hfell, interpolate_neg, ih]
    | some p => simp only [List.map_cons, transitionLoop, hcrossed, hfell, interpolate_neg, ih]

theorem transitionTime_neg (s : List ℚ) (intervalS low high : ℚ) :
    transitionTime (s.map (-·)) intervalS (-low) (-high) false = transitionTime s intervalS low high true := by
  cases s with
  | nil => rfl
  | cons first rest => exact transitionLoop_neg rest none 0 first

/-! ### When the scan finds the first rise -/

theorem FirstRise.slow {j i : Nat} (h : FirstRise s low high j i) (hlt : j < i) : FirstSlowRise s low high j i :=
  ⟨h.1, ⟨h.2.1, hlt⟩, fun j' i' hle hslow => h.2.2 j' i' hle hslow.1⟩

/-- **The rise time is that of the first rise, unless that rise fits between two samples.** The one exception is a
first slow rise that takes exactly as long. -/
theorem riseTime_iff (s : List ℚ) (intervalS low high : ℚ) :
    (IsRiseTime s intervalS low high (transitionTime s intervalS low high true) ∧
      transitionTime (s.map (-·)) intervalS (-low) (-high) false = transitionTime s intervalS low high true) ↔
    ∀ i, FirstRise s low high i i → ∃ j' i', FirstSlowRise s low high j' i' ∧
      riseDuration s intervalS low high j' i' = riseDuration s intervalS low high i i := by
  constructor
  · rintro ⟨htime, -⟩ i hfirst
    have hsome := (htime _).mpr ⟨i, i, hfirst, rfl⟩
    obtain ⟨j', i', hslow, heq⟩ := (transitionTime_iff s intervalS low high _).mp hsome
    exact ⟨j', i', hslow, heq.symm⟩
  · intro hfast
    refine ⟨fun v => ?_, transitionTime_neg s intervalS low high⟩
    rw [transitionTime_iff]
    constructor
    · rintro ⟨j, i, hslow, rfl⟩
      obtain ⟨j₀, i₀, hfirst⟩ := exists_firstFrom hslow.2.1.1
      rcases hfirst.2.1.le.lt_or_eq with hlt | rfl
      · have hi := hslow.end_unique (FirstRise.slow hfirst hlt)
        subst hi
        exact ⟨j, i, ⟨hfirst.1, hslow.2.1.1, hfirst.2.2⟩, rfl⟩
      · obtain ⟨j', i', hslow', heq⟩ := hfast j₀ hfirst
        have hi := hslow.end_unique hslow'
        subst hi
        have hj := hslow.2.1.1.start_unique hslow'.2.1.1
        subst hj
        exact ⟨j₀, j₀, hfirst, heq⟩
    · rintro ⟨j, i, hfirst, rfl⟩
      rcases hfirst.2.1.le.lt_or_eq with hlt | rfl
      · exact ⟨j, i, hfirst.slow hlt, rfl⟩
      · obtain ⟨j', i', hslow', heq⟩ := hfast j hfirst
        exact ⟨j', i', hslow', heq.symm⟩

/-- Two samples, and the whole edge between them. -/
theorem fast_edge_not_timed : ¬ IsRiseTime [0, 10] 1 1 9 (transitionTime [0, 10] 1 1 9 true) := by
  have hnone : transitionTime [0, 10] 1 1 9 true = none := by decide +kernel
  have hpasses : ∀ level : ℚ, 0 < level → level ≤ 10 → PassesUp [0, 10] level 0 := fun level h h' =>
    ⟨0, 10, rfl, rfl, h, h'⟩
  have hrise : FirstRise [0, 10] 1 9 0 0 := by
    refine ⟨le_rfl, ⟨le_rfl, hpasses 1 (by norm_num) (by norm_num), hpasses 9 (by norm_num) (by norm_num), ?_⟩,
      fun _ i' hle _ => hle⟩
    intro k x hlt hle
    omega
  intro htime
  have := (htime _).mpr ⟨0, 0, hrise, rfl⟩
  rw [hnone] at this
  cases this

end Lager.Scope.Measure
