import Mathlib.Algebra.Order.Field.Basic
import Mathlib.Data.Rat.Floor
import Mathlib.Order.Bounds.Basic
import Mathlib.Tactic.Linarith

/-!
# The timebase search

`select_timebase` of `pico/modern_scope.rs`: a binary search for the smallest timebase index whose sample interval is
at least the target, which asks the device at each index. The device refuses the indices it does not offer, and the
search takes every refusal for an index that is too fast. `selects_smallest_iff` says when that is right.
-/

namespace Lager.Pico

/-- `TimebaseInfo`. -/
structure TimebaseInfo where
  intervalSeconds : ℚ
  maxSamples : Nat
  deriving DecidableEq

def HORIZONTAL_DIVISIONS : ℚ := 10
def MAX_TIMEBASE : Nat := 2 ^ 24

/-- `target_interval_seconds`. -/
def targetIntervalSeconds (timePerDiv : ℚ) (samples : Nat) : ℚ := timePerDiv * HORIZONTAL_DIVISIONS / max samples 1

/-- `pre_trigger_samples`: the samples before a trigger so many percent into a block. -/
def preTriggerSamples (samples : Nat) (percent : ℚ) : Nat := ⌊samples * max 0 (min percent 100) / 100⌋.toNat

/-! ### The search -/

section Search

variable (getTimebase : Nat → Option TimebaseInfo) (target : ℚ)

/-- `Ok(info) if info.interval_seconds >= target`. -/
def reaches (index : Nat) : Option TimebaseInfo :=
  (getTimebase index).filter fun info => decide (target ≤ info.intervalSeconds)

/-- The loop from a state on. A device that is too fast at an index and one that refuses it are one arm. -/
def search (low high : Nat) (best : Option (Nat × TimebaseInfo)) : Option (Nat × TimebaseInfo) :=
  if low ≤ high then
    let mid := low + (high - low) / 2
    match reaches getTimebase target mid with
    | some info =>
      if mid = 0 then some (mid, info)
      else if low > MAX_TIMEBASE then some (mid, info)
      else search low (mid - 1) (some (mid, info))
    | none => if mid + 1 > MAX_TIMEBASE then best else search (mid + 1) high best
  else best
termination_by high + 1 - low
decreasing_by all_goals omega

end Search

/-- What `select_timebase` sets. -/
structure Selected where
  timebase : Nat
  intervalSeconds : ℚ
  samplesPerCapture : Nat
  preTriggerSamples : Nat
  sampleRate : ℚ
  deriving DecidableEq

/-- `select_timebase`, for a device that answers `getTimebase` at the present settings. -/
def selectTimebase (getTimebase : Nat → Nat → Option TimebaseInfo) (timePerDiv triggerPosition : ℚ)
    (samplesPerCapture : Nat) : Option Selected :=
  let target := targetIntervalSeconds timePerDiv samplesPerCapture
  (search (getTimebase · samplesPerCapture) target 0 MAX_TIMEBASE none).map fun (timebase, info) =>
    let samples :=
      if 0 < info.maxSamples ∧ info.maxSamples < samplesPerCapture then info.maxSamples else samplesPerCapture
    { timebase
      intervalSeconds := info.intervalSeconds
      samplesPerCapture := samples
      preTriggerSamples := preTriggerSamples samples triggerPosition
      sampleRate := 1 / info.intervalSeconds }

theorem preTriggerSamples_le (samples : Nat) (percent : ℚ) : preTriggerSamples samples percent ≤ samples := by
  have hpercent : max 0 (min percent 100) ≤ 100 := max_le (by norm_num) (min_le_right _ _)
  have hsamples : (0 : ℚ) ≤ samples := Nat.cast_nonneg samples
  have hle : samples * max 0 (min percent 100) / 100 ≤ (samples : ℚ) := by
    rw [div_le_iff₀ (by norm_num)]
    exact mul_le_mul_of_nonneg_left hpercent hsamples
  have hfloor : ⌊samples * max 0 (min percent 100) / 100⌋ ≤ (samples : ℤ) := by
    have := Int.floor_le_floor hle
    rwa [Int.floor_natCast] at this
  exact Int.toNat_le.mpr hfloor

/-! ### The search, by where its index is -/

section Path

variable {getTimebase : Nat → Option TimebaseInfo} {target : ℚ}

/-- The indices at which the device is slow enough lie in a row. -/
def InARow (getTimebase : Nat → Option TimebaseInfo) (target : ℚ) : Prop :=
  ∀ i j k, i ≤ j → j ≤ k → (reaches getTimebase target i).isSome = true →
    (reaches getTimebase target k).isSome = true → (reaches getTimebase target j).isSome = true

theorem search_hit {low high : Nat} {best : Option (Nat × TimebaseInfo)} {info : TimebaseInfo} (hle : low ≤ high)
    (hhit : reaches getTimebase target (low + (high - low) / 2) = some info) (hlow : low ≤ MAX_TIMEBASE) :
    search getTimebase target low high best =
      if low + (high - low) / 2 = 0 then some (low + (high - low) / 2, info)
      else search getTimebase target low (low + (high - low) / 2 - 1) (some (low + (high - low) / 2, info)) := by
  rw [search, if_pos hle]
  simp only [hhit, if_neg (Nat.not_lt.mpr hlow)]

theorem search_miss {low high : Nat} {best : Option (Nat × TimebaseInfo)} (hle : low ≤ high)
    (hmiss : reaches getTimebase target (low + (high - low) / 2) = none) :
    search getTimebase target low high best =
      if low + (high - low) / 2 + 1 > MAX_TIMEBASE then best
      else search getTimebase target (low + (high - low) / 2 + 1) high best := by
  rw [search, if_pos hle]
  simp only [hmiss]

theorem search_over {low high : Nat} {best : Option (Nat × TimebaseInfo)} (h : ¬low ≤ high) :
    search getTimebase target low high best = best := by
  rw [search, if_neg h]

/-- The smallest index at which the device is slow enough, with what it says there. -/
def IsSmallest (getTimebase : Nat → Option TimebaseInfo) (target : ℚ) (found : Nat × TimebaseInfo) : Prop :=
  reaches getTimebase target found.1 = some found.2 ∧
    ∀ i < found.1, reaches getTimebase target i = none

/-- Once it has found an index, the search stays below and ends at the smallest. -/
theorem search_descends (hrow : InARow getTimebase target) {low high : Nat} {found : Nat × TimebaseInfo}
    (hfound : reaches getTimebase target found.1 = some found.2) (hnext : found.1 = high + 1)
    (hmax : high ≤ MAX_TIMEBASE) (hle : low ≤ high + 1) (hbelow : ∀ i < low, reaches getTimebase target i = none) :
    ∃ smallest, search getTimebase target low high (some found) = some smallest ∧
      IsSmallest getTimebase target smallest := by
  induction hsize : high + 1 - low using Nat.strong_induction_on generalizing low high found with
  | _ size ih =>
    by_cases hrange : low ≤ high
    · cases hmid : reaches getTimebase target (low + (high - low) / 2) with
      | some info =>
        rw [search_hit hrange hmid (by omega)]
        by_cases hzero : low + (high - low) / 2 = 0
        · rw [if_pos hzero]
          exact ⟨_, rfl, hmid, fun i hi => by omega⟩
        · rw [if_neg hzero]
          have hfits : low + (high - low) / 2 - 1 + 1 = low + (high - low) / 2 := by omega
          exact ih (low + (high - low) / 2 - 1 + 1 - low) (by omega) hmid hfits.symm (by omega) (by omega) hbelow rfl
      | none =>
        have hbelow' : ∀ i < low + (high - low) / 2 + 1, reaches getTimebase target i = none := by
          intro i hi
          cases hi' : reaches getTimebase target i with
          | none => rfl
          | some info =>
            have hsome := hrow i (low + (high - low) / 2) found.1 (by omega) (by omega) (by rw [hi']; rfl)
              (by rw [hfound]; rfl)
            rw [hmid] at hsome
            cases hsome
        rw [search_miss hrange hmid]
        by_cases hlast : low + (high - low) / 2 + 1 > MAX_TIMEBASE
        · rw [if_pos hlast]
          exact ⟨found, rfl, hfound, fun i hi => hbelow' i (by omega)⟩
        · rw [if_neg hlast]
          exact ih (high + 1 - (low + (high - low) / 2 + 1)) (by omega) hfound hnext hmax (by omega) hbelow' rfl
    · rw [search_over hrange]
      exact ⟨found, rfl, hfound, fun i hi => hbelow i (by omega)⟩

/-- The indices that a search with nothing found asks at above `MAX_TIMEBASE - 2 ^ k`. -/
def Probed (k index : Nat) : Prop := index = MAX_TIMEBASE ∨ ∃ i < k, index = MAX_TIMEBASE - 2 ^ i

theorem Probed.mono {k l index : Nat} (h : Probed k index) (hkl : k ≤ l) : Probed l index :=
  h.imp id fun ⟨i, hi, heq⟩ => ⟨i, lt_of_lt_of_le hi hkl, heq⟩

/-- An index on the way up that is slow enough, when the lowest is not, is above that. -/
theorem Probed.left {k index : Nat} (h : Probed (k + 1) index)
    (hhit : (reaches getTimebase target index).isSome = true)
    (hmiss : reaches getTimebase target (MAX_TIMEBASE - 2 ^ k) = none) :
    Probed k index ∧ MAX_TIMEBASE - 2 ^ k ≤ index := by
  rcases h with rfl | ⟨i, hi, rfl⟩
  · exact ⟨.inl rfl, Nat.sub_le _ _⟩
  · have hne : i ≠ k := by
      rintro rfl
      rw [hmiss] at hhit
      cases hhit
    have hlt : i < k := lt_of_le_of_ne (Nat.le_of_lt_succ hi) hne
    exact ⟨.inr ⟨i, hlt, rfl⟩, Nat.sub_le_sub_left (Nat.pow_le_pow_right (by decide) hlt.le) _⟩

/-- Nothing found, and nothing at the indices on the way up. -/
theorem search_climbs_none {k : Nat} (hk : 2 ^ k ≤ MAX_TIMEBASE)
    (hnone : ∀ index, Probed k index → reaches getTimebase target index = none) :
    search getTimebase target (MAX_TIMEBASE + 1 - 2 ^ k) MAX_TIMEBASE none = none := by
  induction k with
  | zero =>
    have hmid : MAX_TIMEBASE + 1 - 2 ^ 0 + (MAX_TIMEBASE - (MAX_TIMEBASE + 1 - 2 ^ 0)) / 2 = MAX_TIMEBASE := by omega
    rw [search_miss (by omega) (by rw [hmid]; exact hnone _ (.inl rfl)), hmid, if_pos (Nat.lt_succ_self _)]
  | succ k ih =>
    have hpos : 0 < 2 ^ k := Nat.two_pow_pos k
    rw [Nat.pow_succ] at hk ⊢
    have hmid : MAX_TIMEBASE + 1 - 2 ^ k * 2 + (MAX_TIMEBASE - (MAX_TIMEBASE + 1 - 2 ^ k * 2)) / 2 =
        MAX_TIMEBASE - 2 ^ k := by omega
    rw [search_miss (by omega) (by rw [hmid]; exact hnone _ (.inr ⟨k, Nat.lt_succ_self k, rfl⟩)), hmid,
      if_neg (by omega), show MAX_TIMEBASE - 2 ^ k + 1 = MAX_TIMEBASE + 1 - 2 ^ k by omega]
    exact ih (by omega) fun index hindex => hnone index (hindex.mono (Nat.le_succ k))

/-- Below an index that is slow enough, one that is not is below all that are. -/
theorem none_below (hrow : InARow getTimebase target) {mid index : Nat} (hlt : mid ≤ index)
    (hhit : (reaches getTimebase target index).isSome = true) (hmiss : reaches getTimebase target mid = none) :
    ∀ i < mid + 1, reaches getTimebase target i = none := by
  intro i hi
  by_contra hsome
  have := hrow i mid index (by omega) hlt (Option.isSome_iff_ne_none.mpr hsome) hhit
  rw [hmiss] at this
  cases this

/-- Nothing found yet, and one of the indices on the way up is slow enough: the search ends at the smallest. -/
theorem search_climbs_some (hrow : InARow getTimebase target) {k : Nat} (hk : 2 ^ k ≤ MAX_TIMEBASE)
    (hbelow : ∀ i < MAX_TIMEBASE + 1 - 2 ^ k, reaches getTimebase target i = none)
    (hsome : ∃ index, Probed k index ∧ (reaches getTimebase target index).isSome = true) :
    ∃ smallest, search getTimebase target (MAX_TIMEBASE + 1 - 2 ^ k) MAX_TIMEBASE none = some smallest ∧
      IsSmallest getTimebase target smallest := by
  induction k with
  | zero =>
    obtain ⟨index, rfl | ⟨i, hi, -⟩, hhit⟩ := hsome
    · obtain ⟨info, hinfo⟩ := Option.isSome_iff_exists.mp hhit
      have hmid : MAX_TIMEBASE + 1 - 2 ^ 0 + (MAX_TIMEBASE - (MAX_TIMEBASE + 1 - 2 ^ 0)) / 2 = MAX_TIMEBASE := by
        omega
      rw [search_hit (by omega) (by rw [hmid]; exact hinfo) (by omega), hmid, if_neg (by decide)]
      exact search_descends hrow hinfo rfl (by omega) (by omega) hbelow
    · omega
  | succ k ih =>
    have hpos : 0 < 2 ^ k := Nat.two_pow_pos k
    rw [Nat.pow_succ] at hk hbelow ⊢
    have hmid : MAX_TIMEBASE + 1 - 2 ^ k * 2 + (MAX_TIMEBASE - (MAX_TIMEBASE + 1 - 2 ^ k * 2)) / 2 =
        MAX_TIMEBASE - 2 ^ k := by omega
    cases hprobe : reaches getTimebase target (MAX_TIMEBASE - 2 ^ k) with
    | some info =>
      rw [search_hit (by omega) (by rw [hmid]; exact hprobe) (by omega), hmid]
      by_cases hzero : MAX_TIMEBASE - 2 ^ k = 0
      · rw [if_pos hzero]
        exact ⟨_, rfl, hprobe, fun i hi => by omega⟩
      · rw [if_neg hzero]
        exact search_descends hrow hprobe (by omega) (by omega) (by omega) hbelow
    | none =>
      obtain ⟨index, hindex, hhit⟩ := hsome
      obtain ⟨hleft, hover⟩ := hindex.left hhit hprobe
      rw [search_miss (by omega) (by rw [hmid]; exact hprobe), hmid, if_neg (by omega),
        show MAX_TIMEBASE - 2 ^ k + 1 = MAX_TIMEBASE + 1 - 2 ^ k by omega]
      refine ih (by omega) (fun i hi => none_below hrow hover hhit hprobe i (by omega)) ⟨index, hleft, hhit⟩

/-- The whole search starts at half of `MAX_TIMEBASE`. -/
theorem search_start : 0 + (MAX_TIMEBASE - 0) / 2 = MAX_TIMEBASE - 2 ^ 23 := by decide

/-- A search that meets none of the slow enough indices on its way up finds nothing. -/
theorem search_none (hnone : ∀ index, Probed 24 index → reaches getTimebase target index = none) :
    search getTimebase target 0 MAX_TIMEBASE none = none := by
  have hstart := search_start
  rw [search_miss (Nat.zero_le _) (by rw [hstart]; exact hnone _ (.inr ⟨23, by decide, rfl⟩)), hstart,
    if_neg (by decide), show MAX_TIMEBASE - 2 ^ 23 + 1 = MAX_TIMEBASE + 1 - 2 ^ 23 by decide]
  exact search_climbs_none (by decide) fun index hindex => hnone index (hindex.mono (by decide))

/-- A search that meets one of them ends at the smallest index that is slow enough. -/
theorem search_some (hrow : InARow getTimebase target)
    (hsome : ∃ index, Probed 24 index ∧ (reaches getTimebase target index).isSome = true) :
    ∃ smallest, search getTimebase target 0 MAX_TIMEBASE none = some smallest ∧
      IsSmallest getTimebase target smallest := by
  have hstart := search_start
  obtain ⟨index, hindex, hhit⟩ := hsome
  cases hprobe : reaches getTimebase target (MAX_TIMEBASE - 2 ^ 23) with
  | some info =>
    rw [search_hit (Nat.zero_le _) (by rw [hstart]; exact hprobe) (Nat.zero_le _), hstart, if_neg (by decide)]
    have hpred : MAX_TIMEBASE - 2 ^ 23 = MAX_TIMEBASE - 2 ^ 23 - 1 + 1 := by decide
    exact search_descends hrow hprobe hpred (by decide) (Nat.zero_le _) fun i hi => by omega
  | none =>
    obtain ⟨hleft, hover⟩ := hindex.left hhit hprobe
    rw [search_miss (Nat.zero_le _) (by rw [hstart]; exact hprobe), hstart, if_neg (by decide),
      show MAX_TIMEBASE - 2 ^ 23 + 1 = MAX_TIMEBASE + 1 - 2 ^ 23 by decide]
    exact search_climbs_some hrow (by decide) (fun i hi => none_below hrow hover hhit hprobe i (by omega))
      ⟨index, hleft, hhit⟩

end Path

/-! ### What is selected -/

section Selection

variable (getTimebase : Nat → Nat → Option TimebaseInfo) (timePerDiv triggerPosition : ℚ) (samples : Nat)

/-- The device accepts the index and its interval there is at least the target. -/
def SlowEnough (index : Nat) : Prop :=
  (reaches (getTimebase · samples) (targetIntervalSeconds timePerDiv samples) index).isSome = true

/-- The smallest index that is slow enough is selected, with the trigger inside the block, and the search fails only
if there is none. -/
def SelectsSmallest : Prop :=
  match selectTimebase getTimebase timePerDiv triggerPosition samples with
  | some sel =>
    IsLeast {index | SlowEnough getTimebase timePerDiv samples index} sel.timebase ∧
      (getTimebase sel.timebase samples).map TimebaseInfo.intervalSeconds = some sel.intervalSeconds ∧
      sel.preTriggerSamples ≤ sel.samplesPerCapture
  | none => ∀ index, ¬SlowEnough getTimebase timePerDiv samples index

variable {getTimebase timePerDiv triggerPosition samples}

theorem selectTimebase_none
    (h : search (getTimebase · samples) (targetIntervalSeconds timePerDiv samples) 0 MAX_TIMEBASE none = none) :
    selectTimebase getTimebase timePerDiv triggerPosition samples = none := by
  rw [selectTimebase, h, Option.map_none]

theorem selectsSmallest_of_search {found : Nat × TimebaseInfo}
    (h : search (getTimebase · samples) (targetIntervalSeconds timePerDiv samples) 0 MAX_TIMEBASE none = some found)
    (hsmallest : IsSmallest (getTimebase · samples) (targetIntervalSeconds timePerDiv samples) found) :
    SelectsSmallest getTimebase timePerDiv triggerPosition samples := by
  have hleast : IsLeast {index | SlowEnough getTimebase timePerDiv samples index} found.1 := by
    constructor
    · show (reaches _ _ found.1).isSome = true
      rw [hsmallest.1]
      rfl
    · intro index hindex
      by_contra hlt
      have hnone := hsmallest.2 index (Nat.not_le.mp hlt)
      have hsome : Option.isSome (reaches (getTimebase · samples) _ index) = true := hindex
      rw [hnone] at hsome
      cases hsome
  have hanswer : getTimebase found.1 samples = some found.2 := (Option.filter_eq_some_iff.mp hsmallest.1).1
  unfold SelectsSmallest selectTimebase
  dsimp only
  rw [h]
  refine ⟨hleast, ?_, preTriggerSamples_le _ _⟩
  show (getTimebase found.1 samples).map _ = _
  rw [hanswer]
  rfl

theorem inARow_of_interval {lo hi : Nat} (haccepts : ∀ i, (getTimebase i samples).isSome = true ↔ lo ≤ i ∧ i ≤ hi)
    (hmono : ∀ i j a b, i ≤ j → getTimebase i samples = some a → getTimebase j samples = some b →
      a.intervalSeconds ≤ b.intervalSeconds) (target : ℚ) : InARow (getTimebase · samples) target := by
  intro i j k hij hjk hi hk
  obtain ⟨a, ha⟩ := Option.isSome_iff_exists.mp hi
  obtain ⟨c, hc⟩ := Option.isSome_iff_exists.mp hk
  have hai : getTimebase i samples = some a := (Option.filter_eq_some_iff.mp ha).1
  have hatarget := (Option.filter_eq_some_iff.mp ha).2
  have hck : getTimebase k samples = some c := (Option.filter_eq_some_iff.mp hc).1
  have hlo := ((haccepts i).mp (by rw [hai]; rfl)).1
  have hhi := ((haccepts k).mp (by rw [hck]; rfl)).2
  obtain ⟨b, hb⟩ := Option.isSome_iff_exists.mp ((haccepts j).mpr ⟨by omega, by omega⟩)
  have hle := hmono i j a b hij hai hb
  have htarget : target ≤ b.intervalSeconds := (of_decide_eq_true hatarget).trans hle
  show (reaches _ _ j).isSome = true
  rw [reaches, hb, Option.filter_some, if_pos (decide_eq_true htarget)]
  rfl

end Selection

/-- **When the search finds the timebase.** For a device that accepts the indices from `lo` to `hi`, at intervals
that do not fall: the smallest accepted index with at least the target interval is selected, and the search fails
only without one, if and only if no accepted index is slow enough, or one that is belongs to the indices that the
search asks at while it has found nothing. -/
theorem selects_smallest_iff (getTimebase : Nat → Nat → Option TimebaseInfo) (timePerDiv triggerPosition : ℚ)
    (samples lo hi : Nat)
    (haccepts : ∀ i, (getTimebase i samples).isSome = true ↔ lo ≤ i ∧ i ≤ hi)
    (hmono : ∀ i j a b, i ≤ j → getTimebase i samples = some a → getTimebase j samples = some b →
      a.intervalSeconds ≤ b.intervalSeconds) :
    SelectsSmallest getTimebase timePerDiv triggerPosition samples ↔
      (∀ index, ¬SlowEnough getTimebase timePerDiv samples index) ∨
        ∃ index, SlowEnough getTimebase timePerDiv samples index ∧
          (index = MAX_TIMEBASE ∨ ∃ k < 24, index = MAX_TIMEBASE - 2 ^ k) := by
  have hrow := inARow_of_interval haccepts hmono (targetIntervalSeconds timePerDiv samples)
  have hnone : (∀ index, ¬(SlowEnough getTimebase timePerDiv samples index ∧ Probed 24 index)) →
      selectTimebase getTimebase timePerDiv triggerPosition samples = none := fun h =>
    selectTimebase_none (search_none fun index hindex => by
      by_contra hsome
      exact h index ⟨Option.isSome_iff_ne_none.mpr hsome, hindex⟩)
  constructor
  · intro hselects
    by_cases hprobed : ∃ index, SlowEnough getTimebase timePerDiv samples index ∧ Probed 24 index
    · exact .inr hprobed
    · left
      rw [SelectsSmallest, hnone (not_exists.mp hprobed)] at hselects
      exact hselects
  · rintro (hslow | ⟨index, hslow, hindex⟩)
    · rw [SelectsSmallest, hnone fun index h => hslow index h.1]
      exact hslow
    · obtain ⟨found, hfound, hsmallest⟩ := search_some hrow ⟨index, hindex, hslow⟩
      exact selectsSmallest_of_search hfound hsmallest

/-- A unit that offers the indices up to `last`, a microsecond apart. -/
def unitUpTo (last index _samples : Nat) : Option TimebaseInfo :=
  if index ≤ last then some ⟨(index + 1) / 1000000, 0⟩ else none

theorem unitUpTo_accepts (last samples i : Nat) : (unitUpTo last i samples).isSome = true ↔ 0 ≤ i ∧ i ≤ last := by
  unfold unitUpTo
  split_ifs with h
  · simp [h]
  · simp [h]

theorem unitUpTo_mono (last samples : Nat) : ∀ i j a b, i ≤ j → unitUpTo last i samples = some a →
    unitUpTo last j samples = some b → a.intervalSeconds ≤ b.intervalSeconds := by
  intro i j a b hij ha hb
  unfold unitUpTo at ha hb
  split_ifs at ha hb
  cases ha
  cases hb
  have hcast : (i : ℚ) ≤ j := Nat.cast_le.mpr hij
  show (i + 1 : ℚ) / 1000000 ≤ (j + 1) / 1000000
  linarith

theorem unitUpTo_slowEnough {last index : Nat} (hle : index ≤ last) (h : 4 ≤ index) :
    SlowEnough (unitUpTo last) (1 / 1000) 2000 index := by
  have hcast : (4 : ℚ) ≤ index := by exact_mod_cast h
  have htarget : targetIntervalSeconds (1 / 1000) 2000 ≤ (index + 1) / 1000000 := by
    norm_num [targetIntervalSeconds, HORIZONTAL_DIVISIONS]
    linarith
  have hget : unitUpTo last index 2000 = some ⟨(index + 1) / 1000000, 0⟩ := if_pos hle
  show (reaches _ _ index).isSome = true
  rw [reaches, hget, Option.filter_some, if_pos (decide_eq_true htarget)]
  rfl

/-- A millisecond a division is refused on a unit that offers a hundred timebases, where the fifth would do. -/
theorem hundred_timebases_refused :
    (∀ i, (unitUpTo 100 i 2000).isSome = true ↔ 0 ≤ i ∧ i ≤ 100) ∧ 100 ≤ MAX_TIMEBASE ∧
      SlowEnough (unitUpTo 100) (1 / 1000) 2000 4 ∧ selectTimebase (unitUpTo 100) (1 / 1000) 50 2000 = none := by
  refine ⟨unitUpTo_accepts 100 2000, by decide, unitUpTo_slowEnough (by decide) (by decide),
    selectTimebase_none (search_none fun index hindex => ?_)⟩
  have hover : 100 < index := by
    rcases hindex with rfl | ⟨i, hi, rfl⟩
    · decide
    · have := Nat.pow_le_pow_right (n := 2) (by decide) (Nat.le_of_lt_succ hi)
      have hmax : MAX_TIMEBASE = 2 * 2 ^ 23 := by decide
      omega
  simp [reaches, unitUpTo, Nat.not_le.mpr hover]

/-- A unit that offers every timebase. -/
theorem all_timebases_selected : SelectsSmallest (unitUpTo MAX_TIMEBASE) (1 / 1000) 50 2000 :=
  (selects_smallest_iff (unitUpTo MAX_TIMEBASE) (1 / 1000) 50 2000 0 MAX_TIMEBASE
    (unitUpTo_accepts MAX_TIMEBASE 2000) (unitUpTo_mono MAX_TIMEBASE 2000)).mpr
    (.inr ⟨MAX_TIMEBASE, unitUpTo_slowEnough (Nat.le_refl _) (by decide), .inl rfl⟩)

end Lager.Pico
