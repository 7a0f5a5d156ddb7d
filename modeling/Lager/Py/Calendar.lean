import Lager.Py.Datetime

/-!
# The clock's text reads back

`fromisoformat` reads the text that `strftimeZ` wrote, with its `Z` replaced by `+00:00`, as the time it was written at,
cut to the second. The date is that of an ordinal: the cycles of 400, 100, 4 and 1 years add up to the days before the
year, and the month is the last one that has begun.
-/

namespace Lager.Py

/-! ### The date of an ordinal -/

theorem daysBeforeMonth_succ (year : Nat) {month : Nat} (h : 1 ≤ month) :
    daysBeforeMonth year (month + 1) = daysBeforeMonth year month + daysInMonth year month := by
  cases month with
  | zero => cases h
  | succ month => rfl

/-- The months of a year. -/
theorem daysBeforeMonth_thirteen (year : Nat) : daysBeforeMonth year 13 = if isLeap year then 366 else 365 := by
  simp only [daysBeforeMonth, daysInMonth]
  cases isLeap year <;> rfl

/-- Induction over the months tried: the first one that has begun is the one the day lies in. -/
theorem monthDay_spec {year n month : Nat} (hpos : 1 ≤ month) (h : n < daysBeforeMonth year (month + 1)) :
    1 ≤ (monthDay year n month).1 ∧ (monthDay year n month).1 ≤ month ∧ 1 ≤ (monthDay year n month).2 ∧
      (monthDay year n month).2 ≤ daysInMonth year (monthDay year n month).1 ∧
      daysBeforeMonth year (monthDay year n month).1 + (monthDay year n month).2 = n + 1 := by
  induction month with
  | zero => cases hpos
  | succ month ih =>
    rw [monthDay]
    by_cases hbegun : daysBeforeMonth year (month + 1) ≤ n
    · rw [daysBeforeMonth_succ year hpos] at h
      rw [if_pos hbegun]
      dsimp only
      omega
    · rw [if_neg hbegun]
      have hmonth : 1 ≤ month := by
        by_contra hzero
        obtain rfl : month = 0 := by omega
        exact hbegun (Nat.zero_le n)
      obtain ⟨h1, h2, h3⟩ := ih hmonth (by omega)
      exact ⟨h1, by omega, h3⟩

/-- A year from its place in the cycles of 400, 100 and 4 years. -/
structure Cycles (a b c d : Nat) : Prop where
  hundreds : b < 4
  fours : c < 25
  ones : d < 4

theorem daysBeforeYear_cycles {a b c d : Nat} (h : Cycles a b c d) :
    daysBeforeYear (a * 400 + 1 + b * 100 + c * 4 + d) = a * 146097 + b * 36524 + c * 1461 + d * 365 := by
  obtain ⟨hb, hc, hd⟩ := h
  have hyear : a * 400 + 1 + b * 100 + c * 4 + d - 1 = a * 400 + b * 100 + c * 4 + d := by omega
  have h4 : (a * 400 + b * 100 + c * 4 + d) / 4 = a * 100 + b * 25 + c := by omega
  have h100 : (a * 400 + b * 100 + c * 4 + d) / 100 = a * 4 + b := by omega
  have h400 : (a * 400 + b * 100 + c * 4 + d) / 400 = a := by omega
  rw [daysBeforeYear, hyear, h4, h100, h400]
  omega

theorem isLeap_cycles {a b c d : Nat} (h : Cycles a b c d) :
    isLeap (a * 400 + 1 + b * 100 + c * 4 + d) = decide (d = 3 ∧ (c = 24 → b = 3)) := by
  obtain ⟨hb, hc, hd⟩ := h
  rw [isLeap, Bool.eq_iff_iff]
  simp only [Bool.and_eq_true, Bool.or_eq_true, beq_iff_eq, bne_iff_ne, decide_eq_true_iff]
  omega

/-- The last day of a leap year. -/
theorem calendarDate_leapDay {a b c : Nat} (h : Cycles a b c 3) (hleap : c = 24 → b = 3)
    (hmax : a * 400 + 1 + b * 100 + c * 4 + 3 ≤ 9999) :
    calendarDate (a * 400 + 1 + b * 100 + c * 4 + 3) 12 31 =
      some (a * 146097 + b * 36524 + c * 1461 + 3 * 365 + 366) := by
  have hleapYear : isLeap (a * 400 + 1 + b * 100 + c * 4 + 3) = true := by
    rw [isLeap_cycles h, decide_eq_true_iff]
    exact ⟨rfl, hleap⟩
  have hmonth : daysBeforeMonth (a * 400 + 1 + b * 100 + c * 4 + 3) 13 = 366 := by
    rw [daysBeforeMonth_thirteen, hleapYear, if_pos rfl]
  have hdays : daysInMonth (a * 400 + 1 + b * 100 + c * 4 + 3) 12 = 31 := rfl
  rw [daysBeforeMonth_succ _ (by omega), hdays] at hmonth
  rw [calendarDate, if_pos (by omega), ymd2ord, daysBeforeYear_cycles h]
  exact congrArg some (by omega)

/-- An ordinal is that of its date. -/
theorem calendarDate_ord2ymd {ordinal : Nat} (hpos : 1 ≤ ordinal) (hmax : ordinal ≤ 3652059) :
    calendarDate (ord2ymd ordinal).1 (ord2ymd ordinal).2.1 (ord2ymd ordinal).2.2 = some ordinal := by
  obtain ⟨n, rfl⟩ : ∃ n, ordinal = n + 1 := ⟨ordinal - 1, by omega⟩
  unfold ord2ymd
  dsimp only
  rw [Nat.add_sub_cancel]
  have ha : n / 146097 < 25 := by omega
  have hr : n = n / 146097 * 146097 + n % 146097 := by omega
  have hr' : n % 146097 < 146097 := Nat.mod_lt _ (by decide)
  generalize n / 146097 = a at ha hr ⊢
  generalize n % 146097 = r at hr hr' ⊢
  have hb : r / 36524 ≤ 4 := by omega
  have hr2 : r = r / 36524 * 36524 + r % 36524 := by omega
  have hr2' : r % 36524 < 36524 := Nat.mod_lt _ (by decide)
  generalize r / 36524 = b at hb hr2 ⊢
  generalize r % 36524 = r2 at hr2 hr2' ⊢
  have hc : r2 / 1461 < 25 := by omega
  have hr3 : r2 = r2 / 1461 * 1461 + r2 % 1461 := by omega
  have hr3' : r2 % 1461 < 1461 := Nat.mod_lt _ (by decide)
  generalize r2 / 1461 = c at hc hr3 ⊢
  generalize r2 % 1461 = r3 at hr3 hr3' ⊢
  have hd : r3 / 365 ≤ 4 := by omega
  have hr4 : r3 = r3 / 365 * 365 + r3 % 365 := by omega
  have hr4' : r3 % 365 < 365 := Nat.mod_lt _ (by decide)
  generalize r3 / 365 = d at hd hr4 ⊢
  generalize r3 % 365 = r4 at hr4 hr4' ⊢
  by_cases hlast : d = 4 ∨ b = 4
  · rw [if_pos hlast]
    dsimp only
    -- the last day of four years, or of four hundred
    by_cases hfour : b = 4
    · have hyear : a * 400 + 1 + b * 100 + c * 4 + d - 1 = a * 400 + 1 + 3 * 100 + 24 * 4 + 3 := by omega
      rw [hyear, @calendarDate_leapDay a 3 24 ⟨by decide, by decide, by decide⟩ (fun _ => rfl) (by omega)]
      exact congrArg some (by omega)
    · have hyear : a * 400 + 1 + b * 100 + c * 4 + d - 1 = a * 400 + 1 + b * 100 + c * 4 + 3 := by omega
      rw [hyear, calendarDate_leapDay ⟨by omega, by omega, by decide⟩ (by omega) (by omega)]
      exact congrArg some (by omega)
  · rw [if_neg hlast]
    dsimp only
    rw [not_or] at hlast
    have hcycles : Cycles a b c d := ⟨by omega, hc, by omega⟩
    have hin : r4 < daysBeforeMonth (a * 400 + 1 + b * 100 + c * 4 + d) 13 := by
      rw [daysBeforeMonth_thirteen]
      split_ifs <;> omega
    obtain ⟨h1, h2, h3, h4, h5⟩ := monthDay_spec (by omega) hin
    rw [calendarDate, if_pos ⟨by omega, by omega, h1, h2, h3, h4⟩, ymd2ord, daysBeforeYear_cycles hcycles]
    exact congrArg some (by omega)

/-! ### Numbers of a fixed width -/

/-- A text of `width` digits that stands for `n`. -/
structure Spells (digits : List Char) (width n : Nat) : Prop where
  length : digits.length = width
  digit : ∀ c ∈ digits, isAsciiDigit c = true
  value : Nat.ofDigitChars 10 digits 0 = n

theorem spells_padded {width n : Nat} (hpos : 0 < width) (h : n < 10 ^ width) : Spells (padded width n) width n := by
  have hlength : (textOfNat n).length ≤ width := (Nat.length_toDigits_le_iff (by decide) hpos).mpr h
  refine ⟨?_, fun c hc => ?_, ?_⟩
  · rw [padded, List.length_append, List.length_replicate]
    omega
  · rw [padded, List.mem_append] at hc
    rcases hc with hzero | hdigit
    · rw [List.eq_of_mem_replicate hzero]
      decide
    · exact decide_eq_true (mem_textOfNat hdigit)
  · rw [padded, Nat.ofDigitChars_append, Nat.ofDigitChars_replicate_zero, Nat.mul_zero]
    exact Nat.ofDigitChars_ten_toDigits

theorem number_spells {digits text : List Char} {pos width n : Nat} (h : Spells digits width n)
    (htext : (text.drop pos).take width = digits) : number text pos width = some n := by
  rw [number, htext, if_pos ⟨h.length, List.all_eq_true.mpr h.digit⟩, h.value]

theorem Spells.two {digits : List Char} {n : Nat} (h : Spells digits 2 n) : ∃ a b, digits = [a, b] := by
  match digits, h.length with
  | [a, b], _ => exact ⟨a, b, rfl⟩

theorem Spells.four {digits : List Char} {n : Nat} (h : Spells digits 4 n) : ∃ a b c d, digits = [a, b, c, d] := by
  match digits, h.length with
  | [a, b, c, d], _ => exact ⟨a, b, c, d, rfl⟩

/-! ### The text of the clock -/

/-- A digit is none of the characters that end a part of the text. -/
theorem isAsciiDigit_ne {c : Char} (h : isAsciiDigit c = true) : c ≠ 'W' ∧ c ≠ '+' ∧ c ≠ '-' ∧ c ≠ 'Z' ∧ c ≠ ':' := by
  have hrange := of_decide_eq_true h
  refine ⟨?_, ?_, ?_, ?_, ?_⟩ <;> rintro rfl <;> revert hrange <;> decide

variable {year month day hour minute second : List Char} {y m d hh mm ss : Nat}

/-- `YYYY-MM-DD`. -/
theorem isoDate_text (hyear : Spells year 4 y) (hmonth : Spells month 2 m) (hday : Spells day 2 d) :
    isoDate (year ++ ['-'] ++ month ++ ['-'] ++ day) = calendarDate y m d := by
  obtain ⟨a, b, c, e, rfl⟩ := hyear.four
  obtain ⟨f, g, rfl⟩ := hmonth.two
  obtain ⟨i, j, rfl⟩ := hday.two
  have hf : f ≠ 'W' := (isAsciiDigit_ne (hmonth.digit f List.mem_cons_self)).1
  have hy := @number_spells _ [a, b, c, e, '-', f, g, '-', i, j] 0 4 y hyear rfl
  have hm := @number_spells _ [a, b, c, e, '-', f, g, '-', i, j] 5 2 m hmonth rfl
  have hd := @number_spells _ [a, b, c, e, '-', f, g, '-', i, j] 8 2 d hday rfl
  show isoDate [a, b, c, e, '-', f, g, '-', i, j] = _
  unfold isoDate
  rw [hy]
  simp [hm, hd, hf]

/-- `HH:MM:SS`. -/
theorem hhmmssff_text (hhour : Spells hour 2 hh) (hminute : Spells minute 2 mm) (hsecond : Spells second 2 ss) :
    hhmmssff (hour ++ [':'] ++ minute ++ [':'] ++ second) = some (hh, mm, ss, 0) := by
  obtain ⟨a, b, rfl⟩ := hhour.two
  obtain ⟨c, e, rfl⟩ := hminute.two
  obtain ⟨f, g, rfl⟩ := hsecond.two
  have h1 := @number_spells _ [a, b, ':', c, e, ':', f, g] 0 2 hh hhour rfl
  have h2 := @number_spells _ [a, b, ':', c, e, ':', f, g] 3 2 mm hminute rfl
  have h3 := @number_spells _ [a, b, ':', c, e, ':', f, g] 6 2 ss hsecond rfl
  show hhmmssff [a, b, ':', c, e, ':', f, g] = _
  unfold hhmmssff
  rw [h1]
  simp [h2, h3]

/-- `HH:MM:SS+00:00`. -/
theorem isoTime_text (hhour : Spells hour 2 hh) (hminute : Spells minute 2 mm) (hsecond : Spells second 2 ss)
    (hin : hh < 24 ∧ mm < 60 ∧ ss < 60) :
    isoTime (hour ++ [':'] ++ minute ++ [':'] ++ second ++ "+00:00".toList) =
      some (((hh * 60 + mm) * 60 + ss) * 1000000, some 0) := by
  have hclock : (hour ++ [':'] ++ minute ++ [':'] ++ second ++ "+00:00".toList).takeWhile
      (fun c => decide (c ≠ '+' ∧ c ≠ '-' ∧ c ≠ 'Z')) = hour ++ [':'] ++ minute ++ [':'] ++ second := by
    have hsign : "+00:00".toList.takeWhile (fun c => decide (c ≠ '+' ∧ c ≠ '-' ∧ c ≠ 'Z')) = [] := by decide
    rw [List.takeWhile_append_of_pos, hsign, List.append_nil]
    intro c hc
    have hdigit : isAsciiDigit c = true ∨ c = ':' := by
      simp only [List.mem_append, List.mem_singleton] at hc
      rcases hc with (((hc | hc) | hc) | hc) | hc
      · exact Or.inl (hhour.digit c hc)
      · exact Or.inr hc
      · exact Or.inl (hminute.digit c hc)
      · exact Or.inr hc
      · exact Or.inl (hsecond.digit c hc)
    rcases hdigit with hdigit | rfl
    · obtain ⟨-, h1, h2, h3, -⟩ := isAsciiDigit_ne hdigit
      exact decide_eq_true ⟨h1, h2, h3⟩
    · decide
  have hzone : hhmmssff ['0', '0', ':', '0', '0'] = some (0, 0, 0, 0) := by decide
  unfold isoTime
  rw [hclock]
  dsimp only
  rw [hhmmssff_text hhour hminute hsecond, List.drop_left]
  simp [hin, hzone, microsecondsOf]

/-- `YYYY-MM-DDTHH:MM:SS+00:00`. -/
theorem fromisoformat_text {ordinal : Nat} (hyear : Spells year 4 y) (hmonth : Spells month 2 m)
    (hday : Spells day 2 d) (hdate : calendarDate y m d = some ordinal) (hhour : Spells hour 2 hh)
    (hminute : Spells minute 2 mm) (hsecond : Spells second 2 ss) (hin : hh < 24 ∧ mm < 60 ∧ ss < 60) :
    fromisoformat (year ++ ['-'] ++ month ++ ['-'] ++ day ++ ['T'] ++ hour ++ [':'] ++ minute ++ [':'] ++ second ++
        "+00:00".toList) =
      some ⟨((ordinal : Int) - epochOrdinal) * 86400000000 + ((hh * 60 + mm) * 60 + ss) * 1000000, some 0⟩ := by
  have htime := isoTime_text hhour hminute hsecond hin
  have hymd := isoDate_text hyear hmonth hday
  rw [hdate] at hymd
  have hlength : (year ++ ['-'] ++ month ++ ['-'] ++ day).length = 10 := by
    simp only [List.length_append, hyear.length, hmonth.length, hday.length, List.length_cons, List.length_nil]
  have hassoc : year ++ ['-'] ++ month ++ ['-'] ++ day ++ ['T'] ++ hour ++ [':'] ++ minute ++ [':'] ++ second ++
      "+00:00".toList = (year ++ ['-'] ++ month ++ ['-'] ++ day) ++ 'T' ::
        (hour ++ [':'] ++ minute ++ [':'] ++ second ++ "+00:00".toList) := by
    simp
  have hlong : 25 = (hour ++ [':'] ++ minute ++ [':'] ++ second ++ "+00:00".toList).length + 11 := by
    simp only [List.length_append, hhour.length, hminute.length, hsecond.length, List.length_cons, List.length_nil]
    rfl
  rw [hassoc]
  generalize hour ++ [':'] ++ minute ++ [':'] ++ second ++ "+00:00".toList = clock at htime hlong ⊢
  have hloc : separatorLocation ((year ++ ['-'] ++ month ++ ['-'] ++ day) ++ 'T' :: clock) = 10 := by
    obtain ⟨a, b, c, e, rfl⟩ := hyear.four
    obtain ⟨f, g, rfl⟩ := hmonth.two
    obtain ⟨i, j, rfl⟩ := hday.two
    have hf : f ≠ 'W' := (isAsciiDigit_ne (hmonth.digit f List.mem_cons_self)).1
    simp [separatorLocation, hf]
  unfold fromisoformat
  rw [if_neg (by rw [List.length_append, List.length_cons]; omega)]
  dsimp only
  rw [hloc, List.take_left' hlength, hymd]
  have hrest : ((year ++ ['-'] ++ month ++ ['-'] ++ day) ++ 'T' :: clock).drop (10 + 1) = clock := by
    rw [← List.drop_drop, List.drop_left' hlength, List.drop_one, List.tail_cons]
  rw [hrest]
  cases clock with
  | nil => cases hlong
  | cons c clock =>
    show (isoTime (c :: clock) >>= fun p => some _) = _
    rw [htime]
    rfl

theorem daysInMonth_le (year month : Nat) : daysInMonth year month ≤ 31 := by
  unfold daysInMonth
  split_ifs <;> omega

theorem calendarDate_bounds {ordinal : Nat} (h : calendarDate y m d = some ordinal) :
    y < 10 ^ 4 ∧ m < 10 ^ 2 ∧ d < 10 ^ 2 := by
  unfold calendarDate at h
  split_ifs at h with hdate
  have hmonth := daysInMonth_le y m
  omega

/-- **The clock's text reads back** as the time it was written at, to the second, with the offset 0. -/
theorem fromisoformat_strftimeZ {now : Int} (hmin : -62135596800000000 ≤ now) (hmax : now < 253402300800000000) :
    ∃ text, (strftimeZ now).toList = text ++ ['Z'] ∧
      fromisoformat (text ++ "+00:00".toList) = some ⟨now / 1000000 * 1000000, some 0⟩ := by
  have hepoch : (epochOrdinal : Int) = 719163 := rfl
  have hordinal : ((now / 1000000 / 86400 + epochOrdinal).toNat : Int) = now / 1000000 / 86400 + epochOrdinal := by
    omega
  have hdate := @calendarDate_ord2ymd (now / 1000000 / 86400 + epochOrdinal).toNat (by omega) (by omega)
  have hbounds := calendarDate_bounds hdate
  have hsecond : ((now / 1000000 % 86400).toNat : Int) = now / 1000000 % 86400 := by omega
  have hday : (now / 1000000 % 86400).toNat < 86400 := by omega
  unfold strftimeZ
  dsimp only
  generalize ord2ymd (now / 1000000 / 86400 + epochOrdinal).toNat = date at hdate hbounds ⊢
  generalize (now / 1000000 / 86400 + epochOrdinal).toNat = ordinal at hordinal hdate
  generalize (now / 1000000 % 86400).toNat = second at hsecond hday ⊢
  obtain ⟨year, month, day⟩ := date
  obtain ⟨hyear, hmonth, hdays⟩ := hbounds
  have htext := fromisoformat_text (spells_padded (by decide) hyear) (spells_padded (by decide) hmonth)
    (spells_padded (by decide) hdays) hdate (@spells_padded 2 (second / 3600) (by decide) (by omega))
    (@spells_padded 2 (second / 60 % 60) (by decide) (by omega)) (@spells_padded 2 (second % 60) (by decide) (by omega))
    (by omega)
  refine ⟨_, String.toList_ofList, htext.trans ?_⟩
  have hwall : ((ordinal : Int) - epochOrdinal) * 86400000000 +
      (((second / 3600 : Nat) * 60 + (second / 60 % 60 : Nat)) * 60 + (second % 60 : Nat)) * 1000000 =
      now / 1000000 * 1000000 := by
    omega
  rw [hwall]

end Lager.Py
