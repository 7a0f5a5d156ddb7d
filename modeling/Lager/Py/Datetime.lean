import Lager.Py.Text
import Mathlib.Algebra.Group.Nat.Defs

/-!
# Python's `datetime`: the clock, `strftime` and `fromisoformat`

A clock reading is the number of microseconds since 1970-01-01T00:00:00Z. A `Datetime` is a wall-clock
reading with the UTC offset it was written with, if any: subtracting a naive datetime from an aware one is a
`TypeError`, so the two are kept apart. `fromisoformat` accepts what `datetime.fromisoformat` documents: a
calendar or week date, with or without dashes, then any one separator, a time with or without colons, a
fraction of any length (cut at microseconds), and `Z` or a UTC offset.
-/

namespace Lager.Py

/-- A reading of `datetime.now(timezone.utc)`, in microseconds since the epoch. -/
abbrev Time := Int

structure Datetime where
  /-- the wall-clock reading, in microseconds since 1970-01-01T00:00:00 -/
  wall : Int
  /-- `utcoffset()` in microseconds, `none` for a naive datetime -/
  utcoffset : Option Int
  deriving DecidableEq

/-! ### Calendar -/

def isLeap (year : Nat) : Bool := year % 4 == 0 && (year % 100 != 0 || year % 400 == 0)

def daysBeforeYear (year : Nat) : Nat :=
  (year - 1) * 365 + (year - 1) / 4 - (year - 1) / 100 + (year - 1) / 400

def daysInMonth (year month : Nat) : Nat :=
  if month = 2 then if isLeap year then 29 else 28
  else if month = 4 ∨ month = 6 ∨ month = 9 ∨ month = 11 then 30 else 31

/-- Days of the year before the first of the month. -/
def daysBeforeMonth (year : Nat) : Nat → Nat
  | 0 => 0
  | 1 => 0
  | month + 1 => daysBeforeMonth year month + daysInMonth year month

/-- The proleptic Gregorian ordinal: 1 is 0001-01-01. -/
def ymd2ord (year month day : Nat) : Nat := daysBeforeYear year + daysBeforeMonth year month + day

/-- The ordinal of 1970-01-01. -/
def epochOrdinal : Nat := 719163

/-- The month and day of the day `n` (from 0) of a year. -/
def monthDay (year n : Nat) : Nat → Nat × Nat
  | 0 => (1, n + 1)
  | month + 1 =>
    if daysBeforeMonth year (month + 1) ≤ n then (month + 1, n - daysBeforeMonth year (month + 1) + 1)
    else monthDay year n month

/-- The date of an ordinal: cycles of 400, 100, 4 and 1 years, then the month. -/
def ord2ymd (ordinal : Nat) : Nat × Nat × Nat :=
  let n := ordinal - 1
  let n400 := n / 146097
  let n := n % 146097
  let n100 := n / 36524
  let n := n % 36524
  let n4 := n / 1461
  let n := n % 1461
  let n1 := n / 365
  let n := n % 365
  let year := n400 * 400 + 1 + n100 * 100 + n4 * 4 + n1
  if n1 = 4 ∨ n100 = 4 then (year - 1, 12, 31) else (year, monthDay year n 12)

/-! ### `strftime('%Y-%m-%dT%H:%M:%SZ')` -/

/-- A number in at least `width` digits. -/
def padded (width n : Nat) : List Char :=
  let digits := textOfNat n
  List.replicate (width - digits.length) '0' ++ digits

/-- The UTC time of a clock reading to the second, as `strftime('%Y-%m-%dT%H:%M:%SZ')` writes it. -/
def strftimeZ (t : Time) : String :=
  let seconds := t / 1000000
  let (year, month, day) := ord2ymd (seconds / 86400 + epochOrdinal).toNat
  let second := (seconds % 86400).toNat
  String.ofList (padded 4 year ++ ['-'] ++ padded 2 month ++ ['-'] ++ padded 2 day ++ ['T'] ++
    padded 2 (second / 3600) ++ [':'] ++ padded 2 (second / 60 % 60) ++ [':'] ++ padded 2 (second % 60) ++ ['Z'])

/-! ### `fromisoformat` -/

def isAsciiDigit (c : Char) : Bool := decide (48 ≤ c.toNat ∧ c.toNat ≤ 57)

/-- Exactly `width` ASCII digits from position `pos`. -/
def number (text : List Char) (pos width : Nat) : Option Nat :=
  let digits := (text.drop pos).take width
  if digits.length = width ∧ digits.all isAsciiDigit then some (Nat.ofDigitChars 10 digits 0) else none

/-- The ordinal of a calendar date, when there is such a day. -/
def calendarDate (year month day : Nat) : Option Nat :=
  if 1 ≤ year ∧ year ≤ 9999 ∧ 1 ≤ month ∧ month ≤ 12 ∧ 1 ≤ day ∧ day ≤ daysInMonth year month then
    some (ymd2ord year month day)
  else none

/-- The ordinal of the Monday of ISO week 1. -/
def isoweek1monday (year : Nat) : Int :=
  let firstday : Int := ymd2ord year 1 1
  let firstweekday := (firstday + 6) % 7
  let monday := firstday - firstweekday
  if firstweekday > 3 then monday + 7 else monday

/-- The ordinal of an ISO week date. -/
def weekDate (year week day : Nat) : Option Nat :=
  let longYear := ymd2ord year 1 1 % 7 = 4 ∨ (ymd2ord year 1 1 % 7 = 3 ∧ isLeap year)
  if 1 ≤ year ∧ year ≤ 9999 ∧ 1 ≤ week ∧ (week < 53 ∨ (week = 53 ∧ longYear)) ∧ 1 ≤ day ∧ day ≤ 7 then
    let ordinal := isoweek1monday year + (week - 1) * 7 + (day - 1)
    if 1 ≤ ordinal ∧ ordinal ≤ 3652059 then some ordinal.toNat else none
  else none

/-- Where the date ends: `_find_isoformat_datetime_separator`. -/
def separatorLocation (text : List Char) : Nat :=
  let digit := fun i => (text.drop i).head?.any isAsciiDigit
  let dash := fun i => decide (text[i]? = some '-')
  if text.length = 7 then 7
  else if dash 4 then
    if text[5]? = some 'W' then
      if dash 8 then if digit 10 then 8 else 10 else 8
    else 10
  else if text[4]? = some 'W' then
    let run := ((text.drop 7).takeWhile isAsciiDigit).length
    if run < 2 then 7 + run else if (7 + run) % 2 = 0 then 7 else 8
  else 8

/-- The ordinal of `YYYY-MM-DD`, `YYYYMMDD`, `YYYY-Www[-D]` or `YYYYWww[D]`. -/
def isoDate (text : List Char) : Option Nat := do
  let year ← number text 0 4
  let sep := if text[4]? = some '-' then 1 else 0
  let pos := 4 + sep
  if text[pos]? = some 'W' then
    let week ← number text (pos + 1) 2
    if text.length = pos + 3 then weekDate year week 1
    else if (if text[pos + 3]? = some '-' then 1 else 0) ≠ sep then none
    else if text.length ≠ pos + 4 + sep then none
    else weekDate year week (← number text (pos + 3 + sep) 1)
  else
    let month ← number text pos 2
    if (if text[pos + 2]? = some '-' then 1 else 0) ≠ sep then none
    else if text.length ≠ pos + 4 + sep then none
    else calendarDate year month (← number text (pos + 2 + sep) 2)

/-- A fraction of a second in microseconds; digits past the sixth are dropped. -/
def isoFraction (text : List Char) : Option Nat :=
  if text ≠ [] ∧ text.all isAsciiDigit then
    let digits := text.take 6
    some (Nat.ofDigitChars 10 digits 0 * 10 ^ (6 - digits.length))
  else none

/-- `HH[:?MM[:?SS[{.,}f+]]]` as hours, minutes, seconds and microseconds. -/
def hhmmssff (text : List Char) : Option (Nat × Nat × Nat × Nat) := do
  let hour ← number text 0 2
  let sep := if text[2]? = some ':' then 1 else 0
  if text.length = 2 then return (hour, 0, 0, 0)
  let minute ← number text (2 + sep) 2
  if text.length = 4 + sep then return (hour, minute, 0, 0)
  if sep = 1 ∧ text[5]? ≠ some ':' then none
  else
    let second ← number text (4 + 2 * sep) 2
    let rest := text.drop (6 + 2 * sep)
    match rest with
    | [] => return (hour, minute, second, 0)
    | c :: fraction => if c = '.' ∨ c = ',' then return (hour, minute, second, ← isoFraction fraction) else none

def microsecondsOf (t : Nat × Nat × Nat × Nat) : Nat :=
  ((t.1 * 60 + t.2.1) * 60 + t.2.2.1) * 1000000 + t.2.2.2

/-- The time of day and the UTC offset of a time text, both in microseconds. -/
def isoTime (text : List Char) : Option (Nat × Option Int) := do
  let clock := text.takeWhile fun c => c ≠ '+' ∧ c ≠ '-' ∧ c ≠ 'Z'
  let time ← hhmmssff clock
  if ¬(time.1 < 24 ∧ time.2.1 < 60 ∧ time.2.2.1 < 60) then none
  else match text.drop clock.length with
    | [] => return (microsecondsOf time, none)
    | ['Z'] => return (microsecondsOf time, some 0)
    | sign :: offset =>
      if sign = 'Z' then none
      else
        let tz := microsecondsOf (← hhmmssff offset)
        if tz < 86400000000 then return (microsecondsOf time, some (if sign = '-' then -tz else tz)) else none

/-- `datetime.fromisoformat`; `none` is `ValueError`. -/
def fromisoformat (text : List Char) : Option Datetime := do
  if text.length < 7 then none
  else
    let loc := separatorLocation text
    let ordinal ← isoDate (text.take loc)
    let midnight := ((ordinal : Int) - epochOrdinal) * 86400000000
    match text.drop (loc + 1) with
    | [] => return ⟨midnight, none⟩
    | time => do
      let (clock, offset) ← isoTime time
      return ⟨midnight + clock, offset⟩

example : strftimeZ 1717245296999999 = "2024-06-01T12:34:56Z" := by decide +kernel

example : fromisoformat "2024-06-01T12:34:56+00:00".toList = some ⟨1717245296000000, some 0⟩ := by
  decide +kernel

end Lager.Py
