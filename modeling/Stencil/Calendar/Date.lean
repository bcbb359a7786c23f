/-!
# Dates and times of day

A **date** is a day of the proleptic Gregorian calendar, year zero and negative years
included. Days are numbered from 1 January of year 1, day 1, so that weekdays, week
numbers and timestamps are arithmetic. A **date-time** adds a time of day, to the
nanosecond. A **leap second** is no second of its own: it belongs to the second before
it, whose nanoseconds then go on to twice as many.
-/

namespace Stencil

/-! ### Years and months -/

namespace Calendar

/-- Every fourth year is a leap year, but of the full centuries only every fourth. -/
def isLeapYear (y : Int) : Bool :=
  y % 4 == 0 && (y % 100 != 0 || y % 400 == 0)

/-- The number of days of a month. -/
def daysInMonth (y : Int) (m : Nat) : Nat :=
  if m = 2 then if isLeapYear y then 29 else 28
  else if m = 4 || m = 6 || m = 9 || m = 11 then 30
  else 31

/-- The number of days from 1 January of year 1 to 1 January of `y`. -/
def daysBeforeYear (y : Int) : Int :=
  let p := y - 1
  365 * p + p / 4 - p / 100 + p / 400

/-- The number of days of the year before its month `m`. -/
def daysBeforeMonth (y : Int) (m : Nat) : Nat :=
  (List.range (m - 1)).foldl (fun days i => days + daysInMonth y (i + 1)) 0

/-- The first and the last year of the calendar. -/
def firstYear : Int := -262143
def lastYear : Int := 262142

end Calendar

open Calendar

/-- A day of the calendar. -/
structure Date where
  year : Int
  month : Nat
  day : Nat
  year_mem : firstYear ≤ year ∧ year ≤ lastYear
  month_mem : 1 ≤ month ∧ month ≤ 12
  day_mem : 1 ≤ day ∧ day ≤ daysInMonth year month
  deriving DecidableEq

namespace Date

/-- The day with this year, month and day, if the calendar has it. -/
def of? (year : Int) (month day : Nat) : Option Date :=
  if hy : firstYear ≤ year ∧ year ≤ lastYear then
    if hm : 1 ≤ month ∧ month ≤ 12 then
      if hd : 1 ≤ day ∧ day ≤ daysInMonth year month then
        some ⟨year, month, day, hy, hm, hd⟩
      else none
    else none
  else none

/-- The order of time. -/
def order (a b : Date) : Ordering :=
  (compare a.year b.year).then ((compare a.month b.month).then (compare a.day b.day))

/-- The place of the day in its year, from 1. -/
def ordinal (d : Date) : Nat :=
  daysBeforeMonth d.year d.month + d.day

/-- The number of the day, from 1 January of year 1. -/
def number (d : Date) : Int :=
  daysBeforeYear d.year + d.ordinal

/-- The weekday, Monday being 0. -/
def weekday (d : Date) : Nat :=
  ((d.number - 1) % 7).toNat

/-- The month in which the day of place `days` (from 0) of the year lies, counted from
`month`, and the day of that month. -/
def splitOrdinal (year : Int) (days month : Nat) : (months : Nat) → Nat × Nat
  | 0 => (month, days + 1)
  | months + 1 =>
    if days < daysInMonth year month then (month, days + 1)
    else splitOrdinal year (days - daysInMonth year month) (month + 1) months

/-- The day of a given number, if the calendar reaches it. -/
def ofNumber? (n : Int) : Option Date :=
  -- an estimate of the year that is at most one off
  let guess := (n - 1) * 400 / 146097 + 1
  let year :=
    if n ≤ daysBeforeYear guess then guess - 1
    else if daysBeforeYear (guess + 1) < n then guess + 1
    else guess
  let (month, day) := splitOrdinal year (n - daysBeforeYear year - 1).toNat 1 11
  of? year month day

/-- How many weeks of the year have begun by this day, weeks beginning on the weekday
`first` and the days before the first such weekday belonging to week zero. -/
def weeksFrom (first : Nat) (d : Date) : Nat :=
  (d.ordinal + 6 - (d.weekday + 7 - first) % 7) / 7

/-- The number of ISO weeks of a year. -/
def isoWeeks (year : Int) : Nat :=
  let first := ((daysBeforeYear year) % 7).toNat
  if first = 3 || (first = 2 && isLeapYear year) then 53 else 52

/-- The ISO year and week of the day: a week belongs to the year of its Thursday. -/
def isoWeek (d : Date) : Int × Nat :=
  let shifted := d.ordinal + 9 - d.weekday
  let week := shifted / 7
  if week = 0 then (d.year - 1, isoWeeks (d.year - 1))
  else if isoWeeks d.year < week then (d.year + 1, 1)
  else (d.year, week)

end Date

/-- The nanoseconds of a second. -/
def Calendar.nanosPerSecond : Nat := 1000000000

/-- A time of day. Nanoseconds from `nanosPerSecond` on are those of a leap second. -/
structure Time where
  hour : Nat
  minute : Nat
  second : Nat
  nanosecond : Nat
  hour_lt : hour < 24 := by decide
  minute_lt : minute < 60 := by decide
  second_lt : second < 60 := by decide
  nanosecond_lt : nanosecond < 2 * nanosPerSecond := by decide
  deriving DecidableEq

namespace Time

def midnight : Time where
  hour := 0
  minute := 0
  second := 0
  nanosecond := 0

/-- The time with these parts, if a day has it. -/
def of? (hour minute second nanosecond : Nat) : Option Time :=
  if hh : hour < 24 then
    if hm : minute < 60 then
      if hs : second < 60 then
        if hn : nanosecond < 2 * nanosPerSecond then
          some ⟨hour, minute, second, nanosecond, hh, hm, hs, hn⟩
        else none
      else none
    else none
  else none

/-- The time `n` whole seconds after midnight. -/
def ofSeconds? (n : Nat) : Option Time :=
  of? (n / 3600) (n / 60 % 60) (n % 60) 0

/-- The whole seconds since midnight. A leap second does not count. -/
def seconds (t : Time) : Nat :=
  t.hour * 3600 + t.minute * 60 + t.second

/-- The second that a clock shows. In a leap second it shows one more. -/
def shownSecond (t : Time) : Nat :=
  t.second + t.nanosecond / nanosPerSecond

/-- The nanoseconds behind the second that a clock shows. -/
def fraction (t : Time) : Nat :=
  t.nanosecond % nanosPerSecond

/-- The order of time. A leap second comes behind all of the second that it belongs to. -/
def order (a b : Time) : Ordering :=
  (compare a.hour b.hour).then ((compare a.minute b.minute).then
    ((compare a.second b.second).then (compare a.nanosecond b.nanosecond)))

end Time

/-- A day and a time of day. -/
structure DateTime where
  date : Date
  time : Time
  deriving DecidableEq

namespace DateTime

def order (a b : DateTime) : Ordering :=
  (a.date.order b.date).then (a.time.order b.time)

/-- The number of 1 January 1970. -/
def epochNumber : Int := 719163

/-- The whole seconds since the beginning of 1970. -/
def timestamp (d : DateTime) : Int :=
  (d.date.number - epochNumber) * 86400 + d.time.seconds

/-- The moment `n` seconds after the beginning of 1970. -/
def ofTimestamp? (n : Int) : Option DateTime := do
  let date ← Date.ofNumber? (n / 86400 + epochNumber)
  let time ← Time.ofSeconds? (n % 86400).toNat
  some ⟨date, time⟩

end DateTime

end Stencil
