/-!
# Instants

A point in time on the UTC scale of the proleptic Gregorian calendar.
-/

namespace ContentTyping

/-- Seconds since the first of January 1970, and nanoseconds after that second. From
`10 ^ 9` nanoseconds on the instant lies in the leap second that follows. -/
structure Instant where
  seconds : Int
  nanos : Nat
  deriving DecidableEq

/-- A day of the calendar. -/
structure CalendarDay where
  year : Int
  month : Nat
  day : Nat
  deriving DecidableEq

namespace CalendarDay

/-- Years divisible by four are leap years, full centuries only when divisible by 400. -/
def isLeapYear (year : Int) : Bool :=
  year % 4 = 0 && (year % 100 ≠ 0 || year % 400 = 0)

/-- The number of days of a month. -/
def daysInMonth (year : Int) (month : Nat) : Nat :=
  if month = 2 then if isLeapYear year then 29 else 28
  else if month = 4 || month = 6 || month = 9 || month = 11 then 30
  else 31

/-- The month and the day exist in the year. -/
def isValid (day : CalendarDay) : Bool :=
  1 ≤ day.month && day.month ≤ 12 && 1 ≤ day.day &&
    day.day ≤ daysInMonth day.year day.month

/-- Days from the first of January 1970. Years are counted from March, so that the leap day
ends its year, and the 400-year cycles of 146097 days from the first of March of the year
zero. -/
def toEpochDays (day : CalendarDay) : Int :=
  let year := if day.month ≤ 2 then day.year - 1 else day.year
  let cycle := year / 400
  let yearOfCycle := year % 400
  let monthFromMarch := (day.month + 9) % 12
  let dayOfYear := (153 * monthFromMarch + 2) / 5 + day.day - 1
  let dayOfCycle := yearOfCycle * 365 + yearOfCycle / 4 - yearOfCycle / 100 + dayOfYear
  cycle * 146097 + dayOfCycle - 719468

/-- The day that lies a number of days from the first of January 1970. -/
def ofEpochDays (days : Int) : CalendarDay :=
  let shifted := days + 719468
  let cycle := shifted / 146097
  let dayOfCycle := (shifted % 146097).toNat
  let yearOfCycle :=
    (dayOfCycle - dayOfCycle / 1460 + dayOfCycle / 36524 - dayOfCycle / 146096) / 365
  let dayOfYear := dayOfCycle - (365 * yearOfCycle + yearOfCycle / 4 - yearOfCycle / 100)
  let monthFromMarch := (5 * dayOfYear + 2) / 153
  let day := dayOfYear - (153 * monthFromMarch + 2) / 5 + 1
  let month := if monthFromMarch < 10 then monthFromMarch + 3 else monthFromMarch - 9
  let year := (yearOfCycle : Int) + cycle * 400
  ⟨if month ≤ 2 then year + 1 else year, month, day⟩

end CalendarDay

end ContentTyping
