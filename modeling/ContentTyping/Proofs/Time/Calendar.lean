import Mathlib.Tactic.IntervalCases
import ContentTyping.Time.Rfc3339

/-!
# Days of the calendar

The days of a cycle of 400 years are counted by centuries, by runs of four years, by years and by days
of a year. From these counts a number of days gives a day that exists, and this day gives the number
back.
-/

namespace ContentTyping.CalendarDay

/-! ## Counting the days of a cycle -/

/-- The day of a cycle is the given one of a year, which is given by its century, by the run of four
years in the century and by its place in the run. -/
structure Counted (dayOfCycle century run place dayOfYear : Nat) : Prop where
  sum : dayOfCycle = 36524 * century + 1461 * run + 365 * place + dayOfYear
  fewCenturies : century ≤ 3
  fewRuns : run ≤ 24
  fewPlaces : place ≤ 3
  fewDays : dayOfYear ≤ 365
  /-- Only a leap year has a last day more. -/
  leap : dayOfYear = 365 → place = 3 ∧ (run = 24 → century = 3)

theorem exists_counted {dayOfCycle : Nat} (inCycle : dayOfCycle < 146097) :
    ∃ century run place dayOfYear, Counted dayOfCycle century run place dayOfYear := by
  obtain ⟨century, inCentury, isSum, fewCenturies, fewDays⟩ :
      ∃ century inCentury, dayOfCycle = 36524 * century + inCentury ∧ century ≤ 3 ∧
        inCentury ≤ 36523 + century / 3 :=
    ⟨min (dayOfCycle / 36524) 3, dayOfCycle - 36524 * min (dayOfCycle / 36524) 3, by omega, by omega,
      by omega⟩
  obtain ⟨run, inRun, isRest, fewRuns, fewInRun⟩ :
      ∃ run inRun, inCentury = 1461 * run + inRun ∧ run ≤ 24 ∧ inRun ≤ 1460 :=
    ⟨inCentury / 1461, inCentury % 1461, by omega, by omega, by omega⟩
  obtain ⟨place, day, isLast, fewPlaces, fewDaysOfYear, last⟩ :
      ∃ place day, inRun = 365 * place + day ∧ place ≤ 3 ∧ day ≤ 365 ∧ (day = 365 → place = 3) :=
    ⟨min (inRun / 365) 3, inRun - 365 * min (inRun / 365) 3, by omega, by omega, by omega, by omega⟩
  exact ⟨century, run, place, day, by omega, fewCenturies, fewRuns, fewPlaces, fewDaysOfYear,
    fun isLeap => ⟨last isLeap, by omega⟩⟩

namespace Counted

variable {dayOfCycle century run place dayOfYear : Nat}

theorem centuries (counted : Counted dayOfCycle century run place dayOfYear) :
    dayOfCycle / 36524 = century + dayOfCycle / 146096 := by
  obtain ⟨sum, fewCenturies, fewRuns, fewPlaces, fewDays, leap⟩ := counted
  by_cases isLast : dayOfCycle = 146096
  · have lastCentury : century = 3 := by omega
    rw [isLast, lastCentury]
  · have bound : dayOfCycle < 36524 * (century + 1) := by omega
    have noCycle : dayOfCycle / 146096 = 0 := Nat.div_eq_of_lt (by omega)
    rw [noCycle]
    exact Nat.div_eq_of_lt_le (by omega) (by omega)

/-- A run of four years has one day more than four times 365, and the days left over may fill a year. -/
theorem runs (counted : Counted dayOfCycle century run place dayOfYear) :
    ∃ carry, dayOfCycle / 1460 = 25 * century + run + carry ∧ carry ≤ dayOfYear ∧
      dayOfYear < 365 + carry := by
  obtain ⟨sum, fewCenturies, fewRuns, fewPlaces, fewDays, leap⟩ := counted
  have split : dayOfCycle =
      1460 * (25 * century + run) + (24 * century + run + 365 * place + dayOfYear) := by
    omega
  clear sum
  refine ⟨(24 * century + run + 365 * place + dayOfYear) / 1460, ?_, by omega, by omega⟩
  rw [split, Nat.mul_add_div (by decide)]

theorem yearOfCycle (counted : Counted dayOfCycle century run place dayOfYear) :
    (dayOfCycle - dayOfCycle / 1460 + dayOfCycle / 36524 - dayOfCycle / 146096) / 365 =
      100 * century + 4 * run + place := by
  obtain ⟨carry, runs, small, lastDay⟩ := counted.runs
  have sum := counted.sum
  rw [counted.centuries, runs]
  generalize dayOfCycle / 146096 = cycles
  have years : dayOfCycle - (25 * century + run + carry) + (century + cycles) - cycles =
      365 * (100 * century + 4 * run + place) + (dayOfYear - carry) := by
    omega
  rw [years, Nat.mul_add_div (by decide), Nat.div_eq_of_lt (by omega), Nat.add_zero]

theorem daysBefore (counted : Counted dayOfCycle century run place dayOfYear) :
    365 * (100 * century + 4 * run + place) + (100 * century + 4 * run + place) / 4 -
      (100 * century + 4 * run + place) / 100 = 36524 * century + 1461 * run + 365 * place := by
  obtain ⟨sum, fewCenturies, fewRuns, fewPlaces, fewDays, leap⟩ := counted
  omega

theorem year_le (counted : Counted dayOfCycle century run place dayOfYear) :
    100 * century + 4 * run + place ≤ 399 := by
  obtain ⟨_, fewCenturies, fewRuns, fewPlaces, _, _⟩ := counted
  omega

theorem dayOfYear_eq (counted : Counted dayOfCycle century run place dayOfYear) :
    dayOfCycle - (365 * (100 * century + 4 * run + place) + (100 * century + 4 * run + place) / 4 -
      (100 * century + 4 * run + place) / 100) = dayOfYear := by
  rw [counted.daysBefore, counted.sum, Nat.add_sub_cancel_left]

theorem isLeapYear (counted : Counted dayOfCycle century run place dayOfYear) (cycle : Int)
    (isLast : dayOfYear = 365) :
    CalendarDay.isLeapYear ((100 * century + 4 * run + place : Nat) + cycle * 400 + 1) = true := by
  obtain ⟨lastPlace, lastRun⟩ := counted.leap isLast
  have fewRuns := counted.fewRuns
  clear counted isLast
  simp only [CalendarDay.isLeapYear, Bool.and_eq_true, Bool.or_eq_true, decide_eq_true_eq]
  omega

end Counted

/-! ## Months -/

/-- The month that a day of a year lies in, both counted from March. -/
def monthFromMarch (dayOfYear : Nat) : Nat :=
  (5 * dayOfYear + 2) / 153

/-- The day of the calendar that is so many days after the first of March of a year. -/
def ofMarch (year : Int) (dayOfYear : Nat) : CalendarDay :=
  let month :=
    if monthFromMarch dayOfYear < 10 then monthFromMarch dayOfYear + 3
    else monthFromMarch dayOfYear - 9
  ⟨if month ≤ 2 then year + 1 else year, month,
    dayOfYear - (153 * monthFromMarch dayOfYear + 2) / 5 + 1⟩

/-- The day of a year is one of the days of its month, and the last of all only in a leap year. -/
theorem ofMarch_bounds : ∀ dayOfYear < 366,
    let day := ofMarch 0 dayOfYear
    (1 ≤ day.month ∧ day.month ≤ 12 ∧ 1 ≤ day.day) ∧
      (day.month + 9) % 12 = monthFromMarch dayOfYear ∧
      (153 * monthFromMarch dayOfYear + 2) / 5 ≤ dayOfYear ∧
      day.day ≤ (if day.month = 2 then if dayOfYear = 365 then 29 else 28
        else if day.month = 4 || day.month = 6 || day.month = 9 || day.month = 11 then 30
        else 31) := by
  decide +kernel

theorem isValid_ofMarch {year : Int} {dayOfYear : Nat} (inYear : dayOfYear < 366)
    (leap : dayOfYear = 365 → isLeapYear (year + 1) = true) :
    (ofMarch year dayOfYear).isValid = true := by
  obtain ⟨⟨monthPositive, monthSmall, dayPositive⟩, _, _, inMonth⟩ :=
    ofMarch_bounds dayOfYear inYear
  have sameMonth : (ofMarch year dayOfYear).month = (ofMarch 0 dayOfYear).month := rfl
  have sameDay : (ofMarch year dayOfYear).day = (ofMarch 0 dayOfYear).day := rfl
  have lastDay : (ofMarch 0 dayOfYear).day ≤
      daysInMonth (ofMarch year dayOfYear).year (ofMarch 0 dayOfYear).month := by
    refine Nat.le_trans inMonth ?_
    rw [daysInMonth]
    split
    next isFebruary =>
        have laterYear : (ofMarch year dayOfYear).year = year + 1 :=
          if_pos (by rw [← sameMonth] at isFebruary; exact Nat.le_of_eq isFebruary)
        rw [laterYear]
        split
        next isLast => rw [leap isLast, if_pos rfl]
        · split <;> decide
    · exact Nat.le_refl _
  simp only [isValid, sameMonth, sameDay, Bool.and_eq_true, decide_eq_true_eq]
  exact ⟨⟨⟨monthPositive, monthSmall⟩, dayPositive⟩, lastDay⟩

theorem exists_ofMarch (days : Int) :
    ∃ (cycle : Int) (year dayOfYear : Nat), year ≤ 399 ∧ dayOfYear < 366 ∧
      (dayOfYear = 365 → isLeapYear (year + cycle * 400 + 1) = true) ∧
      days + 719468 = cycle * 146097 + (365 * year + year / 4 - year / 100 + dayOfYear : Nat) ∧
      ofEpochDays days = ofMarch (year + cycle * 400) dayOfYear := by
  have inCycle : ((days + 719468) % 146097).toNat < 146097 := by omega
  have whole : days + 719468 = (days + 719468) / 146097 * 146097 +
      ((days + 719468) % 146097).toNat := by
    omega
  obtain ⟨century, run, place, dayOfYear, counted⟩ := exists_counted inCycle
  have isYear := counted.yearOfCycle
  have rest := counted.dayOfYear_eq
  refine ⟨(days + 719468) / 146097, 100 * century + 4 * run + place, dayOfYear, counted.year_le,
    Nat.lt_succ_of_le counted.fewDays, counted.isLeapYear _, ?_, ?_⟩
  · rw [counted.daysBefore, ← counted.sum]
    exact whole
  · simp only [ofEpochDays, isYear, rest]
    rfl

theorem isValid_ofEpochDays (days : Int) : (ofEpochDays days).isValid = true := by
  obtain ⟨cycle, year, dayOfYear, _, inYear, leap, _, isDay⟩ := exists_ofMarch days
  rw [isDay]
  exact isValid_ofMarch inYear leap

/-- The days are counted back from the day that they give. -/
theorem toEpochDays_ofEpochDays (days : Int) : (ofEpochDays days).toEpochDays = days := by
  obtain ⟨cycle, year, dayOfYear, fewYears, inYear, _, sum, isDay⟩ := exists_ofMarch days
  obtain ⟨_, itsMonth, atLeast, _⟩ := ofMarch_bounds dayOfYear inYear
  have sameMonth : ((ofMarch (year + cycle * 400) dayOfYear).month + 9) % 12 =
      monthFromMarch dayOfYear := itsMonth
  have marchYear : (if (ofMarch (year + cycle * 400) dayOfYear).month ≤ 2 then
      (ofMarch (year + cycle * 400) dayOfYear).year - 1
      else (ofMarch (year + cycle * 400) dayOfYear).year) = year + cycle * 400 := by
    by_cases early : (ofMarch (year + cycle * 400) dayOfYear).month ≤ 2
    · have nextYear : (ofMarch (year + cycle * 400) dayOfYear).year = year + cycle * 400 + 1 :=
        if_pos early
      rw [if_pos early, nextYear, Int.add_sub_cancel]
    · have sameYear : (ofMarch (year + cycle * 400) dayOfYear).year = year + cycle * 400 :=
        if_neg early
      rw [if_neg early, sameYear]
  have itsDay : (153 * monthFromMarch dayOfYear + 2) / 5 +
      (ofMarch (year + cycle * 400) dayOfYear).day - 1 = dayOfYear := by
    have isDifference : (ofMarch (year + cycle * 400) dayOfYear).day =
        dayOfYear - (153 * monthFromMarch dayOfYear + 2) / 5 + 1 := rfl
    rw [isDifference, ← Nat.add_assoc, Nat.add_sub_cancel, Nat.add_sub_cancel' atLeast]
  rw [isDay]
  simp only [toEpochDays, marchYear, sameMonth, itsDay]
  have itsCycle : ((year : Int) + cycle * 400) / 400 = cycle := by omega
  have itsYear : ((year : Int) + cycle * 400) % 400 = year := by omega
  rw [itsCycle, itsYear]
  omega

theorem small_of_isValid {day : CalendarDay} (valid : day.isValid = true) :
    day.month < 100 ∧ day.day < 100 := by
  simp only [isValid, Bool.and_eq_true, decide_eq_true_eq] at valid
  have fewDays : daysInMonth day.year day.month ≤ 31 := by
    rw [daysInMonth]
    repeat' split
    all_goals decide
  omega

end ContentTyping.CalendarDay
