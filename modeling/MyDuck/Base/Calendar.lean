/-
MyDuck.Base.Calendar — the Gregorian calendar, and `time.Date` of Go.

`Date` is a day of the calendar from year 1 on, and `dayNumber` counts the
days from 1970-01-01 to it, year by year and month by month. `unixDate` is
what `time.Date(..).Unix()` computes in UTC: it normalises each argument
into the next one and counts the days in cycles of 400, 100 and 4 years.
`unixDate_eq` says that the two agree on every day and every time of the
day.
-/
import Mathlib

namespace MyDuck.Calendar

def isLeap (y : Int) : Bool := y % 4 = 0 && (y % 100 ≠ 0 || y % 400 = 0)

def daysInYear (y : Nat) : Nat := if isLeap y then 366 else 365

def daysInMonth (y m : Nat) : Nat :=
  match m with
  | 2 => if isLeap y then 29 else 28
  | 4 | 6 | 9 | 11 => 30
  | _ => 31

theorem daysInMonth_le (y m : Nat) : daysInMonth y m ≤ 31 := by
  unfold daysInMonth
  split <;> (try split) <;> omega

/-- The days before a year, from year 1 on. -/
def daysBeforeYear (y : Nat) : Nat := ∑ k ∈ Finset.range (y - 1), daysInYear (k + 1)

/-- The days of the year before a month. -/
def daysBeforeMonth (y m : Nat) : Nat := ∑ k ∈ Finset.range (m - 1), daysInMonth y (k + 1)

structure Date where
  year : Nat
  month : Nat
  day : Nat
  year_pos : 1 ≤ year
  month_pos : 1 ≤ month
  month_le : month ≤ 12
  day_pos : 1 ≤ day
  day_le : day ≤ daysInMonth year month
  deriving DecidableEq, Repr

/-- The days from year 1 to 1970. -/
def epochDays : Int := 719162

/-- The days from 1970-01-01 to a day. -/
def Date.dayNumber (d : Date) : Int :=
  daysBeforeYear d.year + daysBeforeMonth d.year d.month + (d.day - 1) - epochDays

/-! ## time.Date -/

/-- The days from year 1 to a year: cycles of 400, 100 and 4 years. -/
def daysSinceYearOne (year : Int) : Int :=
  let y := year - 1
  let n400 := y / 400
  let y := y % 400
  let n100 := y / 100
  let y := y % 100
  let n4 := y / 4
  let y := y % 4
  146097 * n400 + 36524 * n100 + 1461 * n4 + 365 * y

/-- The days of a year without a leap day before a month, from 0 on. -/
def daysBefore (m : Int) : Int :=
  match m with
  | 0 => 0
  | 1 => 31
  | 2 => 59
  | 3 => 90
  | 4 => 120
  | 5 => 151
  | 6 => 181
  | 7 => 212
  | 8 => 243
  | 9 => 273
  | 10 => 304
  | _ => 334

/-- The days from 1970-01-01 to a day, where the month may be out of range. -/
def unixDays (year month day : Int) : Int :=
  let y := year + (month - 1) / 12
  let m := (month - 1) % 12
  daysSinceYearOne y + daysBefore m + (if isLeap y ∧ 2 ≤ m then 1 else 0) + (day - 1) - epochDays

/-- `time.Date` in UTC: the seconds since 1970 and the nanoseconds of the
second. -/
def unixDate (year month day hour min sec nsec : Int) : Int × Int :=
  let sec := sec + nsec / 10 ^ 9
  let min := min + sec / 60
  let hour := hour + min / 60
  let day := day + hour / 24
  (unixDays year month day * 86400 + hour % 24 * 3600 + min % 60 * 60 + sec % 60, nsec % 10 ^ 9)

/-! ## Agreement -/

theorem daysSinceYearOne_succ (y : Nat) :
    daysSinceYearOne ((y + 1 : Nat) : Int) = daysSinceYearOne y + daysInYear y := by
  simp only [daysSinceYearOne, daysInYear, isLeap, Bool.and_eq_true, Bool.or_eq_true,
    decide_eq_true_eq]
  split <;> omega

theorem daysSinceYearOne_eq {y : Nat} (h : 1 ≤ y) : daysSinceYearOne y = daysBeforeYear y := by
  induction y, h using Nat.le_induction with
  | base => rfl
  | succ y h ih =>
    obtain ⟨k, rfl⟩ := Nat.exists_eq_add_of_le' h
    rw [daysSinceYearOne_succ, ih]
    simp [daysBeforeYear, Finset.sum_range_succ]

/-- The epoch is the first day of 1970. -/
example : (daysBeforeYear 1970 : Int) = epochDays := by
  rw [← daysSinceYearOne_eq (by decide)]
  rfl

theorem daysBefore_eq (y : Nat) {m : Nat} (h1 : 1 ≤ m) (h12 : m ≤ 12) :
    daysBefore (m - 1 : Int) + (if isLeap y ∧ 2 ≤ (m - 1 : Int) then 1 else 0)
      = daysBeforeMonth y m := by
  interval_cases m <;> cases hleap : isLeap y <;>
    simp [daysBefore, daysBeforeMonth, daysInMonth, Finset.sum_range_succ, hleap]

theorem unixDays_eq (d : Date) : unixDays d.year d.month d.day = d.dayNumber := by
  obtain ⟨y, m, day, hy, hm1, hm12, -, -⟩ := d
  have hyear : ((m : Int) - 1) / 12 = 0 := by omega
  have hmonth : ((m : Int) - 1) % 12 = m - 1 := by omega
  have hbefore := daysBefore_eq y hm1 hm12
  simp only [unixDays, Date.dayNumber, hyear, hmonth, add_zero, daysSinceYearOne_eq hy]
  omega

/-- **`time.Date` counts the days of the calendar.** -/
theorem unixDate_eq (d : Date) {hour min sec nsec : Nat} (hhour : hour < 24) (hmin : min < 60)
    (hsec : sec < 60) (hnsec : nsec < 10 ^ 9) :
    unixDate d.year d.month d.day hour min sec nsec
      = (d.dayNumber * 86400 + hour * 3600 + min * 60 + sec, (nsec : Int)) := by
  have h0 : (nsec : Int) / 10 ^ 9 = 0 := by omega
  have h1 : (sec : Int) / 60 = 0 := by omega
  have h2 : (min : Int) / 60 = 0 := by omega
  have h3 : (hour : Int) / 24 = 0 := by omega
  have hr0 : (nsec : Int) % 10 ^ 9 = nsec := by omega
  have hr1 : (sec : Int) % 60 = sec := by omega
  have hr2 : (min : Int) % 60 = min := by omega
  have hr3 : (hour : Int) % 24 = hour := by omega
  simp only [unixDate, h0, h1, h2, h3, hr0, hr1, hr2, hr3, add_zero, unixDays_eq]

end MyDuck.Calendar
