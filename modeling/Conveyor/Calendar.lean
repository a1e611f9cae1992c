/-!
# The calendar

Days of the proleptic Gregorian calendar. A day is counted from the first of January of the year
one, which is day zero; years run from 1 to 9999.
-/

namespace Conveyor.Calendar

def isLeap (year : Nat) : Bool := year % 4 = 0 && (year % 100 ≠ 0 || year % 400 = 0)

/-- The days before the first of January of a year. -/
def daysBeforeYear (year : Nat) : Nat :=
  let y := year - 1
  y * 365 + y / 4 - y / 100 + y / 400

/-- The number of days of a month. -/
def daysInMonth (year month : Nat) : Nat :=
  if month = 2 then if isLeap year then 29 else 28
  else if month = 4 ∨ month = 6 ∨ month = 9 ∨ month = 11 then 30
  else 31

/-- The days of a year before the first of a month. -/
def daysBeforeMonth (year : Nat) : Nat → Nat
  | 0 => 0
  | 1 => 0
  | month + 1 => daysBeforeMonth year month + daysInMonth year month

/-- A date by year, month and day. -/
structure Date where
  year : Nat
  month : Nat
  day : Nat
  deriving DecidableEq, Repr

def maxYear : Nat := 9999

/-- One more than the last day there is. -/
def dayCount : Nat := 3652059

def Date.isValid (d : Date) : Bool :=
  1 ≤ d.year && d.year ≤ maxYear && 1 ≤ d.month && d.month ≤ 12
    && 1 ≤ d.day && d.day ≤ daysInMonth d.year d.month

/-- The day of a valid date. -/
def Date.toDay (d : Date) : Nat :=
  daysBeforeYear d.year + daysBeforeMonth d.year d.month + (d.day - 1)

/-- Month and day of month of the `n`th day of a year, searching from `month` on. -/
def monthOfDay (year : Nat) : Nat → Nat → Nat → Nat × Nat
  | 0, month, n => (month, n + 1)
  | fuel + 1, month, n =>
    let length := daysInMonth year month
    if n < length then (month, n + 1) else monthOfDay year fuel (month + 1) (n - length)

/-- The year in which a day lies, and the days before it in that year. -/
def yearOfDay (day : Nat) : Nat × Nat :=
  let n400 := day / 146097
  let day := day % 146097
  let n100 := min 3 (day / 36524)
  let day := day - n100 * 36524
  let n4 := day / 1461
  let day := day % 1461
  let n1 := min 3 (day / 365)
  (n400 * 400 + n100 * 100 + n4 * 4 + n1 + 1, day - n1 * 365)

/-- The date of a day. -/
def Date.ofDay (day : Nat) : Date :=
  let (year, n) := yearOfDay day
  let (month, dayOfMonth) := monthOfDay year 11 1 n
  ⟨year, month, dayOfMonth⟩

/-- The day of the week, Monday being zero. -/
def weekday (day : Nat) : Nat := day % 7

/-- The Monday of the first week of a year: the week that holds the fourth of January. It may lie
in the year before. -/
def firstMonday (year : Nat) : Int :=
  let first := daysBeforeYear year
  let w := weekday first
  (first : Int) - w + (if 3 < w then 7 else 0)

/-- The year to whose weeks a day belongs, and the number of its week. -/
def weekOfDay (day : Nat) : Nat × Nat :=
  let (year, _) := yearOfDay day
  let d : Int := day
  if firstMonday (year + 1) ≤ d then (year + 1, 1)
  else if firstMonday year ≤ d then (year, ((d - firstMonday year) / 7).toNat + 1)
  else (year - 1, ((d - firstMonday (year - 1)) / 7).toNat + 1)

/-- Whether a year has a week of this number. -/
def hasWeek (year week : Nat) : Bool :=
  1 ≤ week && (week ≤ 52 || (week = 53 && firstMonday (year + 1) - firstMonday year = 371))

/-- The date of a day of a numbered week, Monday being the first day. -/
def dateOfWeek? (year week day : Nat) : Option Date :=
  if 1 ≤ year ∧ year ≤ maxYear ∧ hasWeek year week ∧ 1 ≤ day ∧ day ≤ 7 then
    let d := firstMonday year + ((week - 1) * 7 + (day - 1) : Nat)
    if 0 ≤ d ∧ d < dayCount then some (Date.ofDay d.toNat) else none
  else none

end Conveyor.Calendar
