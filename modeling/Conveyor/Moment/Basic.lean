import Conveyor.Calendar
import Conveyor.Binary64.Arithmetic

/-!
# Moments

A moment is a wall-clock time to the microsecond, with or without an offset from universal time.
Moments without an offset are taken as universal time wherever a point in time is needed.
-/

namespace Conveyor

/-- Microseconds from the start of the year one on the wall clock, and the offset of that clock
from universal time in microseconds. -/
structure Moment where
  wall : Int
  offset : Option Int
  deriving DecidableEq, Repr, Inhabited

namespace Moment

def secondMicros : Int := 1000000

def dayMicros : Int := 86400000000

/-- One more than the last wall-clock time there is. -/
def wallLimit : Int := Calendar.dayCount * dayMicros

/-- The wall-clock time at which seconds since 1970 start. -/
def epochWall : Int := 719162 * dayMicros

def inRange (wall : Int) : Bool := 0 ≤ wall && wall < wallLimit

/-- The point in time, in microseconds of universal time. -/
def instant (m : Moment) : Int := m.wall - m.offset.getD 0

/-- The same point in time on the clock of universal time. -/
def toUniversal (m : Moment) : Moment := ⟨m.instant, some 0⟩

/-- A moment without an offset read as universal time. -/
def assumeUniversal (m : Moment) : Moment := ⟨m.wall, some (m.offset.getD 0)⟩

def day (m : Moment) : Nat := (m.wall / dayMicros).toNat

def date (m : Moment) : Calendar.Date := .ofDay m.day

/-- Microseconds since midnight. -/
def timeOfDay (m : Moment) : Nat := (m.wall % dayMicros).toNat

def hour (m : Moment) : Nat := m.timeOfDay / 3600000000

def minute (m : Moment) : Nat := m.timeOfDay / 60000000 % 60

def second (m : Moment) : Nat := m.timeOfDay / 1000000 % 60

def microsecond (m : Moment) : Nat := m.timeOfDay % 1000000

/-- The moment of a date and a time of day, if there is such a date and such a time. -/
def of? (date : Calendar.Date) (hour minute second micro : Nat) (offset : Option Int) :
    Option Moment :=
  if date.isValid ∧ hour < 24 ∧ minute < 60 ∧ second < 60 then
    let time := ((hour * 60 + minute) * 60 + second) * 1000000 + micro
    some ⟨(date.toDay : Int) * dayMicros + time, offset⟩
  else none

/-- The start of the moment's day. -/
def startOfDay (m : Moment) : Moment := { m with wall := m.wall - m.timeOfDay }

/-- The moment this many microseconds later, if the calendar has it. -/
def plus? (m : Moment) (micros : Int) : Option Moment :=
  if inRange (m.wall + micros) then some { m with wall := m.wall + micros } else none

/-- The moment of a count of microseconds since 1970, in universal time. -/
def ofEpochMicros? (micros : Int) : Option Moment :=
  if inRange (epochWall + micros) then some ⟨epochWall + micros, some 0⟩ else none

/-- The whole seconds and the rounded microseconds of a count of seconds, as microseconds. The
fraction is scaled in double precision before it is rounded to the even neighbour. -/
def microsOfSeconds (x : Binary64) : Int :=
  let whole := x.truncate
  let fraction := x.sub (Binary64.ofInt whole)
  whole * secondMicros + (fraction.mul (Binary64.ofInt secondMicros)).roundToInt

/-- The microseconds of a count of seconds, if it is finite. -/
def microsOfSeconds? (x : Binary64) : Option Int :=
  if x.isFinite then some (microsOfSeconds x) else none

/-- A clock counts fewer seconds than this, after 1970 as well as before. -/
def clockLimit : Int := 9223372036854775808

/-- The first second of the years that a clock can name; years have 32 bits there. -/
def firstClockSecond : Int := -67768040609740800

/-- The last second of the years that a clock can name. -/
def lastClockSecond : Int := 67768036191676799

/-- Whether a clock that counts to this second cannot name its year. -/
def isYearless (second : Int) : Bool :=
  -clockLimit ≤ second && second < clockLimit
    && (second < firstClockSecond || lastClockSecond < second)

end Moment
end Conveyor
