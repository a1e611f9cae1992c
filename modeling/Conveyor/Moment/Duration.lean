import Conveyor.Failure
import Conveyor.Moment.Basic

/-!
# Durations and the order of moments

A duration in hours is a double. Its whole hours are counted exactly, its fraction to the nearest
microsecond. Moments with an offset are ordered by their points in time and moments without one by
their wall clocks; between the two kinds there is no order.
-/

namespace Conveyor.Moment

def hourMicros : Int := 3600000000

/-- The longest duration, in days. -/
def maxDays : Int := 999999999

/-- A number of hours in microseconds. -/
def microsOfHours (hours : Binary64) : Except Fault Int :=
  if hours.isNan then .error .badValue
  else if hours.isInfinite then .error .overflow
  else
    let whole := hours.truncate
    let fraction := hours.sub (.ofInt whole)
    let micros := whole * hourMicros + (fraction.mul (.ofInt hourMicros)).roundToInt
    if micros / dayMicros < -maxDays ∨ maxDays < micros / dayMicros then .error .overflow
    else .ok micros

/-- The moment so many microseconds later. -/
def plus (m : Moment) (micros : Int) : Except Fault Moment :=
  match m.plus? micros with
  | some later => .ok later
  | none => .error .overflow

/-- The moment so many hours later. -/
def plusHours (m : Moment) (hours : Binary64) : Except Fault Moment := do
  m.plus (← microsOfHours hours)

/-- Whether one moment is before another. -/
def before (a b : Moment) : Except Fault Bool :=
  match a.offset, b.offset with
  | some _, some _ => .ok (a.instant < b.instant)
  | none, none => .ok (a.wall < b.wall)
  | _, _ => .error .wrongKind

end Conveyor.Moment
