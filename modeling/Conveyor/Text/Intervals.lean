/-!
# Sets of code points by their edges

A set of numbers given by the points where membership switches, in increasing order, starting
outside. A number is in the set exactly when an odd number of edges lie at or below it.
-/

namespace Conveyor.Text

/-- Membership of `n`, read while walking the edges; `current` is membership below the next edge. -/
def insideFrom (current : Bool) : List Nat → Nat → Bool
  | [], _ => current
  | edge :: rest, n => if n < edge then current else insideFrom (!current) rest n

/-- Membership in the set with the given edges. -/
def inside (edges : List Nat) (n : Nat) : Bool := insideFrom false edges n

end Conveyor.Text
