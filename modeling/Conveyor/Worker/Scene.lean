import Conveyor.Run.World
import Conveyor.Binary64.Arithmetic

/-!
# The scene of a worker

Everything a worker does is done in turns. In its turn a run goes as far as it can without letting
others go first, and calls for the turns it needs later on; these come after all turns that were
called for before. Time passes only when no turn is called for: then the first alarm goes off, and
with it all others of the same moment.
-/

/-!
## Alarms

The alarms that are set stand in a heap: an array in which every alarm is at most as late as the two
at twice its position plus one and two. The alarm at the top goes off first; of alarms set for the
same time, the one that the heap has brought to the top. An alarm that is called off stays where it
is until it comes to the top or the heap is crowded with such alarms.
-/

namespace Conveyor.Worker

/-- An alarm, and what is to happen when it goes off. -/
structure Alarm (α : Type) where
  wake : Binary64
  /-- Tells alarms apart. -/
  number : Nat
  cause : α
  isCalledOff : Bool := false

structure Alarms (α : Type) where
  heap : Array (Alarm α) := #[]
  /-- How many alarms have been set so far. -/
  count : Nat := 0

namespace Alarms

variable {α : Type}

/-- The position above a position. -/
def above (i : Nat) : Nat := (i - 1) / 2

/-- Let the alarm at a position rise as long as the one above it is later, but no higher than to the
position `top`. -/
def rise (h : Array (Alarm α)) (top fuel i : Nat) : Array (Alarm α) :=
  match fuel with
  | 0 => h
  | fuel + 1 =>
    if i ≤ top then h
    else
      match h[i]?, h[above i]? with
      | some x, some y =>
        if x.wake.lt y.wake then rise (h.swapIfInBounds i (above i)) top fuel (above i) else h
      | _, _ => h

/-- The position below a position where the earlier alarm stands; if neither is earlier, the second
one. -/
def below? (h : Array (Alarm α)) (i : Nat) : Option Nat :=
  match h[2 * i + 1]?, h[2 * i + 2]? with
  | some x, some y => if x.wake.lt y.wake then some (2 * i + 1) else some (2 * i + 2)
  | some _, none => some (2 * i + 1)
  | none, _ => none

/-- Let the alarm at a position sink to the bottom, and say where it arrives. -/
def sink (h : Array (Alarm α)) (fuel i : Nat) : Array (Alarm α) × Nat :=
  match fuel with
  | 0 => (h, i)
  | fuel + 1 =>
    match below? h i with
    | some j => sink (h.swapIfInBounds i j) fuel j
    | none => (h, i)

/-- Find the place of the alarm at a position among those below it: it sinks to the bottom and rises
again from there. -/
def settle (h : Array (Alarm α)) (i : Nat) : Array (Alarm α) :=
  let (h, j) := sink h h.size i
  rise h i j j

/-- Set an alarm. -/
def insert (wake : Binary64) (cause : α) (a : Alarms α) : Alarms α where
  heap := rise (a.heap.push { wake, number := a.count, cause }) 0 a.heap.size a.heap.size
  count := a.count + 1

/-- Call off the alarm of a number. -/
def callOff (number : Nat) (a : Alarms α) : Alarms α :=
  { a with
    heap := a.heap.map fun x => if x.number = number then { x with isCalledOff := true } else x }

/-- The alarm at the top. -/
def first? (a : Alarms α) : Option (Alarm α) := a.heap[0]?

/-- Take the alarm away from the top. The last one takes its place and settles. -/
def dropFirst (a : Alarms α) : Alarms α :=
  match a.heap.back? with
  | none => a
  | some last => { a with heap := settle (a.heap.pop.setIfInBounds 0 last) 0 }

/-- Take alarms away from the top as long as they are called off. -/
def clearTop (fuel : Nat) (a : Alarms α) : Alarms α :=
  match fuel with
  | 0 => a
  | fuel + 1 =>
    match a.first? with
    | some x => if x.isCalledOff then clearTop fuel a.dropFirst else a
    | none => a

/-- The heap of some alarms, which settle from the last to the first. -/
def heapOf (h : Array (Alarm α)) : Array (Alarm α) :=
  (List.range (h.size / 2)).reverse.foldl settle h

/-- Whether the alarms that are called off take up most of a large heap. -/
def isCrowded (a : Alarms α) : Bool :=
  decide (100 < a.heap.size ∧ a.heap.size < 2 * (a.heap.filter (·.isCalledOff)).size)

/-- Take away the alarms that are called off: all of them if the heap is crowded with them, and
otherwise those at the top. -/
def cleared (a : Alarms α) : Alarms α :=
  if a.isCrowded then { a with heap := heapOf (a.heap.filter fun x => !x.isCalledOff) }
  else a.clearTop a.heap.size

/-- Let the alarms go off that are set for a time before the end of a moment. -/
def ringFrom (fuel : Nat) (endOfMoment : Binary64) (a : Alarms α) : List α × Alarms α :=
  match fuel with
  | 0 => ([], a)
  | fuel + 1 =>
    match a.first? with
    | none => ([], a)
    | some x =>
      if endOfMoment.le x.wake then ([], a)
      else
        let (causes, rest) := ringFrom fuel endOfMoment a.dropFirst
        (if x.isCalledOff then causes else x.cause :: causes, rest)

/-- Let the alarms go off that are set for a time before the end of a moment: what is to happen, in
order, and the alarms that are left. -/
def ring (endOfMoment : Binary64) (a : Alarms α) : List α × Alarms α :=
  a.ringFrom a.heap.size endOfMoment

end Alarms

/-! ## Turns -/

/-- One run of a record: the number of the record and the position of the run among its runs. -/
structure LaneId where
  job : Nat
  position : Nat
  deriving DecidableEq, Repr

/-- Why a run has a turn. -/
inductive Cue where
  /-- The run goes on. -/
  | goOn
  /-- The work of its step goes on. -/
  | work
  /-- The work of its step has ended; the number is that of the alarm for the end of its time. -/
  | report (limit : Option Nat)
  /-- It has rested for as long as it wanted to. -/
  | rested
  /-- The time of its step is over. -/
  | limit
  deriving DecidableEq, Repr

/-- What a turn is for. -/
inductive Turn where
  /-- Take records from the queue. -/
  | take
  /-- Look at the empty queue again. -/
  | poll
  /-- Begin with a record. -/
  | enter (job : Nat)
  | lane (id : LaneId) (cue : Cue)
  /-- Count a run of a record that has ended. -/
  | tally (job : Nat)
  /-- All runs of a record have ended. -/
  | settle (job : Nat)
  /-- Give back the place of a record. -/
  | release (job : Nat)
  deriving DecidableEq, Repr

/-- What all runs share. -/
structure Scene (σ : Type) where
  world : World σ
  /-- The turns that have been called for, in order. -/
  turns : List Turn := []
  alarms : Alarms Turn := {}

namespace Scene

variable {σ : Type}

def callFor (t : Turn) (s : Scene σ) : Scene σ := { s with turns := s.turns ++ [t] }

/-- Call for a turn after so many seconds, and say under which number. -/
def setAlarm (seconds : Binary64) (t : Turn) (s : Scene σ) : Nat × Scene σ :=
  (s.alarms.count, { s with alarms := s.alarms.insert (s.world.timer.add seconds) t })

def callOff (number : Nat) (s : Scene σ) : Scene σ :=
  { s with alarms := s.alarms.callOff number }

/-- Let the time of the first alarm come, if it has not come yet. -/
def awaitAlarm (s : Scene σ) : Scene σ :=
  match s.alarms.first? with
  | some x =>
    if s.world.timer.lt x.wake then { s with world := { s.world with timer := x.wake } } else s
  | none => s

/-- Let the alarms of the present moment go off. -/
def ring (s : Scene σ) : Scene σ :=
  let (turns, alarms) := s.alarms.ring (s.world.timer.add World.moment)
  { s with turns := s.turns ++ turns, alarms }

/-- Before a round of turns: time passes if no turn is called for, and alarms go off. -/
def wake (s : Scene σ) : Scene σ :=
  let s := { s with alarms := s.alarms.cleared }
  (if s.turns.isEmpty then s.awaitAlarm else s).ring

end Scene
end Conveyor.Worker
