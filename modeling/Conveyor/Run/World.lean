import Conveyor.Log.Memory
import Conveyor.Pipeline.Reading
import Conveyor.Run.Activity

/-!
# Surroundings in memory

A clock, a log in memory and an adapter, as the state that replies to the requests of activities.
Ids are drawn in sequence, what chance brings is laid down beforehand, and waiting is nothing but the
advance of a timer, so that what happens depends on the initial state alone.
-/

namespace Conveyor

/-- How destinations behave: `σ` is their state, `τ` a call whose answer has not been fetched. -/
structure Adapter (τ σ : Type) where
  /-- Take a call, and say how many seconds the answer takes; none if it is there at once. -/
  call : DestinationRef → Request → σ → (Option Binary64 × τ) × σ
  /-- Answer a call. -/
  fetch : τ → σ → Answer × σ

structure World (σ : Type) where
  now : Moment
  /-- How many ids have been drawn. -/
  drawn : Nat := 0
  /-- What is drawn by chance from now on. -/
  chances : Nat → Chance := fun _ => .least
  log : MemoryLog := {}
  /-- Seconds that have passed in waiting. -/
  timer : Binary64 := .zero
  destinations : σ

namespace World

variable {τ σ : Type}

def idText (n : Nat) : String := s!"id-{n}"

/-- The record of a document and the ids that are drawn then; one is drawn for a document without
an id. -/
def readRecord (now : Moment) (drawn : Nat) (v : Value) : Checked InboundRecord × Nat :=
  (Schema.record (InboundRecord.read (idText (drawn + 1)) now) v,
    if InboundRecord.lacksDataId v then drawn + 1 else drawn)

/-- The log entry of a document and the ids that are drawn then. -/
def readEntry (now : Moment) (drawn : Nat) (v : Value) : Checked LogEntry × Nat :=
  (Schema.record (LogEntry.read (idText (drawn + 1)) now) v,
    if LogEntry.lacksId v then drawn + 1 else drawn)

/-- Draw an id. -/
def drawId (w : World σ) : String × World σ :=
  (idText (w.drawn + 1), { w with drawn := w.drawn + 1 })

/-- Draw by chance. -/
def draw (w : World σ) : Chance × World σ :=
  (w.chances 0, { w with chances := fun n => w.chances (n + 1) })

/-- Make a call. -/
def call (a : Adapter τ σ) (ref : DestinationRef) (r : Request) (w : World σ) :
    (Option Binary64 × τ) × World σ :=
  let (reply, destinations) := a.call ref r w.destinations
  (reply, { w with destinations })

/-- Fetch the answer of a call. -/
def fetch (a : Adapter τ σ) (pending : τ) (w : World σ) : Answer × World σ :=
  let (answer, destinations) := a.fetch pending w.destinations
  (answer, { w with destinations })

/-- Let seconds pass, if they are any. -/
def pass (seconds : Binary64) (w : World σ) : World σ :=
  if Binary64.zero.lt seconds then { w with timer := w.timer.add seconds } else w

/-- How long a moment is, in seconds: times that are closer together come together. -/
def moment : Binary64 := .ofRatio false 1 1000000000

/-- Whether a limit is reached in the present moment. -/
def isAtOnce (limit : Binary64) (w : World σ) : Bool :=
  !(w.timer.add moment).le (w.timer.add limit)

/-- Let a limit be reached. -/
def passLimit (limit : Binary64) (w : World σ) : World σ :=
  if w.isAtOnce limit then w else w.pass limit

/-- Whether an answer that takes so many seconds is not there before the limit is reached. It cannot
be there if the limit is reached at once. -/
def isLate (limit seconds : Binary64) (w : World σ) : Bool :=
  Binary64.zero.lt seconds &&
    (w.isAtOnce limit || !(w.timer.add seconds).lt (w.timer.add limit))

/-- Make a call and wait for its answer, but no longer than to the limit. -/
def callWithin (a : Adapter τ σ) (limit : Binary64) (ref : DestinationRef) (r : Request)
    (w : World σ) : Option Answer × World σ :=
  let ((seconds, pending), w) := w.call a ref r
  let seconds := seconds.getD .zero
  if w.isLate limit seconds then (none, w.passLimit limit)
  else
    let (answer, w) := (w.pass seconds).fetch a pending
    (some answer, w)

/-- Reply to a request. -/
def reply (a : Adapter τ σ) : Activity.Surroundings (World σ)
  | .now, w => (w.now, w)
  | .drawId, w => w.drawId
  | .draw, w => w.draw
  | .append e, w => ((), { w with log := w.log.append e })
  | .update e, w => ((), { w with log := w.log.update e })
  | .discard id, w => ((), { w with log := w.log.delete id })
  | .turn _, w => ((), w)
  | .call limit ref r, w => w.callWithin a limit ref r
  | .wait seconds, w => ((), w.pass seconds)

/-- Carry out an activity at one go. -/
def carryOut {α : Type} (a : Adapter τ σ) (t : Activity α) (w : World σ) : α × World σ :=
  Activity.carryOut (reply a) t w

end World
end Conveyor
