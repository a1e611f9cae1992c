import Conveyor.Run.Execution
import Conveyor.Worker.Scene

/-!
# Lanes

A lane is a run in its turns. The work of a step has turns of its own: in the first it begins, with
a call if there is one to make; if the answer takes time, it rests until the answer is there. When
the work has ended, or when the time of the step is over, the run gets a turn and looks at it. Work
that has not ended by then is given up: it gets another turn, in which it ends without an answer,
and then the run goes on.
-/

namespace Conveyor.Worker

/-- The result of a run. -/
abbrev LaneResult := Except Fault RunResult

/-- How far the work of a step has come. `τ` is the type of calls whose answer has not been
fetched. -/
inductive Work (τ : Type) where
  /-- It has not begun; there may be a call to make. -/
  | fresh (call : Option (DestinationRef × Request))
  /-- It rests until an alarm goes off. -/
  | resting (alarm : Nat) (pending : τ)
  /-- The answer is there; it can be fetched in a turn that has been called for. -/
  | due (pending : τ)
  | ended (answer : Option Answer)

/-- A step under way. -/
structure Stint (τ : Type) where
  work : Work τ
  /-- The number of the alarm for the end of its time. -/
  limit : Option Nat
  /-- Whether a turn to look at the work has been called for. -/
  isNoticed : Bool := false
  isGivenUp : Bool := false

inductive Lane (τ : Type) where
  /-- The run goes on in a turn that has been called for or that an alarm calls for. -/
  | going (rest : Activity LaneResult)
  /-- A step is under way; `next` is how the run goes on with its answer. -/
  | stepping (stint : Stint τ) (next : Option Answer → Activity LaneResult)
  | ended (r : LaneResult)

namespace Lane

variable {τ σ : Type}

/-- The result of a run that has ended. -/
def result? : Lane τ → Option LaneResult
  | .ended r => some r
  | _ => none

/-- Begin with a step. A step without time is given up before its work begins. -/
def beginStep (id : LaneId) (limit : Binary64) (call : Option (DestinationRef × Request))
    (next : Option Answer → Activity LaneResult) (s : Scene σ) : Lane τ × Scene σ :=
  if limit.le .zero then
    (.stepping { work := .fresh call, limit := none, isGivenUp := true } next,
      s.callFor (.lane id .work))
  else
    let (number, s) := s.setAlarm limit (.lane id .limit)
    (.stepping { work := .fresh call, limit := some number } next, s.callFor (.lane id .work))

/-- Let a run go on until it has to let others go first. -/
def goOn (a : Adapter τ σ) (id : LaneId) (t : Activity LaneResult) (s : Scene σ) :
    Lane τ × Scene σ :=
  let (halt, world) := t.advance (World.reply a) s.world
  let s := { s with world }
  match halt with
  | .ended r => (.ended r, s.callFor (.tally id.job))
  | .turn limit next => beginStep id limit none (fun _ => next) s
  | .call limit ref request next => beginStep id limit (some (ref, request)) next s
  | .wait seconds next =>
    if seconds.le .zero then (.going next, s.callFor (.lane id .goOn))
    else (.going next, (s.setAlarm seconds (.lane id .rested)).2)

/-- End the work of a step. -/
def endWork (id : LaneId) (answer : Option Answer) (st : Stint τ) (s : Scene σ) :
    Stint τ × Scene σ :=
  ({ st with work := .ended answer }, s.callFor (.lane id (.report st.limit)))

/-- Fetch the answer of a call, and end the work with it. -/
def fetchAnswer (a : Adapter τ σ) (id : LaneId) (pending : τ) (st : Stint τ) (s : Scene σ) :
    Stint τ × Scene σ :=
  let (answer, world) := s.world.fetch a pending
  endWork id (some answer) st { s with world }

/-- Begin with the work of a step. -/
def beginWork (a : Adapter τ σ) (id : LaneId) (call : Option (DestinationRef × Request))
    (st : Stint τ) (s : Scene σ) : Stint τ × Scene σ :=
  match call with
  | none => endWork id none st s
  | some (ref, request) =>
    let ((latency, pending), world) := s.world.call a ref request
    let s := { s with world }
    match latency with
    | none => fetchAnswer a id pending st s
    | some seconds =>
      if seconds.le .zero then ({ st with work := .due pending }, s.callFor (.lane id .work))
      else
        let (number, s) := s.setAlarm seconds (.lane id .rested)
        ({ st with work := .resting number pending }, s)

/-- A turn of the work. -/
def doWork (a : Adapter τ σ) (id : LaneId) (st : Stint τ) (s : Scene σ) : Stint τ × Scene σ :=
  match st.isGivenUp, st.work with
  | true, .resting number _ => endWork id none st (s.callOff number)
  | true, _ => endWork id none st s
  | false, .fresh call => beginWork a id call st s
  | false, .due pending => fetchAnswer a id pending st s
  | false, _ => (st, s)

/-- Work that rests can go on. -/
def endRest (id : LaneId) (st : Stint τ) (s : Scene σ) : Stint τ × Scene σ :=
  match st.work with
  | .resting _ pending => ({ st with work := .due pending }, s.callFor (.lane id .work))
  | _ => (st, s)

/-- Call for a turn to look at the work, if none has been called for. -/
def notice (id : LaneId) (st : Stint τ) (s : Scene σ) : Stint τ × Scene σ :=
  if st.isNoticed then (st, s) else ({ st with isNoticed := true }, s.callFor (.lane id .goOn))

/-- Give up work that has not ended; what has been given up is waited for. -/
def giveUp (id : LaneId) (st : Stint τ) (s : Scene σ) : Stint τ × Scene σ :=
  if st.isGivenUp then ({ st with isNoticed := false }, s)
  else
    let st := { st with isGivenUp := true, isNoticed := false }
    match st.work with
    | .resting .. => (st, s.callFor (.lane id .work))
    | _ => (st, s)

/-- Look at the work of a step, and go on if it has ended. -/
def look (a : Adapter τ σ) (id : LaneId) (st : Stint τ)
    (next : Option Answer → Activity LaneResult) (s : Scene σ) : Lane τ × Scene σ :=
  match st.work with
  | .ended answer =>
    let s := match st.limit with
      | some number => s.callOff number
      | none => s
    goOn a id (next answer) s
  | _ =>
    let (st, s) := giveUp id st s
    (.stepping st next, s)

/-- What a step under way does in a turn. -/
def stepTurn (a : Adapter τ σ) (id : LaneId) (st : Stint τ) :
    Cue → Scene σ → Stint τ × Scene σ
  | .work, s => doWork a id st s
  | .rested, s => endRest id st s
  | .report limit, s => if limit = st.limit then notice id st s else (st, s)
  | .limit, s => notice id st s
  | .goOn, s => (st, s)

/-- What a run does in a turn. A report may come when the run, alarmed by the end of the time, has
looked at the work already and gone on; then it says nothing. -/
def act (a : Adapter τ σ) (id : LaneId) : Cue → Lane τ → Scene σ → Lane τ × Scene σ
  | .goOn, .going t, s => goOn a id t s
  | .rested, .going t, s => (.going t, s.callFor (.lane id .goOn))
  | _, .going t, s => (.going t, s)
  | .goOn, .stepping st next, s => look a id st next s
  | cue, .stepping st next, s =>
    let (st, s) := stepTurn a id st cue s
    (.stepping st next, s)
  | _, .ended r, s => (.ended r, s)

end Lane
end Conveyor.Worker
