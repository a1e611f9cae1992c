import Conveyor.Arena
import Conveyor.Worker.Lane

/-!
# The floor of a worker

The records under way, each with a run for every pipeline that takes it. A record that no pipeline
takes is dropped in its first turn. A record has been dealt with when all its runs have ended; then
it gives back its place. A record that is taken from the queue while no place is free waits for one.
-/

namespace Conveyor.Worker

structure Settings where
  executor : ExecutorConfig := {}
  /-- Whether records that no pipeline takes are logged. -/
  logsDrops : Bool := true
  droppedRetention : Option Binary64 := some defaultRetentionHours
  /-- How many records can be under way at once. -/
  maxConcurrency : Int := 100

/-- A record under way. -/
structure Job (τ : Type) where
  id : Nat
  record : InboundRecord
  /-- Its runs; none for a record that no pipeline takes. -/
  lanes : List (Lane τ)
  /-- How many of its runs have been counted as ended. -/
  counted : Nat := 0
  /-- What came of the record, once it has been dealt with. -/
  outcome : Option (Except Fault (List RunResult)) := none

/-- A record that has been dealt with: the results of its runs, or why it could not be dropped. -/
structure Handled where
  /-- The number under which it was taken on. -/
  job : Nat
  record : InboundRecord
  outcome : Except Fault (List RunResult)

/-- The records that are still to be taken on. -/
structure Intake where
  queue : List InboundRecord := []
  /-- A record that has been taken from the queue and waits for a place. -/
  waiting : Option InboundRecord := none
  /-- The record that has got the place it waited for. -/
  admitted : Option InboundRecord := none
  /-- How many seconds records are taken for; without a number, or with none at all, for ever. -/
  lifespan : Option Binary64 := none
  isOpen : Bool := false

/-- Whether the time is over in which records are taken. -/
def Intake.isOver (i : Intake) (timer : Binary64) : Bool :=
  i.lifespan.any fun l => !l.isZero && l.le timer

/-- Everything that is under way. -/
structure Floor (τ σ : Type) where
  scene : Scene σ
  intake : Intake := {}
  jobs : List (Job τ) := []
  handled : List Handled := []
  /-- The ids of the records that the queue has been told are done. -/
  acked : List String := []
  /-- How many records have been taken on. -/
  taken : Nat := 0
  /-- How many of them have ended in a fault. -/
  failed : Nat := 0

variable {τ σ : Type}

/-- The run of a record through a pipeline. -/
def runOf (s : Settings) (r : InboundRecord) (pw : Pipeline × Workflow) : Activity LaneResult :=
  pw.1.run s.executor true r (some pw.2)

/-- What is done with a record that no pipeline takes. -/
def drop (s : Settings) (r : InboundRecord) : Activity (Except Fault (List RunResult)) := do
  if s.logsDrops then
    pure ((← Journal.dropped r s.droppedRetention).map fun _ => [])
  else pure (.ok [])

namespace Job

/-- The results of the runs that have one. -/
def results (j : Job τ) : List RunResult :=
  j.lanes.filterMap fun l => l.result?.bind Except.toOption

def laneIds (j : Job τ) : List LaneId := (List.range j.lanes.length).map fun i => ⟨j.id, i⟩

end Job

namespace Floor

def callFor (t : Turn) (f : Floor τ σ) : Floor τ σ := { f with scene := f.scene.callFor t }

def job? (id : Nat) (f : Floor τ σ) : Option (Job τ) := f.jobs.find? fun j => j.id = id

def setJob (j : Job τ) (f : Floor τ σ) : Floor τ σ :=
  { f with jobs := f.jobs.map fun k => if k.id = j.id then j else k }

/-- Take on a record. -/
def takeOn (s : Settings) (a : Arena) (r : InboundRecord) (f : Floor τ σ) : Floor τ σ :=
  let lanes : List (Lane τ) := (a.forSource r.sourceKey).map fun pw => .going (runOf s r pw)
  { f with
    scene := f.scene.callFor (.enter f.taken)
    jobs := f.jobs ++ [{ id := f.taken, record := r, lanes }]
    taken := f.taken + 1 }

/-- Whether another record can be taken on. -/
def hasPlace (s : Settings) (f : Floor τ σ) : Bool := (f.jobs.length : Int) < s.maxConcurrency

/-- How long an empty queue is left alone. -/
def pollSeconds : Binary64 := .ofRatio false 1 20

/-- Take on records from a queue until there is none, no place is free or the lifespan is over. -/
def takeFrom (s : Settings) (a : Arena) : List InboundRecord → Floor τ σ → Floor τ σ
  | [], f =>
    if f.intake.isOver f.scene.world.timer then
      { f with intake := { f.intake with queue := [], isOpen := false } }
    else
      { f with
        intake := { f.intake with queue := [] }
        scene := (f.scene.setAlarm pollSeconds .poll).2 }
  | r :: rest, f =>
    if f.intake.isOver f.scene.world.timer then
      { f with intake := { f.intake with queue := r :: rest, isOpen := false } }
    else if f.hasPlace s then takeFrom s a rest (f.takeOn s a r)
    else { f with intake := { f.intake with queue := rest, waiting := some r } }

/-- Take on the record that has got its place. -/
def takeAdmitted (s : Settings) (a : Arena) (f : Floor τ σ) : Floor τ σ :=
  match f.intake.admitted with
  | some r => takeOn s a r { f with intake := { f.intake with admitted := none } }
  | none => f

/-- Take on records. -/
def take (s : Settings) (a : Arena) (f : Floor τ σ) : Floor τ σ :=
  let f := f.takeAdmitted s a
  f.takeFrom s a f.intake.queue

/-- The queue is told of a record that has been dealt with without a fault. -/
def noteHandled (j : Job τ) (outcome : Except Fault (List RunResult)) (f : Floor τ σ) :
    Floor τ σ :=
  let f := f.setJob { j with outcome := some outcome }
  callFor (.release j.id)
    { f with
      handled := f.handled ++ [⟨j.id, j.record, outcome⟩]
      acked := match outcome with
        | .ok _ => f.acked ++ [j.record.dataId]
        | .error _ => f.acked }

/-- Begin with a record. -/
def enter (ad : Adapter τ σ) (s : Settings) (j : Job τ) (f : Floor τ σ) : Floor τ σ :=
  if j.lanes.isEmpty then
    let (outcome, world) := f.scene.world.carryOut ad (drop s j.record)
    noteHandled j outcome { f with scene := { f.scene with world } }
  else j.laneIds.foldl (fun f id => f.callFor (.lane id .goOn)) f

/-- A turn of a run. -/
def laneTurn (ad : Adapter τ σ) (id : LaneId) (cue : Cue) (j : Job τ) (f : Floor τ σ) :
    Floor τ σ :=
  match j.lanes[id.position]? with
  | none => f
  | some l =>
    let (l, scene) := l.act ad id cue f.scene
    setJob { j with lanes := j.lanes.set id.position l } { f with scene }

/-- Count a run that has ended. -/
def tally (j : Job τ) (f : Floor τ σ) : Floor τ σ :=
  let j := { j with counted := j.counted + 1 }
  let f := f.setJob j
  if j.counted = j.lanes.length then f.callFor (.settle j.id) else f

/-- Give back the place of a record, to the one that waits for a place if there is one. -/
def release (j : Job τ) (f : Floor τ σ) : Floor τ σ :=
  let f :=
    { f with
      jobs := f.jobs.filter fun k => k.id ≠ j.id
      failed := match j.outcome with
        | some (.error _) => f.failed + 1
        | _ => f.failed }
  match f.intake.waiting with
  | some r =>
    callFor .take { f with intake := { f.intake with waiting := none, admitted := some r } }
  | none => f

/-- Do something about a record that is under way. -/
def withJob (id : Nat) (g : Job τ → Floor τ σ → Floor τ σ) (f : Floor τ σ) : Floor τ σ :=
  match f.job? id with
  | some j => g j f
  | none => f

/-- Carry out a turn. -/
def act (ad : Adapter τ σ) (s : Settings) (a : Arena) : Turn → Floor τ σ → Floor τ σ
  | .take, f => f.take s a
  | .poll, f => f.callFor .take
  | .enter id, f => f.withJob id (enter ad s)
  | .lane id cue, f => f.withJob id.job (laneTurn ad id cue)
  | .tally id, f => f.withJob id tally
  | .settle id, f => f.withJob id fun j f => f.noteHandled j (.ok j.results)
  | .release id, f => f.withJob id release

/-- Carry out the next turn. -/
def turn (ad : Adapter τ σ) (s : Settings) (a : Arena) (f : Floor τ σ) : Floor τ σ :=
  match f.scene.turns with
  | [] => f
  | t :: rest => act ad s a t { f with scene := { f.scene with turns := rest } }

/-- Carry out so many turns. -/
def turns (ad : Adapter τ σ) (s : Settings) (a : Arena) : Nat → Floor τ σ → Floor τ σ
  | 0, f => f
  | n + 1, f => turns ad s a n (f.turn ad s a)

/-- Let alarms go off. -/
def wake (f : Floor τ σ) : Floor τ σ := { f with scene := f.scene.wake }

/-- Carry out all turns that have been called for. -/
def round (ad : Adapter τ σ) (s : Settings) (a : Arena) (f : Floor τ σ) : Floor τ σ :=
  f.wake.turns ad s a f.wake.scene.turns.length

/-- Whether no records are taken any more, and all that were have been dealt with. -/
def isIdle (f : Floor τ σ) : Bool := !f.intake.isOpen && f.jobs.isEmpty

/-- Go on round by round until nothing is left to do; nothing comes of it if that is never so. -/
def run (ad : Adapter τ σ) (s : Settings) (a : Arena) (f : Floor τ σ) : Option (Floor τ σ) :=
  if f.isIdle then some f else f.round ad s a |>.run ad s a
partial_fixpoint

/-- How many records have been dealt with without a fault. -/
def returned (f : Floor τ σ) : Nat := f.taken - f.failed

end Floor
end Conveyor.Worker
