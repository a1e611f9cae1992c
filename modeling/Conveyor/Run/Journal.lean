import Conveyor.Moment.Duration
import Conveyor.Pipeline.Plan
import Conveyor.Run.Activity

/-!
# The journal of runs

A run is logged under one id from its start to its end: pending, in retry after every attempt that
failed, and finally succeeded or failed. A record that no pipeline takes is logged as dropped. What
has a final status is never changed.
-/

namespace Conveyor.Journal

/-- When an entry of a workflow expires. -/
def expiry (created : Moment) (hours : Option Binary64) : Except Fault (Option Moment) :=
  match hours with
  | some h => some <$> created.plusHours h
  | none => .ok none

/-- The workflow that a run is logged under: the pipeline's own, or the one it is run from. -/
def workflowId (p : Pipeline) (w : Option Workflow) : Option String :=
  match p.workflowId with
  | some id => if id.isEmpty then w.map (·.id) else some id
  | none => w.map (·.id)

/-- Log the start of a run. -/
def start (r : InboundRecord) (p : Pipeline) (w : Option Workflow) :
    Activity (Except Fault LogEntry) := do
  let created ← Activity.now
  match expiry created (w.map (·.header.retentionHours)) with
  | .error f => pure (.error f)
  | .ok expires =>
    let id ← Activity.drawId
    let entry : LogEntry :=
      { id := id
        dataId := r.dataId
        source := r.sourceLabel
        destination := p.destinationLabel
        host := r.host
        dataSent := .object r.payload
        workflowId := workflowId p w
        pipelineId := some p.id
        createdAt := created
        updatedAt := created
        expiresAt := expires }
    Activity.append entry
    pure (.ok entry)

/-- Log an attempt that failed and is to be repeated. -/
def retry (e : LogEntry) (message : String) : Activity (Except Fault LogEntry) := do
  if e.isTerminal then pure (.error .badValue)
  else
    let updated ← Activity.now
    let next :=
      { e with
        status := .retry
        retryCount := e.retryCount + 1
        message := some message
        updatedAt := updated }
    Activity.update next
    pure (.ok next)

/-- How a run ended. -/
structure Ending where
  success : Bool
  message : String
  dataSent : Value := .null
  dataReceived : Value := .null

/-- The entry of a run that has ended. -/
def close (e : LogEntry) (end_ : Ending) (updated : Moment) : LogEntry :=
  { e with
    status := if end_.success then .success else .failed
    message := some end_.message
    updatedAt := updated
    dataReceived := end_.dataReceived
    dataSent := if end_.dataSent.isNull then e.dataSent else end_.dataSent }

/-- Log the end of a run. The log of a failed run is thrown away if its workflow says so. -/
def finish (e : LogEntry) (end_ : Ending) (w : Option Workflow) :
    Activity (Except Fault LogEntry) := do
  if e.isTerminal then pure (.error .badValue)
  else
    let final := close e end_ (← Activity.now)
    if !end_.success && w.any (·.header.deleteFailedImmediately) then
      Activity.discard e.id
    else
      Activity.update final
    pure (.ok final)

def droppedMessage : String := "No active pipeline for this source"

/-- Log a record that no pipeline takes. An entry that is to be kept for no time at all does not
expire. -/
def dropped (r : InboundRecord) (retentionHours : Option Binary64) :
    Activity (Except Fault LogEntry) := do
  let created ← Activity.now
  match expiry created (retentionHours.filter fun h => !h.isZero) with
  | .error f => pure (.error f)
  | .ok expires =>
    let id ← Activity.drawId
    let entry : LogEntry :=
      { id := id
        dataId := r.dataId
        source := r.sourceLabel
        host := r.host
        dataSent := .object r.payload
        message := some droppedMessage
        status := .dropped
        createdAt := created
        updatedAt := created
        expiresAt := expires }
    Activity.append entry
    pure (.ok entry)

end Conveyor.Journal
