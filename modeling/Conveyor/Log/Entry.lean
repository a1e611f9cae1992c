import Conveyor.Moment.Iso
import Conveyor.Schema.Scalar
import Conveyor.Pipeline.Wire

/-!
# Log entries

One entry for every run of a pipeline and for every record that no pipeline takes.
-/

namespace Conveyor

inductive LogStatus where
  | success | failed | retry | dropped | pending
  deriving DecidableEq, Repr

namespace LogStatus

def all : List LogStatus := [.success, .failed, .retry, .dropped, .pending]

def name : LogStatus → String
  | .success => "SUCCESS"
  | .failed => "FAILED"
  | .retry => "RETRY"
  | .dropped => "DROPPED"
  | .pending => "PENDING"

/-- Whether an entry of this status is final. -/
def isTerminal : LogStatus → Bool
  | .success | .failed | .dropped => true
  | .retry | .pending => false

end LogStatus

structure LogEntry where
  id : String
  dataId : String
  source : String
  destination : Option String := none
  host : Option String := none
  dataSent : Value := .null
  dataReceived : Value := .null
  message : Option String := none
  status : LogStatus := .pending
  retryCount : Nat := 0
  workflowId : Option String := none
  pipelineId : Option String := none
  createdAt : Moment
  updatedAt : Moment
  expiresAt : Option Moment := none

namespace LogEntry

def isTerminal (e : LogEntry) : Bool := e.status.isTerminal

open Schema in
/-- An entry from its document; `id` and `now` stand for what the document leaves out. -/
def read (id : String) (now : Moment) (fs : Fields) : Checked LogEntry :=
  LogEntry.mk
    <$> withDefault fs "id" text id
    <*> required fs "dataId" text
    <*> required fs "source" text
    <*> optional fs "destination" text
    <*> optional fs "host" text
    <*> withDefault fs "dataSent" anything .null
    <*> withDefault fs "dataReceived" anything .null
    <*> optional fs "message" text
    <*> withDefault fs "status" (choice LogStatus.all LogStatus.name) .pending
    <*> withDefault fs "retryCount" (fun v => (count v).map Int.toNat) 0
    <*> optional fs "workflowId" text
    <*> optional fs "pipelineId" text
    <*> withDefault fs "createdAt" moment now
    <*> withDefault fs "updatedAt" moment now
    <*> optional fs "expiresAt" moment

/-- Whether a document leaves out the entry's id, so that one has to be drawn. -/
def lacksId : Value → Bool
  | .object fs => !Keyed.has fs "id"
  | _ => false

end LogEntry

/-- What entries are asked for. What is not set asks for nothing. -/
structure LogFilter where
  status : Option LogStatus := none
  source : Option String := none
  destination : Option String := none
  dateFrom : Option Moment := none
  dateTo : Option Moment := none

namespace LogFilter

/-- A moment without an offset asks for universal time. -/
def universal : Reading (Option Moment) := fun v =>
  (Schema.nullable Schema.moment v).map (·.map Moment.assumeUniversal)

open Schema in
def read (fs : Fields) : Checked LogFilter :=
  LogFilter.mk
    <$> optional fs "status" (choice LogStatus.all LogStatus.name)
    <*> optional fs "source" text
    <*> optional fs "destination" text
    <*> withDefault fs "date_from" universal none
    <*> withDefault fs "date_to" universal none

/-- Whether a text fulfils a criterion; an empty criterion asks for nothing. -/
def admitsText (criterion : Option String) (actual : Option String) : Bool :=
  match criterion with
  | some c => c.isEmpty || actual = some c
  | none => true

/-- Whether an entry fulfils the criteria apart from the dates. -/
def admitsTexts (f : LogFilter) (e : LogEntry) : Bool :=
  (match f.status with
    | some s => e.status = s
    | none => true)
  && admitsText f.source (some e.source) && admitsText f.destination e.destination

end LogFilter

/-- Part of the entries that were asked for, and how many there are in all. -/
structure LogPage where
  items : List LogEntry
  total : Nat
  limit : Int
  offset : Int

/-- Counts over all entries. -/
structure LogStats where
  total : Nat
  success : Nat
  failed : Nat
  retry : Nat
  dropped : Nat
  today : Nat
  lastDay : Nat
  bySource : Keyed Nat
  byDestination : Keyed Nat

namespace LogStats

def counts (m : Keyed Nat) : Value := .object (m.mapValues fun n : Nat => .int n)

def wire (s : LogStats) : Value :=
  .object [("totalLogs", .int s.total), ("successCount", .int s.success),
    ("failedCount", .int s.failed), ("retryCount", .int s.retry),
    ("droppedCount", .int s.dropped), ("todayCount", .int s.today),
    ("last24Hours", .int s.lastDay), ("bySource", counts s.bySource),
    ("byDestination", counts s.byDestination)]

/-- How often each name occurs, in the order of first occurrence. -/
def tally (names : List String) : Keyed Nat :=
  names.foldl (fun m n => m.put n ((m.get? n).getD 0 + 1)) []

end LogStats
end Conveyor

/-!
## Writing log entries

The document of an entry, with camel-case names and without the fields that have no value.
-/

namespace Conveyor.LogEntry

open Wire

def wireFields (e : LogEntry) : Fields :=
  present [("id", some (.text e.id)),
    ("dataId", some (.text e.dataId)),
    ("source", some (.text e.source)),
    ("destination", text e.destination),
    ("host", text e.host),
    ("dataSent", if e.dataSent.isNull then none else some e.dataSent),
    ("dataReceived", if e.dataReceived.isNull then none else some e.dataReceived),
    ("message", text e.message),
    ("status", some (.text e.status.name)),
    ("retryCount", some (.int e.retryCount)),
    ("workflowId", text e.workflowId),
    ("pipelineId", text e.pipelineId),
    ("createdAt", some (.text e.createdAt.isoText)),
    ("updatedAt", some (.text e.updatedAt.isoText)),
    ("expiresAt", e.expiresAt.map fun m => .text m.isoText)]

def wire (e : LogEntry) : Value := .object e.wireFields

end Conveyor.LogEntry
