import Conveyor.Json.Printer
import Conveyor.Log.Entry
import Conveyor.Moment.Duration
import Conveyor.Moment.Pattern

/-!
# The log as a table

Entries as rows of a table whose columns are texts and integers. Moments are texts of a fixed width
in universal time, so that their order as texts is their order in time.
-/

namespace Conveyor

/-- A moment as a column holds it. -/
def Moment.columnText (m : Moment) : Except Fault String :=
  let m := m.assumeUniversal.toUniversal
  if Moment.inRange m.wall then .ok (m.format "%Y-%m-%dT%H:%M:%S.%f+00:00") else .error .overflow

/-- The moment of a column. -/
def Moment.ofColumnText (s : String) : Except Fault Moment :=
  match Moment.readIso? s.toList with
  | some m => .ok m
  | none => .error .badValue

/-- The least integer that a column cannot hold. -/
def integerColumnLimit : Int := 9223372036854775808

def fitsColumn (n : Int) : Bool := -integerColumnLimit ≤ n && n < integerColumnLimit

/-- An entry with its data as JSON texts and its moments as texts. -/
structure LogRow where
  id : String
  dataId : String
  source : String
  destination : Option String
  host : Option String
  dataSent : String
  dataReceived : String
  message : Option String
  status : LogStatus
  retryCount : Nat
  workflowId : Option String
  pipelineId : Option String
  createdAt : String
  updatedAt : String
  expiresAt : Option String

namespace LogRow

/-- A column that may be empty. -/
def optionalColumn {α β : Type} (f : α → Except Fault β) : Option α → Except Fault (Option β)
  | some a => some <$> f a
  | none => .ok none

def ofEntry (e : LogEntry) : Except Fault LogRow := do
  let createdAt ← e.createdAt.columnText
  let updatedAt ← e.updatedAt.columnText
  let expiresAt ← optionalColumn Moment.columnText e.expiresAt
  if !fitsColumn e.retryCount then .error .overflow
  else
    pure
      { id := e.id, dataId := e.dataId, source := e.source, destination := e.destination
        host := e.host, dataSent := Json.write .plain e.dataSent
        dataReceived := Json.write .plain e.dataReceived, message := e.message
        status := e.status, retryCount := e.retryCount, workflowId := e.workflowId
        pipelineId := e.pipelineId, createdAt, updatedAt, expiresAt }

def dataOf (s : String) : Except Fault Value :=
  match Json.read? s with
  | some v => .ok v
  | none => .error .badValue

def toEntry (r : LogRow) : Except Fault LogEntry := do
  let dataSent ← dataOf r.dataSent
  let dataReceived ← dataOf r.dataReceived
  let createdAt ← Moment.ofColumnText r.createdAt
  let updatedAt ← Moment.ofColumnText r.updatedAt
  let expiresAt ← optionalColumn Moment.ofColumnText r.expiresAt
  pure
      { id := r.id, dataId := r.dataId, source := r.source, destination := r.destination
        host := r.host, dataSent, dataReceived, message := r.message, status := r.status
        retryCount := r.retryCount, workflowId := r.workflowId, pipelineId := r.pipelineId
        createdAt, updatedAt, expiresAt }

end LogRow

/-- Rows in the order in which they were inserted; no two have the same id. -/
structure TableLog where
  rows : List LogRow := []

namespace TableLog

def find? (t : TableLog) (id : String) : Option LogRow := t.rows.find? (·.id = id)

def append (t : TableLog) (e : LogEntry) : Except Fault TableLog := do
  let row ← LogRow.ofEntry e
  if (t.find? e.id).isSome then .error .integrity else pure ⟨t.rows ++ [row]⟩

def update (t : TableLog) (e : LogEntry) : Except Fault TableLog := do
  let row ← LogRow.ofEntry e
  pure ⟨t.rows.map fun r => if r.id = e.id then row else r⟩

def delete (t : TableLog) (id : String) : TableLog := ⟨t.rows.filter fun r => r.id ≠ id⟩

def get (t : TableLog) (id : String) : Except Fault (Option LogEntry) :=
  match t.find? id with
  | some r => some <$> r.toEntry
  | none => .ok none

/-- Whether a row fulfils a filter whose dates are columns already. -/
def admits (f : LogFilter) (dateFrom dateTo : Option String) (r : LogRow) : Bool :=
  (match f.status with
    | some s => r.status = s
    | none => true)
  && LogFilter.admitsText f.source (some r.source)
  && LogFilter.admitsText f.destination r.destination
  && (match dateFrom with
    | some d => d ≤ r.createdAt
    | none => true)
  && match dateTo with
    | some d => r.createdAt ≤ d
    | none => true

/-- The rows with the newest first; of rows of one moment, the one inserted last. -/
def newestFirst (rows : List LogRow) : List LogRow :=
  rows.reverse.mergeSort fun a b => b.createdAt ≤ a.createdAt

/-- The rows from an offset on, at most as many as the limit, which is no limit if negative. -/
def page (rows : List LogRow) (limit offset : Int) : List LogRow :=
  let rest := rows.drop offset.toNat
  if limit < 0 then rest else rest.take limit.toNat

def query (t : TableLog) (f : LogFilter) (limit offset : Int) : Except Fault LogPage := do
  let dateFrom ← LogRow.optionalColumn Moment.columnText f.dateFrom
  let dateTo ← LogRow.optionalColumn Moment.columnText f.dateTo
  let found := t.rows.filter (admits f dateFrom dateTo)
  if !fitsColumn limit || !fitsColumn offset then .error .overflow
  else do
    let items ← (page (newestFirst found) limit offset).mapM LogRow.toEntry
    pure { items, total := found.length, limit, offset }

def countStatus (t : TableLog) (s : LogStatus) : Nat := t.rows.countP fun r => r.status = s

/-- How many rows are not older than a column. -/
def countSince (t : TableLog) (since : String) : Nat := t.rows.countP fun r => since ≤ r.createdAt

def stats (t : TableLog) (now : Moment) : Except Fault LogStats := do
  let today ← now.startOfDay.columnText
  let lastDay ← (← now.plus (-Moment.dayMicros)).columnText
  pure
    { total := t.rows.length
      success := t.countStatus .success
      failed := t.countStatus .failed
      retry := t.countStatus .retry
      dropped := t.countStatus .dropped
      today := t.countSince today
      lastDay := t.countSince lastDay
      bySource := LogStats.tally (t.rows.map (·.source))
      byDestination := LogStats.tally (t.rows.filterMap (·.destination)) }

/-- The table without the rows whose time is over, and how many these are. -/
def purge (t : TableLog) (now : Moment) : Except Fault (Nat × TableLog) := do
  let now ← now.columnText
  let isExpired (r : LogRow) : Bool := match r.expiresAt with
    | some d => d ≤ now
    | none => false
  pure (t.rows.countP isExpired, ⟨t.rows.filter fun r => !isExpired r⟩)

end TableLog
end Conveyor
