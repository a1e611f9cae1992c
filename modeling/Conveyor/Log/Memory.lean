import Conveyor.Log.Entry
import Conveyor.Moment.Duration
import Conveyor.Position

/-!
# The log in memory

Entries by id, in the order in which they were first put in.
-/

namespace Conveyor

/-- Entries under their ids. -/
structure MemoryLog where
  entries : Keyed LogEntry := []

namespace MemoryLog

def values (l : MemoryLog) : List LogEntry := l.entries.map (·.2)

def append (l : MemoryLog) (e : LogEntry) : MemoryLog := ⟨l.entries.put e.id e⟩

/-- Replace the entry of the same id; an entry that is not there stays away. -/
def update (l : MemoryLog) (e : LogEntry) : MemoryLog :=
  if l.entries.has e.id then l.append e else l

def delete (l : MemoryLog) (id : String) : MemoryLog := ⟨l.entries.erase id⟩

def get? (l : MemoryLog) (id : String) : Option LogEntry := l.entries.get? id

/-- Whether an entry fulfils all criteria. -/
def admits (f : LogFilter) (e : LogEntry) : Except Fault Bool := do
  if !f.admitsTexts e then pure false
  else if ← (match f.dateFrom with
      | some t => e.createdAt.before t
      | none => .ok false) then pure false
  else match f.dateTo with
    | some t => do pure (!(← t.before e.createdAt))
    | none => pure true

/-- Whether moments of both kinds occur, so that the entries have no order. -/
def isMixed (es : List LogEntry) : Bool :=
  es.any (·.createdAt.offset.isSome) && es.any (·.createdAt.offset.isNone)

/-- The entries with the newest first; of entries of one moment, the first stays first. -/
def newestFirst (es : List LogEntry) : List LogEntry :=
  es.mergeSort fun a b => b.createdAt.instant ≤ a.createdAt.instant

def query (l : MemoryLog) (f : LogFilter) (limit offset : Int) : Except Fault LogPage := do
  let found ← l.values.filterM (admits f)
  if isMixed found then .error .wrongKind
  else
    pure
      { items := Position.slice (newestFirst found) offset (offset + limit)
        total := found.length
        limit := limit
        offset := offset }

/-- How many entries are not older than a moment. -/
def countSince (es : List LogEntry) (t : Moment) : Except Fault Nat := do
  let recent ← es.filterM fun e => do pure (!(← e.createdAt.before t))
  pure recent.length

def countStatus (es : List LogEntry) (s : LogStatus) : Nat := es.countP fun e => e.status = s

def stats (l : MemoryLog) (now : Moment) : Except Fault LogStats := do
  let es := l.values
  let today ← countSince es now.startOfDay
  let lastDay ← if es.isEmpty then pure 0 else do
    countSince es (← now.plus (-Moment.dayMicros))
  pure
    { total := es.length
      success := countStatus es .success
      failed := countStatus es .failed
      retry := countStatus es .retry
      dropped := countStatus es .dropped
      today := today
      lastDay := lastDay
      bySource := LogStats.tally (es.map (·.source))
      byDestination := LogStats.tally
        ((es.filterMap (·.destination)).filter fun d => !d.isEmpty) }

def isExpired (now : Moment) (e : LogEntry) : Except Fault Bool :=
  match e.expiresAt with
  | some t => do pure (!(← now.before t))
  | none => .ok false

/-- The log without the entries whose time is over, and how many these are. -/
def purge (l : MemoryLog) (now : Moment) : Except Fault (Nat × MemoryLog) := do
  let expired ← l.values.filterM (isExpired now)
  pure (expired.length, ⟨expired.foldl (fun m e => m.erase e.id) l.entries⟩)

end MemoryLog
end Conveyor
