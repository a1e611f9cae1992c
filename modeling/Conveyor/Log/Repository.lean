import Conveyor.Log.Memory
import Conveyor.Log.Table

/-!
# Log repositories

A log is kept in memory or in a table; both answer the same questions.
-/

namespace Conveyor

inductive LogRepository where
  | memory (l : MemoryLog)
  | table (t : TableLog)

namespace LogRepository

def append (r : LogRepository) (e : LogEntry) : Except Fault LogRepository :=
  match r with
  | .memory l => .ok (.memory (l.append e))
  | .table t => .table <$> t.append e

def update (r : LogRepository) (e : LogEntry) : Except Fault LogRepository :=
  match r with
  | .memory l => .ok (.memory (l.update e))
  | .table t => .table <$> t.update e

def delete (r : LogRepository) (id : String) : LogRepository :=
  match r with
  | .memory l => .memory (l.delete id)
  | .table t => .table (t.delete id)

def get (r : LogRepository) (id : String) : Except Fault (Option LogEntry) :=
  match r with
  | .memory l => .ok (l.get? id)
  | .table t => t.get id

def query (r : LogRepository) (f : LogFilter) (limit offset : Int) : Except Fault LogPage :=
  match r with
  | .memory l => l.query f limit offset
  | .table t => t.query f limit offset

def stats (r : LogRepository) (now : Moment) : Except Fault LogStats :=
  match r with
  | .memory l => l.stats now
  | .table t => t.stats now

def purge (r : LogRepository) (now : Moment) : Except Fault (Nat × LogRepository) :=
  match r with
  | .memory l => (l.purge now).map fun (n, l) => (n, .memory l)
  | .table t => (t.purge now).map fun (n, t) => (n, .table t)

end LogRepository
end Conveyor
