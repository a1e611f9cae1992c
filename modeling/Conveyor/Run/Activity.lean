import Conveyor.Destination.Call
import Conveyor.Log.Entry
import Conveyor.Run.Backoff

/-!
# Activities

A run as a tree: it is done, or it asks its surroundings for something and goes on with the reply.
What the surroundings are is left open. An activity can be carried out at one go, or be suspended
whenever it has to let others go first.
-/

namespace Conveyor

/-- What a run can ask for. -/
inductive Ask where
  /-- The time. -/
  | now
  /-- An id that has not been used. -/
  | drawId
  /-- Something drawn by chance. -/
  | draw
  /-- Put an entry into the log. -/
  | append (entry : LogEntry)
  /-- Replace the entry of the same id. -/
  | update (entry : LogEntry)
  /-- Take an entry out of the log. -/
  | discard (id : String)
  /-- Have a turn for work that calls nobody, with a limit of seconds. -/
  | turn (limit : Binary64)
  /-- Make a call in a turn of its own, and give it up when the limit of seconds is reached. -/
  | call (limit : Binary64) (ref : DestinationRef) (request : Request)
  /-- Let so many seconds pass; if that is none, let others go first. -/
  | wait (seconds : Binary64)

/-- The type of the reply. A call that is given up has no answer. -/
def Ask.Reply : Ask → Type
  | .now => Moment
  | .drawId => String
  | .draw => Chance
  | .append _ | .update _ | .discard _ | .turn _ | .wait _ => Unit
  | .call .. => Option Answer

inductive Activity (α : Type) where
  | done (a : α)
  | ask (a : Ask) (next : a.Reply → Activity α)

/-- Where an activity stops to let others go first. -/
inductive Halt (α : Type) where
  | ended (a : α)
  | turn (limit : Binary64) (next : Activity α)
  | call (limit : Binary64) (ref : DestinationRef) (request : Request)
      (next : Option Answer → Activity α)
  | wait (seconds : Binary64) (next : Activity α)

namespace Activity

variable {α β σ : Type}

def bind : Activity α → (α → Activity β) → Activity β
  | .done a, f => f a
  | .ask a next, f => .ask a fun r => bind (next r) f

instance : Monad Activity where
  pure := .done
  bind := bind

/-- Ask and return the reply. -/
def request (a : Ask) : Activity a.Reply := .ask a .done

def now : Activity Moment := request .now

def drawId : Activity String := request .drawId

def draw : Activity Chance := request .draw

def append (e : LogEntry) : Activity Unit := request (.append e)

def update (e : LogEntry) : Activity Unit := request (.update e)

def discard (id : String) : Activity Unit := request (.discard id)

def turn (limit : Binary64) : Activity Unit := request (.turn limit)

def call (limit : Binary64) (ref : DestinationRef) (r : Request) : Activity (Option Answer) :=
  request (.call limit ref r)

def wait (seconds : Binary64) : Activity Unit := request (.wait seconds)

/-- Surroundings with a state of their own that reply at once. -/
abbrev Surroundings (σ : Type) := (a : Ask) → σ → a.Reply × σ

/-- Carry out an activity at one go. -/
def carryOut (s : Surroundings σ) : Activity α → σ → α × σ
  | .done a, st => (a, st)
  | .ask a next, st =>
    let (r, st) := s a st
    carryOut s (next r) st

/-- Carry out an activity until it has to let others go first. -/
def advance (s : Surroundings σ) : Activity α → σ → Halt α × σ
  | .done a, st => (.ended a, st)
  | .ask (.turn limit) next, st => (.turn limit (next ()), st)
  | .ask (.call limit ref request) next, st => (.call limit ref request next, st)
  | .ask (.wait seconds) next, st => (.wait seconds (next ()), st)
  | .ask a next, st =>
    let (r, st) := s a st
    advance s (next r) st

end Activity
end Conveyor
