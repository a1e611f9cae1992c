import Conveyor.Destination.Recording
import Conveyor.Destination.Rest

/-!
# Routing calls

Each kind of destination has a backend that takes its calls. Connections to databases are known by
their addresses; a destination without one is refused.
-/

namespace Conveyor

inductive Backend where
  | rest | recording | sql
  deriving DecidableEq, Repr

/-- The backends of the kinds of destination. -/
abbrev Routes := List (DestinationKind × Backend)

namespace Routes

def backend? (rs : Routes) (kind : DestinationKind) : Option Backend :=
  (rs.find? fun (k, _) => k = kind).map (·.2)

/-- The result of a call that no backend takes. -/
def unrouted (kind : DestinationKind) : CallResult :=
  CallResult.refused s!"no adapter for '{kind.name}' destinations"

end Routes

/-- Addresses of databases by destination. -/
abbrev SqlConnections := Keyed String

namespace SqlConnections

/-- Why a database refuses a call without connecting; none if it would connect. -/
def refusal? (cs : SqlConnections) (ref : DestinationRef) : Request → Option CallResult
  | .rest _ => some (CallResult.refused "SQL destinations take statements")
  | .statement _ =>
    if cs.has ref.text then none
    else some (CallResult.refused s!"no connection configured for {ref.text}")

end SqlConnections

/-- Where calls go. -/
structure Routing where
  routes : Routes
  rest : RestConnections := []
  sql : SqlConnections := []

/-- What a call comes to before anything leaves the program. -/
inductive Dispatched where
  | answered (a : Answer)
  | recorded
  | http (r : HttpRequest)
  | statement (url : String) (s : Statement)

namespace Routing

/-- Decide what to do with a call. -/
def dispatch (r : Routing) (ref : DestinationRef) (request : Request) : Dispatched :=
  match r.routes.backend? ref.kind with
  | none => .answered (.result (Routes.unrouted ref.kind))
  | some .recording => .recorded
  | some .rest =>
    match r.rest.prepare ref request with
    | .error answer => .answered answer
    | .ok http => .http http
  | some .sql =>
    match r.sql.refusal? ref request, request with
    | some result, _ => .answered (.result result)
    | none, .statement s => .statement ((r.sql.get? ref.text).getD "") s
    | none, .rest _ => .answered (.result (CallResult.refused "SQL destinations take statements"))

/-- The answer to a call when nothing outside the program can be reached. -/
def answerOffline (r : Routing) (ref : DestinationRef) (request : Request) : Answer :=
  match r.dispatch ref request with
  | .answered answer => answer
  | .recorded => .result (Recording.success .null (Recording.Request.isRest request))
  | .http _ | .statement .. => .result (CallResult.refused "All connection attempts failed")

/-- The destinations as runs call them when nothing outside the program can be reached. -/
def offline (r : Routing) : Adapter Answer Unit where
  call ref request _ := ((none, r.answerOffline ref request), ())
  fetch answer _ := (answer, ())

end Routing
end Conveyor
