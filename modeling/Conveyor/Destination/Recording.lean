import Conveyor.Run.World

/-!
# Recording destinations

Destinations that send nothing: every call is recorded and answered from a script. A destination
may have answers prepared for its next calls; after these, it fails as often as the script says and
then succeeds.
-/

namespace Conveyor

/-- A prepared answer, and the seconds until it comes. -/
structure PreparedAnswer where
  seconds : Option Binary64 := none
  answer : Answer

structure Recording where
  /-- The calls made so far. -/
  calls : List (DestinationRef × Request) := []
  prepared : Keyed (List PreparedAnswer) := []
  /-- How many calls to each destination are still to fail. -/
  failures : Keyed Int := []
  /-- The data of successful calls. -/
  responses : Keyed Value := []
  /-- The seconds that unprepared answers take. -/
  delay : Option Binary64 := none

namespace Recording

/-- A call whose answer has not been fetched. -/
inductive Pending where
  | prepared (a : Answer)
  | unprepared (ref : DestinationRef) (isRest : Bool)

def Request.isRest : Request → Bool
  | .rest _ => true
  | .statement _ => false

/-- Record a call, and take the next prepared answer if there is one. -/
def call (ref : DestinationRef) (request : Request) (r : Recording) :
    (Option Binary64 × Pending) × Recording :=
  let r := { r with calls := r.calls ++ [(ref, request)] }
  match (r.prepared.get? ref.text).getD [] with
  | a :: rest =>
    ((a.seconds, .prepared a.answer), { r with prepared := r.prepared.put ref.text rest })
  | [] => ((r.delay, .unprepared ref (Request.isRest request)), r)

/-- The answer of a call that fails because the script says so. -/
def scriptedFailure (key : String) (isRest : Bool) : CallResult where
  success := false
  httpStatus := if isRest then some 500 else none
  error := some s!"scripted failure for {key}"

/-- The answer of a call that succeeds. -/
def success (data : Value) (isRest : Bool) : CallResult where
  success := true
  rowsAffected := if isRest then none else some 1
  httpStatus := if isRest then some 200 else none
  data := data

def fetch (p : Pending) (r : Recording) : Answer × Recording :=
  match p with
  | .prepared a => (a, r)
  | .unprepared ref isRest =>
    let key := ref.text
    let left := (r.failures.get? key).getD 0
    if 0 < left then
      (.result (scriptedFailure key isRest), { r with failures := r.failures.put key (left - 1) })
    else (.result (success ((r.responses.get? key).getD .null) isRest), r)

/-- The destinations as runs call them. -/
def adapter : Adapter Pending Recording := ⟨call, fetch⟩

end Recording
end Conveyor
