import Conveyor.Condition
import Conveyor.Destination.Call
import Conveyor.Mapping.Resolve
import Conveyor.Run.Template

/-!
# What a step does

From its settings and the scope a step works out what it does: it has an output at once, it makes
a call, or it pauses.
-/

namespace Conveyor

inductive Action where
  /-- The output, and for a condition whether it holds. -/
  | finish (output : Value) (holds : Bool)
  /-- Make a call; `sent` is what the log shows of it. -/
  | send (ref : DestinationRef) (request : Request) (sent : Value)
  | pause (seconds : Binary64) (output : Value)

namespace Step

/-- The fields of an input that has to be an object. -/
def inputFields (s : Step) (input : Value) : Except Failure Fields :=
  match input.fields? with
  | some fs => .ok fs
  | none => .error (.step (.needsObject s.order s.kind.name input.kindName))

/-- The step's call to its destination. -/
def sendTo (s : Step) (request : Request) (sent : Value) : Except Failure Action :=
  match s.destination? with
  | some ref => .ok (.send ref request sent)
  | none => .error (.validation (.noDestination s.order))

/-- The body of a REST call: the filled template, or the mapped input, or the input itself. -/
def restBody (s : Step) (scope : Scope) (input : Value) : Except Failure Value :=
  match s.rest.bodyTemplate.filter fun t => !t.isEmpty with
  | some t =>
    match Json.read? t with
    | some template => Template.render (scope.templateContext input) template
    | none => .error (.validation .invalidTemplate)
  | none =>
    if s.fieldMappings.isEmpty then .ok input
    else do
      let resolved ← Mapping.resolve (← s.inputFields input) s.fieldMappings
      pure (.object (Mapping.payload resolved))

def restAction (s : Step) (scope : Scope) (input : Value) : Except Failure Action := do
  let body ← s.restBody scope input
  s.sendTo (.rest { method := s.rest.method.map (·.name), path := s.rest.path, body }) body

/-- The statement of a query step for the mapped input. -/
def statement (s : Step) (fields : List Mapping.ResolvedField) : Except Failure Statement :=
  if s.kind = .sapQuery then
    Statement.synthesize ⟨.hana, s.sap.table.getD "", s.sap.schema⟩ fields
      (some (s.sap.queryType.getD .insert)) s.sap.primaryKey none
  else
    Statement.synthesize ⟨s.database.dialect.getD .ansi, s.database.table.getD "", none⟩ fields
      (some (s.database.queryType.getD .insert)) s.database.primaryKey s.database.extendedQuery

def queryAction (s : Step) (input : Value) : Except Failure Action := do
  let fields ← Mapping.resolve (← s.inputFields input) s.fieldMappings
  let statement ← s.statement fields
  s.sendTo (.statement statement) (.object (Mapping.payload fields))

/-- Rename the fields of `output`: each new name takes the value that its path has in `record`; a
path without a value is passed over. -/
def rename (record output : Fields) : Keyed String → Except Fault Fields
  | [] => .ok output
  | (name, path) :: rest => do
    match ← Mapping.lookup record path with
    | some v => rename record ((output.erase path).put name v) rest
    | none => rename record output rest

def transformAction (s : Step) (input : Value) : Except Failure Action := do
  let record ← s.inputFields input
  let output ← (rename record record (s.renames.getD [])).mapError Failure.fault
  pure (.finish (.object output) true)

def conditionAction (s : Step) (input : Value) : Except Failure Action := do
  let holds ← Condition.evaluate input (.object (s.branch.expression.getD []))
  pure (.finish input holds)

/-- What the step does. -/
def action (s : Step) (scope : Scope) : Except Failure Action := do
  let input ← scope.renderInput s.inputMapping
  match s.kind with
  | .restCall => s.restAction scope input
  | .dbQuery | .sapQuery => s.queryAction input
  | .transform => s.transformAction input
  | .condition => s.conditionAction input
  | .delay => pure (.pause (s.delaySeconds.getD .zero) input)

end Step
end Conveyor
