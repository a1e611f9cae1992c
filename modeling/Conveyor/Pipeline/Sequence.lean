import Conveyor.Pipeline.Reading
import Conveyor.Pipeline.Wire
import Conveyor.Position
import Conveyor.Value.Order
import Conveyor.Failure

/-!
# Step sequences

The list of steps as an author edits it. Every edit ends by numbering the steps from one on, and
branch targets are rewritten to go on naming the step that they named before; a target whose step
is gone is cleared.

Positions may be negative, and then count from the end.
-/

namespace Conveyor

/-- Two steps with the same settings. -/
def Step.same (a b : Step) : Bool := a.wire.same b.wire

namespace StepKind

/-- What the author reads. -/
def label : StepKind → String
  | .restCall => "REST Call"
  | .dbQuery => "DB Query"
  | .sapQuery => "SAP Query"
  | .transform => "Transform"
  | .condition => "Condition"
  | .delay => "Delay"

/-- The settings that a new step of this kind starts with. -/
def startingSettings : StepKind → Fields
  | .restCall => [("rest_method", .text "POST")]
  | .dbQuery => [("db_query_type", .text "insert")]
  | .sapQuery => [("sap_query_type", .text "insert")]
  | .delay => [("delay_seconds", .int 5)]
  | _ => []

end StepKind

/-- A new step of a kind. What the author gives takes the place of the settings it starts with. -/
def Step.draft (kind : StepKind) (order : Nat) (settings : Fields) : Checked Step :=
  let name := s!"{kind.label} {order}"
  Step.read (Keyed.merge (Keyed.merge
    [("step_order", .int order), ("step_name", .text name), ("step_type", .text kind.name)]
    kind.startingSettings) settings)

/-- Steps in the order in which they are shown. -/
structure StepSequence where
  steps : List Step := []

namespace StepSequence

/-- A step and the number that it had before the edit; none for a step that is new. -/
abbrev Numbered := Step × Option Int

def orders (s : StepSequence) : List Int := s.steps.map (·.order)

def length (s : StepSequence) : Nat := s.steps.length

/-- Whether the steps are numbered from one on. -/
def isContiguous (s : StepSequence) : Bool :=
  s.orders = (List.range s.length).map fun i : Nat => (i : Int) + 1

def same (s t : StepSequence) : Bool :=
  s.length = t.length && (List.zipWith Step.same s.steps t.steps).all id

/-- The new number of the step that had a number before; the last such step if there are several. -/
def renumbered? (edited : List Numbered) (target : Int) : Option Int :=
  (edited.zipIdx.reverse.find? fun ((_, old), _) => old = some target).map fun (_, i) => (i : Int) + 1

/-- A step under its new number, with its branch targets renumbered. -/
def commitStep (edited : List Numbered) (step : Step) (i : Nat) : Step :=
  let branch := if step.kind = .condition then
      { step.branch with
        onTrue := step.branch.onTrue.bind (renumbered? edited)
        onFalse := step.branch.onFalse.bind (renumbered? edited) }
    else step.branch
  { step with order := (i : Int) + 1, branch }

/-- Number the steps from one on. -/
def commit (edited : List Numbered) : StepSequence where
  steps := edited.zipIdx.map fun ((step, _), i) => commitStep edited step i

/-- The steps with the numbers they have. -/
def numbered (s : StepSequence) : List Numbered := s.steps.map fun t => (t, some t.order)

def element? (s : StepSequence) (i : Int) : Except Fault Nat :=
  match Position.element? s.length i with
  | some i => .ok i
  | none => .error .badIndex

def get (s : StepSequence) (i : Int) : Except Fault Step := do
  match s.steps[← s.element? i]? with
  | some step => pure step
  | none => .error .badIndex

/-- Append a step that is new. -/
def append (s : StepSequence) (step : Step) : StepSequence := commit (s.numbered ++ [(step, none)])

def insert (s : StepSequence) (i : Int) (step : Step) : StepSequence :=
  commit (s.numbered.insertIdx (Position.gap s.length i) (step, none))

def remove (s : StepSequence) (i : Int) : Except Fault StepSequence := do
  pure (commit (s.numbered.eraseIdx (← s.element? i)))

/-- Take a step out and put it where it then is at `to`. -/
def move (s : StepSequence) (source target : Int) : Except Fault StepSequence := do
  let i ← s.element? source
  match s.numbered[i]? with
  | some step =>
    let rest := s.numbered.eraseIdx i
    pure (commit (rest.insertIdx (Position.gap rest.length target) step))
  | none => .error .badIndex

/-- Put another step in the place of one; branches to the old one then lead to the new one. -/
def replace (s : StepSequence) (i : Int) (step : Step) : Except Fault StepSequence := do
  let i ← s.element? i
  pure (commit (s.numbered.modify i fun (_, old) => (step, old)))

/-- Switch a step off, or on again. -/
def toggle (s : StepSequence) (i : Int) : Except Fault StepSequence := do
  let step ← s.get i
  s.replace i { step with isActive := !step.isActive }

end StepSequence
end Conveyor
