import Conveyor.Pipeline.Basic
import Conveyor.Text.Search

/-!
# Plans

The steps that a run of a pipeline takes: the pipeline's own in the order of their numbers, and
then one step that stands for the pipeline's destination.
-/

namespace Conveyor.Pipeline

/-- What the destination step has in common for all kinds of destination. -/
def destinationStepOf (p : Pipeline) (kind : StepKind) (destination : DestinationKind)
    (order : Int) : Step where
  order := order
  name := destination.name ++ " destination"
  kind := kind
  onError := p.delivery.onError
  maxRetries := p.delivery.maxRetries
  timeout := p.delivery.timeout
  fieldMappings := p.delivery.fieldMappings

/-- The pipeline's destination as a step. -/
def destinationStep? (p : Pipeline) (order : Int) : Option Step :=
  p.destination?.map fun ref =>
    match ref.kind with
    | .rest =>
      { p.destinationStepOf .restCall .rest order with
        rest :=
          { destinationId := some ref.id
            method := p.delivery.restMethod
            path := p.delivery.restPath } }
    | .sap =>
      { p.destinationStepOf .sapQuery .sap order with
        sap :=
          { destinationId := some ref.id
            queryType := some p.operation
            schema := p.tableSchema
            table := p.tableName
            primaryKey := p.primaryKeyColumn } }
    | .database =>
      { p.destinationStepOf .dbQuery .database order with
        database :=
          { configId := some ref.id
            queryType := some p.operation
            table := p.tableName
            primaryKey := p.primaryKeyColumn
            extendedQuery := p.delivery.customQuery
            dialect := p.delivery.dialect } }

/-- The pipeline's own steps by number; steps of one number stay in the order of the list. -/
def sortedSteps (p : Pipeline) : List Step := p.steps.mergeSort fun a b => a.order ≤ b.order

/-- All steps of a run. -/
def plan (p : Pipeline) : List Step :=
  let steps := p.sortedSteps
  steps ++ (p.destinationStep? (steps.length + 1)).toList

/-- A list without repetitions; the first of equal ones stays. -/
def distinct (names : List String) : List String :=
  names.foldl (fun seen n => if seen.contains n then seen else seen ++ [n]) []

/-- The pipeline's destination for the log, or those of its steps if it has none of its own. -/
def destinationLabel (p : Pipeline) : Option String :=
  match p.destination? with
  | some ref => some ref.text
  | none =>
    match distinct (p.steps.filterMap fun s => s.destination?.map DestinationRef.text) with
    | [] => none
    | refs => some (Text.joinWith "," refs)

end Conveyor.Pipeline
