import Conveyor.Condition
import Conveyor.Json.Reader
import Conveyor.Mapping.Transform
import Conveyor.Pipeline.Plan
import Conveyor.Statement

/-!
# Validation

Everything that is wrong with a workflow, in the order of its parts, so that an author sees all
problems at once. A pipeline is found free of issues only if every step of its plan is.

A condition can be malformed in a way that cannot even be described; that is a fault.
-/

namespace Conveyor

namespace Validation

/-- An issue if something is wrong. -/
def issueIf (wrong : Bool) (place : Place) (cause : IssueCause) : List Issue :=
  if wrong then [⟨place, cause⟩] else []

/-- The position of the first element that satisfies a predicate. -/
def position? {α : Type} (p : α → Bool) (items : List α) : Option Nat :=
  if items.any p then some (items.findIdx p) else none

/-- What is wrong with a mapping, given those before it. -/
def mappingIssues (here : Place) (before : List FieldMapping) (m : FieldMapping) : List Issue :=
  (match position? (·.destinationColumn = m.destinationColumn) before with
    | some first =>
      [⟨here ++ [.field "destinationColumn"], .duplicateColumn m.destinationColumn first⟩]
    | none => [])
  ++ issueIf (before.any (·.sourceField = m.sourceField)) (here ++ [.field "sourceField"])
    (.duplicateSource m.sourceField)
  ++ match m.transformType with
    | some name =>
      issueIf (!name.isEmpty && (Mapping.Transform.ofName? name).isNone)
        (here ++ [.field "transformType"]) (.unknownTransform name)
    | none => []

/-- What is wrong with a list of mappings: columns and source fields mapped twice, transforms that
do not exist. -/
def mappingsIssues (place : Place) (ms : List FieldMapping) : List Issue :=
  ms.zipIdx.flatMap fun (m, i) =>
    mappingIssues (place ++ [.field "fieldMappings", .index i]) (ms.take i) m

/-- A query as far as it is known before there is a record. -/
structure QueryShape where
  operation : Operation
  dialect : Dialect
  table : Option String
  primaryKey : Option String
  /-- A query of the author's own, which a selection may use instead of a table. -/
  customQuery : Option String := none
  /-- The schema, if there has to be one. -/
  schema : Option (Option String) := none
  mappings : List FieldMapping

/-- What is wrong with a query. -/
def queryIssues (place : Place) (q : QueryShape) : List Issue :=
  (match Statement.operationIssue? q.operation q.dialect q.primaryKey with
    | some cause => [⟨place ++ [.field "queryType"], cause⟩]
    | none => [])
  ++ issueIf (!Statement.given q.table
      && !(q.operation = .select && Statement.given q.customQuery))
    (place ++ [.field "table"]) .tableRequired
  ++ issueIf (match q.schema with
      | some s => !Statement.given s
      | none => false) (place ++ [.field "schema"]) .schemaRequired
  ++ issueIf (q.operation ≠ .select && q.mappings.isEmpty) (place ++ [.field "fieldMappings"])
    .mappingsRequired
  ++ match q.primaryKey with
    | some key =>
      issueIf (Statement.isKeyed q.operation && !key.isEmpty
          && !q.mappings.any (·.destinationColumn = key))
        (place ++ [.field "primaryKey"]) (.keyUnmapped key)
    | none => []

def restIssues (place : Place) (s : Step) : List Issue :=
  issueIf s.rest.destinationId.isNone (place ++ [.field "restDestinationId"])
    (.destinationOfStep "REST")
  ++ match s.rest.bodyTemplate with
    | some t =>
      issueIf (!t.isEmpty && (Json.read? t).isNone) (place ++ [.field "restBodyTemplate"])
        .invalidTemplate
    | none => []

def databaseIssues (place : Place) (s : Step) : List Issue :=
  issueIf s.database.configId.isNone (place ++ [.field "databaseConfigId"])
    (.destinationOfStep "database")
  ++ queryIssues place
    { operation := s.database.queryType.getD .insert
      dialect := s.database.dialect.getD .ansi
      table := s.database.table
      primaryKey := s.database.primaryKey
      customQuery := s.database.extendedQuery
      mappings := s.fieldMappings }

def sapIssues (place : Place) (s : Step) : List Issue :=
  issueIf s.sap.destinationId.isNone (place ++ [.field "sapDestinationId"])
    (.destinationOfStep "SAP")
  ++ queryIssues place
    { operation := s.sap.queryType.getD .insert
      dialect := .hana
      table := s.sap.table
      primaryKey := s.sap.primaryKey
      schema := some s.sap.schema
      mappings := s.fieldMappings }

/-- Whether there is no step of a number among so many steps. -/
def isDangling (count : Nat) (target : Int) : Bool := !(1 ≤ target && target ≤ count)

/-- A branch to a step that does not exist. -/
def branchIssues (place : Place) (count : Nat) (target : Option Int) : List Issue :=
  match target with
  | some n => issueIf (isDangling count n) place (.danglingBranch n count)
  | none => []

def conditionIssues (place : Place) (count : Nat) (b : BranchSettings) :
    Except Fault (List Issue) := do
  let problems ← Condition.problems (match b.expression with
    | some fs => .object fs
    | none => .null)
  pure (problems.map (fun p =>
      ⟨place ++ .field "conditionExpression" :: p.place, .condition p.message⟩)
    ++ branchIssues (place ++ [.field "onTrueStep"]) count b.onTrue
    ++ branchIssues (place ++ [.field "onFalseStep"]) count b.onFalse)

/-- What is wrong with the settings that the kind of a step uses. -/
def kindIssues (place : Place) (count : Nat) (s : Step) : Except Fault (List Issue) :=
  match s.kind with
  | .restCall => .ok (restIssues place s)
  | .dbQuery => .ok (databaseIssues place s)
  | .sapQuery => .ok (sapIssues place s)
  | .transform =>
    .ok (issueIf ((s.renames.getD []).isEmpty) (place ++ [.field "transformExpression"])
      .renamesRequired)
  | .condition => conditionIssues place count s.branch
  | .delay =>
    .ok (issueIf (match s.delaySeconds with
      | some d => d.lt .zero
      | none => true) (place ++ [.field "delaySeconds"]) .negativeSetting)

/-- What is wrong with a step of a pipeline with so many steps of its own. -/
def stepIssues (place : Place) (count : Nat) (s : Step) : Except Fault (List Issue) := do
  let own ← kindIssues place count s
  pure (issueIf (s.maxRetries < 0) (place ++ [.field "maxRetries"]) .negativeSetting
    ++ issueIf (s.timeout.le .zero) (place ++ [.field "timeoutSeconds"]) .nonPositiveSetting
    ++ mappingsIssues place s.fieldMappings
    ++ own)

/-- What is wrong with each of several steps. -/
def stepsIssues (place : Place) (count : Nat) (steps : List Step) : Except Fault (List Issue) := do
  let issues ← steps.zipIdx.mapM fun (s, i) =>
    stepIssues (place ++ [.field "steps", .index i]) count s
  pure issues.flatten

/-- The number that a pipeline of one kind of source must not have. -/
def otherSourceId (p : Pipeline) : Option Int :=
  match p.sourceKind with
  | .senderApp => p.mqttSourceId
  | .mqttSource => p.applicationId

def sourceIssues (place : Place) (p : Pipeline) : List Issue :=
  issueIf (p.sourceId.isNone || (otherSourceId p).isSome) (place ++ [.field "sourceType"])
    (.sourceIdentity p.sourceKind.name)

/-- The kinds of destination for which a number is set. -/
def setDestinations (p : Pipeline) : List DestinationKind :=
  DestinationKind.all.filter fun k => (p.destinationId k).isSome

def destinationIssues (place : Place) (p : Pipeline) : List Issue :=
  let place := place ++ [.field "destinationType"]
  match p.destinationKind with
  | none => issueIf (!(setDestinations p).isEmpty || !p.isSequential) place .destinationRequired
  | some k => issueIf (setDestinations p ≠ [k]) place (.destinationIdentity k.name)

def orderIssues (place : Place) (steps : List Step) : List Issue :=
  let orders := steps.map (·.order)
  issueIf (orders ≠ (List.range steps.length).map fun i : Nat => (i : Int) + 1)
    (place ++ [.field "steps"]) (.stepOrder orders)

/-- What is wrong with the destination step of a pipeline. A REST destination is judged by its
mappings alone. -/
def finalIssues (place : Place) (count : Nat) (p : Pipeline) : Except Fault (List Issue) :=
  match p.destinationStep? (count + 1) with
  | some s =>
    if p.destinationKind = some .rest then .ok (mappingsIssues place p.delivery.fieldMappings)
    else stepIssues place count s
  | none => .ok []

/-- What is wrong with a pipeline. -/
def pipelineIssues (place : Place) (p : Pipeline) : Except Fault (List Issue) := do
  let steps := p.sortedSteps
  let ofSteps ← stepsIssues place steps.length steps
  let final ← finalIssues place steps.length p
  pure (sourceIssues place p ++ destinationIssues place p ++ orderIssues place steps
    ++ ofSteps ++ final)

def retentionIssues (place : Place) (h : Header) : List Issue :=
  issueIf (h.retentionHours.le .zero) (place ++ [.field "retentionHours"]) .retention

/-- What is wrong with the pipelines of a workflow, whose ids must differ. -/
def pipelinesIssues (ps : List Pipeline) : Except Fault (List Issue) := do
  let issues ← ps.zipIdx.mapM fun (p, i) => do
    let place : Place := [.field "pipelines", .index i]
    let own ← pipelineIssues place p
    pure (issueIf ((ps.take i).any (·.id = p.id)) (place ++ [.field "id"]) (.duplicatePipeline p.id)
      ++ own)
  pure issues.flatten

end Validation

/-- Everything that is wrong with a workflow. -/
def Workflow.issues (w : Workflow) : Except Fault (List Issue) := do
  let ofPipelines ← Validation.pipelinesIssues w.pipelines
  pure (Validation.retentionIssues [] w.header ++ ofPipelines)

end Conveyor
