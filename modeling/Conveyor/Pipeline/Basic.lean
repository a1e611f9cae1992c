import Conveyor.Value.Basic
import Conveyor.Moment.Basic
import Conveyor.Binary64.Basic

/-!
# Workflows, pipelines and steps

A workflow is a named set of pipelines. A pipeline takes the records of one source to a destination,
possibly through steps of its own. The settings of a step are grouped by the kind of step that uses
them; a step keeps the settings of the other groups too, so that changing its kind loses nothing.
-/

namespace Conveyor

/-- Where records come from. -/
inductive SourceKind where
  | senderApp | mqttSource
  deriving DecidableEq, Repr

def SourceKind.all : List SourceKind := [.senderApp, .mqttSource]

def SourceKind.name : SourceKind → String
  | .senderApp => "sender_app"
  | .mqttSource => "mqtt_source"

/-- Where records go. -/
inductive DestinationKind where
  | database | rest | sap
  deriving DecidableEq, Repr

def DestinationKind.all : List DestinationKind := [.database, .rest, .sap]

def DestinationKind.name : DestinationKind → String
  | .database => "database"
  | .rest => "rest"
  | .sap => "sap"

/-- What becomes of a mapping whose source field has no value. -/
inductive NullHandling where
  | skip | useDefault | required
  deriving DecidableEq, Repr

def NullHandling.all : List NullHandling := [.skip, .useDefault, .required]

def NullHandling.name : NullHandling → String
  | .skip => "skip"
  | .useDefault => "use_default"
  | .required => "required"

/-- What a statement does. -/
inductive Operation where
  | insert | update | upsert | select | delete
  deriving DecidableEq, Repr

def Operation.all : List Operation := [.insert, .update, .upsert, .select, .delete]

def Operation.name : Operation → String
  | .insert => "insert"
  | .update => "update"
  | .upsert => "upsert"
  | .select => "select"
  | .delete => "delete"

/-- The dialects in which statements are written. -/
inductive Dialect where
  | ansi | mysql | hana
  deriving DecidableEq, Repr

def Dialect.all : List Dialect := [.ansi, .mysql, .hana]

def Dialect.name : Dialect → String
  | .ansi => "ansi"
  | .mysql => "mysql"
  | .hana => "hana"

inductive StepKind where
  | restCall | dbQuery | sapQuery | transform | condition | delay
  deriving DecidableEq, Repr

def StepKind.all : List StepKind := [.restCall, .dbQuery, .sapQuery, .transform, .condition, .delay]

def StepKind.name : StepKind → String
  | .restCall => "rest_call"
  | .dbQuery => "db_query"
  | .sapQuery => "sap_query"
  | .transform => "transform"
  | .condition => "condition"
  | .delay => "delay"

/-- What becomes of a run when a step fails. -/
inductive ErrorPolicy where
  | stop | skip | retry
  deriving DecidableEq, Repr

def ErrorPolicy.all : List ErrorPolicy := [.stop, .skip, .retry]

def ErrorPolicy.name : ErrorPolicy → String
  | .stop => "stop"
  | .skip => "skip"
  | .retry => "retry"

inductive HttpMethod where
  | get | post | put | patch | delete
  deriving DecidableEq, Repr

def HttpMethod.all : List HttpMethod := [.get, .post, .put, .patch, .delete]

def HttpMethod.name : HttpMethod → String
  | .get => "GET"
  | .post => "POST"
  | .put => "PUT"
  | .patch => "PATCH"
  | .delete => "DELETE"

/-- A destination as the adapters know it. -/
structure DestinationRef where
  kind : DestinationKind
  id : Int
  deriving DecidableEq, Repr

def DestinationRef.text (r : DestinationRef) : String := s!"{r.kind.name}:{r.id}"

/-- Takes one source field to one destination column. -/
structure FieldMapping where
  sourceField : String
  destinationColumn : String
  dataType : Option String := none
  transformType : Option String := none
  transformParam : Option String := none
  defaultValue : Value := .null
  nullHandling : NullHandling := .required

/-- The SAP target of a pipeline. -/
structure SapConfig where
  queryType : Operation := .insert
  schema : Option String := none
  table : Option String := none
  primaryKey : Option String := none

/-- The seconds a call may take unless a step says otherwise. -/
def defaultTimeout : Binary64 := .ofInt 30

def defaultRetentionHours : Binary64 := .ofInt 24

/-- What a REST call sends, and where. -/
structure RestSettings where
  destinationId : Option Int := none
  method : Option HttpMethod := none
  path : Option String := none
  bodyTemplate : Option String := none

/-- What a database query does, and to which table. -/
structure DatabaseSettings where
  configId : Option Int := none
  queryType : Option Operation := none
  table : Option String := none
  primaryKey : Option String := none
  extendedQuery : Option String := none
  dialect : Option Dialect := none

/-- What an SAP query does, and to which table. -/
structure SapSettings where
  destinationId : Option Int := none
  queryType : Option Operation := none
  schema : Option String := none
  table : Option String := none
  primaryKey : Option String := none

/-- A condition and the steps to go on with. -/
structure BranchSettings where
  expression : Option Fields := none
  onTrue : Option Int := none
  onFalse : Option Int := none

/-- One unit of work of a pipeline. -/
structure Step where
  order : Int
  name : String
  kind : StepKind
  onError : ErrorPolicy := .stop
  maxRetries : Int := 0
  timeout : Binary64 := defaultTimeout
  isActive : Bool := true
  inputMapping : Option Fields := none
  outputVariable : Option String := none
  fieldMappings : List FieldMapping := []
  rest : RestSettings := {}
  database : DatabaseSettings := {}
  sap : SapSettings := {}
  /-- New names of fields and the paths of the fields they name. -/
  renames : Option (Keyed String) := none
  branch : BranchSettings := {}
  delaySeconds : Option Binary64 := none

namespace Step

/-- The variable that always receives the step's output. -/
def outputName (s : Step) : String := s!"step{s.order}_output"

/-- The destination that the step calls, if its kind calls one and it is set. -/
def destination? (s : Step) : Option DestinationRef :=
  match s.kind with
  | .restCall => s.rest.destinationId.map (⟨.rest, ·⟩)
  | .dbQuery => s.database.configId.map (⟨.database, ·⟩)
  | .sapQuery => s.sap.destinationId.map (⟨.sap, ·⟩)
  | _ => none

end Step

/-- How a pipeline writes to its destination. -/
structure Delivery where
  targetTable : Option String := none
  fieldMappings : List FieldMapping := []
  sapConfig : Option SapConfig := none
  queryType : Option Operation := none
  primaryKey : Option String := none
  customQuery : Option String := none
  dialect : Option Dialect := none
  restMethod : Option HttpMethod := none
  restPath : Option String := none
  isActive : Bool := true
  onError : ErrorPolicy := .stop
  maxRetries : Int := 0
  timeout : Binary64 := defaultTimeout

/-- A source by kind and number, under which records and pipelines meet. -/
structure SourceKey where
  kind : SourceKind
  id : Option Int
  deriving DecidableEq, Repr

/-- The way from one source to one destination. -/
structure Pipeline where
  id : String
  workflowId : Option String := none
  sourceKind : SourceKind
  applicationId : Option Int := none
  mqttSourceId : Option Int := none
  destinationKind : Option DestinationKind := none
  databaseId : Option Int := none
  restId : Option Int := none
  sapId : Option Int := none
  delivery : Delivery := {}
  steps : List Step := []

namespace Pipeline

/-- A pipeline with steps of its own. -/
def isSequential (p : Pipeline) : Bool := !p.steps.isEmpty

/-- The number of the source, taken from the field that its kind names. -/
def sourceId (p : Pipeline) : Option Int :=
  match p.sourceKind with
  | .senderApp => p.applicationId
  | .mqttSource => p.mqttSourceId

def sourceKey (p : Pipeline) : SourceKey := ⟨p.sourceKind, p.sourceId⟩

/-- The number under which a destination of some kind is set. -/
def destinationId (p : Pipeline) : DestinationKind → Option Int
  | .database => p.databaseId
  | .rest => p.restId
  | .sap => p.sapId

def destination? (p : Pipeline) : Option DestinationRef := do
  let kind ← p.destinationKind
  let id ← p.destinationId kind
  pure ⟨kind, id⟩

/-- The SAP settings, if the destination is one that uses them. -/
def sapTarget? (p : Pipeline) : Option SapConfig :=
  if p.destinationKind = some .sap then p.delivery.sapConfig else none

def operation (p : Pipeline) : Operation :=
  match p.sapTarget? with
  | some c => c.queryType
  | none => p.delivery.queryType.getD .insert

def primaryKeyColumn (p : Pipeline) : Option String :=
  match p.sapTarget? with
  | some c => c.primaryKey
  | none => p.delivery.primaryKey

/-- The table; an SAP target without a table of its own takes the pipeline's. -/
def tableName (p : Pipeline) : Option String :=
  match p.sapTarget?.bind (·.table) with
  | some t => if t.isEmpty then p.delivery.targetTable else some t
  | none => p.delivery.targetTable

def tableSchema (p : Pipeline) : Option String := p.sapTarget?.bind (·.schema)

def effectiveDialect (p : Pipeline) : Dialect :=
  match p.delivery.dialect with
  | some d => d
  | none => if p.destinationKind = some .sap then .hana else .ansi

end Pipeline

/-- What a workflow is called and how it keeps its log. -/
structure Header where
  id : String
  name : String
  description : Option String := none
  isActive : Bool := true
  deleteFailedImmediately : Bool := false
  retentionHours : Binary64 := defaultRetentionHours

/-- A set of pipelines that is saved and replaced as a whole. -/
structure Workflow where
  header : Header
  pipelines : List Pipeline := []

namespace Workflow

def id (w : Workflow) : String := w.header.id

def pipeline? (w : Workflow) (id : String) : Option Pipeline := w.pipelines.find? (·.id = id)

end Workflow

/-- A record as the ingestion layer delivers it. -/
structure InboundRecord where
  dataId : String
  sourceKind : SourceKind
  sourceId : Int
  payload : Fields := []
  host : Option String := none
  receivedAt : Moment

namespace InboundRecord

def sourceKey (r : InboundRecord) : SourceKey := ⟨r.sourceKind, some r.sourceId⟩

/-- The source as log entries name it. -/
def sourceLabel (r : InboundRecord) : String := s!"{r.sourceKind.name}:{r.sourceId}"

end InboundRecord

end Conveyor
