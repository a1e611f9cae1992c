import Conveyor.Pipeline.Basic
import Conveyor.Schema.Scalar

/-!
# Reading workflow documents

How each type of a workflow is read from its document. Settings of steps that are objects may also
be given as the text of a JSON document, the form in which an editor stores them.
-/

namespace Conveyor

open Schema

def FieldMapping.read (fs : Fields) : Checked FieldMapping :=
  FieldMapping.mk
    <$> required fs "sourceField" text
    <*> required fs "destinationColumn" text
    <*> optional fs "dataType" text
    <*> optional fs "transformType" text
    <*> optional fs "transformParam" text
    <*> withDefault fs "defaultValue" anything .null
    <*> withDefault fs "nullHandling" (choice NullHandling.all NullHandling.name) .required

def operationReading : Reading Operation := choice Operation.all Operation.name

def dialectReading : Reading Dialect := choice Dialect.all Dialect.name

def methodReading : Reading HttpMethod := choice HttpMethod.all HttpMethod.name

def policyReading : Reading ErrorPolicy := choice ErrorPolicy.all ErrorPolicy.name

def SapConfig.read (fs : Fields) : Checked SapConfig :=
  SapConfig.mk
    <$> withDefault fs "queryType" operationReading .insert
    <*> fieldNamed fs "schema" "target_schema" (nullable text) (.fits none)
    <*> optional fs "table" text
    <*> optional fs "primaryKey" text

def RestSettings.read (fs : Fields) : Checked RestSettings :=
  RestSettings.mk
    <$> optional fs "restDestinationId" integer
    <*> optional fs "restMethod" methodReading
    <*> optional fs "restPath" text
    <*> optional fs "restBodyTemplate" text

def DatabaseSettings.read (fs : Fields) : Checked DatabaseSettings :=
  DatabaseSettings.mk
    <$> optional fs "databaseConfigId" integer
    <*> optional fs "dbQueryType" operationReading
    <*> optional fs "dbTargetTable" text
    <*> optional fs "dbPrimaryKey" text
    <*> optional fs "dbExtendedQuery" text
    <*> optional fs "dbDialect" dialectReading

def SapSettings.read (fs : Fields) : Checked SapSettings :=
  SapSettings.mk
    <$> optional fs "sapDestinationId" integer
    <*> optional fs "sapQueryType" operationReading
    <*> optional fs "sapSchema" text
    <*> optional fs "sapTable" text
    <*> optional fs "sapPrimaryKey" text

/-- An object setting, as itself or as text. -/
def settingsReading {α : Type} (read : Reading α) : Reading (Option (Keyed α)) :=
  orDocument (nullable (objectOf read))

def BranchSettings.read (fs : Fields) : Checked BranchSettings :=
  BranchSettings.mk
    <$> withDefault fs "conditionExpression" (settingsReading anything) none
    <*> optional fs "onTrueStep" integer
    <*> optional fs "onFalseStep" integer

def mappingsReading : Reading (List FieldMapping) := listOf (record FieldMapping.read)

def Step.read (fs : Fields) : Checked Step :=
  Step.mk
    <$> required fs "stepOrder" integer
    <*> required fs "stepName" text
    <*> required fs "stepType" (choice StepKind.all StepKind.name)
    <*> withDefault fs "onError" policyReading .stop
    <*> withDefault fs "maxRetries" integer 0
    <*> withDefault fs "timeoutSeconds" number defaultTimeout
    <*> withDefault fs "isActive" flag true
    <*> withDefault fs "inputMapping" (settingsReading anything) none
    <*> optional fs "outputVariable" text
    <*> withDefault fs "fieldMappings" mappingsReading []
    <*> RestSettings.read fs
    <*> DatabaseSettings.read fs
    <*> SapSettings.read fs
    <*> withDefault fs "transformExpression" (settingsReading text) none
    <*> BranchSettings.read fs
    <*> optional fs "delaySeconds" number

def stepsReading : Reading (List Step) := listOf (record Step.read)

def Delivery.read (fs : Fields) : Checked Delivery :=
  Delivery.mk
    <$> optional fs "targetTable" text
    <*> withDefault fs "fieldMappings" mappingsReading []
    <*> optional fs "sapConfig" (record SapConfig.read)
    <*> optional fs "queryType" operationReading
    <*> optional fs "primaryKey" text
    <*> optional fs "customQuery" text
    <*> optional fs "dialect" dialectReading
    <*> optional fs "restMethod" methodReading
    <*> optional fs "restPath" text
    <*> withDefault fs "isActive" flag true
    <*> withDefault fs "onError" policyReading .stop
    <*> withDefault fs "maxRetries" integer 0
    <*> withDefault fs "timeoutSeconds" number defaultTimeout

def sourceKindReading : Reading SourceKind := choice SourceKind.all SourceKind.name

def Pipeline.read (fs : Fields) : Checked Pipeline :=
  Pipeline.mk
    <$> required fs "id" text
    <*> optional fs "workflowId" text
    <*> required fs "sourceType" sourceKindReading
    <*> optional fs "applicationId" integer
    <*> optional fs "mqttSourceId" integer
    <*> optional fs "destinationType" (choice DestinationKind.all DestinationKind.name)
    <*> optional fs "destinationId" integer
    <*> optional fs "restDestinationId" integer
    <*> optional fs "sapDestinationId" integer
    <*> Delivery.read fs
    <*> withDefault fs "steps" stepsReading []

def Header.read (fs : Fields) : Checked Header :=
  Header.mk
    <$> required fs "id" text
    <*> required fs "name" text
    <*> optional fs "description" text
    <*> withDefault fs "isActive" flag true
    <*> withDefault fs "deleteFailedImmediately" flag false
    <*> withDefault fs "retentionHours" number defaultRetentionHours

def Workflow.read (fs : Fields) : Checked Workflow :=
  Workflow.mk
    <$> Header.read fs
    <*> withDefault fs "pipelines" (listOf (record Pipeline.read)) []

/-- A record document, whose moment is read by `moment`; `dataId` and `receivedAt` stand for what
the document leaves out. -/
def InboundRecord.readWith (moment : Reading Moment) (dataId : String) (receivedAt : Moment)
    (fs : Fields) : Checked InboundRecord :=
  InboundRecord.mk
    <$> withDefault fs "dataId" text dataId
    <*> required fs "sourceType" sourceKindReading
    <*> required fs "sourceId" integer
    <*> withDefault fs "payload" (objectOf anything) []
    <*> optional fs "host" text
    <*> withDefault fs "receivedAt" moment receivedAt

/-- A record document among other values. -/
def InboundRecord.read (dataId : String) (receivedAt : Moment) : Fields → Checked InboundRecord :=
  readWith moment dataId receivedAt

/-- A record document read off its text. -/
def InboundRecord.ofText (dataId : String) (receivedAt : Moment) (s : String) :
    Checked InboundRecord :=
  match Json.readWith? .strict s with
  | some v => record (readWith momentInText dataId receivedAt) v
  | none => .refuse .notJson

/-- Whether a document is a record's but for its data id, so that one has to be drawn. -/
def InboundRecord.lacksDataId : Value → Bool
  | .object fs => (find? fs "dataId" (plainName "dataId")).isNone
  | _ => false

end Conveyor
