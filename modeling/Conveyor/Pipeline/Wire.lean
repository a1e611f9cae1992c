import Conveyor.Pipeline.Basic
import Conveyor.Moment.Iso

/-!
# Writing workflow documents

The document of each type: camel-case names in the order of the fields, defaults included, fields
without a value left out. Free-form values keep their nulls.
-/

namespace Conveyor

namespace Wire

/-- The fields that have a value. -/
def present (fields : List (String × Option Value)) : Fields :=
  fields.filterMap fun (name, v) => v.map (name, ·)

def text (s : Option String) : Option Value := s.map .text

def int (n : Option Int) : Option Value := n.map .int

def float (x : Option Binary64) : Option Value := x.map .float

def named {α : Type} (name : α → String) (a : Option α) : Option Value := a.map (.text ∘ name)

def fields (fs : Option Fields) : Option Value := fs.map .object

end Wire

open Wire

def FieldMapping.wireFields (m : FieldMapping) : Fields :=
  present [("sourceField", some (.text m.sourceField)),
    ("destinationColumn", some (.text m.destinationColumn)),
    ("dataType", text m.dataType),
    ("transformType", text m.transformType),
    ("transformParam", text m.transformParam),
    ("defaultValue", if m.defaultValue.isNull then none else some m.defaultValue),
    ("nullHandling", some (.text m.nullHandling.name))]

def FieldMapping.wire (m : FieldMapping) : Value := .object m.wireFields

def SapConfig.wire (c : SapConfig) : Value :=
  .object (present [("queryType", some (.text c.queryType.name)),
    ("schema", text c.schema),
    ("table", text c.table),
    ("primaryKey", text c.primaryKey)])

def RestSettings.wireFields (s : RestSettings) : List (String × Option Value) :=
  [("restDestinationId", int s.destinationId),
    ("restMethod", named HttpMethod.name s.method),
    ("restPath", text s.path),
    ("restBodyTemplate", text s.bodyTemplate)]

def DatabaseSettings.wireFields (s : DatabaseSettings) : List (String × Option Value) :=
  [("databaseConfigId", int s.configId),
    ("dbQueryType", named Operation.name s.queryType),
    ("dbTargetTable", text s.table),
    ("dbPrimaryKey", text s.primaryKey),
    ("dbExtendedQuery", text s.extendedQuery),
    ("dbDialect", named Dialect.name s.dialect)]

def SapSettings.wireFields (s : SapSettings) : List (String × Option Value) :=
  [("sapDestinationId", int s.destinationId),
    ("sapQueryType", named Operation.name s.queryType),
    ("sapSchema", text s.schema),
    ("sapTable", text s.table),
    ("sapPrimaryKey", text s.primaryKey)]

def BranchSettings.wireFields (s : BranchSettings) : List (String × Option Value) :=
  [("conditionExpression", fields s.expression),
    ("onTrueStep", int s.onTrue),
    ("onFalseStep", int s.onFalse)]

def mappingsWire (ms : List FieldMapping) : Value := .list (ms.map FieldMapping.wire)

def Step.wireFields (s : Step) : Fields :=
  present ([("stepOrder", some (.int s.order)),
    ("stepName", some (.text s.name)),
    ("stepType", some (.text s.kind.name)),
    ("onError", some (.text s.onError.name)),
    ("maxRetries", some (.int s.maxRetries)),
    ("timeoutSeconds", some (.float s.timeout)),
    ("isActive", some (.bool s.isActive)),
    ("inputMapping", fields s.inputMapping),
    ("outputVariable", text s.outputVariable),
    ("fieldMappings", some (mappingsWire s.fieldMappings))]
    ++ s.rest.wireFields ++ s.database.wireFields ++ s.sap.wireFields
    ++ [("transformExpression", s.renames.map fun m => .object (m.mapValues .text))]
    ++ s.branch.wireFields
    ++ [("delaySeconds", float s.delaySeconds)])

def Step.wire (s : Step) : Value := .object s.wireFields

def Delivery.wireFields (d : Delivery) : List (String × Option Value) :=
  [("targetTable", text d.targetTable),
    ("fieldMappings", some (mappingsWire d.fieldMappings)),
    ("sapConfig", d.sapConfig.map SapConfig.wire),
    ("queryType", named Operation.name d.queryType),
    ("primaryKey", text d.primaryKey),
    ("customQuery", text d.customQuery),
    ("dialect", named Dialect.name d.dialect),
    ("restMethod", named HttpMethod.name d.restMethod),
    ("restPath", text d.restPath),
    ("isActive", some (.bool d.isActive)),
    ("onError", some (.text d.onError.name)),
    ("maxRetries", some (.int d.maxRetries)),
    ("timeoutSeconds", some (.float d.timeout))]

def Delivery.wire (d : Delivery) : Value := .object (present d.wireFields)

def Pipeline.wire (p : Pipeline) : Value :=
  .object (present ([("id", some (.text p.id)),
    ("workflowId", text p.workflowId),
    ("sourceType", some (.text p.sourceKind.name)),
    ("applicationId", int p.applicationId),
    ("mqttSourceId", int p.mqttSourceId),
    ("destinationType", named DestinationKind.name p.destinationKind),
    ("destinationId", int p.databaseId),
    ("restDestinationId", int p.restId),
    ("sapDestinationId", int p.sapId)]
    ++ p.delivery.wireFields
    ++ [("steps", some (.list (p.steps.map Step.wire)))]))

def Header.wireFields (h : Header) : List (String × Option Value) :=
  [("id", some (.text h.id)),
    ("name", some (.text h.name)),
    ("description", text h.description),
    ("isActive", some (.bool h.isActive)),
    ("deleteFailedImmediately", some (.bool h.deleteFailedImmediately)),
    ("retentionHours", some (.float h.retentionHours))]

def Header.wire (h : Header) : Value := .object (present h.wireFields)

def Workflow.wire (w : Workflow) : Value :=
  .object (present (w.header.wireFields
    ++ [("pipelines", some (.list (w.pipelines.map Pipeline.wire)))]))

/-! ## Free-form values -/

/-- The default values of mappings. -/
def defaultsOf (ms : List FieldMapping) : List Value := ms.map (·.defaultValue)

/-- The values of a step that can have any form, in the order in which they are written. -/
def Step.freeValues (s : Step) : List Value :=
  Fields.values (s.inputMapping.getD []) ++ defaultsOf s.fieldMappings
    ++ Fields.values (s.branch.expression.getD [])

def Pipeline.freeValues (p : Pipeline) : List Value :=
  defaultsOf p.delivery.fieldMappings ++ p.steps.flatMap Step.freeValues

def Workflow.freeValues (w : Workflow) : List Value := w.pipelines.flatMap Pipeline.freeValues

end Conveyor
