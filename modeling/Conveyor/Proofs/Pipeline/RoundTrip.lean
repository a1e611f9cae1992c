import Conveyor.Document
import Conveyor.Proofs.Json.Nesting
import Conveyor.Proofs.Schema.Document

/-!
# Reading workflows back

A workflow is read back from its document part by part, in canonical order: the objects among its
settings have their names in order, and nothing else is changed. It has a document unless one of its
values is nested too deep, one of its integers is too long, or an object in it is sealed
(`Workflow.IsWritable`).
-/

namespace Conveyor

/-! ## Canonical order -/

/-- The mapping with its default value in canonical order. -/
def FieldMapping.canonical (m : FieldMapping) : FieldMapping :=
  { m with defaultValue := Json.sortKeys m.defaultValue }

def BranchSettings.canonical (b : BranchSettings) : BranchSettings :=
  { b with expression := b.expression.map Fields.inOrder }

/-- The step with the objects among its settings in canonical order. -/
def Step.canonical (s : Step) : Step :=
  { s with
    inputMapping := s.inputMapping.map Fields.inOrder
    fieldMappings := s.fieldMappings.map FieldMapping.canonical
    renames := s.renames.map Keyed.sorted
    branch := s.branch.canonical }

@[simp] theorem Step.canonical_kind (s : Step) : s.canonical.kind = s.kind := rfl

def Delivery.canonical (d : Delivery) : Delivery :=
  { d with fieldMappings := d.fieldMappings.map FieldMapping.canonical }

def Pipeline.canonical (p : Pipeline) : Pipeline :=
  { p with
    delivery := p.delivery.canonical
    steps := p.steps.map Step.canonical }

/-- The workflow with the objects among its settings in canonical order. -/
def Workflow.canonical (w : Workflow) : Workflow :=
  { w with pipelines := w.pipelines.map Pipeline.canonical }

theorem FieldMapping.canonical_canonical (m : FieldMapping) :
    m.canonical.canonical = m.canonical := by
  simp only [canonical, Json.sortKeys_sortKeys]

theorem map_canonical_canonical {α : Type} {canonical : α → α}
    (h : ∀ a, canonical (canonical a) = canonical a) (items : List α) :
    (items.map canonical).map canonical = items.map canonical := by
  rw [List.map_map]
  exact List.map_congr_left fun a _ => h a

theorem BranchSettings.canonical_canonical (b : BranchSettings) :
    b.canonical.canonical = b.canonical := by
  obtain ⟨expression, onTrue, onFalse⟩ := b
  cases expression with
  | none => rfl
  | some fs => simp only [canonical, Option.map_some, Fields.inOrder_inOrder]

theorem Step.canonical_canonical (s : Step) : s.canonical.canonical = s.canonical := by
  have hinput : (s.inputMapping.map Fields.inOrder).map Fields.inOrder
      = s.inputMapping.map Fields.inOrder := by
    cases s.inputMapping with
    | none => rfl
    | some fs => simp only [Option.map_some, Fields.inOrder_inOrder]
  have hrenames : (s.renames.map Keyed.sorted).map Keyed.sorted = s.renames.map Keyed.sorted := by
    cases s.renames with
    | none => rfl
    | some m => simp only [Option.map_some, Keyed.sorted_sorted]
  simp only [canonical, hinput, hrenames, s.branch.canonical_canonical,
    map_canonical_canonical FieldMapping.canonical_canonical]

theorem Delivery.canonical_canonical (d : Delivery) : d.canonical.canonical = d.canonical := by
  simp only [canonical, map_canonical_canonical FieldMapping.canonical_canonical]

theorem Pipeline.canonical_canonical (p : Pipeline) : p.canonical.canonical = p.canonical := by
  simp only [canonical, p.delivery.canonical_canonical,
    map_canonical_canonical Step.canonical_canonical]

theorem Workflow.canonical_canonical (w : Workflow) : w.canonical.canonical = w.canonical := by
  simp only [canonical, map_canonical_canonical Pipeline.canonical_canonical]

open Schema

/-! ## Alternatives -/

theorem choice_eq {α : Type} {alternatives : List α} {name : α → String} {a : α}
    (h : alternatives.find? (fun b => name b = name a) = some a) :
    choice alternatives name (.text (name a)) = .fits a := by
  rw [choice, h]

theorem nullHandling_fits (n : NullHandling) :
    choice NullHandling.all NullHandling.name (.text n.name) = .fits n := by
  cases n <;> exact choice_eq (by decide)

theorem operation_fits (o : Operation) : operationReading (.text o.name) = .fits o := by
  cases o <;> exact choice_eq (by decide)

theorem dialect_fits (d : Dialect) : dialectReading (.text d.name) = .fits d := by
  cases d <;> exact choice_eq (by decide)

theorem method_fits (m : HttpMethod) : methodReading (.text m.name) = .fits m := by
  cases m <;> exact choice_eq (by decide)

theorem policy_fits (p : ErrorPolicy) : policyReading (.text p.name) = .fits p := by
  cases p <;> exact choice_eq (by decide)

theorem stepKind_fits (k : StepKind) :
    choice StepKind.all StepKind.name (.text k.name) = .fits k := by
  cases k <;> exact choice_eq (by decide)

theorem sourceKind_fits (k : SourceKind) : sourceKindReading (.text k.name) = .fits k := by
  cases k <;> exact choice_eq (by decide)

theorem destinationKind_fits (k : DestinationKind) :
    choice DestinationKind.all DestinationKind.name (.text k.name) = .fits k := by
  cases k <;> exact choice_eq (by decide)

/-! ## Mappings and targets -/

theorem FieldMapping.read_wire (m : FieldMapping) :
    record FieldMapping.read (Json.sortKeys m.wire) = .fits m.canonical := by
  have h := shows_inOrder (show m.wireFields = Wire.present _ from rfl)
    (by simp only [List.map_cons, List.map_nil]; decide)
  have hdefault : withDefault m.wireFields.inOrder "defaultValue" anything .null =
      .fits (Json.sortKeys m.defaultValue) := by
    cases hv : m.defaultValue with
    | null => exact h.default "defaultValue" anything (by simp [hv, Value.isNull]) _
    | _ => exact h.withDefault "defaultValue" anything _ (by simp [hv, Value.isNull]) rfl
  rw [wire, Json.sortKeys_object, record, FieldMapping.read,
    h.required "sourceField" text (.text m.sourceField) (by simp) rfl,
    h.required "destinationColumn" text (.text m.destinationColumn) (by simp) rfl,
    h.text "dataType" m.dataType (by simp),
    h.text "transformType" m.transformType (by simp),
    h.text "transformParam" m.transformParam (by simp),
    hdefault,
    h.withDefault "nullHandling" (choice NullHandling.all NullHandling.name)
      (.text m.nullHandling.name) (by simp) (nullHandling_fits _)]
  rfl

theorem mappings_fits (ms : List FieldMapping) :
    mappingsReading (Json.sortKeys (mappingsWire ms)) = .fits (ms.map FieldMapping.canonical) :=
  listOf_map ms fun m _ => m.read_wire

theorem SapConfig.read_wire (c : SapConfig) :
    record SapConfig.read (Json.sortKeys c.wire) = .fits c := by
  have h := shows_inOrder (show _ = Wire.present
    [("queryType", some (.text c.queryType.name)), ("schema", Wire.text c.schema),
      ("table", Wire.text c.table), ("primaryKey", Wire.text c.primaryKey)] from rfl)
    (by simp only [List.map_cons, List.map_nil]; decide)
  rw [wire, Json.sortKeys_object, record, SapConfig.read,
    h.withDefault "queryType" operationReading (.text c.queryType.name) (by simp)
      (operation_fits _),
    h.textUnder "schema" "target_schema" c.schema (by simp) (by decide),
    h.text "table" c.table (by simp),
    h.text "primaryKey" c.primaryKey (by simp)]
  rfl

/-! ## Steps -/

theorem RestSettings.read_shows {s : RestSettings} {fs : Fields} (h : Shows fs s.wireFields) :
    RestSettings.read fs = .fits s := by
  rw [RestSettings.read,
    h.integer "restDestinationId" s.destinationId (by simp [wireFields]),
    h.named "restMethod" method_fits s.method (by simp [wireFields]),
    h.text "restPath" s.path (by simp [wireFields]),
    h.text "restBodyTemplate" s.bodyTemplate (by simp [wireFields])]
  rfl

theorem DatabaseSettings.read_shows {s : DatabaseSettings} {fs : Fields}
    (h : Shows fs s.wireFields) : DatabaseSettings.read fs = .fits s := by
  rw [DatabaseSettings.read,
    h.integer "databaseConfigId" s.configId (by simp [wireFields]),
    h.named "dbQueryType" operation_fits s.queryType (by simp [wireFields]),
    h.text "dbTargetTable" s.table (by simp [wireFields]),
    h.text "dbPrimaryKey" s.primaryKey (by simp [wireFields]),
    h.text "dbExtendedQuery" s.extendedQuery (by simp [wireFields]),
    h.named "dbDialect" dialect_fits s.dialect (by simp [wireFields])]
  rfl

theorem SapSettings.read_shows {s : SapSettings} {fs : Fields} (h : Shows fs s.wireFields) :
    SapSettings.read fs = .fits s := by
  rw [SapSettings.read,
    h.integer "sapDestinationId" s.destinationId (by simp [wireFields]),
    h.named "sapQueryType" operation_fits s.queryType (by simp [wireFields]),
    h.text "sapSchema" s.schema (by simp [wireFields]),
    h.text "sapTable" s.table (by simp [wireFields]),
    h.text "sapPrimaryKey" s.primaryKey (by simp [wireFields])]
  rfl

theorem settings_fits (fs : Fields) :
    settingsReading anything (Json.sortKeys (.object fs)) = .fits (some fs.inOrder) := by
  have hfields : objectOf anything (.object fs.inOrder) = .fits fs.inOrder :=
    objectOf_fits (List.forall₂_same.mpr fun _ _ => ⟨rfl, rfl⟩)
  rw [Json.sortKeys_object]
  show (objectOf anything (.object fs.inOrder)).map some = _
  rw [hfields]
  rfl

/-- New names are read back in order. -/
theorem renames_fits (m : Keyed String) :
    settingsReading text (Json.sortKeys (.object (m.mapValues .text))) = .fits (some m.sorted) := by
  have horder : Fields.inOrder (m.mapValues .text) = m.sorted.mapValues .text := by
    rw [Fields.inOrder, Keyed.sorted_mapValues, Keyed.sorted_mapValues, Keyed.mapValues,
      Keyed.mapValues, List.map_map]
    rfl
  have hfields : objectOf text (.object (m.sorted.mapValues .text)) = .fits m.sorted := by
    apply objectOf_fits
    rw [Keyed.mapValues, List.forall₂_map_left_iff]
    exact List.forall₂_same.mpr fun _ _ => ⟨rfl, rfl⟩
  rw [Json.sortKeys_object, horder]
  show (objectOf text (.object (m.sorted.mapValues .text))).map some = _
  rw [hfields]
  rfl

theorem BranchSettings.read_shows {b : BranchSettings} {fs : Fields} (h : Shows fs b.wireFields) :
    BranchSettings.read fs = .fits b.canonical := by
  rw [BranchSettings.read,
    h.setting "conditionExpression" (settingsReading anything) b.expression
      (by simp [wireFields, Wire.fields]) settings_fits,
    h.integer "onTrueStep" b.onTrue (by simp [wireFields]),
    h.integer "onFalseStep" b.onFalse (by simp [wireFields])]
  rfl

theorem Step.read_wire (s : Step) :
    record Step.read (Json.sortKeys s.wire) = .fits s.canonical := by
  have h := shows_inOrder (show s.wireFields = Wire.present _ from rfl)
    (by
      simp only [RestSettings.wireFields, DatabaseSettings.wireFields, SapSettings.wireFields,
        BranchSettings.wireFields, List.map_append, List.map_cons, List.map_nil]
      decide)
  rw [wire, Json.sortKeys_object, record, Step.read,
    h.required "stepOrder" integer (.int s.order) (by simp) rfl,
    h.required "stepName" text (.text s.name) (by simp) rfl,
    h.required "stepType" (choice StepKind.all StepKind.name) (.text s.kind.name) (by simp)
      (stepKind_fits _),
    h.withDefault "onError" policyReading (.text s.onError.name) (by simp) (policy_fits _),
    h.withDefault "maxRetries" integer (.int s.maxRetries) (by simp) rfl,
    h.withDefault "timeoutSeconds" number (.float s.timeout) (by simp) rfl,
    h.withDefault "isActive" flag (.bool s.isActive) (by simp) rfl,
    h.setting "inputMapping" (settingsReading anything) s.inputMapping
      (by simp [Wire.fields]) settings_fits,
    h.text "outputVariable" s.outputVariable (by simp),
    h.withDefault "fieldMappings" mappingsReading (mappingsWire s.fieldMappings) (by simp)
      (mappings_fits _),
    RestSettings.read_shows (h.mono s.rest.wireFields (by simp +contextual)),
    DatabaseSettings.read_shows (h.mono s.database.wireFields (by simp +contextual)),
    SapSettings.read_shows (h.mono s.sap.wireFields (by simp +contextual)),
    h.setting "transformExpression" (settingsReading text) s.renames (by simp) renames_fits,
    BranchSettings.read_shows (h.mono s.branch.wireFields (by simp +contextual)),
    h.optional "delaySeconds" number s.delaySeconds .float (by simp [Wire.float])
      fun _ => rfl]
  rfl

/-! ## Pipelines and workflows -/

theorem Delivery.read_shows {d : Delivery} {fs : Fields} (h : Shows fs d.wireFields) :
    Delivery.read fs = .fits d.canonical := by
  have hsap : ∀ c : SapConfig, nullable (record SapConfig.read) (Json.sortKeys c.wire) =
      .fits (some c) := by
    intro c
    have hread := c.read_wire
    rw [SapConfig.wire, Json.sortKeys_object] at hread ⊢
    show (record SapConfig.read (.object _)).map some = _
    rw [hread]
    rfl
  rw [Delivery.read,
    h.text "targetTable" d.targetTable (by simp [wireFields]),
    h.withDefault "fieldMappings" mappingsReading (mappingsWire d.fieldMappings)
      (by simp [wireFields]) (mappings_fits _),
    h.optional "sapConfig" (record SapConfig.read) d.sapConfig SapConfig.wire
      (by simp [wireFields]) hsap,
    h.named "queryType" operation_fits d.queryType (by simp [wireFields]),
    h.text "primaryKey" d.primaryKey (by simp [wireFields]),
    h.text "customQuery" d.customQuery (by simp [wireFields]),
    h.named "dialect" dialect_fits d.dialect (by simp [wireFields]),
    h.named "restMethod" method_fits d.restMethod (by simp [wireFields]),
    h.text "restPath" d.restPath (by simp [wireFields]),
    h.withDefault "isActive" flag (.bool d.isActive) (by simp [wireFields]) rfl,
    h.withDefault "onError" policyReading (.text d.onError.name) (by simp [wireFields])
      (policy_fits _),
    h.withDefault "maxRetries" integer (.int d.maxRetries) (by simp [wireFields]) rfl,
    h.withDefault "timeoutSeconds" number (.float d.timeout) (by simp [wireFields]) rfl]
  rfl

theorem Pipeline.read_wire (p : Pipeline) :
    record Pipeline.read (Json.sortKeys p.wire) = .fits p.canonical := by
  have h := shows_inOrder (show _ = Wire.present ([("id", some (.text p.id)),
      ("workflowId", Wire.text p.workflowId),
      ("sourceType", some (.text p.sourceKind.name)),
      ("applicationId", Wire.int p.applicationId),
      ("mqttSourceId", Wire.int p.mqttSourceId),
      ("destinationType", Wire.named DestinationKind.name p.destinationKind),
      ("destinationId", Wire.int p.databaseId),
      ("restDestinationId", Wire.int p.restId),
      ("sapDestinationId", Wire.int p.sapId)]
      ++ p.delivery.wireFields
      ++ [("steps", some (.list (p.steps.map Step.wire)))]) from rfl)
    (by
      simp only [Delivery.wireFields, List.map_append, List.map_cons, List.map_nil]
      decide)
  rw [wire, Json.sortKeys_object, record, Pipeline.read,
    h.required "id" text (.text p.id) (by simp) rfl,
    h.text "workflowId" p.workflowId (by simp),
    h.required "sourceType" sourceKindReading (.text p.sourceKind.name) (by simp)
      (sourceKind_fits _),
    h.integer "applicationId" p.applicationId (by simp),
    h.integer "mqttSourceId" p.mqttSourceId (by simp),
    h.named "destinationType" destinationKind_fits p.destinationKind (by simp),
    h.integer "destinationId" p.databaseId (by simp),
    h.integer "restDestinationId" p.restId (by simp),
    h.integer "sapDestinationId" p.sapId (by simp),
    Delivery.read_shows (h.mono p.delivery.wireFields (by simp +contextual)),
    h.withDefault "steps" stepsReading (.list (p.steps.map Step.wire)) (by simp)
      (listOf_map p.steps fun s _ => s.read_wire)]
  rfl

theorem Header.read_shows {h : Header} {fs : Fields} (hfs : Shows fs h.wireFields) :
    Header.read fs = .fits h := by
  rw [Header.read,
    hfs.required "id" text (.text h.id) (by simp [wireFields]) rfl,
    hfs.required "name" text (.text h.name) (by simp [wireFields]) rfl,
    hfs.text "description" h.description (by simp [wireFields]),
    hfs.withDefault "isActive" flag (.bool h.isActive) (by simp [wireFields]) rfl,
    hfs.withDefault "deleteFailedImmediately" flag (.bool h.deleteFailedImmediately)
      (by simp [wireFields]) rfl,
    hfs.withDefault "retentionHours" number (.float h.retentionHours) (by simp [wireFields]) rfl]
  rfl

theorem Workflow.read_wire (w : Workflow) :
    record Workflow.read (Json.sortKeys w.wire) = .fits w.canonical := by
  have h := shows_inOrder (show _ = Wire.present (w.header.wireFields
      ++ [("pipelines", some (.list (w.pipelines.map Pipeline.wire)))]) from rfl)
    (by
      simp only [Header.wireFields, List.map_append, List.map_cons, List.map_nil]
      decide)
  rw [wire, Json.sortKeys_object, record, Workflow.read,
    Header.read_shows (h.mono w.header.wireFields (by simp +contextual)),
    h.withDefault "pipelines" (listOf (record Pipeline.read))
      (.list (w.pipelines.map Pipeline.wire)) (by simp)
      (listOf_map w.pipelines fun p _ => p.read_wire)]
  rfl

/-! ## Sealed objects -/

theorem Value.listHoldsSealed_eq (items : List Value) :
    listHoldsSealed items = items.any holdsSealed := by
  induction items with
  | nil => rfl
  | cons v rest ih => rw [listHoldsSealed, ih, List.any_cons]

theorem Value.fieldsHoldSealed_eq (fs : List (String × Value)) :
    fieldsHoldSealed fs = (Fields.values fs).any holdsSealed := by
  induction fs with
  | nil => rfl
  | cons f rest ih =>
    rw [fieldsHoldSealed, ih]
    rfl

namespace Wire

open Value

theorem holdsSealed_present (fields : List (String × Option Value)) :
    (Value.object (present fields)).holdsSealed = fields.any fun f => f.2.any holdsSealed := by
  rw [holdsSealed, fieldsHoldSealed_eq]
  induction fields with
  | nil => rfl
  | cons f rest ih =>
    obtain ⟨name, o⟩ := f
    cases o with
    | none => exact ih
    | some v => exact congrArg (v.holdsSealed || ·) ih

theorem listHoldsSealed_map {α : Type} (wire : α → Value) (items : List α) :
    listHoldsSealed (items.map wire) = items.any fun a => (wire a).holdsSealed := by
  rw [listHoldsSealed_eq, List.any_map]
  rfl

@[simp] theorem any_text (o : Option String) : (text o).any holdsSealed = false := by
  cases o <;> rfl

@[simp] theorem any_int (o : Option Int) : (int o).any holdsSealed = false := by cases o <;> rfl

@[simp] theorem any_float (o : Option Binary64) : (float o).any holdsSealed = false := by
  cases o <;> rfl

@[simp] theorem any_named {α : Type} (name : α → String) (o : Option α) :
    (named name o).any holdsSealed = false := by cases o <;> rfl

@[simp] theorem any_fields (o : Option Fields) :
    (fields o).any holdsSealed = (Fields.values (o.getD [])).any holdsSealed := by
  cases o with
  | none => rfl
  | some fs => exact fieldsHoldSealed_eq fs

/-- New names are texts. -/
@[simp] theorem any_renames (o : Option (Keyed String)) :
    (o.map fun m => Value.object (m.mapValues .text)).any holdsSealed = false := by
  cases o with
  | none => rfl
  | some m =>
    show fieldsHoldSealed (m.mapValues .text) = false
    rw [fieldsHoldSealed_eq, Fields.values, Keyed.mapValues, List.map_map, List.any_map]
    exact List.any_eq_false.mpr fun _ _ => Bool.false_ne_true

end Wire

open Wire Value

@[simp] theorem FieldMapping.holdsSealed_wire (m : FieldMapping) :
    m.wire.holdsSealed = m.defaultValue.holdsSealed := by
  rw [wire, wireFields, holdsSealed_present]
  cases m.defaultValue <;> simp [isNull, holdsSealed]

@[simp] theorem holdsSealed_mappingsWire (ms : List FieldMapping) :
    (mappingsWire ms).holdsSealed = (defaultsOf ms).any holdsSealed := by
  rw [mappingsWire, holdsSealed, listHoldsSealed_map, defaultsOf, List.any_map]
  simp only [FieldMapping.holdsSealed_wire]
  rfl

@[simp] theorem SapConfig.holdsSealed_wire (c : SapConfig) : c.wire.holdsSealed = false := by
  rw [wire, holdsSealed_present]
  simp [holdsSealed]

@[simp] theorem Step.holdsSealed_wire (s : Step) :
    s.wire.holdsSealed = s.freeValues.any holdsSealed := by
  rw [wire, wireFields, holdsSealed_present]
  simp [holdsSealed, RestSettings.wireFields, DatabaseSettings.wireFields, SapSettings.wireFields,
    BranchSettings.wireFields, freeValues]

@[simp] theorem Pipeline.holdsSealed_wire (p : Pipeline) :
    p.wire.holdsSealed = p.freeValues.any holdsSealed := by
  have hsap : (p.delivery.sapConfig.map SapConfig.wire).any holdsSealed = false := by
    cases p.delivery.sapConfig with
    | none => rfl
    | some c => exact c.holdsSealed_wire
  rw [wire, holdsSealed_present]
  simp [holdsSealed, listHoldsSealed_map, Delivery.wireFields, hsap, freeValues, List.any_flatMap]

/-- What is sealed in a workflow is sealed in one of its values of any form. -/
theorem Workflow.holdsSealed_wire (w : Workflow) :
    w.wire.holdsSealed = w.freeValues.any holdsSealed := by
  rw [wire, holdsSealed_present]
  simp [holdsSealed, listHoldsSealed_map, Header.wireFields, freeValues, List.any_flatMap]

/-! ## The text of a workflow -/

/-- A workflow that can be written: its values of any form are not nested too deep, none of its
integers is too long, and no object in it is sealed. -/
structure Workflow.IsWritable (w : Workflow) : Prop where
  flat : ∀ v ∈ w.freeValues, v.depth ≤ Value.maxDepth
  readable : w.wire.isReadable = true

theorem Workflow.documentText_eq_ok_iff {w : Workflow} {s : String} :
    w.documentText = .ok s ↔ w.IsWritable ∧ s = Json.write .canonical w.wire := by
  have hsealed : w.wire.holdsSealed = false ↔ ∀ v ∈ w.freeValues, v.holdsSealed = false := by
    rw [w.holdsSealed_wire, List.any_eq_false]
    simp only [Bool.not_eq_true]
  have hwritable : w.IsWritable ↔
      descendAll w.freeValues = .ok () ∧ w.wire.isShowable = true := by
    rw [descendAll_eq_ok_iff, forall₂_and, ← hsealed]
    constructor
    · rintro ⟨hflat, hreadable⟩
      rw [isReadable_eq, Bool.and_eq_true, Bool.not_eq_true'] at hreadable
      exact ⟨⟨hflat, hreadable.2⟩, hreadable.1⟩
    · rintro ⟨⟨hflat, hopen⟩, hshowable⟩
      exact ⟨hflat, by rw [isReadable_eq, hshowable, hopen]; rfl⟩
  rw [hwritable, documentText, Outcome.bind_eq_ok_iff]
  constructor
  · rintro ⟨_, hdescend, htext⟩
    split at htext
    · exact ⟨⟨hdescend, ‹_›⟩, (Except.ok.inj htext).symm⟩
    · cases htext
  · rintro ⟨⟨hdescend, hshowable⟩, rfl⟩
    exact ⟨(), hdescend, if_pos hshowable⟩

theorem Workflow.exists_documentText {w : Workflow} :
    (∃ s, w.documentText = .ok s) ↔ w.IsWritable := by
  simp only [documentText_eq_ok_iff, exists_and_left, exists_eq, and_true]

/-- A workflow without sealed objects that cannot be written is refused for what its values are. -/
theorem Workflow.eq_badValue_of_documentText {w : Workflow} {f : Fault}
    (h : w.documentText = .error f) (hopen : ∀ v ∈ w.freeValues, v.holdsSealed = false) :
    f = .badValue := by
  rw [documentText, Outcome.bind_eq_error_iff] at h
  rcases h with hdescend | ⟨_, -, htext⟩
  · exact eq_badValue_of_descendAll hdescend hopen
  · split at htext
    · cases htext
    · exact (Except.error.inj htext).symm

/-- A workflow is read back from its text in canonical order, if a document can tell it from others. -/
theorem Workflow.read_documentText {w : Workflow} {s : String} (hw : w.wire.isRegular = true)
    (hs : w.documentText = .ok s) : (Document.text s).read Workflow.read = .ok w.canonical := by
  obtain ⟨writable, rfl⟩ := documentText_eq_ok_iff.mp hs
  have hlegible : w.wire.isLegible true = true := by
    rw [isLegible_eq, hw, writable.readable]
    rfl
  rw [Document.read, Json.read?_write_canonical hlegible]
  simp only [Workflow.read_wire]
  rfl

end Conveyor
