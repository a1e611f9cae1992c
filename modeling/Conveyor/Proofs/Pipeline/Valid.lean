import Conveyor.Proofs.Condition
import Conveyor.Proofs.Pipeline.Sound

/-!
# Valid pipelines

What a pipeline has to be for validation to find nothing wrong with it, said of the pipeline alone:
validation reports where it found a problem, but whether it finds one does not depend on the place
that it reports (`pipelineIssues_eq_nil_iff_isValid`).
-/

namespace Conveyor

/-- What a step has for a condition. -/
def BranchSettings.condition (b : BranchSettings) : Value :=
  match b.expression with
  | some fs => .object fs
  | none => .null

namespace Validation

open Outcome

/-! ## Mappings -/

/-- Every column and every source field is named once, and every transform exists. -/
structure ValidMappings (ms : List FieldMapping) : Prop where
  columns : (ms.map (·.destinationColumn)).Nodup
  sources : (ms.map (·.sourceField)).Nodup
  transforms : ∀ m ∈ ms, ∀ name, m.transformType = some name → name.isEmpty = false →
    ∃ t, Mapping.Transform.ofName? name = some t

theorem position?_eq_none_iff {α : Type} {p : α → Bool} {items : List α} :
    position? p items = none ↔ ∀ a ∈ items, p a = false := by
  unfold position?
  split
  · rename_i hany
    simpa using hany
  · rename_i hany
    simpa using hany

/-- No name is repeated if none is among those before it. -/
theorem nodup_iff_take {α β : Type} {f : α → β} {items : List α} :
    (items.map f).Nodup ↔ ∀ i a, items[i]? = some a → ∀ b ∈ items.take i, f b ≠ f a := by
  rw [List.Nodup, List.pairwise_map, List.pairwise_iff_getElem]
  constructor
  · intro h i a hi b hb
    obtain ⟨hlt, rfl⟩ := List.getElem?_eq_some_iff.mp hi
    obtain ⟨j, hj, rfl⟩ := List.mem_iff_getElem.mp hb
    rw [List.length_take] at hj
    rw [List.getElem_take]
    exact h j i (by omega) hlt (by omega)
  · intro h i j hi hj hij
    refine h j _ (List.getElem?_eq_getElem hj) _ (List.mem_iff_getElem.mpr ⟨i, ?_, ?_⟩)
    · rw [List.length_take]
      omega
    · rw [List.getElem_take]

/-- A mapping without issues names a column and a source field that none before it names, and a
transform that exists. -/
theorem mappingIssues_eq_nil_iff {here : Place} {before : List FieldMapping} {m : FieldMapping} :
    mappingIssues here before m = [] ↔
      (∀ b ∈ before, b.destinationColumn ≠ m.destinationColumn) ∧
        (∀ b ∈ before, b.sourceField ≠ m.sourceField) ∧
        ∀ name, m.transformType = some name → name.isEmpty = false →
          ∃ t, Mapping.Transform.ofName? name = some t := by
  unfold mappingIssues
  rw [List.append_eq_nil_iff, List.append_eq_nil_iff, and_assoc, issueIf_eq_nil_iff]
  refine and_congr ?_ (and_congr (by simp) ?_)
  · have hnone : position? (·.destinationColumn = m.destinationColumn) before = none ↔
        ∀ b ∈ before, b.destinationColumn ≠ m.destinationColumn := by
      simp [position?_eq_none_iff]
    rw [← hnone]
    cases position? (·.destinationColumn = m.destinationColumn) before <;> simp
  · cases m.transformType with
    | none => simp
    | some name => simp [issueIf_eq_nil_iff, ← Option.isSome_iff_exists, Option.isSome_iff_ne_none]

/-- A list of mappings without issues is valid. -/
theorem mappingsIssues_eq_nil_iff {place : Place} {ms : List FieldMapping} :
    mappingsIssues place ms = [] ↔ ValidMappings ms := by
  have hparts : mappingsIssues place ms = [] ↔ ∀ i m, ms[i]? = some m →
      mappingIssues (place ++ [.field "fieldMappings", .index i]) (ms.take i) m = [] := by
    simp only [mappingsIssues, List.flatMap_eq_nil_iff, Prod.forall, List.mem_zipIdx_iff_getElem?]
    exact ⟨fun h i m hi => h m i hi, fun h m i hi => h i m hi⟩
  simp only [hparts, mappingIssues_eq_nil_iff]
  constructor
  · intro h
    refine ⟨nodup_iff_take.mpr fun i m hi => (h i m hi).1,
      nodup_iff_take.mpr fun i m hi => (h i m hi).2.1, fun m hm => ?_⟩
    obtain ⟨i, hi⟩ := List.mem_iff_getElem?.mp hm
    exact (h i m hi).2.2
  · intro h i m hi
    exact ⟨nodup_iff_take.mp h.columns i m hi, nodup_iff_take.mp h.sources i m hi,
      h.transforms m (List.mem_of_getElem? hi)⟩

/-! ## Queries -/

/-- The operation can be written, has a table, and has mappings and a key where it needs them. -/
@[mk_iff]
structure ValidQuery (q : QueryShape) : Prop where
  operation : Statement.operationIssue? q.operation q.dialect q.primaryKey = none
  table : Statement.given q.table = true ∨
    q.operation = .select ∧ Statement.given q.customQuery = true
  schema : ∀ s, q.schema = some s → Statement.given s = true
  mappings : q.operation = .select ∨ q.mappings ≠ []
  key : ∀ k, q.primaryKey = some k → Statement.isKeyed q.operation = true → k.isEmpty = false →
    ∃ m ∈ q.mappings, m.destinationColumn = k

theorem queryIssues_eq_nil_iff {place : Place} {q : QueryShape} :
    queryIssues place q = [] ↔ ValidQuery q := by
  rw [validQuery_iff]
  simp only [queryIssues, List.append_eq_nil_iff, issueIf_eq_nil_iff, and_assoc]
  refine and_congr ?operation (and_congr ?table (and_congr ?schema (and_congr ?mappings ?key)))
  case operation => cases Statement.operationIssue? q.operation q.dialect q.primaryKey <;> simp
  case table => simp [or_iff_not_imp_left]
  case schema => cases q.schema <;> simp
  case mappings => simp [or_iff_not_imp_left]
  case key =>
    cases q.primaryKey with
    | none => simp
    | some key =>
      rw [issueIf_eq_nil_iff]
      constructor
      · rintro h _ ⟨⟩ hkeyed hkey
        simpa [hkeyed, hkey] using h
      · intro h
        specialize h key rfl
        revert h
        cases Statement.isKeyed q.operation <;> cases key.isEmpty <;> simp

/-! ## Steps -/

/-- The query of a database step, as validation knows it. -/
def databaseQuery (s : Step) : QueryShape where
  operation := s.database.queryType.getD .insert
  dialect := s.database.dialect.getD .ansi
  table := s.database.table
  primaryKey := s.database.primaryKey
  customQuery := s.database.extendedQuery
  mappings := s.fieldMappings

/-- The query of an SAP step, as validation knows it. -/
def sapQuery (s : Step) : QueryShape where
  operation := s.sap.queryType.getD .insert
  dialect := .hana
  table := s.sap.table
  primaryKey := s.sap.primaryKey
  schema := some s.sap.schema
  mappings := s.fieldMappings

/-- The condition is sound, and its branches lead to steps of a pipeline with so many. -/
structure ValidBranch (count : Nat) (b : BranchSettings) : Prop where
  condition : Condition.IsSound b.condition
  onTrue : ∀ n, b.onTrue = some n → 1 ≤ n ∧ n ≤ count
  onFalse : ∀ n, b.onFalse = some n → 1 ≤ n ∧ n ≤ count

/-- The settings that the kind of a step uses are complete. -/
def ValidSettings (count : Nat) (s : Step) : Prop :=
  match s.kind with
  | .restCall => s.rest.destinationId.isSome ∧
    ∀ t, s.rest.bodyTemplate = some t → t.isEmpty = false → ∃ v, Json.read? t = some v
  | .dbQuery => s.database.configId.isSome ∧ ValidQuery (databaseQuery s)
  | .sapQuery => s.sap.destinationId.isSome ∧ ValidQuery (sapQuery s)
  | .transform => s.renames.getD [] ≠ []
  | .condition => ValidBranch count s.branch
  | .delay => ∃ d, s.delaySeconds = some d ∧ d.lt .zero = false

theorem restIssues_eq_nil_iff {place : Place} {s : Step} :
    restIssues place s = [] ↔ s.rest.destinationId.isSome ∧
      ∀ t, s.rest.bodyTemplate = some t → t.isEmpty = false → ∃ v, Json.read? t = some v := by
  unfold restIssues
  rw [List.append_eq_nil_iff, issueIf_eq_nil_iff]
  refine and_congr (by simp) ?_
  cases s.rest.bodyTemplate with
  | none => simp
  | some t => simp [issueIf_eq_nil_iff, ← Option.isSome_iff_exists, Option.isSome_iff_ne_none]

theorem databaseIssues_eq_nil_iff {place : Place} {s : Step} :
    databaseIssues place s = [] ↔ s.database.configId.isSome ∧ ValidQuery (databaseQuery s) := by
  rw [databaseIssues, List.append_eq_nil_iff, issueIf_eq_nil_iff, ← queryIssues_eq_nil_iff]
  exact and_congr (by simp) Iff.rfl

theorem sapIssues_eq_nil_iff {place : Place} {s : Step} :
    sapIssues place s = [] ↔ s.sap.destinationId.isSome ∧ ValidQuery (sapQuery s) := by
  rw [sapIssues, List.append_eq_nil_iff, issueIf_eq_nil_iff, ← queryIssues_eq_nil_iff]
  exact and_congr (by simp) Iff.rfl

theorem conditionIssues_eq_nil_iff {place : Place} {count : Nat} {b : BranchSettings} :
    conditionIssues place count b = .ok [] ↔ ValidBranch count b := by
  unfold conditionIssues
  rw [bind_eq_ok_iff]
  constructor
  · rintro ⟨problems, hproblems, h⟩
    have hnil := Except.ok.inj h
    simp only [List.append_eq_nil_iff, List.map_eq_nil_iff, branchIssues_eq_nil_iff] at hnil
    obtain ⟨⟨rfl, onTrue⟩, onFalse⟩ := hnil
    exact ⟨Condition.isSound_iff.mpr hproblems, onTrue, onFalse⟩
  · rintro ⟨condition, onTrue, onFalse⟩
    refine ⟨[], Condition.isSound_iff.mp condition, ?_⟩
    rw [branchIssues_eq_nil_iff.mpr onTrue, branchIssues_eq_nil_iff.mpr onFalse]
    rfl

theorem kindIssues_eq_nil_iff {place : Place} {count : Nat} {s : Step} :
    kindIssues place count s = .ok [] ↔ ValidSettings count s := by
  unfold kindIssues ValidSettings
  cases s.kind with
  | restCall => rw [Except.ok.injEq, restIssues_eq_nil_iff]
  | dbQuery => rw [Except.ok.injEq, databaseIssues_eq_nil_iff]
  | sapQuery => rw [Except.ok.injEq, sapIssues_eq_nil_iff]
  | transform => rw [Except.ok.injEq, issueIf_eq_nil_iff, List.isEmpty_eq_false_iff]
  | condition => exact conditionIssues_eq_nil_iff
  | delay =>
    rw [Except.ok.injEq, issueIf_eq_nil_iff]
    cases s.delaySeconds <;> simp

/-- The settings of a step that every kind uses are in range, and so are those of its kind. -/
structure ValidStep (count : Nat) (s : Step) : Prop where
  maxRetries : 0 ≤ s.maxRetries
  timeout : s.timeout.le .zero = false
  mappings : ValidMappings s.fieldMappings
  settings : ValidSettings count s

theorem stepIssues_eq_nil_iff_validStep {place : Place} {count : Nat} {s : Step} :
    stepIssues place count s = .ok [] ↔ ValidStep count s := by
  rw [stepIssues_eq_nil_iff, mappingsIssues_eq_nil_iff, kindIssues_eq_nil_iff]
  exact ⟨fun ⟨h₁, h₂, h₃, h₄⟩ => ⟨h₁, h₂, h₃, h₄⟩, fun ⟨h₁, h₂, h₃, h₄⟩ => ⟨h₁, h₂, h₃, h₄⟩⟩

end Validation

/-! ## Pipelines -/

namespace Pipeline

open Validation

/-- The source is set by the number of its kind and no other, and so is the destination, which only
a pipeline with steps of its own can be without; the steps are numbered from one, and valid. -/
structure IsValid (p : Pipeline) : Prop where
  source : p.sourceId.isSome ∧ otherSourceId p = none
  destination : match p.destinationKind with
    | some k => setDestinations p = [k]
    | none => setDestinations p = [] ∧ p.steps ≠ []
  orders : p.sortedSteps.map (·.order)
    = (List.range p.sortedSteps.length).map fun i : Nat => (i : Int) + 1
  steps : ∀ s ∈ p.sortedSteps, ValidStep p.sortedSteps.length s
  /-- A REST destination is judged by its mappings alone. -/
  final : ∀ s, p.destinationStep? (p.sortedSteps.length + 1) = some s →
    if p.destinationKind = some .rest then ValidMappings p.delivery.fieldMappings
    else ValidStep p.sortedSteps.length s

end Pipeline

namespace Validation

theorem sourceIssues_eq_nil_iff {place : Place} {p : Pipeline} :
    sourceIssues place p = [] ↔ p.sourceId.isSome ∧ otherSourceId p = none := by
  rw [sourceIssues, issueIf_eq_nil_iff]
  simp

theorem destinationIssues_eq_nil_iff {place : Place} {p : Pipeline} :
    destinationIssues place p = [] ↔ match p.destinationKind with
      | some k => setDestinations p = [k]
      | none => setDestinations p = [] ∧ p.steps ≠ [] := by
  unfold destinationIssues
  cases p.destinationKind with
  | none => simp [issueIf_eq_nil_iff, Pipeline.isSequential]
  | some k => simp [issueIf_eq_nil_iff]

theorem stepsIssues_eq_nil_iff_validStep {place : Place} {count : Nat} {steps : List Step} :
    stepsIssues place count steps = .ok [] ↔ ∀ s ∈ steps, ValidStep count s := by
  simp only [stepsIssues_eq_nil_iff, stepIssues_eq_nil_iff_validStep]
  constructor
  · intro h s hs
    obtain ⟨i, hi⟩ := List.mem_iff_getElem?.mp hs
    exact h i s hi
  · exact fun h i s hi => h s (List.mem_of_getElem? hi)

theorem finalIssues_eq_nil_iff {place : Place} {count : Nat} {p : Pipeline} :
    finalIssues place count p = .ok [] ↔ ∀ s, p.destinationStep? (count + 1) = some s →
      if p.destinationKind = some .rest then ValidMappings p.delivery.fieldMappings
      else ValidStep count s := by
  unfold finalIssues
  cases p.destinationStep? (count + 1) with
  | none => simp
  | some s =>
    by_cases hrest : p.destinationKind = some .rest
    · simp [hrest, mappingsIssues_eq_nil_iff]
    · simp [hrest, stepIssues_eq_nil_iff_validStep]

/-- The pipelines without issues are the valid ones, wherever the issues would be reported. -/
theorem pipelineIssues_eq_nil_iff_isValid {place : Place} {p : Pipeline} :
    pipelineIssues place p = .ok [] ↔ p.IsValid := by
  have horders : orderIssues place p.sortedSteps = [] ↔ p.sortedSteps.map (·.order)
      = (List.range p.sortedSteps.length).map fun i : Nat => (i : Int) + 1 := by
    simp [orderIssues, issueIf_eq_nil_iff]
  rw [pipelineIssues_eq_nil_iff, sourceIssues_eq_nil_iff, destinationIssues_eq_nil_iff, horders,
    stepsIssues_eq_nil_iff_validStep, finalIssues_eq_nil_iff]
  constructor
  · rintro ⟨source, destination, orders, steps, final⟩
    exact ⟨source, destination, orders, steps, final⟩
  · rintro ⟨source, destination, orders, steps, final⟩
    exact ⟨source, destination, orders, steps, final⟩

end Validation

/-! ## Workflows -/

namespace Workflow

/-- The log is kept for some time, and the pipelines are valid and have different ids. -/
structure IsValid (w : Workflow) : Prop where
  retention : w.header.retentionHours.le .zero = false
  ids : (w.pipelines.map (·.id)).Nodup
  pipelines : ∀ p ∈ w.pipelines, p.IsValid

end Workflow

namespace Validation

open Outcome

/-- Pipelines are without issues when each is, and no two have the same id. -/
theorem pipelinesIssues_eq_nil_iff {ps : List Pipeline} :
    pipelinesIssues ps = .ok [] ↔
      ∀ i p, ps[i]? = some p → (ps.take i).any (·.id = p.id) = false ∧
        pipelineIssues [.field "pipelines", .index i] p = .ok [] := by
  unfold pipelinesIssues
  rw [mapM_zipIdx_eq_nil_iff]
  refine forall₃_congr fun i p _ => ?_
  rw [bind_eq_ok_iff]
  constructor
  · rintro ⟨own, hown, h⟩
    have hnil := Except.ok.inj h
    rw [List.append_eq_nil_iff, issueIf_eq_nil_iff] at hnil
    obtain ⟨hid, rfl⟩ := hnil
    exact ⟨hid, hown⟩
  · rintro ⟨hid, hown⟩
    refine ⟨[], hown, ?_⟩
    rw [issueIf_eq_nil_iff.mpr hid]
    rfl

end Validation

namespace Workflow

theorem issues_eq_nil_iff {w : Workflow} :
    w.issues = .ok [] ↔ Validation.retentionIssues [] w.header = [] ∧
      Validation.pipelinesIssues w.pipelines = .ok [] := by
  unfold issues
  rw [Outcome.bind_eq_ok_iff]
  constructor
  · rintro ⟨ofPipelines, hps, h⟩
    have hnil := Except.ok.inj h
    rw [List.append_eq_nil_iff] at hnil
    obtain ⟨hretention, rfl⟩ := hnil
    exact ⟨hretention, hps⟩
  · rintro ⟨hretention, hps⟩
    refine ⟨[], hps, ?_⟩
    rw [hretention]
    rfl

/-- The workflows without issues are the valid ones. -/
theorem issues_eq_nil_iff_isValid {w : Workflow} : w.issues = .ok [] ↔ w.IsValid := by
  rw [issues_eq_nil_iff, Validation.retentionIssues, Validation.issueIf_eq_nil_iff,
    Validation.pipelinesIssues_eq_nil_iff]
  simp only [Validation.pipelineIssues_eq_nil_iff_isValid]
  constructor
  · rintro ⟨retention, h⟩
    refine ⟨retention, Validation.nodup_iff_take.mpr fun i p hi => ?_, fun p hp => ?_⟩
    · simpa using (h i p hi).1
    · obtain ⟨i, hi⟩ := List.mem_iff_getElem?.mp hp
      exact (h i p hi).2
  · rintro ⟨retention, ids, pipelines⟩
    refine ⟨retention, fun i p hi => ⟨?_, pipelines p (List.mem_of_getElem? hi)⟩⟩
    simpa using Validation.nodup_iff_take.mp ids i p hi

/-- Among valid pipelines everything that is wrong can be told. -/
theorem exists_issues {w : Workflow} (h : ∀ p ∈ w.pipelines, p.IsValid) :
    ∃ issues, w.issues = .ok issues := by
  have hpipelines : ∀ x ∈ w.pipelines.zipIdx, ∃ issues, (do
      let place : Place := [.field "pipelines", .index x.2]
      let own ← Validation.pipelineIssues place x.1
      pure (Validation.issueIf ((w.pipelines.take x.2).any (·.id = x.1.id))
        (place ++ [.field "id"]) (.duplicatePipeline x.1.id) ++ own)) = Except.ok issues := by
    rintro ⟨p, i⟩ hp
    have hvalid := h p (List.mem_of_getElem? (List.mem_zipIdx_iff_getElem?.mp hp))
    exact ⟨_, Outcome.bind_eq_ok_iff.mpr
      ⟨[], Validation.pipelineIssues_eq_nil_iff_isValid.mpr hvalid, rfl⟩⟩
  obtain ⟨ofPipelines, hps⟩ := Outcome.exists_mapM hpipelines
  refine ⟨_, Outcome.bind_eq_ok_iff.mpr ⟨ofPipelines.flatten, ?_, rfl⟩⟩
  exact Outcome.bind_eq_ok_iff.mpr ⟨ofPipelines, hps, rfl⟩

/-- A workflow of one pipeline is without issues if its header and the pipeline are. -/
theorem issues_singleton {h : Header} {p : Pipeline}
    (hheader : Validation.retentionIssues [] h = [])
    (hp : Validation.pipelineIssues [.field "pipelines", .index 0] p = .ok []) :
    (Workflow.mk h [p]).issues = .ok [] := by
  refine issues_eq_nil_iff_isValid.mpr ⟨Validation.issueIf_eq_nil_iff.mp hheader, by simp, ?_⟩
  simpa using Validation.pipelineIssues_eq_nil_iff_isValid.mp hp

end Workflow
end Conveyor
