import Conveyor.Proofs.Pipeline.RoundTrip
import Conveyor.Proofs.Pipeline.Valid

/-!
# Loading what was saved

A workflow without issues has none in canonical order either, so that its document is loaded, and
as the workflow in canonical order.
-/

namespace Conveyor

/-! ## Plans -/

namespace Pipeline

theorem sortedSteps_canonical (p : Pipeline) :
    p.canonical.sortedSteps = p.sortedSteps.map Step.canonical := by
  unfold sortedSteps
  symm
  apply List.map_mergeSort
  intro a _ b _
  rfl

theorem destinationStep?_canonical (p : Pipeline) (order : Int) :
    p.canonical.destinationStep? order = (p.destinationStep? order).map Step.canonical := by
  unfold destinationStep?
  rw [Option.map_map]
  show p.destination?.map _ = _
  cases p.destination? with
  | none => rfl
  | some ref =>
    obtain ⟨kind, id⟩ := ref
    cases kind with
    | rest => rfl
    | sap => rfl
    | database => rfl

/-- The destination step has no condition and no settings of a condition. -/
theorem destinationStep?_branch {p : Pipeline} {order : Int} {s : Step}
    (h : p.destinationStep? order = some s) : s.branch = {} := by
  obtain ⟨⟨kind, id⟩, -, rfl⟩ := Option.map_eq_some_iff.mp h
  cases kind <;> rfl

/-- The steps of the plan are put in order one by one. -/
theorem plan_canonical (p : Pipeline) : p.canonical.plan = p.plan.map Step.canonical := by
  show p.canonical.sortedSteps ++
    (p.canonical.destinationStep? (p.canonical.sortedSteps.length + 1)).toList =
      (p.sortedSteps ++ (p.destinationStep? (p.sortedSteps.length + 1)).toList).map Step.canonical
  rw [sortedSteps_canonical, destinationStep?_canonical, List.length_map, List.map_append]
  cases p.destinationStep? (p.sortedSteps.length + 1) with
  | none => rfl
  | some s => rfl

end Pipeline

/-! ## Regular parts -/

theorem Wire.isRegular_present {fields : List (String × Option Value)} {v : Value}
    (h : (Value.object (Wire.present fields)).isRegular = true) (name : String)
    (hmem : (name, some v) ∈ fields) : v.isRegular = true :=
  ((Value.isRegular_object _).mp h).2 _ (Wire.mem_present.mpr hmem)

theorem Wire.isRegular_item {α : Type} {wire : α → Value} {fields : List (String × Option Value)}
    (h : (Value.object (present fields)).isRegular = true) (name : String) {items : List α}
    (hmem : (name, some (.list (items.map wire))) ∈ fields) {a : α} (ha : a ∈ items) :
    (wire a).isRegular = true :=
  (Value.isRegular_list _).mp (isRegular_present h name hmem) _ (List.mem_map_of_mem ha)

theorem FieldMapping.isRegular_default {m : FieldMapping} (h : m.wire.isRegular = true) :
    m.defaultValue.isRegular = true := by
  by_cases hnull : m.defaultValue.isNull = true
  · cases hdefault : m.defaultValue with
    | null => rfl
    | _ =>
      rw [hdefault] at hnull
      cases hnull
  · exact Wire.isRegular_present h "defaultValue" (by simp [hnull])

theorem Step.isRegular_mapping {s : Step} (h : s.wire.isRegular = true) {m : FieldMapping}
    (hm : m ∈ s.fieldMappings) : m.wire.isRegular = true :=
  Wire.isRegular_item h "fieldMappings" (by simp [mappingsWire]) hm

theorem Step.nodup_renames {s : Step} (h : s.wire.isRegular = true) {m : Keyed String}
    (hm : s.renames = some m) : m.keys.Nodup := by
  have hobject := Wire.isRegular_present (v := .object (m.mapValues .text)) h "transformExpression"
    (by simp [hm])
  rw [← Keyed.keys_mapValues Value.text]
  exact ((Value.isRegular_object _).mp hobject).1

theorem Step.isRegular_fields {s : Step} (h : s.wire.isRegular = true) {fs : Fields}
    (hfs : s.inputMapping = some fs ∨ s.branch.expression = some fs) :
    (Value.object fs).isRegular = true := by
  rcases hfs with hinput | hexpression
  · exact Wire.isRegular_present h "inputMapping" (by simp [Wire.fields, hinput])
  · refine Wire.isRegular_present h "conditionExpression" ?_
    simp [BranchSettings.wireFields, Wire.fields, hexpression]

/-- The condition of a regular step is regular. -/
theorem Step.isRegular_condition {s : Step} (h : s.wire.isRegular = true) :
    s.branch.condition.isRegular = true := by
  unfold BranchSettings.condition
  cases hfs : s.branch.expression with
  | none => rfl
  | some fs => exact isRegular_fields h (.inr hfs)

theorem Pipeline.isRegular_step {p : Pipeline} (h : p.wire.isRegular = true) {s : Step}
    (hs : s ∈ p.steps) : s.wire.isRegular = true :=
  Wire.isRegular_item h "steps" (by simp) hs

theorem Pipeline.isRegular_mapping {p : Pipeline} (h : p.wire.isRegular = true)
    {m : FieldMapping} (hm : m ∈ p.delivery.fieldMappings) : m.wire.isRegular = true :=
  Wire.isRegular_item h "fieldMappings" (by simp [Delivery.wireFields, mappingsWire]) hm

theorem Workflow.isRegular_pipeline {w : Workflow} (h : w.wire.isRegular = true)
    {p : Pipeline} (hp : p ∈ w.pipelines) : p.wire.isRegular = true :=
  Wire.isRegular_item h "pipelines" (by simp) hp

/-! ## Validity -/

namespace Validation

/-- Mappings are judged by their names alone. -/
theorem ValidMappings.canonical {ms : List FieldMapping} (h : ValidMappings ms) :
    ValidMappings (ms.map FieldMapping.canonical) := by
  obtain ⟨columns, sources, transforms⟩ := h
  refine ⟨?_, ?_, List.forall_mem_map.mpr transforms⟩
  · rw [List.map_map]
    exact columns
  · rw [List.map_map]
    exact sources

theorem ValidQuery.canonical {q : QueryShape} (h : ValidQuery q) :
    ValidQuery { q with mappings := q.mappings.map FieldMapping.canonical } := by
  obtain ⟨operation, table, schema, mappings, key⟩ := h
  refine ⟨operation, table, schema, mappings.imp_right (by simp), fun k hk hkeyed hgiven => ?_⟩
  obtain ⟨m, hm, hcolumn⟩ := key k hk hkeyed hgiven
  exact ⟨m.canonical, List.mem_map_of_mem hm, hcolumn⟩

theorem condition_canonical (b : BranchSettings) :
    b.canonical.condition = Json.sortKeys b.condition := by
  obtain ⟨expression, onTrue, onFalse⟩ := b
  cases expression with
  | none => rfl
  | some fs => exact (Json.sortKeys_object fs).symm

/-- A sound condition is sound in canonical order. -/
theorem ValidBranch.canonical {count : Nat} {b : BranchSettings}
    (hb : b.condition.isRegular = true) (h : ValidBranch count b) :
    ValidBranch count b.canonical := by
  obtain ⟨condition, onTrue, onFalse⟩ := h
  refine ⟨?_, onTrue, onFalse⟩
  rw [condition_canonical]
  exact condition.sortKeys hb

theorem renames_ne_nil_canonical {s : Step} (h : s.renames.getD [] ≠ []) :
    s.canonical.renames.getD [] ≠ [] := by
  show (s.renames.map Keyed.sorted).getD [] ≠ []
  cases hrenames : s.renames with
  | none => exact absurd (by rw [hrenames]; rfl) h
  | some m =>
    rw [hrenames] at h
    intro hnil
    have hperm := Keyed.sorted_perm m
    rw [show m.sorted = [] from hnil] at hperm
    exact h hperm.nil_eq.symm

/-- The settings of a step are complete in canonical order if they are. -/
theorem ValidSettings.canonical {count : Nat} {s : Step}
    (hs : s.branch.condition.isRegular = true) (h : ValidSettings count s) :
    ValidSettings count s.canonical := by
  unfold ValidSettings at h ⊢
  rw [Step.canonical_kind]
  cases hkind : s.kind with
  | restCall =>
    rw [hkind] at h
    exact h
  | dbQuery =>
    rw [hkind] at h
    exact ⟨h.1, h.2.canonical⟩
  | sapQuery =>
    rw [hkind] at h
    exact ⟨h.1, h.2.canonical⟩
  | transform =>
    rw [hkind] at h
    exact renames_ne_nil_canonical h
  | condition =>
    rw [hkind] at h
    exact h.canonical hs
  | delay =>
    rw [hkind] at h
    exact h

theorem ValidStep.canonical {count : Nat} {s : Step}
    (hs : s.branch.condition.isRegular = true) (h : ValidStep count s) :
    ValidStep count s.canonical :=
  ⟨h.maxRetries, h.timeout, h.mappings.canonical, h.settings.canonical hs⟩

end Validation

open Validation

/-- A pipeline is valid in canonical order if it is. -/
theorem Pipeline.IsValid.canonical {p : Pipeline}
    (hp : p.wire.isRegular = true) (h : p.IsValid) : p.canonical.IsValid := by
  obtain ⟨source, destination, orders, steps, final⟩ := h
  have hlength : p.canonical.sortedSteps.length = p.sortedSteps.length := by
    rw [sortedSteps_canonical, List.length_map]
  refine ⟨source, ?_, ?_, ?_, ?_⟩
  · rw [show p.canonical.destinationKind = p.destinationKind from rfl]
    cases hkind : p.destinationKind with
    | some k =>
      rw [hkind] at destination
      exact destination
    | none =>
      rw [hkind] at destination
      exact ⟨destination.1, fun hnil => destination.2 (List.map_eq_nil_iff.mp hnil)⟩
  · rw [hlength, sortedSteps_canonical, List.map_map]
    exact orders
  · rw [hlength, sortedSteps_canonical]
    refine List.forall_mem_map.mpr fun s hs => ?_
    have hcondition := Step.isRegular_condition (isRegular_step hp (List.mem_mergeSort.mp hs))
    exact (steps s hs).canonical hcondition
  · rw [hlength]
    intro s hs
    rw [destinationStep?_canonical] at hs
    obtain ⟨t, ht, rfl⟩ := Option.map_eq_some_iff.mp hs
    have hfinal := final t ht
    show if p.destinationKind = some .rest then
      ValidMappings (p.delivery.fieldMappings.map FieldMapping.canonical) else _
    by_cases hrest : p.destinationKind = some .rest
    · rw [if_pos hrest] at hfinal ⊢
      exact hfinal.canonical
    · rw [if_neg hrest] at hfinal ⊢
      -- the destination step has no condition of its own
      have hcondition : t.branch.condition.isRegular = true := by
        rw [destinationStep?_branch ht]
        rfl
      exact hfinal.canonical hcondition

/-- A workflow is valid in canonical order if it is. -/
theorem Workflow.IsValid.canonical {w : Workflow}
    (hw : w.wire.isRegular = true) (h : w.IsValid) : w.canonical.IsValid := by
  obtain ⟨retention, ids, pipelines⟩ := h
  refine ⟨retention, ?_, ?_⟩
  · show ((w.pipelines.map Pipeline.canonical).map (·.id)).Nodup
    rw [List.map_map]
    exact ids
  · exact List.forall_mem_map.mpr fun p hp => (pipelines p hp).canonical (isRegular_pipeline hw hp)

/-! ## The text -/

theorem Wire.inOrder_present {fields more : List (String × Option Value)}
    (h : fields.map (fun f => (f.1, f.2.map Json.sortKeys)) =
      more.map fun f => (f.1, f.2.map Json.sortKeys)) :
    Fields.inOrder (Wire.present fields) = Fields.inOrder (Wire.present more) := by
  have hpresent : ∀ fields : List (String × Option Value),
      Keyed.mapValues Json.sortKeys (Wire.present fields) =
        Wire.present (fields.map fun f => (f.1, f.2.map Json.sortKeys)) := by
    intro fields
    unfold Keyed.mapValues Wire.present
    rw [List.map_filterMap, List.filterMap_map]
    congr 1
    funext f
    obtain ⟨name, v⟩ := f
    cases v with
    | none => rfl
    | some v => rfl
  rw [Fields.inOrder, Fields.inOrder, hpresent, hpresent, h]

theorem sortKeys_map_wire {α : Type} {canonical : α → α} {wire : α → Value}
    (h : ∀ a, Json.sortKeys (wire (canonical a)) = Json.sortKeys (wire a)) (items : List α) :
    Json.sortKeys (.list ((items.map canonical).map wire)) =
      Json.sortKeys (.list (items.map wire)) := by
  rw [Json.sortKeys_list, Json.sortKeys_list, List.map_map, List.map_map, List.map_map]
  congr 1
  exact List.map_congr_left fun a _ => h a

theorem isNull_sortKeys (v : Value) : (Json.sortKeys v).isNull = v.isNull := by
  cases v <;> rfl

theorem FieldMapping.sortKeys_wire (m : FieldMapping) :
    Json.sortKeys m.canonical.wire = Json.sortKeys m.wire := by
  rw [wire, wire, Json.sortKeys_object, Json.sortKeys_object]
  refine congrArg _ (Wire.inOrder_present ?_)
  simp only [canonical, List.map_cons, List.map_nil, isNull_sortKeys]
  split <;> simp only [Option.map_none, Option.map_some, Json.sortKeys_sortKeys]

theorem Step.sortKeys_wire (s : Step) : Json.sortKeys s.canonical.wire = Json.sortKeys s.wire := by
  have hmappings := sortKeys_map_wire FieldMapping.sortKeys_wire s.fieldMappings
  have hfields : ∀ o : Option Fields, (Wire.fields (o.map Fields.inOrder)).map Json.sortKeys =
      (Wire.fields o).map Json.sortKeys := by
    intro o
    cases o with
    | none => rfl
    | some fs =>
      simp only [Wire.fields, Option.map_some, Json.sortKeys_object, Fields.inOrder_inOrder]
  have hrenames : ((s.renames.map Keyed.sorted).map fun m =>
      Value.object (m.mapValues .text)).map Json.sortKeys =
        (s.renames.map fun m => Value.object (m.mapValues .text)).map Json.sortKeys := by
    cases s.renames with
    | none => rfl
    | some m =>
      simp only [Option.map_some, Json.sortKeys_object, Fields.inOrder, Keyed.sorted_mapValues,
        Keyed.sorted_sorted]
  rw [wire, wire, Json.sortKeys_object, Json.sortKeys_object]
  refine congrArg _ (Wire.inOrder_present ?_)
  simp only [canonical, BranchSettings.canonical, BranchSettings.wireFields, List.map_append,
    List.map_cons, List.map_nil, mappingsWire, Option.map_some, hmappings, hfields, hrenames]

theorem Pipeline.sortKeys_wire (p : Pipeline) :
    Json.sortKeys p.canonical.wire = Json.sortKeys p.wire := by
  have hmappings := sortKeys_map_wire FieldMapping.sortKeys_wire p.delivery.fieldMappings
  have hsteps := sortKeys_map_wire Step.sortKeys_wire p.steps
  rw [wire, wire, Json.sortKeys_object, Json.sortKeys_object]
  refine congrArg _ (Wire.inOrder_present ?_)
  simp only [canonical, Delivery.canonical, Delivery.wireFields, List.map_append, List.map_cons,
    List.map_nil, mappingsWire, Option.map_some, hmappings, hsteps]

theorem Workflow.sortKeys_wire (w : Workflow) :
    Json.sortKeys w.canonical.wire = Json.sortKeys w.wire := by
  have hpipelines := sortKeys_map_wire Pipeline.sortKeys_wire w.pipelines
  rw [wire, wire, Json.sortKeys_object, Json.sortKeys_object]
  refine congrArg _ (Wire.inOrder_present ?_)
  simp only [canonical, List.map_append, List.map_cons, List.map_nil, Option.map_some, hpipelines]

theorem Workflow.isRegular_canonical (w : Workflow) :
    w.canonical.wire.isRegular = w.wire.isRegular := by
  rw [← Json.isRegular_sortKeys, sortKeys_wire, Json.isRegular_sortKeys]

theorem Workflow.isReadable_canonical (w : Workflow) :
    w.canonical.wire.isReadable = w.wire.isReadable := by
  rw [← Json.isReadable_sortKeys, sortKeys_wire, Json.isReadable_sortKeys]

/-! ### Values of any form -/

section

variable {P : Value → Prop} (same : ∀ v, P (Json.sortKeys v) ↔ P v)

include same

theorem forall_values_inOrder (o : Option Fields) :
    (∀ v ∈ Fields.values ((o.map Fields.inOrder).getD []), P v) ↔
      ∀ v ∈ Fields.values (o.getD []), P v := by
  cases o with
  | none => exact Iff.rfl
  | some fs =>
    have hmem : ∀ f, f ∈ Fields.inOrder fs ↔ f ∈ fs.map fun g => (g.1, Json.sortKeys g.2) :=
      fun f => (Keyed.sorted_perm _).mem_iff
    simp only [Option.map_some, Option.getD_some, Fields.values, List.forall_mem_map, hmem, same]

theorem forall_defaults_canonical (ms : List FieldMapping) :
    (∀ v ∈ defaultsOf (ms.map FieldMapping.canonical), P v) ↔ ∀ v ∈ defaultsOf ms, P v := by
  simp only [defaultsOf, List.forall_mem_map]
  exact forall₂_congr fun m _ => same m.defaultValue

theorem Step.forall_freeValues_canonical (s : Step) :
    (∀ v ∈ s.canonical.freeValues, P v) ↔ ∀ v ∈ s.freeValues, P v := by
  simp only [freeValues, List.forall_mem_append]
  exact and_congr (and_congr (forall_values_inOrder same _) (forall_defaults_canonical same _))
    (forall_values_inOrder same _)

theorem Pipeline.forall_freeValues_canonical (p : Pipeline) :
    (∀ v ∈ p.canonical.freeValues, P v) ↔ ∀ v ∈ p.freeValues, P v := by
  simp only [freeValues, List.forall_mem_append, List.forall_mem_flatMap]
  refine and_congr (forall_defaults_canonical same _) ?_
  simp only [canonical, List.forall_mem_map, Step.forall_freeValues_canonical same]

/-- The values of any form have in canonical order what values keep when they are put in order. -/
theorem Workflow.forall_freeValues_canonical (w : Workflow) :
    (∀ v ∈ w.canonical.freeValues, P v) ↔ ∀ v ∈ w.freeValues, P v := by
  simp only [freeValues, List.forall_mem_flatMap, canonical, List.forall_mem_map,
    Pipeline.forall_freeValues_canonical same]

end

theorem Workflow.isWritable_canonical {w : Workflow} : w.canonical.IsWritable ↔ w.IsWritable := by
  have hflat := w.forall_freeValues_canonical (P := fun v => v.depth ≤ Value.maxDepth)
    fun v => by rw [Value.depth_sortKeys]
  constructor
  · rintro ⟨flat, readable⟩
    exact ⟨hflat.mp flat, by rwa [isReadable_canonical] at readable⟩
  · rintro ⟨flat, readable⟩
    exact ⟨hflat.mpr flat, by rwa [isReadable_canonical]⟩

/-- A workflow is saved as the same text whatever the order of names among its settings. -/
theorem Workflow.documentText_canonical {w : Workflow} {s : String} :
    w.canonical.documentText = .ok s ↔ w.documentText = .ok s := by
  have hsame : Json.write .canonical w.canonical.wire = Json.write .canonical w.wire := by
    show String.ofList (Json.writeAt .canonical 0 (Json.sortKeys w.canonical.wire)) = _
    rw [sortKeys_wire]
    rfl
  rw [documentText_eq_ok_iff, documentText_eq_ok_iff, isWritable_canonical, hsame]

/-! ## Loading -/

namespace Workflow

/-- What is loaded is what was read, if it is valid. -/
theorem load_eq_ok_iff {d : Document} {loaded : Workflow} :
    load d = .ok loaded ↔ d.read Workflow.read = .ok loaded ∧ loaded.IsValid := by
  rw [load, Outcome.bind_eq_ok_iff]
  simp only [Outcome.mapError_eq_ok_iff, ← issues_eq_nil_iff_isValid]
  constructor
  · rintro ⟨w, hread, h⟩
    obtain ⟨issues, hissues, h⟩ := Outcome.bind_eq_ok_iff.mp h
    rw [Outcome.mapError_eq_ok_iff] at hissues
    split at h
    · rename_i hempty
      rw [List.isEmpty_iff] at hempty
      cases h
      exact ⟨hread, hempty ▸ hissues⟩
    · cases h
  · rintro ⟨hread, hissues⟩
    refine ⟨loaded, hread, ?_⟩
    rw [hissues]
    rfl

/-- A workflow is loaded from its document if it is valid in canonical order, and in that order. -/
theorem load_documentText_eq_ok_iff {w loaded : Workflow} {s : String}
    (hw : w.wire.isRegular = true) (hs : w.documentText = .ok s) :
    load (.text s) = .ok loaded ↔ w.canonical.IsValid ∧ loaded = w.canonical := by
  rw [load_eq_ok_iff, read_documentText hw hs, Except.ok.injEq]
  constructor
  · rintro ⟨rfl, hvalid⟩
    exact ⟨hvalid, rfl⟩
  · rintro ⟨hvalid, rfl⟩
    exact ⟨rfl, hvalid⟩

/-- What was saved is loaded in canonical order. -/
theorem load_documentText {w : Workflow} {s : String} (hw : w.wire.isRegular = true)
    (h : w.issues = .ok []) (hs : w.documentText = .ok s) :
    load (.text s) = .ok w.canonical :=
  (load_documentText_eq_ok_iff hw hs).mpr ⟨(issues_eq_nil_iff_isValid.mp h).canonical hw, rfl⟩

/-- The pipelines keep their ids. -/
theorem pipeline?_canonical (w : Workflow) (id : String) :
    w.canonical.pipeline? id = (w.pipeline? id).map Pipeline.canonical := by
  unfold pipeline?
  show (w.pipelines.map Pipeline.canonical).find? _ = _
  rw [List.find?_map]
  rfl

end Workflow
end Conveyor
