import Conveyor.Destination.Recording
import Conveyor.Proofs.Pipeline.Reload
import Conveyor.Proofs.Run.Trail

/-!
# Runs of what was loaded

A pipeline that was saved and loaded runs as before, if no step that it takes depends on the order
of names among its settings. A transform can: it renames one field after the other.
-/

namespace Conveyor

/-- The objects among the settings that the kind of a step uses have their names in order, as far
as what the step does depends on it. -/
structure Step.IsOrdered (s : Step) : Prop where
  -- a template can put the input into a text
  input : s.inputMapping.map Fields.inOrder = s.inputMapping
  -- a default can become a text
  defaults : s.kind = .restCall ∨ s.kind = .dbQuery ∨ s.kind = .sapQuery →
    ∀ m ∈ s.fieldMappings, m.nullHandling = .useDefault →
      Json.sortKeys m.defaultValue = m.defaultValue
  -- a later rename may find what an earlier one has left
  renames : s.kind = .transform → s.renames.map Keyed.sorted = s.renames
  -- an operand can be compared as a text
  operands : s.kind = .condition → Condition.OperandsInOrder s.branch.condition

/-! ## What a step does -/

namespace Mapping

/-- A default that stands for no missing value has no effect. -/
theorem resolveField_canonical (record : Fields) {m : FieldMapping}
    (h : m.nullHandling = .useDefault → Json.sortKeys m.defaultValue = m.defaultValue) :
    resolveField record m.canonical = resolveField record m := by
  have hfill : fillMissing m.canonical = fillMissing m := by
    cases hhandling : m.nullHandling with
    | useDefault =>
      have hsame : m.canonical = m := by
        rw [FieldMapping.canonical, h hhandling]
      rw [hsame]
    | skip =>
      unfold fillMissing
      rw [show m.canonical.nullHandling = .skip from hhandling, hhandling]
    | required =>
      unfold fillMissing
      rw [show m.canonical.nullHandling = .required from hhandling, hhandling]
      rfl
  unfold resolveField
  rw [hfill]
  rfl

theorem resolveFrom_canonical (record : Fields) (seen : List String) {ms : List FieldMapping}
    (h : ∀ m ∈ ms, m.nullHandling = .useDefault → Json.sortKeys m.defaultValue = m.defaultValue) :
    resolveFrom record seen (ms.map FieldMapping.canonical) = resolveFrom record seen ms := by
  induction ms generalizing seen with
  | nil => rfl
  | cons m rest ih =>
    obtain ⟨hm, hrest⟩ := List.forall_mem_cons.mp h
    rw [List.map_cons, resolveFrom, resolveFrom, resolveField_canonical record hm]
    show (if seen.contains m.destinationColumn then _ else _) = _
    simp only [ih _ hrest]
    rfl

end Mapping

namespace Step

variable {s : Step}

theorem resolve_canonical (h : s.IsOrdered)
    (hkind : s.kind = .restCall ∨ s.kind = .dbQuery ∨ s.kind = .sapQuery) (record : Fields) :
    Mapping.resolve record s.canonical.fieldMappings = Mapping.resolve record s.fieldMappings :=
  Mapping.resolveFrom_canonical record [] (h.defaults hkind)

theorem queryAction_canonical (h : s.IsOrdered) (hkind : s.kind = .dbQuery ∨ s.kind = .sapQuery)
    (input : Value) : s.canonical.queryAction input = s.queryAction input := by
  unfold queryAction
  simp only [resolve_canonical h (.inr hkind)]
  rfl

theorem restAction_canonical (h : s.IsOrdered) (hkind : s.kind = .restCall) (scope : Scope)
    (input : Value) : s.canonical.restAction scope input = s.restAction scope input := by
  have hempty : s.canonical.fieldMappings.isEmpty = s.fieldMappings.isEmpty := List.isEmpty_map
  have hbody : s.canonical.restBody scope input = s.restBody scope input := by
    unfold restBody
    simp only [resolve_canonical h (.inl hkind), hempty]
    rfl
  unfold restAction
  rw [hbody]
  rfl

theorem transformAction_canonical (h : s.IsOrdered) (hkind : s.kind = .transform) (input : Value) :
    s.canonical.transformAction input = s.transformAction input := by
  have hrenames : s.canonical.renames = s.renames := h.renames hkind
  unfold transformAction
  rw [hrenames]
  rfl

theorem conditionAction_canonical (h : s.IsOrdered) (hkind : s.kind = .condition)
    (hsound : Condition.IsSound s.branch.condition)
    (regular : s.branch.condition.isRegular = true) (input : Value) :
    s.canonical.conditionAction input = s.conditionAction input := by
  have hevaluate := Condition.evaluate_sortKeys input (h.operands hkind) hsound regular
  unfold conditionAction
  cases hfs : s.branch.expression with
  | none =>
    rw [BranchSettings.condition, hfs] at hsound
    cases hsound
  | some fs =>
    have hfs' : s.canonical.branch.expression = some fs.inOrder := by
      show s.branch.expression.map Fields.inOrder = _
      rw [hfs]
      rfl
    rw [BranchSettings.condition, hfs] at hevaluate
    rw [Json.sortKeys_object] at hevaluate
    rw [hfs', Option.getD_some, hevaluate]
    rfl

/-- A step that does not depend on the order of names does the same with its names in order. -/
theorem action_canonical (h : s.IsOrdered)
    (hcondition : s.kind = .condition → Condition.IsSound s.branch.condition)
    (regular : s.branch.condition.isRegular = true) (scope : Scope) :
    s.canonical.action scope = s.action scope := by
  have hinput : s.canonical.inputMapping = s.inputMapping := h.input
  unfold action
  rw [hinput]
  congr 1
  funext input
  rw [canonical_kind]
  cases hkind : s.kind with
  | restCall => exact restAction_canonical h hkind scope input
  | dbQuery => exact queryAction_canonical h (.inl hkind) input
  | sapQuery => exact queryAction_canonical h (.inr hkind) input
  | transform => exact transformAction_canonical h hkind input
  | condition => exact conditionAction_canonical h hkind (hcondition hkind) regular input
  | delay => rfl

end Step

/-! ## Runs -/

namespace Run

variable {c : ExecutorConfig} {s : Step}

theorem invoke_canonical (h : ∀ scope, s.canonical.action scope = s.action scope) (scope : Scope)
    (p : Progress) : invoke s.canonical scope p = invoke s scope p := by
  have htime : invokeInTime s.canonical scope p = invokeInTime s scope p := by
    unfold invokeInTime
    rw [h scope]
    rfl
  unfold invoke
  rw [htime]
  rfl

theorem attempt_canonical (h : ∀ scope, s.canonical.action scope = s.action scope) (scope : Scope)
    (p : Progress) : attempt c s.canonical scope p = attempt c s scope p := by
  have hfrom : ∀ n first q,
      attemptFrom c s.canonical scope first q n = attemptFrom c s scope first q n := by
    intro n
    induction n with
    | zero =>
      intro first q
      rw [attemptFrom, attemptFrom, invoke_canonical h]
    | succ n ih =>
      intro first q
      rw [attemptFrom, attemptFrom, invoke_canonical h]
      simp only [ih]
      rfl
  exact hfrom (retries s) 1 p

/-- Only a step that is active has to do the same. -/
theorem advance_canonical
    (h : s.isActive = true → ∀ scope, s.canonical.action scope = s.action scope) (scope : Scope)
    (p : Progress) : advance c s.canonical scope p = advance c s scope p := by
  unfold advance
  show (if s.isActive then _ else _) = _
  cases hactive : s.isActive with
  | true =>
    rw [attempt_canonical (h hactive)]
    rfl
  | false => rfl

theorem stepAt?_canonical (plan : List Step) (order : Int) :
    stepAt? (plan.map Step.canonical) order = (stepAt? plan order).map Step.canonical := by
  unfold stepAt?
  rw [← List.map_reverse, List.find?_map]
  rfl

/-- The steps of a plan, taken one after the other, do the same. -/
theorem loop_canonical {plan : List Step}
    (h : ∀ s ∈ plan, s.isActive = true → ∀ scope, s.canonical.action scope = s.action scope)
    (scope : Scope) (p : Progress) (order : Int) (fuel : Nat) :
    loop c (plan.map Step.canonical) scope p order fuel = loop c plan scope p order fuel := by
  refine loop_congr (fun order => ?_) scope p order fuel
  rw [stepAt?_canonical]
  cases hstep : stepAt? plan order with
  | none => exact .inl ⟨rfl, rfl⟩
  | some s =>
    -- numbers and branches are kept, so the run goes on with the same number
    have hmem : s ∈ plan := List.mem_reverse.mp (List.mem_of_find?_eq_some hstep)
    exact .inr ⟨s, s.canonical, rfl, rfl, advance_canonical (h s hmem)⟩

theorem steps_canonical {plan : List Step}
    (h : ∀ s ∈ plan, s.isActive = true → ∀ scope, s.canonical.action scope = s.action scope)
    (scope : Scope) (p : Progress) :
    steps c (plan.map Step.canonical) scope p = steps c plan scope p := by
  cases plan with
  | nil => rfl
  | cons s rest => exact loop_canonical h scope p s.order c.maxTransitions.toNat

theorem destinationLabel_canonical (p : Pipeline) :
    p.canonical.destinationLabel = p.destinationLabel := by
  have hown : p.canonical.destination? = p.destination? := rfl
  have hsteps : p.canonical.steps.filterMap (fun s => s.destination?.map DestinationRef.text) =
      p.steps.filterMap fun s => s.destination?.map DestinationRef.text := List.filterMap_map
  rw [Pipeline.destinationLabel, Pipeline.destinationLabel, hown, hsteps]

/-- A pipeline whose active steps do the same in canonical order runs the same. -/
theorem run_canonical {p : Pipeline}
    (h : ∀ s ∈ p.plan, s.isActive = true → ∀ scope, s.canonical.action scope = s.action scope)
    (logged : Bool) (r : InboundRecord) (w : Workflow) :
    p.canonical.run c logged r (some w.canonical) = p.run c logged r (some w) := by
  have hopen : openEntry logged r p.canonical (some w.canonical) =
      openEntry logged r p (some w) := by
    unfold openEntry Journal.start
    rw [destinationLabel_canonical]
    rfl
  unfold Pipeline.run
  rw [hopen, Pipeline.plan_canonical]
  simp only [steps_canonical h]
  rfl

/-! ## Valid workflows -/

open Validation

/-- The condition of a step of the plan is sound, and its names are told apart. -/
theorem condition_of_plan {place : Place} {p : Pipeline} (valid : pipelineIssues place p = .ok [])
    (regular : p.wire.isRegular = true) {s : Step} (hs : s ∈ p.plan) :
    s.branch.condition.isRegular = true ∧
      (s.kind = .condition → Condition.IsSound s.branch.condition) := by
  obtain ⟨-, -, -, hsteps, -⟩ := pipelineIssues_eq_nil_iff.mp valid
  obtain ⟨i, hi⟩ := List.mem_iff_getElem?.mp hs
  rcases Pipeline.getElem?_plan hi with hown | ⟨-, hfinal⟩
  · have hmem : s ∈ p.steps := List.mem_mergeSort.mp (List.mem_of_getElem? hown)
    refine ⟨Step.isRegular_condition (Pipeline.isRegular_step regular hmem), fun hkind => ?_⟩
    obtain ⟨-, -, -, hissues⟩ :=
      stepIssues_eq_nil_iff.mp (stepsIssues_eq_nil_iff.mp hsteps i s hown)
    rw [kindIssues, hkind] at hissues
    exact (conditionIssues_eq_nil_iff.mp hissues).condition
  · refine ⟨?_, fun hkind => absurd hkind (Pipeline.destinationStep?_eq_some hfinal).2.1⟩
    rw [Pipeline.destinationStep?_branch hfinal]
    rfl

/-- A valid workflow that can be written is loaded from its text as itself, but for the order of
names among its settings; it is saved as the same text again. A pipeline of it runs as before it
was saved, at one go or not and whatever its surroundings reply, if what its steps do does not
depend on that order. -/
theorem reloaded_runs_alike {w : Workflow} (regular : w.wire.isRegular = true)
    (valid : w.issues = .ok []) :
    ((∃ s, w.documentText = .ok s) ↔ w.IsWritable) ∧
      ∀ s, w.documentText = .ok s →
        ∃ loaded, Workflow.load (.text s) = .ok loaded ∧ loaded = w.canonical ∧
          loaded.documentText = .ok s ∧
          ∀ id, loaded.pipeline? id = (w.pipeline? id).map Pipeline.canonical ∧
            ∀ p, w.pipeline? id = some p → (∀ t ∈ p.plan, t.isActive = true → t.IsOrdered) →
              ∀ c logged r,
                p.canonical.run c logged r (some loaded) = p.run c logged r (some w) := by
  refine ⟨Workflow.exists_documentText, fun s written => ⟨w.canonical,
    Workflow.load_documentText regular valid written, rfl,
    Workflow.documentText_canonical.mpr written,
    fun id => ⟨w.pipeline?_canonical id, fun p hp ordered c logged r => ?_⟩⟩⟩
  have hmem : p ∈ w.pipelines := List.mem_of_find?_eq_some hp
  obtain ⟨i, hi⟩ := List.mem_iff_getElem?.mp hmem
  obtain ⟨-, hpipelines⟩ := Workflow.issues_eq_nil_iff.mp valid
  obtain ⟨-, hissues⟩ := pipelinesIssues_eq_nil_iff.mp hpipelines i p hi
  refine run_canonical (fun t ht active scope => ?_) logged r w
  obtain ⟨hcondition, hsound⟩ :=
    condition_of_plan hissues (Workflow.isRegular_pipeline regular hmem) ht
  exact Step.action_canonical (ordered t ht active) hsound hcondition scope

/-- A condition whose names are out of order, before a transform. -/
def guarded : Pipeline where
  id := "guarded"
  sourceKind := .senderApp
  applicationId := some 1
  destinationKind := some .rest
  restId := some 7
  steps :=
    [{ order := 1
       name := "check"
       kind := .condition
       branch :=
         { expression := some [("operator", .text "exists"), ("field", .text "level")]
           onFalse := some 2 } },
      { order := 2, name := "rename", kind := .transform, renames := some [("height", "level")] }]

theorem guarded_runs_alike :
    let w : Workflow := ⟨{ id := "sole", name := "sole" }, [guarded]⟩
    w.wire.isRegular = true ∧ w.issues = .ok [] ∧ (∀ s ∈ guarded.plan, s.IsOrdered) ∧
      ∃ s loaded, w.documentText = .ok s ∧ Workflow.load (.text s) = .ok loaded ∧
        loaded.pipeline? "guarded" = some guarded.canonical ∧
        ∀ c logged r,
          guarded.canonical.run c logged r (some loaded) = guarded.run c logged r (some w) := by
  intro w
  have sorted : guarded.sortedSteps = guarded.steps := Pipeline.sortedSteps_eq (by decide)
  have regular : w.wire.isRegular = true := by decide +kernel
  have valid : w.issues = .ok [] := by
    refine Workflow.issues_singleton (by decide +kernel) ?_
    unfold pipelineIssues
    rw [sorted]
    decide +kernel
  have ordered : ∀ s ∈ guarded.plan, s.IsOrdered := by
    unfold Pipeline.plan
    rw [sorted]
    show ∀ s ∈ [_, _, _], Step.IsOrdered s
    rw [List.forall_mem_cons, List.forall_mem_cons, List.forall_mem_singleton]
    refine ⟨⟨rfl, ?_, ?_, ?_⟩, ⟨rfl, ?_, ?_, ?_⟩, ⟨rfl, ?_, ?_, ?_⟩⟩
    · intro _ m hm
      cases hm
    · rintro ⟨⟩
    · intro _
      exact .comparison rfl fun v hv => by cases hv
    · intro _ m hm
      cases hm
    · intro _
      exact congrArg some (List.mergeSort_singleton _)
    · rintro ⟨⟩
    · intro _ m hm
      cases hm
    · rintro ⟨⟩
    · rintro ⟨⟩
  obtain ⟨writable, reloaded⟩ := reloaded_runs_alike regular valid
  obtain ⟨s, written⟩ := writable.mpr ⟨by decide +kernel, by decide +kernel⟩
  obtain ⟨loaded, hload, -, -, hall⟩ := reloaded s written
  obtain ⟨hid, hrun⟩ := hall "guarded"
  exact ⟨regular, valid, ordered, s, loaded, written, hload, hid,
    hrun guarded rfl fun t ht _ => ordered t ht⟩

/-- Two new names that are each other's old ones, and what comes of it sent on. -/
def swapped : Pipeline where
  id := "swapped"
  sourceKind := .senderApp
  applicationId := some 1
  destinationKind := some .rest
  restId := some 7
  steps :=
    [{ order := 1, name := "swap", kind := .transform, renames := some [("b", "a"), ("a", "b")] }]

/-- A record with a field of each name. -/
def pair : InboundRecord := { reading with payload := [("a", .int 1), ("b", .int 2)] }

/-- A destination that takes every call. -/
def listening : World Recording := { now := ⟨0, none⟩, destinations := {} }

/-- The names in the bodies of the REST calls made, in order. -/
def sentNames (world : World Recording) : List (Option (List String)) :=
  world.destinations.calls.map fun (_, request) =>
    match request with
    | .rest r => r.body.fields?.map Keyed.keys
    | .statement _ => none

theorem swapped_canonical :
    swapped.canonical = { swapped with
      steps := [{ order := 1, name := "swap", kind := .transform,
                  renames := some [("a", "b"), ("b", "a")] }] } := by
  have hsorted : Keyed.sorted [("b", "a"), ("a", "b")] = [("a", "b"), ("b", "a")] :=
    Keyed.sorted_eq (.swap ..) (by decide) (by decide)
  show { swapped with
    steps := [{ order := 1, name := "swap", kind := .transform,
                renames := some (Keyed.sorted [("b", "a"), ("a", "b")]) }] } = _
  rw [hsorted]

/-- The first new name takes the place of the other field before that one is renamed, and once the
workflow has been loaded it is another name that comes first. So another field is sent. -/
theorem swapped_reloaded :
    let w : Workflow := ⟨{ id := "sole", name := "sole" }, [swapped]⟩
    w.issues = .ok [] ∧
      ∃ s loaded p, w.documentText = .ok s ∧ Workflow.load (.text s) = .ok loaded ∧
        loaded.pipeline? "swapped" = some p ∧
        sentNames (listening.carryOut Recording.adapter (swapped.run {} false pair (some w))).2 =
          [some ["a"]] ∧
        sentNames (listening.carryOut Recording.adapter (p.run {} false pair (some loaded))).2 =
          [some ["b"]] := by
  intro w
  have sorted : swapped.sortedSteps = swapped.steps := Pipeline.sortedSteps_eq (by decide)
  have resorted : swapped.canonical.sortedSteps = swapped.canonical.steps :=
    Pipeline.sortedSteps_eq (by decide)
  have regular : w.wire.isRegular = true := by decide +kernel
  have valid : w.issues = .ok [] := by
    refine Workflow.issues_singleton (by decide +kernel) ?_
    unfold pipelineIssues
    rw [sorted]
    decide +kernel
  have writable : w.IsWritable := ⟨by decide +kernel, by decide +kernel⟩
  obtain ⟨s, written⟩ := Workflow.exists_documentText.mpr writable
  refine ⟨valid, s, w.canonical, swapped.canonical, written,
    Workflow.load_documentText regular valid written, rfl, ?_, ?_⟩
  · unfold Pipeline.run Pipeline.plan
    rw [sorted]
    decide +kernel
  · unfold Pipeline.run Pipeline.plan
    rw [resorted, swapped_canonical]
    decide +kernel

end Run
end Conveyor
