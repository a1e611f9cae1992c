import Conveyor.Pipeline.Validation
import Conveyor.Proofs.Outcome

/-!
# Pipelines without issues

What validation promises about a pipeline in which it finds nothing wrong: its plan has steps, they
are numbered from one without a gap, and the branches of its conditions lead to its own steps.
-/

namespace Conveyor.Validation

open Outcome

theorem issueIf_eq_nil_iff {wrong : Bool} {place : Place} {cause : IssueCause} :
    issueIf wrong place cause = [] ↔ wrong = false := by
  cases wrong <;> simp [issueIf]

/-- Every part of a pipeline without issues has none. -/
theorem pipelineIssues_eq_nil_iff {place : Place} {p : Pipeline} :
    pipelineIssues place p = .ok [] ↔
      sourceIssues place p = [] ∧ destinationIssues place p = [] ∧
        orderIssues place p.sortedSteps = [] ∧
        stepsIssues place p.sortedSteps.length p.sortedSteps = .ok [] ∧
        finalIssues place p.sortedSteps.length p = .ok [] := by
  unfold pipelineIssues
  rw [bind_eq_ok_iff]
  constructor
  · rintro ⟨ofSteps, hsteps, h⟩
    obtain ⟨final, hfinal, h⟩ := bind_eq_ok_iff.mp h
    have hnil := Except.ok.inj h
    simp only [List.append_eq_nil_iff] at hnil
    obtain ⟨⟨⟨⟨hsource, hdestination⟩, horder⟩, rfl⟩, rfl⟩ := hnil
    exact ⟨hsource, hdestination, horder, hsteps, hfinal⟩
  · rintro ⟨hsource, hdestination, horder, hsteps, hfinal⟩
    refine ⟨[], hsteps, bind_eq_ok_iff.mpr ⟨[], hfinal, ?_⟩⟩
    rw [hsource, hdestination, horder]
    rfl

/-- Several parts are without issues when each of them is. -/
theorem mapM_zipIdx_eq_nil_iff {α : Type} {f : α × Nat → Except Fault (List Issue)}
    {items : List α} :
    (do
      let issues ← items.zipIdx.mapM f
      pure issues.flatten) = Except.ok [] ↔ ∀ i a, items[i]? = some a → f (a, i) = .ok [] := by
  rw [bind_eq_ok_iff]
  constructor
  · rintro ⟨issues, hissues, h⟩ i a hi
    have hflat : issues.flatten = [] := Except.ok.inj h
    obtain ⟨hlen, hall⟩ := List.forall₂_iff_get.mp (mapM_eq_ok_iff.mp hissues)
    obtain ⟨hlt, rfl⟩ := List.getElem?_eq_some_iff.mp hi
    have hbound : i < issues.length := by simpa [← hlen] using hlt
    have hpart := hall i (by simpa using hlt) hbound
    have hnil : issues[i] = [] := List.flatten_eq_nil_iff.mp hflat _ (List.getElem_mem hbound)
    simpa [hnil] using hpart
  · intro hall
    refine ⟨items.map fun _ => [], mapM_eq_ok_iff.mpr (List.forall₂_iff_get.mpr ?_), ?_⟩
    · refine ⟨by simp, fun i hi _ => ?_⟩
      have hlt : i < items.length := by simpa using hi
      simpa using hall i items[i] (List.getElem?_eq_getElem hlt)
    · show Except.ok (items.map fun _ => ([] : List Issue)).flatten = .ok []
      rw [List.flatten_eq_nil_iff.mpr (by simp)]

/-- Several steps are without issues when each of them is. -/
theorem stepsIssues_eq_nil_iff {place : Place} {count : Nat} {steps : List Step} :
    stepsIssues place count steps = .ok [] ↔
      ∀ i s, steps[i]? = some s →
        stepIssues (place ++ [.field "steps", .index i]) count s = .ok [] :=
  mapM_zipIdx_eq_nil_iff

theorem stepIssues_eq_nil_iff {place : Place} {count : Nat} {s : Step} :
    stepIssues place count s = .ok [] ↔
      0 ≤ s.maxRetries ∧ s.timeout.le .zero = false ∧
        mappingsIssues place s.fieldMappings = [] ∧ kindIssues place count s = .ok [] := by
  unfold stepIssues
  rw [bind_eq_ok_iff]
  constructor
  · rintro ⟨own, hown, h⟩
    have hnil := Except.ok.inj h
    simp only [List.append_eq_nil_iff, issueIf_eq_nil_iff, decide_eq_false_iff_not,
      Int.not_lt] at hnil
    obtain ⟨⟨⟨hretries, htimeout⟩, hmappings⟩, rfl⟩ := hnil
    exact ⟨hretries, htimeout, hmappings, hown⟩
  · rintro ⟨hretries, htimeout, hmappings, hown⟩
    refine ⟨[], hown, ?_⟩
    rw [issueIf_eq_nil_iff.mpr (by simpa using hretries), issueIf_eq_nil_iff.mpr htimeout,
      hmappings]
    rfl

theorem branchIssues_eq_nil_iff {place : Place} {count : Nat} {target : Option Int} :
    branchIssues place count target = [] ↔ ∀ n, target = some n → 1 ≤ n ∧ n ≤ count := by
  cases target with
  | none => simp [branchIssues]
  | some n => simp [branchIssues, issueIf_eq_nil_iff, isDangling]

/-- The branches of a condition without issues lead to steps that exist. -/
theorem branches_of_conditionIssues {place : Place} {count : Nat} {b : BranchSettings}
    (h : conditionIssues place count b = .ok []) {n : Int}
    (hn : b.onTrue = some n ∨ b.onFalse = some n) : 1 ≤ n ∧ n ≤ count := by
  obtain ⟨problems, -, h⟩ := bind_eq_ok_iff.mp h
  have hnil := Except.ok.inj h
  simp only [List.append_eq_nil_iff] at hnil
  rcases hn with hn | hn
  · exact branchIssues_eq_nil_iff.mp hnil.1.2 n hn
  · exact branchIssues_eq_nil_iff.mp hnil.2 n hn

/-- A pipeline without issues has steps of its own or a destination. -/
theorem destination_of_destinationIssues {place : Place} {p : Pipeline}
    (h : destinationIssues place p = []) (hsteps : p.steps = []) :
    ∃ ref, p.destination? = some ref := by
  unfold destinationIssues at h
  cases hk : p.destinationKind with
  | none => simp [hk, issueIf_eq_nil_iff, Pipeline.isSequential, hsteps] at h
  | some k =>
    simp only [hk, issueIf_eq_nil_iff, ne_eq, decide_eq_false_iff_not, Decidable.not_not] at h
    have hmem : k ∈ setDestinations p := by simp [h]
    obtain ⟨id, hid⟩ := Option.isSome_iff_exists.mp (List.mem_filter.mp hmem).2
    exact ⟨⟨k, id⟩, by simp [Pipeline.destination?, hk, hid]⟩

end Conveyor.Validation

namespace Conveyor.Pipeline

open Validation

/-- The plan is numbered from one without a gap, has a step, and its conditions lead into it. -/
structure SoundPlan (p : Pipeline) : Prop where
  orders : ∀ (i : Nat) (s : Step), p.plan[i]? = some s → s.order = (i : Int) + 1
  branches : ∀ s ∈ p.plan, s.kind = .condition →
    ∀ n, s.branch.onTrue = some n ∨ s.branch.onFalse = some n → 1 ≤ n ∧ n ≤ p.plan.length
  nonempty : p.plan ≠ []

theorem length_sortedSteps (p : Pipeline) : p.sortedSteps.length = p.steps.length :=
  List.length_mergeSort p.steps

theorem sortedSteps_eq {p : Pipeline} (h : p.steps.Pairwise fun a b => a.order ≤ b.order) :
    p.sortedSteps = p.steps := by
  apply List.mergeSort_of_pairwise
  simpa using h

/-- The destination step has the number it is asked for, and is no condition. -/
theorem destinationStep?_eq_some {p : Pipeline} {order : Int} {s : Step}
    (h : p.destinationStep? order = some s) :
    s.order = order ∧ s.kind ≠ .condition ∧ s.isActive = true := by
  obtain ⟨ref, -, rfl⟩ := Option.map_eq_some_iff.mp h
  cases hk : ref.kind <;> exact ⟨rfl, by simp [destinationStepOf], rfl⟩

/-- The steps of a plan are the pipeline's own by number, and its destination step after them. -/
theorem getElem?_plan {p : Pipeline} {i : Nat} {s : Step} (h : p.plan[i]? = some s) :
    p.sortedSteps[i]? = some s ∨
      i = p.sortedSteps.length ∧ p.destinationStep? (p.sortedSteps.length + 1) = some s := by
  unfold plan at h
  rcases Nat.lt_or_ge i p.sortedSteps.length with hlt | hge
  · left
    rwa [List.getElem?_append_left hlt] at h
  · right
    rw [List.getElem?_append_right hge] at h
    obtain ⟨hi, hs⟩ : i - p.sortedSteps.length = 0 ∧
        p.destinationStep? (p.sortedSteps.length + 1) = some s := by
      cases hd : p.destinationStep? (p.sortedSteps.length + 1) with
      | none => simp [hd] at h
      | some d =>
        rw [hd] at h
        obtain ⟨hlt, rfl⟩ := List.getElem?_eq_some_iff.mp h
        simp only [Option.toList_some, List.length_cons, List.length_nil] at hlt
        exact ⟨by omega, by simp⟩
    exact ⟨by omega, hs⟩

theorem length_sortedSteps_le (p : Pipeline) : p.sortedSteps.length ≤ p.plan.length := by
  simp [plan]

theorem soundPlan_of_issues {place : Place} {p : Pipeline}
    (h : pipelineIssues place p = .ok []) : SoundPlan p := by
  obtain ⟨-, hdestination, horder, hsteps, -⟩ := pipelineIssues_eq_nil_iff.mp h
  have horders : p.sortedSteps.map (·.order)
      = (List.range p.sortedSteps.length).map fun i : Nat => (i : Int) + 1 := by
    simpa [orderIssues, issueIf_eq_nil_iff] using horder
  refine ⟨?_, ?_, ?_⟩
  · intro i s hi
    rcases getElem?_plan hi with hown | ⟨rfl, hfinal⟩
    · -- validation has compared the numbers with those from one on
      have hmap := congrArg (·[i]?) horders
      obtain ⟨hlt, rfl⟩ := List.getElem?_eq_some_iff.mp hown
      simpa [hlt] using hmap
    · exact (destinationStep?_eq_some hfinal).1
  · intro s hs hkind n hn
    obtain ⟨i, hi⟩ := List.mem_iff_getElem?.mp hs
    rcases getElem?_plan hi with hown | ⟨rfl, hfinal⟩
    · have hissues := stepsIssues_eq_nil_iff.mp hsteps i s hown
      obtain ⟨-, -, -, hcondition⟩ := stepIssues_eq_nil_iff.mp hissues
      rw [kindIssues, hkind] at hcondition
      obtain ⟨hlow, hhigh⟩ := branches_of_conditionIssues hcondition hn
      have hle := p.length_sortedSteps_le
      exact ⟨hlow, by omega⟩
    · exact absurd hkind (destinationStep?_eq_some hfinal).2.1
  · intro hempty
    -- without steps a pipeline without issues has a destination, which gives the plan a step
    obtain ⟨hown, hfinal⟩ := List.append_eq_nil_iff.mp hempty
    have hnone : p.steps = [] := by
      rw [← List.length_eq_zero_iff, ← length_sortedSteps, hown]
      rfl
    obtain ⟨ref, href⟩ := destination_of_destinationIssues hdestination hnone
    simp [destinationStep?, href] at hfinal

end Conveyor.Pipeline

/-!
## Issues about step numbers

Two of the issues that validation reports are about the numbers of steps: that the steps are not
numbered from one on, and that a branch leads to no step. Nothing but the numbers and the targets
decides whether they are reported, whatever else is wrong with the pipeline.
-/

namespace Conveyor

/-- The issue is about neither the numbers of the steps nor the targets of branches. -/
def Issue.IsElsewhere (i : Issue) : Prop :=
  i.code ≠ "InvalidStepOrder" ∧ i.code ≠ "DanglingStepReference"

namespace Validation

open Outcome

-- whether an issue is elsewhere is read off its code
attribute [local simp] Issue.IsElsewhere Issue.code IssueCause.code

theorem forall_mem_issueIf {P : Issue → Prop} {wrong : Bool} {place : Place} {cause : IssueCause} :
    (∀ i ∈ issueIf wrong place cause, P i) ↔ (wrong = true → P ⟨place, cause⟩) := by
  cases wrong <;> simp [issueIf]

theorem mappingIssues_elsewhere (here : Place) (before : List FieldMapping) (m : FieldMapping) :
    ∀ i ∈ mappingIssues here before m, i.IsElsewhere := by
  simp only [mappingIssues, List.forall_mem_append, forall_mem_issueIf]
  refine ⟨⟨?_, by simp⟩, ?_⟩
  · split <;> simp
  · split <;> simp [forall_mem_issueIf]

theorem mappingsIssues_elsewhere (place : Place) (ms : List FieldMapping) :
    ∀ i ∈ mappingsIssues place ms, i.IsElsewhere := by
  intro i hi
  obtain ⟨⟨m, k⟩, -, hi⟩ := List.mem_flatMap.mp hi
  exact mappingIssues_elsewhere _ _ m i hi

theorem queryIssues_elsewhere (place : Place) (q : QueryShape) :
    ∀ i ∈ queryIssues place q, i.IsElsewhere := by
  have hoperation : ∀ cause, Statement.operationIssue? q.operation q.dialect q.primaryKey =
      some cause → Issue.IsElsewhere ⟨place ++ [.field "queryType"], cause⟩ := by
    intro cause hcause
    unfold Statement.operationIssue? at hcause
    grind [Issue.IsElsewhere, Issue.code, IssueCause.code]
  simp only [queryIssues, List.forall_mem_append, forall_mem_issueIf]
  refine ⟨⟨⟨⟨?_, by simp⟩, by simp⟩, by simp⟩, ?_⟩
  · split
    · rename_i cause hcause
      simpa using hoperation cause hcause
    · simp
  · split <;> simp [forall_mem_issueIf]

/-- A condition whose branches lead to steps has no issue about its targets. -/
theorem conditionIssues_elsewhere {place : Place} {count : Nat} {b : BranchSettings}
    {issues : List Issue} (h : conditionIssues place count b = .ok issues)
    (targets : ∀ n, b.onTrue = some n ∨ b.onFalse = some n → 1 ≤ n ∧ n ≤ count) :
    ∀ i ∈ issues, i.IsElsewhere := by
  obtain ⟨problems, -, h⟩ := bind_eq_ok_iff.mp h
  obtain rfl := Except.ok.inj h
  rw [branchIssues_eq_nil_iff.mpr fun n hn => targets n (.inl hn),
    branchIssues_eq_nil_iff.mpr fun n hn => targets n (.inr hn)]
  simp

/-- A step has no issue about targets unless it is a condition with a branch to no step. -/
theorem stepIssues_elsewhere {place : Place} {count : Nat} {s : Step} {issues : List Issue}
    (h : stepIssues place count s = .ok issues)
    (targets : s.kind = .condition → ∀ n,
      s.branch.onTrue = some n ∨ s.branch.onFalse = some n → 1 ≤ n ∧ n ≤ count) :
    ∀ i ∈ issues, i.IsElsewhere := by
  obtain ⟨own, hown, h⟩ := bind_eq_ok_iff.mp h
  obtain rfl := Except.ok.inj h
  have hkind : ∀ i ∈ own, i.IsElsewhere := by
    unfold kindIssues at hown
    cases hk : s.kind with
    | condition =>
      rw [hk] at hown
      exact conditionIssues_elsewhere hown (targets hk)
    | restCall =>
      rw [hk] at hown
      obtain rfl := Except.ok.inj hown
      simp only [restIssues, List.forall_mem_append, forall_mem_issueIf]
      refine ⟨by simp, ?_⟩
      split <;> simp [forall_mem_issueIf]
    | dbQuery =>
      rw [hk] at hown
      obtain rfl := Except.ok.inj hown
      simp only [databaseIssues, List.forall_mem_append, forall_mem_issueIf]
      exact ⟨by simp, queryIssues_elsewhere _ _⟩
    | sapQuery =>
      rw [hk] at hown
      obtain rfl := Except.ok.inj hown
      simp only [sapIssues, List.forall_mem_append, forall_mem_issueIf]
      exact ⟨by simp, queryIssues_elsewhere _ _⟩
    | transform =>
      rw [hk] at hown
      obtain rfl := Except.ok.inj hown
      simp [forall_mem_issueIf]
    | delay =>
      rw [hk] at hown
      obtain rfl := Except.ok.inj hown
      simp [forall_mem_issueIf]
  simp only [List.forall_mem_append, forall_mem_issueIf]
  exact ⟨⟨⟨by simp, by simp⟩, mappingsIssues_elsewhere place _⟩, hkind⟩

/-- The step that stands for the destination is no condition. -/
theorem kind_of_destinationStep? {p : Pipeline} {order : Int} {s : Step}
    (h : p.destinationStep? order = some s) : s.kind ≠ .condition := by
  obtain ⟨⟨kind, id⟩, -, rfl⟩ := Option.map_eq_some_iff.mp h
  cases kind <;> simp [Pipeline.destinationStepOf]

/-- Validation has nothing to say about the numbers of steps that are numbered from one on and
whose conditions lead to steps. -/
theorem pipelineIssues_elsewhere {place : Place} {p : Pipeline} {issues : List Issue}
    (h : pipelineIssues place p = .ok issues)
    (numbered : p.sortedSteps.map (·.order)
      = (List.range p.sortedSteps.length).map fun i : Nat => (i : Int) + 1)
    (targets : ∀ s ∈ p.sortedSteps, s.kind = .condition → ∀ n,
      s.branch.onTrue = some n ∨ s.branch.onFalse = some n → 1 ≤ n ∧ n ≤ p.sortedSteps.length) :
    ∀ i ∈ issues, i.IsElsewhere := by
  obtain ⟨ofSteps, hsteps, h⟩ := bind_eq_ok_iff.mp h
  obtain ⟨final, hfinal, h⟩ := bind_eq_ok_iff.mp h
  obtain rfl := Except.ok.inj h
  simp only [List.forall_mem_append]
  refine ⟨⟨⟨⟨?source, ?destination⟩, ?order⟩, ?steps⟩, ?final⟩
  case source =>
    simp [sourceIssues, forall_mem_issueIf]
  case destination =>
    unfold destinationIssues
    dsimp only
    split <;> simp [forall_mem_issueIf]
  case order => simp [orderIssues, numbered, issueIf]
  case steps =>
    obtain ⟨parts, hparts, h⟩ := bind_eq_ok_iff.mp hsteps
    obtain rfl := Except.ok.inj h
    intro i hi
    obtain ⟨part, hpart, hi⟩ := List.mem_flatten.mp hi
    obtain ⟨⟨s, k⟩, hs, hown⟩ := exists_of_mem_mapM hparts hpart
    exact stepIssues_elsewhere hown (targets s (List.fst_mem_of_mem_zipIdx hs)) i hi
  case final =>
    unfold finalIssues at hfinal
    split at hfinal
    · rename_i s hs
      split at hfinal
      · obtain rfl := Except.ok.inj hfinal
        exact mappingsIssues_elsewhere place _
      · exact stepIssues_elsewhere hfinal fun hk => absurd hk (kind_of_destinationStep? hs)
    · obtain rfl := Except.ok.inj hfinal
      exact List.forall_mem_nil _

end Validation
end Conveyor
