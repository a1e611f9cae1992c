import Conveyor.Proofs.Pipeline.Sound
import Conveyor.Proofs.Run.Trail

/-!
# Completion

A run through the plan of a pipeline without issues cannot leave the plan early: wherever branches,
skipped failures and inactive steps take it, it stands at a step of the plan or behind the last one,
and in the latter case the last step is the one that it has just been through (`Stands`).
-/

namespace Conveyor.Run

open Activity

variable {c : ExecutorConfig} {p : Pipeline} {plan : List Step} {order : Int}

/-- The run went on after the step with this outcome. -/
structure Passed (s : Step) (o : StepOutcome) : Prop where
  order : o.order = s.order
  name : o.name = s.name
  state : o.state = .succeeded ∨ o.state = .skipped ∧ (s.isActive = false ∨ s.onError = .skip)

/-- The latest outcome is the one with which the run passed the last step of the plan. -/
def Finished (plan : List Step) (outcomes : List StepOutcome) : Prop :=
  ∃ last outcome, plan.getLast? = some last ∧ outcomes.getLast? = some outcome ∧
    Passed last outcome

/-- The run stands at a step of the plan, or behind the last one and has finished it. -/
structure Stands (plan : List Step) (order : Int) (outcomes : List StepOutcome) : Prop where
  lower : 1 ≤ order
  upper : order ≤ plan.length + 1
  finished : order = plan.length + 1 → Finished plan outcomes

/-! ## Steps by number -/

theorem order_of_stepAt? {s : Step} (h : stepAt? plan order = some s) : s.order = order := by
  simpa using List.find?_some h

/-- A step of a sound plan stands in the place that its number says. -/
theorem getElem?_of_stepAt? (sound : p.SoundPlan) {s : Step}
    (h : stepAt? p.plan order = some s) :
    ∃ i : Nat, p.plan[i]? = some s ∧ order = (i : Int) + 1 := by
  obtain ⟨i, hi⟩ := List.mem_iff_getElem?.mp (mem_of_stepAt? h)
  refine ⟨i, hi, ?_⟩
  rw [← order_of_stepAt? h]
  exact sound.orders i s hi

/-- In a sound plan only the numbers outside of it lead nowhere. -/
theorem eq_of_stepAt?_none (sound : p.SoundPlan) {outcomes : List StepOutcome}
    (stands : Stands p.plan order outcomes) (h : stepAt? p.plan order = none) :
    order = p.plan.length + 1 := by
  by_contra hne
  have hlow := stands.lower
  have hhigh := stands.upper
  obtain ⟨i, hi⟩ : ∃ i : Nat, order = (i : Int) + 1 := ⟨(order - 1).toNat, by omega⟩
  have hlt : i < p.plan.length := by omega
  have hget : p.plan[i]? = some p.plan[i] := List.getElem?_eq_getElem hlt
  have hnumber : p.plan[i].order = order := by
    rw [sound.orders i _ hget, hi]
  have hnone := List.find?_eq_none.mp h p.plan[i] (by simp)
  exact hnone (by simpa using hnumber)

/-! ## One visit -/

/-- A condition of a sound plan leads to a step of the plan, any step to the next number. -/
theorem successor_bounds (sound : p.SoundPlan) {s : Step} (hs : s ∈ p.plan) (holds : Bool) :
    successor s holds = s.order + 1 ∨
      1 ≤ successor s holds ∧ successor s holds ≤ p.plan.length := by
  unfold successor
  split
  · rename_i hkind
    cases hb : (if holds then s.branch.onTrue else s.branch.onFalse) with
    | none => exact .inl rfl
    | some n =>
      right
      refine sound.branches s hs hkind n ?_
      cases holds with
      | true => exact .inl hb
      | false => exact .inr hb
  · exact .inl rfl

/-- A step after which a run goes on has been passed, and the run goes on with a step of the plan or
with the next number. -/
theorem Visit.passed (sound : p.SoundPlan) {v : Visit} {outcome : StepOutcome}
    (mem : v.step ∈ p.plan) {q : Progress} {scope : Scope}
    (h : v.Ends outcome (.goOn q scope order)) :
    Passed v.step outcome ∧
      (order = v.step.order + 1 ∨ 1 ≤ order ∧ order ≤ p.plan.length) := by
  cases h with
  | passedOver inactive => exact ⟨⟨rfl, rfl, .inr ⟨rfl, .inl inactive⟩⟩, .inl rfl⟩
  | succeeded => exact ⟨⟨rfl, rfl, .inl rfl⟩, successor_bounds sound mem _⟩
  | skipped _ _ policy => exact ⟨⟨rfl, rfl, .inr ⟨rfl, .inr policy⟩⟩, .inl rfl⟩

/-- Where a run stands after a visit that it went on from. -/
theorem stands_next (sound : p.SoundPlan) {v : Visit} (present : stepAt? p.plan order = some v.step)
    (happens : v.Happens c) {q : Progress} {scope : Scope} {order' : Int}
    (next : v.next = .goOn q scope order') : Stands p.plan order' q.outcomes := by
  obtain ⟨outcome, ends⟩ := Visit.ends happens
  obtain ⟨outcomes, -⟩ := Visit.leaves happens ends
  rw [next] at ends outcomes
  obtain ⟨passed, goes⟩ := Visit.passed sound (mem_of_stepAt? present) ends
  obtain ⟨i, hi, rfl⟩ := getElem?_of_stepAt? sound present
  have horder : v.step.order = (i : Int) + 1 := order_of_stepAt? present
  obtain ⟨hlt, -⟩ := List.getElem?_eq_some_iff.mp hi
  rw [horder] at goes
  refine ⟨by omega, by omega, fun hend => ⟨v.step, outcome, ?_, ?_, passed⟩⟩
  · -- branches lead into the plan, so the run came here from the step before the end
    have hlast : i = p.plan.length - 1 := by omega
    rw [List.getLast?_eq_getElem?, ← hlast]
    exact hi
  · rw [← Next.progress_goOn q scope order', outcomes]
    exact List.getLast?_concat

/-! ## Whole runs -/

theorem startOf_plan (sound : p.SoundPlan) : startOf p.plan = 1 := by
  have hpos : 0 < p.plan.length := List.length_pos_iff.mpr sound.nonempty
  unfold startOf
  rw [List.head?_eq_getElem?, List.getElem?_eq_getElem hpos]
  simpa using sound.orders 0 _ (List.getElem?_eq_getElem hpos)

theorem stands_start (sound : p.SoundPlan) : Stands p.plan (startOf p.plan) [] := by
  have hpos : 0 < p.plan.length := List.length_pos_iff.mpr sound.nonempty
  have hstart := startOf_plan sound
  refine ⟨by omega, by omega, fun hend => ?_⟩
  omega

/-- A run that ends without an error has left the plan behind its last step. -/
theorem finished_of_trail (sound : p.SoundPlan) {fuel : Nat} {scope : Scope} {q : Progress}
    {visits : List Visit} {ended : Ended} (stands : Stands p.plan order q.outcomes)
    (trail : Trail c p.plan fuel scope q order visits ended) (h : ended.error = none) :
    Finished p.plan ended.progress.outcomes := by
  induction trail with
  | leave absent => exact stands.finished (eq_of_stepAt?_none sound stands absent)
  | exhaust => cases h
  | goOn present happens next _ ih => exact ih (stands_next sound present happens next) h
  | stop _ happens next =>
    obtain ⟨outcome, ends⟩ := Visit.ends happens
    rw [next] at ends
    cases ends
    cases h

theorem getLast?_plan {ref : DestinationRef} (h : p.destination? = some ref) :
    p.plan.getLast? = p.destinationStep? (p.steps.length + 1) := by
  rw [Pipeline.plan, Pipeline.length_sortedSteps, Pipeline.destinationStep?, h]
  exact List.getLast?_concat

theorem error_eq_none_of_status {result : RunResult} (h : result.status = "Completed") :
    result.error = none := by
  unfold RunResult.status at h
  split at h
  · rename_i hcomplete
    exact Option.isNone_iff_eq_none.mp hcomplete
  · exact absurd h (by decide)

/-- If a run of a pipeline without issues is complete, then its last outcome is that of the last
step of the plan, which is the destination step whenever the pipeline has a destination; and that
step succeeded, or was skipped because it is not active or its failures are to be skipped. -/
theorem completed_through_last_step {σ : Type} (s : Surroundings σ) (st : σ) (c : ExecutorConfig)
    (logged : Bool) (p : Pipeline) (r : InboundRecord) (w : Option Workflow) {place : Place}
    {result : RunResult} (valid : Validation.pipelineIssues place p = .ok [])
    (returned : (carryOut s (p.run c logged r w) st).1 = .ok result)
    (completed : result.status = "Completed") :
    ∃ last outcome, p.plan.getLast? = some last ∧
      (∀ ref, p.destination? = some ref →
        p.destinationStep? (p.steps.length + 1) = some last) ∧
      result.outcomes.getLast? = some outcome ∧
      outcome.order = last.order ∧ outcome.name = last.name ∧
      (outcome.state = .succeeded ∨
        outcome.state = .skipped ∧ (last.isActive = false ∨ last.onError = .skip)) := by
  have sound := Pipeline.soundPlan_of_issues valid
  have course := course_events s (p.run c logged r w) st
  rw [returned] at course
  obtain ⟨parts⟩ := exists_parts course
  have herror : parts.ended.error = none := by
    rw [← parts.error_eq]
    exact error_eq_none_of_status completed
  obtain ⟨last, outcome, hlast, houtcome, passed⟩ :=
    finished_of_trail sound (stands_start sound) parts.trail herror
  refine ⟨last, outcome, hlast, fun ref href => ?_, ?_, passed.order, passed.name, passed.state⟩
  · rw [← getLast?_plan href]
    exact hlast
  · rw [parts.outcomes_eq]
    exact houtcome

/-- A condition that leads past a pause to a step that is not active. -/
def detour : Pipeline where
  id := "detour"
  sourceKind := .senderApp
  applicationId := some 1
  destinationKind := some .rest
  restId := some 7
  delivery := { onError := .skip }
  steps :=
    [{ order := 1
       name := "check"
       kind := .condition
       branch :=
         { expression := some [("field", .text "level"), ("operator", .text "exists")]
           onTrue := some 3 } },
      { order := 2, name := "pause", kind := .delay, delaySeconds := some .zero },
      { order := 3, name := "rename", kind := .transform, isActive := false,
        renames := some [("height", "level")] }]

theorem detour_completed_through_last_step :
    Validation.pipelineIssues [] detour = .ok [] ∧
      ∃ result, (carryOut (answering (.result { success := false }))
          (detour.run {} false reading none) ()).1 = .ok result ∧
        result.status = "Completed" ∧
        ∃ last outcome, detour.plan.getLast? = some last ∧
          (∀ ref, detour.destination? = some ref →
            detour.destinationStep? (detour.steps.length + 1) = some last) ∧
          result.outcomes.getLast? = some outcome ∧
          outcome.order = last.order ∧ outcome.name = last.name ∧
          (outcome.state = .succeeded ∨
            outcome.state = .skipped ∧ (last.isActive = false ∨ last.onError = .skip)) := by
  have sorted : detour.sortedSteps = detour.steps := Pipeline.sortedSteps_eq (by decide)
  have valid : Validation.pipelineIssues [] detour = .ok [] := by
    unfold Validation.pipelineIssues
    rw [sorted]
    decide +kernel
  obtain ⟨result, returned, completed⟩ :
      ∃ result, (carryOut (answering (.result { success := false }))
          (detour.run {} false reading none) ()).1 = .ok result ∧
        result.status = "Completed" := by
    unfold Pipeline.run Pipeline.plan
    rw [sorted]
    decide +kernel
  exact ⟨valid, result, returned, completed,
    completed_through_last_step _ () {} false detour reading none valid returned completed⟩

end Conveyor.Run
