import Conveyor.Proofs.Binary64.Order
import Conveyor.Proofs.Pipeline.Valid

/-!
# The steps of a valid plan

Validation goes through the pipeline's own steps, but a run also takes the step that stands for the
destination. That step has been judged like the others if it is a query. If it is a REST call, only its
mappings have been judged, and its retries and its timeout may be out of range.
-/

namespace Conveyor

namespace Pipeline

open Validation

variable {p : Pipeline} {s : Step}

theorem mem_plan : s ∈ p.plan ↔
    s ∈ p.sortedSteps ∨ p.destinationStep? (p.sortedSteps.length + 1) = some s := by
  rw [plan, List.mem_append, Option.mem_toList]

/-- The destination step has the settings with which the pipeline writes. -/
theorem settings_of_destinationStep? {order : Int} (h : p.destinationStep? order = some s) :
    s.maxRetries = p.delivery.maxRetries ∧ s.timeout = p.delivery.timeout ∧
      s.fieldMappings = p.delivery.fieldMappings := by
  obtain ⟨ref, -, rfl⟩ := Option.map_eq_some_iff.mp h
  cases hk : ref.kind <;> exact ⟨rfl, rfl, rfl⟩

theorem kind_of_destination? {ref : DestinationRef} (h : p.destination? = some ref) :
    p.destinationKind = some ref.kind := by
  cases hk : p.destinationKind with
  | none => simp [destination?, hk] at h
  | some k =>
    cases hid : p.destinationId k with
    | none => simp [destination?, hk, hid] at h
    | some id =>
      simp only [destination?, hk, hid, Option.bind_eq_bind, Option.bind_some, Option.pure_def,
        Option.some.injEq] at h
      rw [← h]

/-- A REST call that stands for a destination is complete. -/
theorem validSettings_of_rest {order : Int} (h : p.destinationStep? order = some s)
    (hrest : p.destinationKind = some .rest) (count : Nat) : ValidSettings count s := by
  obtain ⟨ref, href, rfl⟩ := Option.map_eq_some_iff.mp h
  have hkind := kind_of_destination? href
  rw [hrest, Option.some.injEq] at hkind
  rw [← hkind]
  exact ⟨rfl, fun t ht => by cases ht⟩

namespace IsValid

variable (valid : p.IsValid)
include valid

theorem exists_destinationStep {k : DestinationKind} (hk : p.destinationKind = some k)
    (order : Int) : ∃ s, p.destinationStep? order = some s := by
  have hset := valid.destination
  rw [hk] at hset
  have hmem : k ∈ setDestinations p := by
    rw [hset]
    exact List.mem_singleton_self k
  obtain ⟨id, hid⟩ := Option.isSome_iff_exists.mp (List.mem_filter.mp hmem).2
  have href : p.destination? = some ⟨k, id⟩ := by simp [destination?, hk, hid]
  exact ⟨_, Option.map_eq_some_iff.mpr ⟨⟨k, id⟩, href, rfl⟩⟩

/-- Every planned step is valid, except a REST call that stands for the destination and has its
retries or its timeout out of range. -/
theorem validStep_of_mem_plan (hs : s ∈ p.plan)
    (hrest : p.destinationKind = some .rest →
      0 ≤ p.delivery.maxRetries ∧ p.delivery.timeout.le .zero = false) :
    ValidStep p.sortedSteps.length s := by
  rcases mem_plan.mp hs with hown | hfinal
  · exact valid.steps s hown
  · have hjudged := valid.final s hfinal
    by_cases hkind : p.destinationKind = some .rest
    · rw [if_pos hkind] at hjudged
      obtain ⟨hretries, htimeout, hmappings⟩ := settings_of_destinationStep? hfinal
      refine ⟨?_, ?_, ?_, validSettings_of_rest hfinal hkind _⟩
      · rw [hretries]
        exact (hrest hkind).1
      · rw [htimeout]
        exact (hrest hkind).2
      · rw [hmappings]
        exact hjudged
    · rwa [if_neg hkind] at hjudged

end IsValid

/-- What a pipeline without issues promises about the steps that its runs take. Each passes the check
of a step just if the pipeline has no REST destination with retries or a timeout out of range. Steps
that pass have no negative number of retries and a positive timeout, unless the timeout is a NaN. -/
theorem plan_of_issues {place : Place} (sound : pipelineIssues place p = .ok []) :
    (∀ s ∈ p.plan, s ∈ p.sortedSteps ∨ p.destinationKind ≠ some .rest →
      ∀ here, stepIssues here p.steps.length s = .ok []) ∧
    ((∀ s ∈ p.plan, ∀ here, stepIssues here p.steps.length s = .ok []) ↔
      (p.destinationKind = some .rest →
        0 ≤ p.delivery.maxRetries ∧ p.delivery.timeout.le .zero = false)) ∧
    ((∀ s ∈ p.plan, 0 ≤ s.maxRetries ∧ Binary64.zero.lt s.timeout = true) ↔
      (p.destinationKind = some .rest →
        0 ≤ p.delivery.maxRetries ∧ p.delivery.timeout.le .zero = false) ∧
      ∀ s ∈ p.plan, s.timeout.isNan = false) := by
  have valid := pipelineIssues_eq_nil_iff_isValid.mp sound
  rw [← length_sortedSteps]
  have hzero : Binary64.zero.isNan = false := by decide
  have hpositive : ∀ s : Step, Binary64.zero.lt s.timeout = true ↔
      s.timeout.le .zero = false ∧ s.timeout.isNan = false := by
    intro s
    cases hnan : s.timeout.isNan with
    | true => simp [Binary64.not_lt_of_isNan_right hnan]
    | false => simp [Binary64.lt_iff_not_le hnan hzero]
  refine ⟨?_, ⟨?_, ?_⟩, ⟨?_, ?_⟩⟩
  · intro s hs hside here
    rw [stepIssues_eq_nil_iff_validStep]
    rcases hside with hown | hother
    · exact valid.steps s hown
    · exact valid.validStep_of_mem_plan hs fun hrest => absurd hrest hother
  · intro hall hrest
    obtain ⟨s, hs⟩ := valid.exists_destinationStep hrest (p.sortedSteps.length + 1)
    have hvalid := stepIssues_eq_nil_iff_validStep.mp (hall s (mem_plan.mpr (.inr hs)) [])
    obtain ⟨hretries, htimeout, -⟩ := settings_of_destinationStep? hs
    rw [← hretries, ← htimeout]
    exact ⟨hvalid.maxRetries, hvalid.timeout⟩
  · intro hrest s hs here
    exact stepIssues_eq_nil_iff_validStep.mpr (valid.validStep_of_mem_plan hs hrest)
  · intro hall
    refine ⟨fun hrest => ?_, fun s hs => ((hpositive s).mp (hall s hs).2).2⟩
    obtain ⟨s, hs⟩ := valid.exists_destinationStep hrest (p.sortedSteps.length + 1)
    obtain ⟨hretries, htimeout, -⟩ := settings_of_destinationStep? hs
    obtain ⟨hle, hlt⟩ := hall s (mem_plan.mpr (.inr hs))
    rw [← hretries, ← htimeout]
    exact ⟨hle, ((hpositive s).mp hlt).1⟩
  · rintro ⟨hrest, hnan⟩ s hs
    have hvalid := valid.validStep_of_mem_plan hs hrest
    exact ⟨hvalid.maxRetries, (hpositive s).mpr ⟨hvalid.timeout, hnan s hs⟩⟩

/-- A pipeline that waits before it writes to its database. -/
def buffered : Pipeline where
  id := "buffered"
  sourceKind := .senderApp
  applicationId := some 7
  destinationKind := some .database
  databaseId := some 3
  delivery :=
    { targetTable := some "readings"
      fieldMappings := [{ sourceField := "level", destinationColumn := "level" }]
      maxRetries := 2 }
  steps := [{ order := 1, name := "wait", kind := .delay, delaySeconds := some .zero }]

theorem buffered_plan :
    pipelineIssues [] buffered = .ok [] ∧ buffered.plan.length = 2 ∧
      (∀ s ∈ buffered.plan, ∀ here, stepIssues here buffered.steps.length s = .ok []) ∧
      ∀ s ∈ buffered.plan, 0 ≤ s.maxRetries ∧ Binary64.zero.lt s.timeout = true := by
  have sound : pipelineIssues [] buffered = .ok [] := by decide +kernel
  obtain ⟨-, hpass, hrange⟩ := plan_of_issues sound
  have hquery : buffered.destinationKind = some .rest →
      0 ≤ buffered.delivery.maxRetries ∧ buffered.delivery.timeout.le .zero = false := by
    intro hrest
    cases hrest
  refine ⟨sound, by decide +kernel, hpass.mpr hquery, hrange.mpr ⟨hquery, ?_⟩⟩
  decide +kernel

/-- A pipeline that calls its REST destination and is never done. -/
def hasty : Pipeline where
  id := "hasty"
  sourceKind := .senderApp
  applicationId := some 7
  destinationKind := some .rest
  restId := some 5
  delivery := { maxRetries := -1, timeout := .zero }

/-- Nothing is found wrong with the pipeline, but its only step does not pass. -/
theorem hasty_passes_unjudged :
    pipelineIssues [] hasty = .ok [] ∧
      ∃ s, hasty.plan = [s] ∧ s.maxRetries = -1 ∧ s.timeout = .zero ∧
        ∀ here, stepIssues here hasty.steps.length s ≠ .ok [] := by
  have hplan : hasty.plan =
      [{ hasty.destinationStepOf .restCall .rest 1 with rest := { destinationId := some 5 } }] := by
    rw [plan, sortedSteps_eq List.Pairwise.nil]
    rfl
  refine ⟨by decide +kernel, _, hplan, rfl, rfl, fun here hpass => ?_⟩
  have hretries := (stepIssues_eq_nil_iff_validStep.mp hpass).maxRetries
  exact absurd hretries (by decide)

end Pipeline
end Conveyor
