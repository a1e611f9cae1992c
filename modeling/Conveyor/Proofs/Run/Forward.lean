import Conveyor.Proofs.Run.Limit

/-!
# Runs that only go forward

When no branch of a pipeline leads back, every visit of a run leaves it standing at a higher number than
it came from. So no step is visited twice, and what a run has visited bounds from below where it stands
(`le_standing`): a run that may take as many steps as the plan has is never stopped.
-/

namespace Conveyor

namespace Pipeline

/-- Every branch of a condition leads to a step after it. -/
def IsForward (p : Pipeline) : Prop :=
  ∀ s ∈ p.steps, s.kind = .condition →
    ∀ n, s.branch.onTrue = some n ∨ s.branch.onFalse = some n → s.order < n

/-- No condition has a branch. -/
def IsUnbranched (p : Pipeline) : Prop :=
  ∀ s ∈ p.steps, s.kind = .condition → s.branch.onTrue = none ∧ s.branch.onFalse = none

variable {p : Pipeline} {s : Step}

theorem IsUnbranched.isForward (h : p.IsUnbranched) : p.IsForward := by
  intro s hs hkind n hn
  simp [h s hs hkind] at hn

/-- The conditions of a plan are steps of the pipeline's own. -/
theorem mem_steps_of_mem_plan (hs : s ∈ p.plan) (hkind : s.kind = .condition) : s ∈ p.steps := by
  obtain ⟨i, hi⟩ := List.mem_iff_getElem?.mp hs
  cases getElem?_plan hi with
  | inl hown => exact List.mem_mergeSort.mp (List.mem_of_getElem? hown)
  | inr hfinal => exact absurd hkind (destinationStep?_eq_some hfinal.2).2.1

/-- In a sound plan a step stands in the place that its number says. -/
theorem SoundPlan.getElem?_eq (sound : p.SoundPlan) (hs : s ∈ p.plan) {i : Nat}
    (horder : s.order = (i : Int) + 1) : p.plan[i]? = some s := by
  obtain ⟨j, hj⟩ := List.mem_iff_getElem?.mp hs
  have hnumber := sound.orders j s hj
  obtain rfl : i = j := by omega
  exact hj

theorem SoundPlan.order_le (sound : p.SoundPlan) (hs : s ∈ p.plan) : s.order ≤ p.plan.length := by
  obtain ⟨i, hi⟩ := List.mem_iff_getElem?.mp hs
  obtain ⟨hlt, -⟩ := List.getElem?_eq_some_iff.mp hi
  have hnumber := sound.orders i s hi
  omega

end Pipeline

namespace Run

open Activity

variable {c : ExecutorConfig} {p : Pipeline} {plan : List Step} {scope : Scope} {q : Progress}
  {order : Int} {limit : Nat} {ended : Ended} {v : Visit} {visits : List Visit}
  {outcomes : List StepOutcome}

/-! ## One visit -/

/-- Only the branch of a condition leads anywhere. -/
theorem Visit.branch_of_target? {n : Int} (h : v.target? = some n) :
    v.step.kind = .condition ∧ (v.step.branch.onTrue = some n ∨ v.step.branch.onFalse = some n) := by
  unfold Visit.target? at h
  split at h
  · split at h
    · rename_i hkind
      split at h
      · exact ⟨hkind, .inl h⟩
      · exact ⟨hkind, .inr h⟩
    · cases h
  · cases h

theorem Visit.lt_onward (forward : p.IsForward) (mem : v.step ∈ p.plan) :
    v.step.order < v.onward := by
  unfold Visit.onward
  cases htarget : v.target? with
  | none => exact Int.lt_succ v.step.order
  | some n =>
    obtain ⟨hkind, hbranch⟩ := Visit.branch_of_target? htarget
    exact forward v.step (Pipeline.mem_steps_of_mem_plan mem hkind) hkind n hbranch

theorem Visit.onward_of_unbranched (unbranched : p.IsUnbranched) (mem : v.step ∈ p.plan) :
    v.onward = v.step.order + 1 := by
  unfold Visit.onward
  cases htarget : v.target? with
  | none => rfl
  | some n =>
    obtain ⟨hkind, hbranch⟩ := Visit.branch_of_target? htarget
    simp [unbranched v.step (Pipeline.mem_steps_of_mem_plan mem hkind) hkind] at hbranch

/-! ## Visit after visit -/

/-- If every visit leads to a higher number, then a run stands at least as many numbers further on as
it has visited steps. -/
theorem le_standing (first : ∀ v, visits.head? = some v → v.step.order = order)
    (follows : visits.IsChain Visit.Follows) (onward : ∀ v ∈ visits, v.step.order < v.onward) :
    order + visits.length ≤ standing order visits := by
  induction visits generalizing order with
  | nil => simp
  | cons v visits ih =>
    obtain ⟨next, follows⟩ := List.isChain_cons.mp follows
    have hnumber := first v rfl
    have hahead := onward v List.mem_cons_self
    have hrest := ih (fun v' hv' => (next v' hv').order) follows
      fun v' hv' => onward v' (List.mem_cons_of_mem v hv')
    rw [standing_cons, List.length_cons]
    omega

/-- If every visit leads to the next number, then the steps are visited by number. -/
theorem order_of_getElem? (first : ∀ v, visits.head? = some v → v.step.order = order)
    (follows : visits.IsChain Visit.Follows)
    (onward : ∀ v ∈ visits, v.onward = v.step.order + 1) :
    standing order visits = order + visits.length ∧
      ∀ (i : Nat) (v : Visit), visits[i]? = some v → v.step.order = order + i := by
  induction visits generalizing order with
  | nil => simp
  | cons v visits ih =>
    obtain ⟨next, follows⟩ := List.isChain_cons.mp follows
    have hnumber := first v rfl
    have hahead := onward v List.mem_cons_self
    obtain ⟨hstanding, hrest⟩ := ih (fun v' hv' => (next v' hv').order) follows
      fun v' hv' => onward v' (List.mem_cons_of_mem v hv')
    constructor
    · rw [standing_cons, List.length_cons]
      omega
    · intro i v' hi
      cases i with
      | zero =>
        cases hi
        simpa using hnumber
      | succ i =>
        have hv' := hrest i v' hi
        omega

theorem map_order_of_told (told : List.Forall₂ Visit.Told visits outcomes) :
    outcomes.map (·.order) = visits.map (·.step.order) := by
  induction told with
  | nil => rfl
  | cons head _ ih => rw [List.map_cons, List.map_cons, head.order, ih]

theorem Itinerary.pairwise_orders (h : Itinerary c p.plan limit order visits outcomes)
    (forward : p.IsForward) : (outcomes.map (·.order)).Pairwise (· < ·) := by
  have hchain : visits.IsChain fun v v' => v.step.order < v'.step.order := by
    apply h.follows.imp_of_mem_imp
    intro v v' hv _ follows
    rw [follows.order]
    exact Visit.lt_onward forward (h.visited v hv).1
  rw [map_order_of_told h.told, List.pairwise_map]
  exact hchain.pairwise

/-- A run is stopped when it has taken the steps that it may take and stands at another. -/
theorem Trail.exceeded (trail : Trail c plan limit scope q order visits ended)
    (h : ended.error = some (exhaustion c)) :
    visits.length = limit ∧ ∃ s ∈ plan, s.order = standing order visits := by
  induction trail with
  | leave => cases h
  | exhaust present => exact ⟨rfl, _, mem_of_stepAt? present, order_of_stepAt? present⟩
  | goOn _ happens next _ ih =>
    obtain ⟨o, ends⟩ := Visit.ends happens
    rw [next] at ends
    obtain ⟨-, rfl⟩ := Visit.onward_of_ends ends
    obtain ⟨hlength, hpresent⟩ := ih h
    exact ⟨congrArg Nat.succ hlength, by simpa using hpresent⟩
  | @stop _ v _ _ _ _ _ happens next =>
    obtain ⟨o, ends⟩ := Visit.ends happens
    rw [next] at ends
    cases ends with
    | @failed _ f => exact absurd (Option.some.inj h) (abortText_ne_exhaustion v.step f c)

/-- A run through steps that are visited by number visits all of them if it leaves the plan. -/
theorem Itinerary.visits_plan (sound : p.SoundPlan) (unbranched : p.IsUnbranched)
    (h : Itinerary c p.plan limit (startOf p.plan) visits outcomes)
    (absent : ∀ s ∈ p.plan, s.order ≠ standing (startOf p.plan) visits) :
    visits.map (·.step) = p.plan := by
  obtain ⟨hstanding, hnumbers⟩ := order_of_getElem? h.first h.follows
    fun v hv => Visit.onward_of_unbranched unbranched (h.visited v hv).1
  rw [hstanding, startOf_plan sound] at absent
  rw [startOf_plan sound] at hnumbers
  apply List.ext_getElem?
  intro i
  rw [List.getElem?_map]
  cases hi : visits[i]? with
  | some v =>
    have hnumber := hnumbers i v hi
    have hmem := (h.visited v (List.mem_of_getElem? hi)).1
    exact (sound.getElem?_eq hmem (by omega)).symm
  | none =>
    -- otherwise the run would stand at the step after those that it has visited
    symm
    apply List.getElem?_eq_none
    have hlength := List.getElem?_eq_none_iff.mp hi
    by_contra hlt
    have hget := List.getElem?_eq_getElem (show visits.length < p.plan.length by omega)
    apply absent _ (List.mem_of_getElem? hget)
    have hnumber := sound.orders _ _ hget
    omega

/-! ## Whole runs -/

/-- In a run of a pipeline without issues whose branches only lead forward, whatever the surroundings
do, the numbers of the outcomes increase. The run is not stopped if it may take as many steps as the plan
has. If there are no branches at all and the run is complete, then every step of the plan has one
outcome, in order. -/
theorem orders_increase {σ : Type} (surroundings : Surroundings σ) (st : σ) (c : ExecutorConfig)
    (logged : Bool) (p : Pipeline) (r : InboundRecord) (w : Option Workflow) {place : Place}
    {result : RunResult} (valid : Validation.pipelineIssues place p = .ok [])
    (forward : p.IsForward)
    (returned : (carryOut surroundings (p.run c logged r w) st).1 = .ok result) :
    (result.outcomes.map (·.order)).Pairwise (· < ·) ∧
      ((p.plan.length : Int) ≤ c.maxTransitions → result.error ≠ some (exhaustion c)) ∧
      (p.IsUnbranched → result.status = "Completed" →
        List.Forall₂ (fun s o => o.order = s.order ∧ o.name = s.name) p.plan result.outcomes) := by
  have sound := Pipeline.soundPlan_of_issues valid
  have course := course_events surroundings (p.run c logged r w) st
  rw [returned] at course
  obtain ⟨parts⟩ := exists_parts course
  obtain ⟨itinerary, conclusion⟩ := parts.itinerary
  refine ⟨itinerary.pairwise_orders forward, ?_, ?_⟩
  · intro hlimit hstopped
    rw [parts.error_eq] at hstopped
    obtain ⟨hspent, s, hs, hstanding⟩ := parts.trail.exceeded hstopped
    have hle := le_standing itinerary.first itinerary.follows
      fun v hv => Visit.lt_onward forward (itinerary.visited v hv).1
    have horder := sound.order_le hs
    rw [startOf_plan sound] at hle hstanding
    omega
  · intro unbranched completed
    rw [error_eq_none_of_status completed] at conclusion
    cases conclusion with
    | left absent =>
      rw [← itinerary.visits_plan sound unbranched absent]
      apply List.forall₂_map_left_iff.mpr
      exact itinerary.told.imp fun v o told => ⟨told.order, told.name⟩

/-- The same steps as in the detour, without its branch. -/
def straightAhead : Pipeline :=
  { detour with
    id := "straight-ahead"
    steps := detour.steps.map fun s => { s with branch := { s.branch with onTrue := none } } }

theorem detour_orders_increase :
    (detour.IsForward ∧
      ∃ result, (carryOut (answering (.result { success := false }))
          (detour.run { maxTransitions := 4 } false reading none) ()).1 = .ok result ∧
        (result.outcomes.map (·.order)).Pairwise (· < ·) ∧
        result.error ≠ some (exhaustion { maxTransitions := 4 })) ∧
      ∃ result, (carryOut (answering (.result { success := false }))
          (straightAhead.run { maxTransitions := 4 } false reading none) ()).1 = .ok result ∧
        List.Forall₂ (fun s o => o.order = s.order ∧ o.name = s.name) straightAhead.plan
          result.outcomes := by
  have sorted : detour.sortedSteps = detour.steps := Pipeline.sortedSteps_eq (by decide)
  have sorted' : straightAhead.sortedSteps = straightAhead.steps :=
    Pipeline.sortedSteps_eq (by decide)
  have valid : Validation.pipelineIssues [] detour = .ok [] := by
    unfold Validation.pipelineIssues
    rw [sorted]
    decide +kernel
  have valid' : Validation.pipelineIssues [] straightAhead = .ok [] := by
    unfold Validation.pipelineIssues
    rw [sorted']
    decide +kernel
  have forward : detour.IsForward := by
    simp [Pipeline.IsForward, detour]
  have unbranched : straightAhead.IsUnbranched := by
    simp [Pipeline.IsUnbranched, straightAhead, detour]
  have hlength : detour.plan.length = 4 := by
    unfold Pipeline.plan
    rw [sorted]
    decide
  obtain ⟨result, returned, -⟩ :
      ∃ result, (carryOut (answering (.result { success := false }))
          (detour.run { maxTransitions := 4 } false reading none) ()).1 = .ok result ∧
        result.status = "Completed" := by
    unfold Pipeline.run Pipeline.plan
    rw [sorted]
    decide +kernel
  obtain ⟨result', returned', completed⟩ :
      ∃ result, (carryOut (answering (.result { success := false }))
          (straightAhead.run { maxTransitions := 4 } false reading none) ()).1 = .ok result ∧
        result.status = "Completed" := by
    unfold Pipeline.run Pipeline.plan
    rw [sorted']
    decide +kernel
  obtain ⟨increase, unstopped, -⟩ :=
    orders_increase _ () _ false detour reading none valid forward returned
  obtain ⟨-, -, visited⟩ :=
    orders_increase _ () _ false straightAhead reading none valid' unbranched.isForward returned'
  exact ⟨⟨forward, result, returned, increase, unstopped (by simp [hlength])⟩,
    result', returned', visited unbranched completed⟩

end Run
end Conveyor
