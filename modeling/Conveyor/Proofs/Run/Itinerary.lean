import Mathlib.Data.List.Chain
import Conveyor.Proofs.Run.Bound
import Conveyor.Proofs.Run.Completion
import Conveyor.Proofs.Run.Repetition

/-!
# Itineraries

What the outcomes of a run tell of its way through a plan. They are the visits of the run one by one;
each visit but the first is to the step at which the visit before it left the run standing, and a
failure is the last of them. The run ends behind the plan, with that failure, or because it has taken
all the steps that it may take and stands at another one (`Conclusion`).
-/

namespace Conveyor.Run

open Activity

namespace Visit

/-- Where the branch leads that a condition took. -/
def target? (v : Visit) : Option Int :=
  match v.attempted with
  | some ⟨_, _, .ok out⟩ =>
    if v.step.kind = .condition then
      if out.holds then v.step.branch.onTrue else v.step.branch.onFalse
    else none
  | _ => none

/-- The number at which a run stands after a visit that it goes on from. -/
def onward (v : Visit) : Int := v.target?.getD (v.step.order + 1)

/-- What the outcome of a visit tells: it names the step, tells success, failure and passing over
apart, and counts attempts exactly if there were some. -/
structure Told (v : Visit) (o : StepOutcome) : Prop where
  order : o.order = v.step.order
  name : o.name = v.step.name
  succeeded : o.state = .succeeded ↔ ∃ a out, v.attempted = some a ∧ a.result = .ok out
  skipped : o.state = .skipped ↔ v.step.isActive = false ∨
    ∃ a e, v.attempted = some a ∧ a.result = .error (.step e) ∧ v.step.onError = .skip
  failed : o.state = .failed ↔ ∃ a f, v.attempted = some a ∧ a.result = .error f ∧
    ∀ e, f = .step e → v.step.onError ≠ .skip
  attempts : o.state = .skipped → (o.attempts = 0 ↔ v.step.isActive = false)

/-- The second visit is made with the scope and the bookkeeping of the first, to the step at which it
left the run standing. -/
structure Follows (v v' : Visit) : Prop where
  next : v.next = .goOn v'.before v'.scope v'.step.order
  order : v'.step.order = v.onward

/-- A condition that succeeded was evaluated with its input. -/
def Decided (v : Visit) : Prop :=
  v.step.kind = .condition → ∀ a out, v.attempted = some a → a.result = .ok out →
    ∃ input, v.scope.renderInput v.step.inputMapping = .ok input ∧
      Condition.evaluate input (.object (v.step.branch.expression.getD [])) = .ok out.holds

end Visit

/-- The number at which visits leave a run standing that set out from a number. -/
def standing (order : Int) (visits : List Visit) : Int :=
  (visits.getLast?.map Visit.onward).getD order

/-- The visits of a run that sets out from a number and may visit so many steps, with what is told of
them. -/
structure Itinerary (c : ExecutorConfig) (plan : List Step) (limit : Nat) (order : Int)
    (visits : List Visit) (outcomes : List StepOutcome) : Prop where
  visited : ∀ v ∈ visits, v.step ∈ plan ∧ v.Happens c ∧ v.Decided
  told : List.Forall₂ Visit.Told visits outcomes
  first : ∀ v, visits.head? = some v → v.step.order = order
  follows : visits.IsChain Visit.Follows
  unfailed : ∀ o ∈ outcomes.dropLast, o.state ≠ .failed
  bounded : visits.length ≤ limit

/-- How the visits of a run come to an end, and the error that it is reported with. -/
inductive Conclusion (c : ExecutorConfig) (plan : List Step) (limit : Nat) (order : Int)
    (visits : List Visit) (outcomes : List StepOutcome) : Option String → Prop where
  | left (absent : ∀ s ∈ plan, s.order ≠ standing order visits)
      (unfailed : ∀ o ∈ outcomes, o.state ≠ .failed) :
      Conclusion c plan limit order visits outcomes none
  | exceeded (spent : visits.length = limit) (present : ∃ s ∈ plan, s.order = standing order visits)
      (unfailed : ∀ o ∈ outcomes, o.state ≠ .failed) :
      Conclusion c plan limit order visits outcomes (some (exhaustion c))
  | failed {o : StepOutcome} {error : String} (last : outcomes.getLast? = some o)
      (failed : o.state = .failed) :
      Conclusion c plan limit order visits outcomes (some error)

variable {c : ExecutorConfig} {s : Step} {plan : List Step} {scope scope' : Scope}
  {p q : Progress} {order order' : Int} {limit : Nat} {events : List Event} {ended : Ended}
  {v : Visit} {visits : List Visit} {o : StepOutcome} {outcomes : List StepOutcome}
  {error : Option String}

/-! ## Attempts -/

/-- What a condition does is to hold or not. -/
theorem evaluated_of_action {action : Action} (hkind : s.kind = .condition)
    (h : s.action scope = .ok action) :
    ∃ input holds, action = .finish input holds ∧ scope.renderInput s.inputMapping = .ok input ∧
      Condition.evaluate input (.object (s.branch.expression.getD [])) = .ok holds := by
  unfold Step.action at h
  cases hinput : scope.renderInput s.inputMapping with
  | error f =>
    rw [hinput] at h
    cases h
  | ok input =>
    simp only [hinput, hkind] at h
    have hcondition : s.conditionAction input = .ok action := h
    unfold Step.conditionAction at hcondition
    cases hholds : Condition.evaluate input (.object (s.branch.expression.getD [])) with
    | error f =>
      rw [hholds] at hcondition
      cases hcondition
    | ok holds =>
      rw [hholds] at hcondition
      cases hcondition
      exact ⟨input, holds, rfl, rfl, hholds⟩

theorem evaluated_of_invoke {out : Output} (hkind : s.kind = .condition)
    (h : Course (invoke s scope p) events (q, .ok out)) :
    ∃ input, scope.renderInput s.inputMapping = .ok input ∧
      Condition.evaluate input (.object (s.branch.expression.getD [])) = .ok out.holds := by
  unfold invoke at h
  split at h
  · obtain ⟨_, _, rfl, rest⟩ := course_request_bind_iff.mp h
    cases (course_pure_iff.mp rest).2
  · unfold invokeInTime at h
    cases haction : s.action scope with
    | error f =>
      simp only [haction] at h
      split at h
      · obtain ⟨_, _, rfl, rest⟩ := course_request_bind_iff.mp h
        cases (course_pure_iff.mp rest).2
      · cases (course_pure_iff.mp h).2
    | ok action =>
      obtain ⟨input, holds, rfl, hinput, hholds⟩ := evaluated_of_action hkind haction
      simp only [haction] at h
      obtain ⟨_, _, rfl, rest⟩ := course_request_bind_iff.mp h
      cases (course_pure_iff.mp rest).2
      exact ⟨input, hinput, hholds⟩

/-! ## One visit -/

theorem Visit.decided (h : v.Happens c) : v.Decided := by
  intro hkind a out tried hok
  rw [Visit.Happens, tried] at h
  obtain ⟨q, r, es, -, once⟩ := exists_invoke_of_ok h.2 hok
  exact evaluated_of_invoke hkind once

/-- What is told of a visit is what happened. -/
theorem Visit.told {next : Next} (happens : v.Happens c) (h : v.Ends o next) : v.Told o := by
  unfold Visit.Happens at happens
  cases h with
  | passedOver inactive untried _ =>
    constructor <;> simp [Visit.outcomeAs, inactive, untried]
  | succeeded tried ok =>
    rw [tried] at happens
    constructor <;> simp [Visit.outcomeAs, happens.1, tried, ok]
  | skipped tried failure policy =>
    rw [tried] at happens
    have hattempts := le_attempts happens.2
    constructor <;> simp [Visit.outcomeAs, happens.1, tried, failure, policy]
    omega
  | failed tried failure policy =>
    rw [tried] at happens
    constructor <;> simp [Visit.outcomeAs, happens.1, tried, failure]
    · intro e he
      exact policy e he
    · intro e he
      exact policy e he

/-- A visit that a run goes on from did not fail, and leaves it standing at the next number or where
the branch leads. -/
theorem Visit.onward_of_ends (h : v.Ends o (.goOn q scope order)) :
    o.state ≠ .failed ∧ order = v.onward := by
  cases h with
  | passedOver _ untried _ => simp [Visit.outcomeAs, Visit.onward, Visit.target?, untried]
  | @succeeded a out tried ok =>
    obtain ⟨progress, attempts, result⟩ := a
    cases ok
    refine ⟨by simp [Visit.outcomeAs], ?_⟩
    by_cases hkind : v.step.kind = .condition
    · simp [Visit.onward, Visit.target?, tried, successor, hkind]
    · simp [Visit.onward, Visit.target?, tried, successor, hkind]
  | @skipped a e tried failure _ =>
    obtain ⟨progress, attempts, result⟩ := a
    cases failure
    simp [Visit.outcomeAs, Visit.onward, Visit.target?, tried]

theorem Visit.failed_of_ends {text : Option String} (h : v.Ends o (.stop q scope text)) :
    o.state = .failed ∧ ∃ message, text = some message := by
  cases h with
  | failed => exact ⟨rfl, _, rfl⟩

/-! ## Visit after visit -/

@[simp] theorem standing_nil (order : Int) : standing order [] = order := rfl

@[simp] theorem standing_cons (order : Int) (v : Visit) (visits : List Visit) :
    standing order (v :: visits) = standing v.onward visits := by
  unfold standing
  rw [List.getLast?_cons]
  cases visits.getLast? <;> rfl

theorem itinerary_nil : Itinerary c plan limit order [] [] where
  visited := by simp
  told := .nil
  first := by simp
  follows := .nil
  unfailed := by simp
  bounded := Nat.zero_le _

/-- A visit before an itinerary that sets out from where the visit leads. Only the last visit may
fail. -/
theorem Itinerary.cons (h : Itinerary c plan limit v.onward visits outcomes)
    (present : stepAt? plan order = some v.step) (happens : v.Happens c) (told : v.Told o)
    (passed : outcomes ≠ [] → o.state ≠ .failed)
    (next : ∀ v', visits.head? = some v' → v.next = .goOn v'.before v'.scope v'.step.order) :
    Itinerary c plan (limit + 1) order (v :: visits) (o :: outcomes) where
  visited := List.forall_mem_cons.mpr
    ⟨⟨mem_of_stepAt? present, happens, Visit.decided happens⟩, h.visited⟩
  told := .cons told h.told
  first := by
    intro v' hv'
    cases hv'
    exact order_of_stepAt? present
  follows := by
    refine List.isChain_cons.mpr ⟨fun v' hv' => ?_, h.follows⟩
    exact ⟨next v' hv', h.first v' hv'⟩
  unfailed := by
    cases outcomes with
    | nil => simp
    | cons o' rest => exact List.forall_mem_cons.mpr ⟨passed (by simp), h.unfailed⟩
  bounded := Nat.succ_le_succ h.bounded

theorem Conclusion.cons (h : Conclusion c plan limit v.onward visits outcomes error)
    (passed : o.state ≠ .failed) :
    Conclusion c plan (limit + 1) order (v :: visits) (o :: outcomes) error := by
  cases h with
  | left absent unfailed =>
    exact .left (by simpa using absent) (List.forall_mem_cons.mpr ⟨passed, unfailed⟩)
  | exceeded spent present unfailed =>
    exact .exceeded (by simp [spent]) (by simpa using present)
      (List.forall_mem_cons.mpr ⟨passed, unfailed⟩)
  | failed last failed =>
    exact .failed (by rw [List.getLast?_cons, last]; rfl) failed

/-- A trail sets out with the scope and the bookkeeping that it starts from. -/
theorem Trail.head (trail : Trail c plan limit scope p order visits ended) :
    ∀ v, visits.head? = some v → v.scope = scope ∧ v.before = p ∧ v.step.order = order := by
  intro v hv
  cases trail with
  | leave | exhaust => cases hv
  | goOn present | stop present =>
    cases hv
    exact ⟨rfl, rfl, order_of_stepAt? present⟩

/-- What the outcomes of a trail tell. -/
theorem Trail.itinerary (trail : Trail c plan limit scope p order visits ended) :
    ∃ outcomes, ended.progress.outcomes = p.outcomes ++ outcomes ∧
      Itinerary c plan limit order visits outcomes ∧
      Conclusion c plan limit order visits outcomes ended.error := by
  induction trail with
  | leave absent =>
    refine ⟨[], by simp, itinerary_nil, .left ?_ (by simp)⟩
    intro s hs hnumber
    exact List.find?_eq_none.mp absent s (by simpa using hs) (by simpa using hnumber)
  | exhaust present =>
    refine ⟨[], by simp, itinerary_nil, .exceeded rfl ?_ (by simp)⟩
    exact ⟨_, mem_of_stepAt? present, order_of_stepAt? present⟩
  | @goOn _ v _ _ p' scope' _ _ present happens next rest ih =>
    obtain ⟨o, ends⟩ := Visit.ends happens
    have houtcomes := (Visit.leaves happens ends).1
    have htold := Visit.told happens ends
    rw [next] at ends houtcomes
    obtain ⟨passed, rfl⟩ := Visit.onward_of_ends ends
    obtain ⟨outcomes, hended, itinerary, conclusion⟩ := ih
    refine ⟨o :: outcomes, ?_, itinerary.cons present happens htold (fun _ => passed) ?_,
      conclusion.cons passed⟩
    · rw [hended, show p'.outcomes = _ from houtcomes]
      simp
    · intro v' hv'
      obtain ⟨rfl, rfl, hnumber⟩ := rest.head v' hv'
      rw [next, hnumber]
  | stop present happens next =>
    obtain ⟨o, ends⟩ := Visit.ends happens
    have houtcomes := (Visit.leaves happens ends).1
    have htold := Visit.told happens ends
    rw [next] at ends houtcomes
    obtain ⟨failed, message, rfl⟩ := Visit.failed_of_ends ends
    exact ⟨[o], houtcomes, itinerary_nil.cons present happens htold (by simp) (by simp),
      .failed rfl failed⟩

/-! ## Whole runs -/

/-- An activity that never stops makes no call. -/
theorem calls_eq_nil {α : Type} {t : Activity α} {a : α} (h : Within 0 t)
    (course : Course t events a) : calls events = [] := by
  generalize hn : 0 = n at h
  induction h generalizing events with
  | done b =>
    obtain ⟨rfl, -⟩ := course_done_iff.mp course
    rfl
  | @calm n q next calm _ ih =>
    cases course with
    | ask r rest =>
      rw [calls_cons, ih r rest hn]
      cases q with
      | call => cases calm
      | _ => rfl
  | halt => cases hn

theorem calls_flatMap (visits : List Visit) :
    calls (visits.flatMap Visit.events) = visits.flatMap fun v => calls v.events := by
  induction visits with
  | nil => rfl
  | cons v visits ih => rw [List.flatMap_cons, List.flatMap_cons, calls_append, ih]

/-- The calls of a run are those of its visits. -/
theorem Parts.calls_eq {logged : Bool} {p : Pipeline} {r : InboundRecord} {w : Option Workflow}
    {result : RunResult} (parts : Parts c logged p r w events result) :
    calls events = parts.visits.flatMap fun v => calls v.events := by
  have hopening := calls_eq_nil (within_openEntry logged r p w) parts.opens
  have hclosing := calls_eq_nil (within_close r p w parts.ended) parts.closes
  calc calls events = calls (parts.opening ++ (parts.visits.flatMap Visit.events ++ parts.closing)) :=
        congrArg calls parts.events_eq
    _ = calls (parts.visits.flatMap Visit.events) := by
        rw [calls_append, calls_append, hopening, hclosing, List.nil_append, List.append_nil]
    _ = parts.visits.flatMap fun v => calls v.events := calls_flatMap parts.visits

/-- What the outcomes of a run tell. -/
theorem Parts.itinerary {logged : Bool} {p : Pipeline} {r : InboundRecord} {w : Option Workflow}
    {result : RunResult} (parts : Parts c logged p r w events result) :
    Itinerary c p.plan c.maxTransitions.toNat (startOf p.plan) parts.visits result.outcomes ∧
      Conclusion c p.plan c.maxTransitions.toNat (startOf p.plan) parts.visits result.outcomes
        result.error := by
  obtain ⟨outcomes, houtcomes, itinerary, conclusion⟩ := parts.trail.itinerary
  have hresult : result.outcomes = outcomes := by
    rw [parts.outcomes_eq, houtcomes]
    simp
  subst hresult
  rw [← parts.error_eq] at conclusion
  exact ⟨itinerary, conclusion⟩

/-- In a plan without two steps of one number, the number of the first step leads to it. -/
theorem eq_head_of_stepAt? (distinct : (plan.map (·.order)).Nodup) (hs : s ∈ plan)
    (horder : s.order = startOf plan) : plan.head? = some s := by
  cases plan with
  | nil => cases hs
  | cons first rest =>
    have hnumber : s.order = first.order := horder
    rcases List.mem_cons.mp hs with rfl | hrest
    · rfl
    · have hrepeated : first.order ∈ rest.map (·.order) := List.mem_map.mpr ⟨s, hrest, hnumber⟩
      exact absurd hrepeated (List.nodup_cons.mp distinct).1

/-- A run is aborted exactly if it is reported with an error. -/
theorem status_eq_aborted_iff {result : RunResult} :
    result.status = "Aborted" ↔ ∃ text, result.error = some text := by
  unfold RunResult.status RunResult.isComplete
  cases result.error <;> simp

/-- The run was about to take one more step than it may. -/
structure Exceeded (c : ExecutorConfig) (plan : List Step) (visits : List Visit) : Prop where
  spent : visits.length = c.maxTransitions.toNat
  present : ∃ s ∈ plan, s.order = standing (startOf plan) visits

/-- A run through a plan without two steps of one number, whatever the surroundings do, is a walk from
the first step on. Its outcomes tell of its visits one by one, and each visit is to the step with the
number after the one before, or where the branch of a condition leads. Any failure ends the run, which
makes no more calls, but for a failure of the step itself where the step is to be passed over then. The
run is aborted exactly if it ended so, or if it may take no more steps and stands at one. -/
theorem outcomes_follow_itinerary {σ : Type} (surroundings : Surroundings σ) (st : σ)
    (c : ExecutorConfig) (logged : Bool) (p : Pipeline) (r : InboundRecord) (w : Option Workflow)
    {result : RunResult} (distinct : (p.plan.map (·.order)).Nodup)
    (returned : (carryOut surroundings (p.run c logged r w) st).1 = .ok result) :
    ∃ visits : List Visit,
      Itinerary c p.plan c.maxTransitions.toNat (startOf p.plan) visits result.outcomes ∧
      (∀ v, visits.head? = some v → p.plan.head? = some v.step) ∧
      calls (Activity.events surroundings (p.run c logged r w) st) =
        visits.flatMap (fun v => calls v.events) ∧
      Conclusion c p.plan c.maxTransitions.toNat (startOf p.plan) visits result.outcomes
        result.error ∧
      (result.status = "Aborted" ↔
        (∃ o, result.outcomes.getLast? = some o ∧ o.state = .failed) ∨ Exceeded c p.plan visits) := by
  have course := course_events surroundings (p.run c logged r w) st
  rw [returned] at course
  obtain ⟨parts⟩ := exists_parts course
  obtain ⟨itinerary, conclusion⟩ := parts.itinerary
  refine ⟨parts.visits, itinerary, ?_, parts.calls_eq, conclusion, ?_⟩
  · intro v hv
    have hmem : v ∈ parts.visits := List.mem_of_mem_head? hv
    exact eq_head_of_stepAt? distinct (itinerary.visited v hmem).1 (itinerary.first v hv)
  · rw [status_eq_aborted_iff]
    generalize result.error = error at conclusion
    cases conclusion with
    | left absent unfailed =>
      constructor
      · intro herror
        simp at herror
      · rintro (⟨o, hlast, hfailed⟩ | ⟨-, s, hs, hstanding⟩)
        · exact absurd hfailed (unfailed o (List.mem_of_getLast? hlast))
        · exact absurd hstanding (absent s hs)
    | exceeded spent present => simpa using Or.inr ⟨spent, present⟩
    | failed last failed => simpa using Or.inl ⟨_, last, failed⟩

/-- A condition that leads back to itself. -/
def circle : Pipeline where
  id := "circle"
  sourceKind := .senderApp
  applicationId := some 1
  steps :=
    [{ order := 1
       name := "again"
       kind := .condition
       branch :=
         { expression := some [("field", .text "level"), ("operator", .text "exists")]
           onTrue := some 1 } },
      { order := 2, name := "pause", kind := .delay, delaySeconds := some .zero }]

theorem circle_follows_itinerary :
    (circle.plan.map (·.order)).Nodup ∧
      ∃ result, (carryOut (answering (.result { success := false }))
          (circle.run { maxTransitions := 3 } false reading none) ()).1 = .ok result ∧
        result.outcomes.map (·.order) = [1, 1, 1] ∧ result.status = "Aborted" ∧
        ∃ visits, Itinerary { maxTransitions := 3 } circle.plan 3 1 visits result.outcomes ∧
          Exceeded { maxTransitions := 3 } circle.plan visits := by
  have sorted : circle.sortedSteps = circle.steps := Pipeline.sortedSteps_eq (by decide)
  have hplan : circle.plan = circle.steps := by
    unfold Pipeline.plan
    rw [sorted]
    rfl
  have distinct : (circle.plan.map (·.order)).Nodup := by
    rw [hplan]
    decide
  obtain ⟨result, returned, horders, hstates, aborted⟩ :
      ∃ result, (carryOut (answering (.result { success := false }))
          (circle.run { maxTransitions := 3 } false reading none) ()).1 = .ok result ∧
        result.outcomes.map (·.order) = [1, 1, 1] ∧
        result.outcomes.map (·.state) = [.succeeded, .succeeded, .succeeded] ∧
        result.status = "Aborted" := by
    unfold Pipeline.run
    rw [hplan]
    decide +kernel
  obtain ⟨visits, itinerary, -, -, -, hstatus⟩ :=
    outcomes_follow_itinerary _ () { maxTransitions := 3 } false circle reading none distinct
      returned
  have hstart : startOf circle.plan = 1 := by
    rw [hplan]
    rfl
  rw [hstart] at itinerary
  refine ⟨distinct, result, returned, horders, aborted, visits, itinerary, ?_⟩
  rcases hstatus.mp aborted with ⟨o, hlast, hfailed⟩ | exceeded
  · have hstate : (result.outcomes.map (·.state)).getLast? = some o.state := by
      rw [List.getLast?_map, hlast]
      rfl
    rw [hstates, hfailed] at hstate
    exact absurd hstate (by decide)
  · exact exceeded

end Conveyor.Run
