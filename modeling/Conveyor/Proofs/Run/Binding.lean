import Conveyor.Proofs.Keyed
import Conveyor.Proofs.Run.Agreement
import Conveyor.Proofs.Run.Itinerary

/-!
# What a scope holds

The scope of a run is the payload and the outputs of the steps that have succeeded, each bound when its
step did. Nothing else that happens leaves a trace in it: not a step that failed or was passed over, and
not an attempt that came to nothing (`Trail.scope_eq`).
-/

namespace Conveyor

/-- The names to which the output of a step is bound. -/
def Step.Binds (s : Step) (name : String) : Prop :=
  name = s.outputName ∨ name ≠ "" ∧ s.outputVariable = some name

instance (s : Step) (name : String) : Decidable (s.Binds name) :=
  inferInstanceAs (Decidable (_ ∨ _ ∧ _))

theorem Step.outputName_ne_empty (s : Step) : s.outputName ≠ "" := by
  have hstep : toString "step" ≠ "" := by decide
  simp [Step.outputName, hstep]

theorem Step.mem_names_iff {s : Step} {name : String} :
    name ∈ (s.outputName :: s.outputVariable.toList).filter (fun n => !n.isEmpty) ↔
      s.Binds name := by
  unfold Step.Binds
  rw [List.mem_filter, List.mem_cons, Option.mem_toList]
  constructor
  · rintro ⟨rfl | hvariable, hname⟩
    · exact .inl rfl
    · exact .inr ⟨by simpa using hname, hvariable⟩
  · rintro (rfl | ⟨hname, hvariable⟩)
    · exact ⟨.inl rfl, by simpa using Step.outputName_ne_empty s⟩
    · exact ⟨.inr hvariable, by simpa using hname⟩

namespace Scope

open Run

/-- The scope after steps that have succeeded with these outputs. -/
def after (payload : Fields) (done : List (Step × Value)) : Scope :=
  done.foldl (fun scope d => bindOutput d.1 scope d.2) (start payload)

/-- A scope holds the payload, the latest output, and under each name the latest output that was bound
to it. -/
structure Holds (payload : Fields) (done : List (Step × Value)) (scope : Scope) : Prop where
  trigger : scope.trigger = payload
  last : scope.last = (done.getLast?.map (·.2)).getD (.object payload)
  distinct : scope.bindings.keys.Nodup
  names : ∀ name, name ∈ scope.bindings.keys ↔ ∃ d ∈ done, d.1.Binds name
  latest : ∀ name,
    scope.bindings.get? name = (done.filter fun d => d.1.Binds name).getLast?.map (·.2)

variable {payload : Fields} {scope : Scope} {s : Step} {done : List (Step × Value)}

@[simp] theorem after_nil (payload : Fields) : after payload [] = start payload := rfl

theorem after_append (payload : Fields) (done : List (Step × Value)) (s : Step) (value : Value) :
    after payload (done ++ [(s, value)]) = bindOutput s (after payload done) value :=
  List.foldl_concat ..

/-- An output is bound to the names of its step and to no other. -/
theorem get?_bindOutput (s : Step) (scope : Scope) (value : Value) (name : String) :
    (bindOutput s scope value).bindings.get? name =
      if s.Binds name then some value else scope.bindings.get? name := by
  unfold bindOutput bind
  rw [get?_foldl_put]
  simp only [Step.mem_names_iff]

theorem nodup_foldl_put (value : Value) (names : List String) {m : Keyed Value}
    (h : m.keys.Nodup) : (names.foldl (fun m n => m.put n value) m).keys.Nodup := by
  induction names generalizing m with
  | nil => exact h
  | cons n rest ih => exact ih (Keyed.nodup_keys_put n value h)

/-- What is bound under a name is the latest output of a step that binds it. -/
theorem get?_after (payload : Fields) (done : List (Step × Value)) (name : String) :
    (after payload done).bindings.get? name =
      (done.filter fun d => d.1.Binds name).getLast?.map (·.2) := by
  induction done using List.reverseRecOn with
  | nil => rfl
  | append_singleton done d ih =>
    obtain ⟨s, value⟩ := d
    rw [after_append, get?_bindOutput, ih, List.filter_append]
    by_cases hbinds : s.Binds name
    · simp [hbinds]
    · simp [hbinds]

theorem mem_keys_after {name : String} :
    name ∈ (after payload done).bindings.keys ↔ ∃ d ∈ done, d.1.Binds name := by
  rw [← not_iff_not, ← Keyed.get?_eq_none_iff, get?_after]
  simp

theorem holds_after (payload : Fields) (done : List (Step × Value)) :
    (after payload done).Holds payload done := by
  refine ⟨?_, ?_, ?_, fun _ => mem_keys_after, get?_after payload done⟩
  · induction done using List.reverseRecOn with
    | nil => rfl
    | append_singleton done d ih =>
      rw [after_append]
      exact ih
  · cases done using List.reverseRecOn with
    | nil => rfl
    | append_singleton done d =>
      rw [after_append, List.getLast?_concat]
      rfl
  · induction done using List.reverseRecOn with
    | nil => exact List.nodup_nil
    | append_singleton done d ih =>
      rw [after_append]
      exact nodup_foldl_put d.2 _ ih

end Scope

namespace Run

open Activity

/-- The step and its output, if the visit ended with success. -/
def Visit.success? (v : Visit) : Option (Step × Value) :=
  match v.attempted with
  | some ⟨_, _, .ok out⟩ => some (v.step, out.value)
  | _ => none

/-- The value is what the last attempt of a visit came to, which is made with the scope that the visit has
found. Of the attempts before it and what they were answered, nothing is in the value. -/
def Visit.Outputs (v : Visit) (value : Value) : Prop :=
  ∃ q q' out events, events <:+ v.events ∧ Course (invoke v.step v.scope q) events (q', .ok out) ∧
    value = out.value

/-- The steps that succeeded, with their outputs. -/
def successes (visits : List Visit) : List (Step × Value) := visits.filterMap Visit.success?

/-- The scope with which a run leaves a step. -/
def Next.scope : Next → Scope
  | .goOn _ scope _ => scope
  | .stop _ scope _ => scope

@[simp] theorem Next.scope_goOn (p : Progress) (scope : Scope) (order : Int) :
    (Next.goOn p scope order).scope = scope := rfl

@[simp] theorem Next.scope_stop (p : Progress) (scope : Scope) (error : Option String) :
    (Next.stop p scope error).scope = scope := rfl

variable {c : ExecutorConfig} {plan : List Step} {scope : Scope} {p : Progress} {order : Int}
  {limit : Nat} {visits : List Visit} {ended : Ended} {payload : Fields} {v : Visit}
  {o : StepOutcome} {next : Next} {done : List (Step × Value)}

/-! ## Visits -/

/-- A visit binds an output if the step succeeded, and nothing otherwise. -/
theorem Visit.scope_of_ends (h : v.Ends o next) (before : v.scope = Scope.after payload done) :
    next.scope = Scope.after payload (done ++ v.success?.toList) := by
  cases h with
  | passedOver _ untried => simp [Visit.success?, untried, before]
  | @succeeded a out tried ok =>
    obtain ⟨progress, attempts, result⟩ := a
    cases ok
    simp [Visit.success?, tried, before, Scope.after_append]
  | @skipped a e tried failure =>
    obtain ⟨progress, attempts, result⟩ := a
    cases failure
    simp [Visit.success?, tried, before]
  | @failed a f tried failure =>
    obtain ⟨progress, attempts, result⟩ := a
    cases failure
    simp [Visit.success?, tried, before]

theorem Visit.exists_success? (told : v.Told o) (h : o.state = .succeeded) :
    ∃ value, v.success? = some (v.step, value) := by
  obtain ⟨⟨progress, attempts, result⟩, out, tried, ok⟩ := told.succeeded.mp h
  cases ok
  exact ⟨out.value, by simp [Visit.success?, tried]⟩

/-- A success is that of the step, with its output. -/
theorem Visit.outputs_of_success? {d : Step × Value} (happens : v.Happens c)
    (h : v.success? = some d) : d.1 = v.step ∧ v.Outputs d.2 := by
  unfold Visit.success? at h
  split at h
  · rename_i progress attempts out tried
    cases h
    rw [Visit.Happens, tried] at happens
    obtain ⟨q, q', events, hsuffix, once⟩ := exists_invoke_of_ok happens.2 rfl
    exact ⟨rfl, q, q', out, events, hsuffix, once, rfl⟩
  · cases h

theorem Visit.success?_eq_none (told : v.Told o) (h : o.state ≠ .succeeded) :
    v.success? = none := by
  unfold Visit.success?
  split
  · rename_i out tried
    exact absurd (told.succeeded.mpr ⟨_, out, tried, rfl⟩) h
  · rfl

@[simp] theorem successes_nil : successes [] = [] := rfl

@[simp] theorem successes_cons (v : Visit) (visits : List Visit) :
    successes (v :: visits) = v.success?.toList ++ successes visits := by
  unfold successes
  rw [List.filterMap_cons]
  cases v.success? <;> rfl

/-- The steps that succeeded are those that are reported so. -/
theorem map_order_successes {outcomes : List StepOutcome}
    (told : List.Forall₂ Visit.Told visits outcomes) :
    (successes visits).map (·.1.order) =
      (outcomes.filter (·.state = .succeeded)).map (·.order) := by
  induction told with
  | nil => rfl
  | @cons v o _ _ told _ ih =>
    by_cases hstate : o.state = .succeeded
    · obtain ⟨value, hsuccess⟩ := Visit.exists_success? told hstate
      simp [hsuccess, hstate, ih, told.order]
    · simp [Visit.success?_eq_none told hstate, hstate, ih]

/-- On its way through a plan a run binds the outputs of the steps that succeed, one by one. -/
theorem Trail.scope_eq (trail : Trail c plan limit scope p order visits ended)
    (before : scope = Scope.after payload done) :
    ended.scope = Scope.after payload (done ++ successes visits) ∧
      ∀ (i : Nat) (v : Visit), visits[i]? = some v →
        v.scope = Scope.after payload (done ++ successes (visits.take i)) := by
  induction trail generalizing done with
  | leave => simpa using before
  | exhaust => simpa using before
  | @goOn _ v _ _ _ _ _ _ _ happens next _ ih =>
    obtain ⟨o, ends⟩ := Visit.ends happens
    have hscope := Visit.scope_of_ends ends before
    rw [next, Next.scope_goOn] at hscope
    obtain ⟨hended, hvisits⟩ := ih hscope
    rw [List.append_assoc, ← successes_cons] at hended
    refine ⟨hended, ?_⟩
    intro i v' hi
    cases i with
    | zero =>
      cases hi
      simpa using before
    | succ i => rw [hvisits i v' hi, List.append_assoc, ← successes_cons, List.take_succ_cons]
  | @stop _ v _ _ _ _ _ happens next =>
    obtain ⟨o, ends⟩ := Visit.ends happens
    have hscope := Visit.scope_of_ends ends before
    rw [next, Next.scope_stop] at hscope
    constructor
    · simpa using hscope
    · intro i v' hi
      cases i with
      | zero =>
        cases hi
        simpa using before
      | succ i => cases hi

theorem successes_take_succ {i : Nat} (hi : visits[i]? = some v) (h : v.success? = none) :
    successes (visits.take (i + 1)) = successes (visits.take i) := by
  unfold successes
  rw [List.take_add_one, hi, List.filterMap_append]
  simp [h]

/-! ## Whole runs -/

/-- Whatever the surroundings do, a run ends with the scope of the steps that have succeeded in it, each
with the output of its last attempt, and each step finds the scope of those that have succeeded before
it. A step that fails or is passed over leaves the scope that it has found. -/
theorem scope_of_successes {σ : Type} (surroundings : Surroundings σ) (st : σ)
    (c : ExecutorConfig) (logged : Bool) (p : Pipeline) (r : InboundRecord) (w : Option Workflow)
    {result : RunResult}
    (returned : (carryOut surroundings (p.run c logged r w) st).1 = .ok result) :
    ∃ parts : Parts c logged p r w
        (Activity.events surroundings (p.run c logged r w) st) result,
      Itinerary c p.plan c.maxTransitions.toNat (startOf p.plan) parts.visits result.outcomes ∧
      calls (Activity.events surroundings (p.run c logged r w) st) =
        parts.visits.flatMap (fun v => calls v.events) ∧
      (successes parts.visits).map (·.1.order) =
        (result.outcomes.filter (·.state = .succeeded)).map (·.order) ∧
      (∀ v ∈ parts.visits, ∀ d, v.success? = some d → d.1 = v.step ∧ v.Outputs d.2) ∧
      result.scope = Scope.after r.payload (successes parts.visits) ∧
      result.scope.Holds r.payload (successes parts.visits) ∧
      ∀ (i : Nat) (v : Visit) (o : StepOutcome),
        parts.visits[i]? = some v → result.outcomes[i]? = some o →
          v.scope = Scope.after r.payload (successes (parts.visits.take i)) ∧
          (o.state ≠ .succeeded →
            Scope.after r.payload (successes (parts.visits.take (i + 1))) = v.scope) := by
  have course := course_events surroundings (p.run c logged r w) st
  rw [returned] at course
  obtain ⟨parts, hscope⟩ := exists_parts_scope course
  obtain ⟨itinerary, -⟩ := parts.itinerary
  obtain ⟨hended, hvisits⟩ := parts.trail.scope_eq (Scope.after_nil r.payload).symm
  rw [List.nil_append] at hended
  refine ⟨parts, itinerary, parts.calls_eq, map_order_successes itinerary.told,
    fun v hv _ => Visit.outputs_of_success? (itinerary.visited v hv).2.1, hscope.trans hended, ?_, ?_⟩
  · rw [hscope, hended]
    exact Scope.holds_after r.payload (successes parts.visits)
  · intro i v o hv ho
    have hbefore := hvisits i v hv
    rw [List.nil_append] at hbefore
    refine ⟨hbefore, ?_⟩
    intro hstate
    obtain ⟨hi, hvisit⟩ := List.getElem?_eq_some_iff.mp hv
    obtain ⟨hi', houtcome⟩ := List.getElem?_eq_some_iff.mp ho
    have told : v.Told o := by
      rw [← hvisit, ← houtcome]
      exact itinerary.told.get hi hi'
    rw [successes_take_succ hv (Visit.success?_eq_none told hstate), hbefore]

/-- A step that fails and one that is not active, between two that bind the same name. -/
def patchy : Pipeline where
  id := "patchy"
  sourceKind := .senderApp
  applicationId := some 1
  steps :=
    [{ order := 1
       name := "rename"
       kind := .transform
       outputVariable := some "latest"
       renames := some [("height", "level")] },
      { order := 2
        name := "send"
        kind := .restCall
        onError := .skip
        outputVariable := some "reply"
        rest := { destinationId := some 7 } },
      { order := 3
        name := "pause"
        kind := .delay
        isActive := false
        delaySeconds := some .zero },
      { order := 4
        name := "rest"
        kind := .delay
        outputVariable := some "latest"
        delaySeconds := some .zero }]

theorem patchy_scope :
    ∃ result, (carryOut (answering (.result { success := false }))
        (patchy.run {} false reading none) ()).1 = .ok result ∧
      result.outcomes.map (·.state) = [.succeeded, .skipped, .skipped, .succeeded] ∧
      result.scope.bindings.keys = ["step1_output", "latest", "step4_output"] ∧
      ∃ parts : Parts {} false patchy reading none (Activity.events
          (answering (.result { success := false })) (patchy.run {} false reading none) ()) result,
        result.scope = Scope.after reading.payload (successes parts.visits) ∧
          result.scope.Holds reading.payload (successes parts.visits) := by
  obtain ⟨result, returned, hstates, hkeys⟩ :
      ∃ result, (carryOut (answering (.result { success := false }))
          (patchy.run {} false reading none) ()).1 = .ok result ∧
        result.outcomes.map (·.state) = [.succeeded, .skipped, .skipped, .succeeded] ∧
        result.scope.bindings.keys = ["step1_output", "latest", "step4_output"] := by
    unfold Pipeline.run Pipeline.plan
    rw [show patchy.sortedSteps = patchy.steps from Pipeline.sortedSteps_eq (by decide)]
    decide +kernel
  obtain ⟨parts, -, -, -, -, hscope, holds, -⟩ :=
    scope_of_successes _ () {} false patchy reading none returned
  exact ⟨result, returned, hstates, hkeys, parts, hscope, holds⟩

end Run
end Conveyor
