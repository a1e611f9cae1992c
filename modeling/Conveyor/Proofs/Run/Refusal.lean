import Conveyor.Proofs.Mapping.Fault
import Conveyor.Proofs.Run.Completion

/-!
# Refusals

Some failures say that a workflow should never have been accepted. What a step does ends with one
only where its mappings, its body template, its operation or its destination are not what validation
asks for, so a step of a valid pipeline never does: whatever the record, the outputs before it and
the destinations are, what it fails with is about them (`invoke_unrefused`).
-/

namespace Conveyor

/-- A failure that says that the workflow should not have been accepted. -/
def Failure.isRefusal : Failure → Bool
  | .validation _ | .config _ => true
  | _ => false

/-- The computation does not end with a refusal. -/
def Unrefused {α : Type} (x : Except Failure α) : Prop := ∀ f, x = .error f → f.isRefusal = false

namespace Unrefused

variable {ε α β : Type}

theorem ok (a : α) : Unrefused (.ok a) := by
  intro f h
  cases h

theorem error {f : Failure} (h : f.isRefusal = false) :
    Unrefused (.error f : Except Failure α) := by
  intro g hg
  cases hg
  exact h

theorem bind {x : Except Failure α} {f : α → Except Failure β} (hx : Unrefused x)
    (hf : ∀ a, x = .ok a → Unrefused (f a)) : Unrefused (x >>= f) := by
  cases x with
  | error e => exact error (hx e rfl)
  | ok a => exact hf a rfl

theorem map {x : Except Failure α} (f : α → β) (hx : Unrefused x) : Unrefused (f <$> x) := by
  cases x with
  | error e => exact error (hx e rfl)
  | ok a => exact ok (f a)

theorem mapError {g : ε → Failure} (x : Except ε α) (h : ∀ e, (g e).isRefusal = false) :
    Unrefused (x.mapError g) := by
  cases x with
  | error e => exact error (h e)
  | ok a => exact ok a

/-- Faults are no refusals. -/
theorem ofFault (x : Except Fault α) : Unrefused (x.mapError Failure.fault) :=
  mapError x fun _ => rfl

theorem mapM {f : α → Except Failure β} {as : List α} (h : ∀ a ∈ as, Unrefused (f a)) :
    Unrefused (as.mapM f) := by
  induction as with
  | nil => exact ok []
  | cons a as ih =>
    obtain ⟨ha, has⟩ := List.forall_mem_cons.mp h
    rw [List.mapM_cons]
    exact bind ha fun b _ => bind (ih has) fun bs _ => ok (b :: bs)

end Unrefused

/-! ## Inputs and bodies -/

namespace Scope

theorem resolve_unrefused (s : Scope) (reference : String) : Unrefused (s.resolve reference) := by
  unfold resolve
  obtain ⟨name, path⟩ := Text.cut '.' (bare reference)
  dsimp only
  cases s.root? name with
  | none => exact .error rfl
  | some root =>
    refine .bind (.ofFault _) fun v _ => ?_
    cases v with
    | none => exact .error rfl
    | some v => exact .ok v

theorem resolveValue_unrefused (s : Scope) (v : Value) : Unrefused (s.resolveValue v) := by
  unfold resolveValue
  split
  · split
    · exact resolve_unrefused s _
    · exact .ok _
  · exact .ok v

theorem renderInput_unrefused (s : Scope) (settings : Option Fields) :
    Unrefused (s.renderInput settings) := by
  unfold renderInput
  split
  · exact .ok s.last
  · exact .ok s.last
  · refine .map _ (.mapM fun f _ => ?_)
    exact .bind (resolveValue_unrefused s f.2) fun v _ => .ok (f.1, v)

end Scope

namespace Template

theorem resolve_unrefused (context : Fields) (expression : String) :
    Unrefused (resolve context expression) := by
  unfold resolve
  obtain ⟨name, path⟩ := Text.cut '.' expression
  dsimp only
  cases context.get? name with
  | none => exact .error rfl
  | some root =>
    refine .bind (.ofFault _) fun v _ => ?_
    cases v with
    | none => exact .error rfl
    | some v => exact .ok v

theorem embedded_unrefused (v : Value) : Unrefused (embedded v) := by
  unfold embedded
  split
  · exact .ok _
  · split
    · exact .ok _
    · exact .error rfl

theorem renderText_unrefused (context : Fields) (s : String) :
    Unrefused (renderText context s) := by
  unfold renderText
  split
  · exact resolve_unrefused context _
  · refine .bind (.mapM fun piece _ => ?_) fun texts _ => .ok _
    cases piece with
    | literal c => exact .ok _
    | placeholder e => exact .bind (resolve_unrefused context e) fun v _ => embedded_unrefused v

theorem renderItems_unrefused {context : Fields} {items : List Value}
    (h : ∀ v ∈ items, Unrefused (render context v)) : Unrefused (renderItems context items) := by
  induction items with
  | nil => exact .ok []
  | cons v rest ih =>
    obtain ⟨hv, hrest⟩ := List.forall_mem_cons.mp h
    exact .bind hv fun w _ => .bind (ih hrest) fun ws _ => .ok (w :: ws)

theorem renderFields_unrefused {context : Fields} {fs : List (String × Value)}
    (h : ∀ f ∈ fs, Unrefused (render context f.2)) : Unrefused (renderFields context fs) := by
  induction fs with
  | nil => exact .ok []
  | cons f rest ih =>
    obtain ⟨hf, hrest⟩ := List.forall_mem_cons.mp h
    exact .bind hf fun w _ => .bind (ih hrest) fun ws _ => .ok ((f.1, w) :: ws)

/-- A body is filled or fails for what its placeholders name. -/
theorem render_unrefused (context : Fields) (template : Value) :
    Unrefused (render context template) := by
  induction template using Value.induction with
  | list items ih => exact .map _ (renderItems_unrefused ih)
  | object fs ih => exact .map _ (renderFields_unrefused ih)
  | other v hlist hobject =>
    unfold render
    split
    · exact renderText_unrefused context _
    · exact absurd rfl (hlist _)
    · exact absurd rfl (hobject _)
    · exact .ok _

end Template

/-! ## Mappings -/

theorem Faulty.unrefused {α : Type} {x : Except Failure α} {P : Fault → Prop} (h : Faulty x P) :
    Unrefused x := by
  intro e he
  rcases h.announced e he with ⟨m, rfl⟩ | ⟨f, rfl⟩
  · rfl
  · rfl

/-- Valid mappings resolve or fail for the values of the record. -/
theorem Mapping.resolve_unrefused (record : Fields) {ms : List FieldMapping}
    (h : Validation.ValidMappings ms) : Unrefused (Mapping.resolve record ms) :=
  (Mapping.faulty_resolve record h).unrefused

/-! ## Statements -/

namespace Statement

open Mapping (ResolvedField)

theorem keyValue_unrefused (fields : List ResolvedField) (primaryKey : Option String) :
    Unrefused (keyValue fields primaryKey) := by
  unfold keyValue
  split
  · exact .ok _
  · exact .error rfl

/-- An operation that can be written in a dialect is written, or fails for the record's key. -/
theorem synthesize_unrefused {t : Target} {op : Operation} {primaryKey : Option String}
    (h : operationIssue? op t.dialect primaryKey = none) (fields : List ResolvedField)
    (customQuery : Option String) :
    Unrefused (synthesize t fields (some op) primaryKey customQuery) := by
  unfold synthesize
  rw [Option.bind_some, h]
  cases op with
  | select => exact .ok _
  | insert => exact .ok _
  | upsert =>
    refine .bind (keyValue_unrefused fields primaryKey) fun _ _ => ?_
    split <;> exact .ok _
  | delete => exact .bind (keyValue_unrefused fields primaryKey) fun _ _ => .ok _
  | update =>
    refine .bind (keyValue_unrefused fields primaryKey) fun _ _ => ?_
    dsimp only
    split
    · exact .error rfl
    · exact .ok _

end Statement

/-! ## Conditions -/

namespace Condition

theorem evaluateAll_unrefused {data : Value} {items : List Value}
    (h : ∀ v ∈ items, Unrefused (evaluate data v)) : Unrefused (evaluateAll data items) := by
  induction items with
  | nil => exact .ok true
  | cons v rest ih =>
    obtain ⟨hv, hrest⟩ := List.forall_mem_cons.mp h
    rw [evaluateAll]
    refine .bind hv fun b _ => ?_
    cases b with
    | true => exact ih hrest
    | false => exact .ok false

theorem evaluateAny_unrefused {data : Value} {items : List Value}
    (h : ∀ v ∈ items, Unrefused (evaluate data v)) : Unrefused (evaluateAny data items) := by
  induction items with
  | nil => exact .ok false
  | cons v rest ih =>
    obtain ⟨hv, hrest⟩ := List.forall_mem_cons.mp h
    rw [evaluateAny]
    refine .bind hv fun b _ => ?_
    cases b with
    | true => exact .ok true
    | false => exact ih hrest

theorem evaluateComparison_unrefused (fs : Fields) (data : Value) :
    Unrefused (evaluateComparison fs data) := by
  unfold evaluateComparison
  dsimp only
  split
  · exact .error rfl
  · refine .bind (.ofFault _) fun c _ => ?_
    cases c with
    | none => exact .error rfl
    | some c => exact .bind (.ofFault _) fun actual _ => .ofFault _

theorem evaluateOther_unrefused (empty : Bool) (v : Value) : Unrefused (evaluateOther empty v) := by
  unfold evaluateOther
  split
  · exact .error rfl
  · split
    · exact .error rfl
    · exact .ok empty

theorem evaluate_and_parts_unrefused (data c : Value) :
    Unrefused (evaluate data c) ∧ ∀ empty, Unrefused (evaluateParts data empty c) := by
  -- as with problems, the parts of a combinator are one level below its fields
  induction c using Value.induction with
  | list items ih =>
    refine ⟨.error rfl, fun empty => ?_⟩
    cases empty with
    | true => exact evaluateAll_unrefused fun v hv => (ih v hv).1
    | false => exact evaluateAny_unrefused fun v hv => (ih v hv).1
  | object fs ih =>
    refine ⟨?_, fun empty => evaluateOther_unrefused empty _⟩
    rw [evaluate_object]
    cases hform : formOf fs with
    | all v =>
      obtain ⟨k, hmem⟩ := mem_of_formOf (.inl hform)
      exact (ih _ hmem).2 true
    | any v =>
      obtain ⟨k, hmem⟩ := mem_of_formOf (.inr (.inl hform))
      exact (ih _ hmem).2 false
    | negation v =>
      obtain ⟨k, hmem⟩ := mem_of_formOf (.inr (.inr hform))
      exact .map _ (ih _ hmem).1
    | comparison => exact evaluateComparison_unrefused fs data
  | other v hlist hobject =>
    constructor
    · unfold evaluate
      split
      · exact absurd rfl (hobject _)
      · exact .error rfl
    · intro empty
      unfold evaluateParts
      split
      · exact absurd rfl (hlist _)
      · exact evaluateOther_unrefused empty _

theorem evaluate_unrefused (data c : Value) : Unrefused (evaluate data c) :=
  (evaluate_and_parts_unrefused data c).1

end Condition

/-! ## Steps of a valid pipeline -/

open Validation

theorem Pipeline.destinationKind_of_destination? {p : Pipeline} {ref : DestinationRef}
    (h : p.destination? = some ref) : p.destinationKind = some ref.kind := by
  obtain ⟨kind, hkind, h⟩ := Option.bind_eq_some_iff.mp h
  obtain ⟨id, -, h⟩ := Option.bind_eq_some_iff.mp h
  cases h
  exact hkind

/-- The destination step of a valid pipeline has complete settings. Validation does not judge that
of a REST destination, which has them nonetheless. -/
theorem Pipeline.IsValid.settings_of_final {p : Pipeline} (h : p.IsValid) {s : Step}
    (hs : p.destinationStep? (p.sortedSteps.length + 1) = some s) :
    ValidMappings s.fieldMappings ∧ ValidSettings p.sortedSteps.length s := by
  have hfinal := h.final s hs
  by_cases hrest : p.destinationKind = some .rest
  · rw [if_pos hrest] at hfinal
    obtain ⟨⟨kind, id⟩, href, rfl⟩ := Option.map_eq_some_iff.mp hs
    obtain rfl : kind = .rest :=
      Option.some.inj ((destinationKind_of_destination? href).symm.trans hrest)
    exact ⟨hfinal, rfl, fun t ht => by cases ht⟩
  · rw [if_neg hrest] at hfinal
    exact ⟨hfinal.mappings, hfinal.settings⟩

theorem Pipeline.IsValid.settings_of_mem {p : Pipeline} (h : p.IsValid) {s : Step}
    (hs : s ∈ p.plan) : ValidMappings s.fieldMappings ∧ ValidSettings p.sortedSteps.length s := by
  obtain ⟨i, hi⟩ := List.mem_iff_getElem?.mp hs
  rcases Pipeline.getElem?_plan hi with hown | ⟨-, hfinal⟩
  · have hstep := h.steps s (List.mem_of_getElem? hown)
    exact ⟨hstep.mappings, hstep.settings⟩
  · exact h.settings_of_final hfinal

namespace Step

variable {count : Nat} {s : Step} (mappings : ValidMappings s.fieldMappings)
  (settings : ValidSettings count s)

theorem inputFields_unrefused (s : Step) (input : Value) : Unrefused (s.inputFields input) := by
  unfold inputFields
  split
  · exact .ok _
  · exact .error rfl

theorem sendTo_unrefused (h : s.destination?.isSome) (request : Request) (sent : Value) :
    Unrefused (s.sendTo request sent) := by
  obtain ⟨ref, href⟩ := Option.isSome_iff_exists.mp h
  unfold sendTo
  rw [href]
  exact .ok _

include mappings in
theorem restBody_unrefused
    (template : ∀ t, s.rest.bodyTemplate = some t → t.isEmpty = false → ∃ v, Json.read? t = some v)
    (scope : Scope) (input : Value) : Unrefused (s.restBody scope input) := by
  unfold restBody
  split
  · rename_i t ht
    obtain ⟨hsome, hgiven⟩ := Option.filter_eq_some_iff.mp ht
    obtain ⟨v, hv⟩ := template t hsome (by simpa using hgiven)
    rw [hv]
    exact Template.render_unrefused _ v
  · split
    · exact .ok input
    · refine .bind (inputFields_unrefused s input) fun fs _ => ?_
      exact .bind (Mapping.resolve_unrefused fs mappings) fun resolved _ => .ok _

/-- A query that can be written is written, or fails for the record. -/
theorem statement_unrefused {fields : List Mapping.ResolvedField}
    (operation : if s.kind = .sapQuery then ValidQuery (sapQuery s)
      else ValidQuery (databaseQuery s)) : Unrefused (s.statement fields) := by
  unfold statement
  split
  · rename_i hkind
    rw [if_pos hkind] at operation
    exact Statement.synthesize_unrefused operation.operation fields none
  · rename_i hkind
    rw [if_neg hkind] at operation
    exact Statement.synthesize_unrefused operation.operation fields _

include mappings in
theorem queryAction_unrefused (destination : s.destination?.isSome)
    (operation : if s.kind = .sapQuery then ValidQuery (sapQuery s)
      else ValidQuery (databaseQuery s)) (input : Value) : Unrefused (s.queryAction input) := by
  refine .bind (inputFields_unrefused s input) fun fs _ => ?_
  refine .bind (Mapping.resolve_unrefused fs mappings) fun fields _ => ?_
  exact .bind (statement_unrefused operation) fun statement _ => sendTo_unrefused destination _ _

theorem transformAction_unrefused (s : Step) (input : Value) :
    Unrefused (s.transformAction input) :=
  .bind (inputFields_unrefused s input) fun _ _ => .bind (.ofFault _) fun _ _ => .ok _

theorem conditionAction_unrefused (s : Step) (input : Value) :
    Unrefused (s.conditionAction input) :=
  .bind (Condition.evaluate_unrefused input _) fun _ _ => .ok _

include mappings settings in
/-- A step with valid settings does something, or fails for the input it is given. -/
theorem action_unrefused (scope : Scope) : Unrefused (s.action scope) := by
  refine .bind (Scope.renderInput_unrefused scope s.inputMapping) fun input _ => ?_
  unfold ValidSettings at settings
  cases hkind : s.kind with
  | restCall =>
    rw [hkind] at settings
    obtain ⟨destination, template⟩ := settings
    refine .bind (restBody_unrefused mappings template scope input) fun body _ => ?_
    exact sendTo_unrefused (by simpa [destination?, hkind] using destination) _ _
  | dbQuery =>
    rw [hkind] at settings
    obtain ⟨destination, query⟩ := settings
    refine queryAction_unrefused mappings ?_ ?_ input
    · simpa [destination?, hkind] using destination
    · simpa [hkind] using query
  | sapQuery =>
    rw [hkind] at settings
    obtain ⟨destination, query⟩ := settings
    refine queryAction_unrefused mappings ?_ ?_ input
    · simpa [destination?, hkind] using destination
    · simpa [hkind] using query
  | transform => exact transformAction_unrefused s input
  | condition => exact conditionAction_unrefused s input
  | delay => exact .ok _

end Step

theorem Pipeline.IsValid.action_unrefused {p : Pipeline} (h : p.IsValid) {s : Step}
    (hs : s ∈ p.plan) (scope : Scope) : Unrefused (s.action scope) := by
  obtain ⟨mappings, settings⟩ := h.settings_of_mem hs
  exact Step.action_unrefused mappings settings scope

/-! ## Attempts -/

namespace Run

open Activity

variable {c : ExecutorConfig} {s : Step} {scope : Scope} {p p' : Progress} {events : List Event}

theorem settle_unrefused (ref : DestinationRef) (sent : Value) (p : Progress) (answer : Answer) :
    Unrefused (settle ref sent p answer).2 := by
  cases answer with
  | fault f => exact .error rfl
  | result r =>
    unfold settle
    dsimp only
    split
    · exact .ok _
    · exact .error rfl

theorem perform_unrefused {action : Action} {out : Progress × Except Failure Output}
    (h : Course (perform s p action) events out) : Unrefused out.2 := by
  cases action with
  | finish output holds =>
    obtain ⟨_, after, rfl, rest⟩ := course_request_bind_iff.mp h
    obtain ⟨rfl, rfl⟩ := course_pure_iff.mp rest
    exact .ok _
  | send ref request sent =>
    obtain ⟨reply, after, rfl, rest⟩ := course_request_bind_iff.mp h
    cases reply with
    | none =>
      obtain ⟨rfl, rfl⟩ := course_pure_iff.mp rest
      exact .error rfl
    | some answer =>
      obtain ⟨rfl, rfl⟩ := course_pure_iff.mp rest
      exact settle_unrefused ref sent p answer
  | pause seconds output =>
    obtain ⟨_, after, rfl, rest⟩ := course_request_bind_iff.mp h
    obtain ⟨rfl, rfl⟩ := course_pure_iff.mp rest
    exact .ok _

theorem invokeInTime_unrefused (ha : Unrefused (s.action scope))
    {out : Progress × Except Failure Output} (h : Course (invokeInTime s scope p) events out) :
    Unrefused out.2 := by
  unfold invokeInTime at h
  cases hs : s.action scope with
  | ok action =>
    rw [hs] at h
    exact perform_unrefused h
  | error e =>
    rw [hs] at ha
    simp only [hs] at h
    split at h
    · obtain ⟨_, after, rfl, rest⟩ := course_request_bind_iff.mp h
      obtain ⟨rfl, rfl⟩ := course_pure_iff.mp rest
      exact .error (ha e rfl)
    · obtain ⟨rfl, rfl⟩ := course_pure_iff.mp h
      exact .error (ha e rfl)

theorem invoke_unrefused (ha : Unrefused (s.action scope))
    {out : Progress × Except Failure Output} (h : Course (invoke s scope p) events out) :
    Unrefused out.2 := by
  unfold invoke at h
  split at h
  · obtain ⟨_, after, rfl, rest⟩ := course_request_bind_iff.mp h
    obtain ⟨rfl, rfl⟩ := course_pure_iff.mp rest
    exact .error rfl
  · exact invokeInTime_unrefused ha h

/-- Every attempt of a step ends like an invocation of it, or with a fault of the log or of the
clock. -/
theorem attemptFrom_unrefused (ha : Unrefused (s.action scope)) {first n : Nat} {a : Attempted}
    (h : Course (attemptFrom c s scope first p n) events a) : Unrefused a.result := by
  induction n generalizing first p events with
  | zero =>
    obtain ⟨before, after, out, rfl, once, rest⟩ := course_bind_iff.mp h
    obtain ⟨rfl, rfl⟩ := course_pure_iff.mp rest
    exact invoke_unrefused ha once
  | succ n ih =>
    obtain ⟨before, after, ⟨q, result⟩, rfl, once, rest⟩ := course_bind_iff.mp h
    have hresult : Unrefused result := invoke_unrefused ha once
    match result, rest with
    | .ok out, rest =>
      obtain ⟨rfl, rfl⟩ := course_pure_iff.mp rest
      exact hresult
    | .error (.mapping _), rest | .error (.validation _), rest | .error (.config _), rest
    | .error (.fault _), rest =>
      obtain ⟨rfl, rfl⟩ := course_pure_iff.mp rest
      exact hresult
    | .error (.step e), rest =>
      obtain ⟨noted, after, out, rfl, note, rest⟩ := course_bind_iff.mp rest
      cases out with
      | error f =>
        obtain ⟨rfl, rfl⟩ := course_pure_iff.mp rest
        exact .error rfl
      | ok r =>
        simp only at rest
        split at rest
        · obtain ⟨rfl, rfl⟩ := course_pure_iff.mp rest
          exact .error rfl
        · obtain ⟨_, drawn, rfl, waits⟩ := course_request_bind_iff.mp rest
          obtain ⟨_, waited, rfl, again⟩ := course_request_bind_iff.mp waits
          exact ih again

/-! ## Runs -/

/-- Invoking a step of a pipeline without issues never ends with a refusal, whatever the scope and
whatever its surroundings answer. So none of its runs fails for one: when a run ends with an error,
it took too many steps, or a step of it failed, and not with a refusal. -/
theorem valid_pipeline_unrefused {σ : Type} (s : Surroundings σ) (c : ExecutorConfig)
    (logged : Bool) (p : Pipeline) (r : InboundRecord) (w : Option Workflow) {place : Place}
    (valid : pipelineIssues place p = .ok []) :
    (∀ step ∈ p.plan, ∀ scope q st,
        Unrefused (carryOut s (invokeInTime step scope q) st).1.2) ∧
      ∀ st result, (carryOut s (p.run c logged r w) st).1 = .ok result →
        ∃ parts : Parts c logged p r w (Activity.events s (p.run c logged r w) st) result,
          (∀ v ∈ parts.visits, ∀ a, v.attempted = some a → Unrefused a.result) ∧
            ∀ error, result.error = some error → error = exhaustion c ∨
              ∃ v ∈ parts.visits, ∃ a f, v.attempted = some a ∧ a.result = .error f ∧
                f.isRefusal = false ∧ error = abortText v.step f := by
  have hvalid := pipelineIssues_eq_nil_iff_isValid.mp valid
  refine ⟨fun step hstep scope q st => ?_, fun st result returned => ?_⟩
  · exact invokeInTime_unrefused (hvalid.action_unrefused hstep scope) (course_events s _ st)
  · have course := course_events s (p.run c logged r w) st
    rw [returned] at course
    obtain ⟨parts⟩ := exists_parts course
    have unrefused : ∀ v ∈ parts.visits, ∀ a, v.attempted = some a → Unrefused a.result := by
      intro v hv a ha
      obtain ⟨hplan, happens⟩ := parts.trail.happens v hv
      rw [Visit.Happens, ha] at happens
      exact attemptFrom_unrefused (hvalid.action_unrefused hplan v.scope) happens.2
    refine ⟨parts, unrefused, fun error herror => ?_⟩
    rw [parts.error_eq] at herror
    rcases parts.trail.error herror with hexhausted | ⟨v, hv, a, f, ha, hf, htext⟩
    · exact .inl hexhausted
    · exact .inr ⟨v, hv, a, f, ha, hf, unrefused v hv a ha f hf, htext⟩

/-- A call with a body of its own, before a row is written under a key that the record may lack. -/
def keyed : Pipeline where
  id := "keyed"
  sourceKind := .senderApp
  applicationId := some 1
  destinationKind := some .database
  databaseId := some 4
  delivery :=
    { targetTable := some "levels"
      queryType := some .upsert
      primaryKey := some "ID"
      fieldMappings :=
        [{ sourceField := "id", destinationColumn := "ID", transformType := some "trim" },
          { sourceField := "level", destinationColumn := "LEVEL" }] }
  steps :=
    [{ order := 1, name := "notify", kind := .restCall,
       rest := { destinationId := some 3, bodyTemplate := some "[1]" } }]

theorem keyed_unrefused :
    pipelineIssues [] keyed = .ok [] ∧
      (∀ step ∈ keyed.plan, ∀ scope q, Unrefused
        (carryOut (answering (.result { success := true })) (invokeInTime step scope q) ()).1.2) ∧
      ∃ result, (carryOut (answering (.result { success := true }))
          (keyed.run {} false reading none) ()).1 = .ok result ∧
        ∃ error, result.error = some error ∧ ∃ step ∈ keyed.plan, ∃ f, f.isRefusal = false ∧
          error = abortText step f := by
  have sorted : keyed.sortedSteps = keyed.steps := Pipeline.sortedSteps_eq (by decide)
  have valid : pipelineIssues [] keyed = .ok [] := by
    unfold pipelineIssues
    rw [sorted]
    decide +kernel
  obtain ⟨result, returned, failed⟩ :
      ∃ result, (carryOut (answering (.result { success := true }))
          (keyed.run {} false reading none) ()).1 = .ok result ∧ result.error = some
            "Step 2 (database destination): MissingRequiredField: required field 'id' is missing" := by
    unfold Pipeline.run Pipeline.plan
    rw [sorted]
    decide +kernel
  obtain ⟨invoked, ran⟩ :=
    valid_pipeline_unrefused (answering (.result { success := true })) {} false keyed reading none
      valid
  obtain ⟨parts, -, hfailed⟩ := ran () result returned
  refine ⟨valid, fun step hstep scope q => invoked step hstep scope q (), result, returned, _,
    failed, ?_⟩
  rcases hfailed _ failed with hexhausted | ⟨v, hv, a, f, -, -, hf, htext⟩
  · exact absurd hexhausted (by decide +kernel)
  · exact ⟨v.step, (parts.trail.happens v hv).1, f, hf, htext⟩

end Run
end Conveyor
