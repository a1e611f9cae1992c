import Conveyor.Document
import Conveyor.Proofs.Graph.Compilation

/-!
# How compilation and loading fail

Everything that is wrong with a graph or a document is reported as such, with one exception: a condition
that compares by an operator which is a list or an object. Such an operator is no name that could be
looked up, and the fault leaves validation.
-/

namespace Conveyor

/-! ## Computations that fail in one way -/

namespace Outcome

variable {ε α β : Type} {e : ε}

/-- A computation fails in one way if something holds, and has a result if not. -/
def FailsIff (P : Prop) (e : ε) (x : Except ε α) : Prop :=
  (P ∧ x = .error e) ∨ (¬P ∧ ∃ a, x = .ok a)

namespace FailsIff

variable {P Q : Prop} {x : Except ε α}

theorem of_ok {a : α} (h : ¬P) : FailsIff P e (.ok a : Except ε α) := .inr ⟨h, a, rfl⟩

theorem error_iff (h : FailsIff P e x) : x = .error e ↔ P := by
  rcases h with ⟨hP, hx⟩ | ⟨hP, a, hx⟩
  · exact ⟨fun _ => hP, fun _ => hx⟩
  · refine ⟨fun herror => ?_, fun h => absurd h hP⟩
    rw [hx] at herror
    cases herror

theorem exists_ok (h : FailsIff P e x) (hP : ¬P) : ∃ a, x = .ok a := by
  rcases h with ⟨hP', -⟩ | ⟨-, hx⟩
  · exact absurd hP' hP
  · exact hx

theorem congr (h : FailsIff P e x) (hPQ : P ↔ Q) : FailsIff Q e x := by
  rwa [FailsIff, ← hPQ]

theorem bind {f : α → Except ε β} (h : FailsIff P e x) (hf : ∀ a, x = .ok a → FailsIff Q e (f a)) :
    FailsIff (P ∨ Q) e (x >>= f) := by
  rcases h with ⟨hP, rfl⟩ | ⟨hP, a, rfl⟩
  · exact .inl ⟨.inl hP, rfl⟩
  · exact (hf a rfl).congr (by simp [hP])

/-- What is made of a result cannot fail. -/
theorem map (f : α → β) (h : FailsIff P e x) : FailsIff P e (x >>= fun a => pure (f a)) :=
  (h.bind fun _ _ => of_ok not_false).congr (by simp)

/-- A computation for each item fails if that for one of them does. -/
theorem mapM {P : α → Prop} {f : α → Except ε β} {as : List α}
    (h : ∀ a ∈ as, FailsIff (P a) e (f a)) : FailsIff (∃ a ∈ as, P a) e (as.mapM f) := by
  induction as with
  | nil => exact of_ok (by simp)
  | cons a as ih =>
    obtain ⟨ha, has⟩ := List.forall_mem_cons.mp h
    rw [List.mapM_cons]
    refine (ha.bind fun b _ => (ih has).map (b :: ·)).congr ?_
    simp

end FailsIff
end Outcome

open Outcome

/-! ## Conditions -/

namespace Condition

/-- Whether a value is one under which nothing can be looked up. -/
def isNoName : Value → Bool
  | .list _ | .object _ | .sealed _ => true
  | _ => false

/-- A condition that cannot be judged: going through its parts leads to a comparison by an operator
that is no name. -/
inductive IsUnjudgeable : Value → Prop where
  | comparison {fs : Fields} {operator : Value} (form : formOf fs = .comparison)
      (given : fs.get? "operator" = some operator) (noName : isNoName operator = true) :
      IsUnjudgeable (.object fs)
  | combinator {fs : Fields} {items : List Value} {part : Value}
      (form : formOf fs = .all (.list items) ∨ formOf fs = .any (.list items)) (mem : part ∈ items)
      (unjudgeable : IsUnjudgeable part) : IsUnjudgeable (.object fs)
  | negation {fs : Fields} {part : Value} (form : formOf fs = .negation part)
      (unjudgeable : IsUnjudgeable part) : IsUnjudgeable (.object fs)

theorem isUnjudgeable_comparison_iff {fs : Fields} (form : formOf fs = .comparison) :
    IsUnjudgeable (.object fs) ↔
      isNoName ((fs.get? "operator").getD (.text "eq")) = true := by
  constructor
  · intro h
    cases h with
    | comparison _ given noName => rwa [given]
    | combinator form' =>
      rw [form] at form'
      rcases form' with form' | form' <;> cases form'
    | negation form' =>
      rw [form] at form'
      cases form'
  · intro h
    cases hget : fs.get? "operator" with
    | none =>
      rw [hget] at h
      cases h
    | some operator =>
      rw [hget] at h
      exact .comparison form hget h

/-- A combinator cannot be judged if one of its parts cannot. -/
theorem isUnjudgeable_combinator_iff {fs : Fields} {v : Value}
    (form : formOf fs = .all v ∨ formOf fs = .any v) :
    IsUnjudgeable (.object fs) ↔ ∃ items, v = .list items ∧ ∃ part ∈ items, IsUnjudgeable part := by
  constructor
  · intro h
    cases h with
    | comparison form' =>
      rw [form'] at form
      rcases form with form | form <;> cases form
    | @combinator _ items part form' mem unjudgeable =>
      refine ⟨items, ?_, part, mem, unjudgeable⟩
      rcases form with form | form <;> rcases form' with form' | form' <;>
        · rw [form] at form'
          cases form'
          try rfl
    | negation form' =>
      rw [form'] at form
      rcases form with form | form <;> cases form
  · rintro ⟨items, rfl, part, mem, unjudgeable⟩
    exact .combinator form mem unjudgeable

theorem isUnjudgeable_negation_iff {fs : Fields} {v : Value} (form : formOf fs = .negation v) :
    IsUnjudgeable (.object fs) ↔ IsUnjudgeable v := by
  constructor
  · intro h
    cases h with
    | comparison form' =>
      rw [form] at form'
      cases form'
    | combinator form' =>
      rw [form] at form'
      rcases form' with form' | form' <;> cases form'
    | negation form' unjudgeable =>
      rw [form] at form'
      cases form'
      exact unjudgeable
  · exact .negation form

theorem ofValue?_failsIff (operator : Value) :
    FailsIff (isNoName operator = true) .wrongKind (Comparison.ofValue? operator) := by
  cases operator with
  | list => exact .inl ⟨rfl, rfl⟩
  | object => exact .inl ⟨rfl, rfl⟩
  | sealed => exact .inl ⟨rfl, rfl⟩
  | _ => exact .of_ok (by simp [isNoName])

theorem problemsOfItems_failsIff {key : String} {items : List Value}
    (h : ∀ v ∈ items, FailsIff (IsUnjudgeable v) .wrongKind (problems v)) (i : Nat) :
    FailsIff (∃ v ∈ items, IsUnjudgeable v) .wrongKind (problemsOfItems key i items) := by
  induction items generalizing i with
  | nil => exact .of_ok (by simp)
  | cons v rest ih =>
    obtain ⟨hv, hrest⟩ := List.forall_mem_cons.mp h
    rw [problemsOfItems]
    refine (hv.bind fun ps _ => (ih hrest (i + 1)).map _).congr ?_
    simp

theorem partsProblems_failsIff {key : String} {v : Value}
    (h : ∀ items, v = .list items → ∀ w ∈ items, FailsIff (IsUnjudgeable w) .wrongKind (problems w)) :
    FailsIff (∃ items, v = .list items ∧ ∃ w ∈ items, IsUnjudgeable w) .wrongKind
      (partsProblems key v) := by
  unfold partsProblems
  split
  · exact .of_ok (by simp)
  · rename_i items _
    exact (problemsOfItems_failsIff (h items rfl) 0).congr (by simp)
  · rename_i v _ hlist
    refine .of_ok ?_
    rintro ⟨items, rfl, -⟩
    exact hlist items rfl

/-- What is wrong with a condition can be told unless it cannot be judged. -/
theorem problems_failsIff (c : Value) : FailsIff (IsUnjudgeable c) .wrongKind (problems c) := by
  -- the parts of a combinator are the items of a field, one level further down than the fields
  have hboth : FailsIff (IsUnjudgeable c) .wrongKind (problems c) ∧
      ∀ items, c = .list items → ∀ v ∈ items, FailsIff (IsUnjudgeable v) .wrongKind (problems v) := by
    induction c using Value.induction with
    | list items ih =>
      refine ⟨.of_ok ?_, fun items' heq v hv => ?_⟩
      · intro h
        cases h
      · cases heq
        exact (ih v hv).1
    | object fs ih =>
      refine ⟨?_, fun items heq => by cases heq⟩
      rw [problems_object]
      cases hform : formOf fs with
      | all v =>
        obtain ⟨k, hmem⟩ := mem_of_formOf (.inl hform)
        exact (partsProblems_failsIff (ih _ hmem).2).congr
          (isUnjudgeable_combinator_iff (.inl hform)).symm
      | any v =>
        obtain ⟨k, hmem⟩ := mem_of_formOf (.inr (.inl hform))
        exact (partsProblems_failsIff (ih _ hmem).2).congr
          (isUnjudgeable_combinator_iff (.inr hform)).symm
      | negation v =>
        obtain ⟨k, hmem⟩ := mem_of_formOf (.inr (.inr hform))
        exact ((ih _ hmem).1.map _).congr (isUnjudgeable_negation_iff hform).symm
      | comparison =>
        exact ((ofValue?_failsIff _).map _).congr (isUnjudgeable_comparison_iff hform).symm
    | other v hlist hobject =>
      refine ⟨?_, fun items heq => absurd heq (hlist items)⟩
      unfold problems
      split
      · exact absurd rfl (hobject _)
      · refine .of_ok fun h => ?_
        cases h <;> exact hobject _ rfl
  exact hboth.1

end Condition

/-! ## Steps, pipelines and workflows -/

/-- A step that branches on a condition that cannot be judged. -/
def Step.IsUnjudgeable (s : Step) : Prop :=
  s.kind = .condition ∧ Condition.IsUnjudgeable s.branch.condition

/-- A pipeline with such a step. -/
def Pipeline.IsUnjudgeable (p : Pipeline) : Prop := ∃ s ∈ p.steps, s.IsUnjudgeable

namespace Validation

theorem stepIssues_failsIff (place : Place) (count : Nat) (s : Step) :
    FailsIff s.IsUnjudgeable .wrongKind (stepIssues place count s) := by
  have hkind : FailsIff s.IsUnjudgeable .wrongKind (kindIssues place count s) := by
    unfold kindIssues Step.IsUnjudgeable
    cases hk : s.kind with
    | condition => exact ((Condition.problems_failsIff s.branch.condition).map _).congr (by simp)
    | _ => exact .of_ok (by simp)
  exact hkind.map _

theorem stepsIssues_failsIff (place : Place) (count : Nat) (steps : List Step) :
    FailsIff (∃ s ∈ steps, s.IsUnjudgeable) .wrongKind (stepsIssues place count steps) := by
  refine ((FailsIff.mapM fun x _ => stepIssues_failsIff _ count x.1).map List.flatten).congr ?_
  constructor
  · rintro ⟨⟨s, i⟩, hmem, hs⟩
    exact ⟨s, List.mem_of_getElem? (List.mem_zipIdx_iff_getElem?.mp hmem), hs⟩
  · rintro ⟨s, hmem, hs⟩
    obtain ⟨i, hi⟩ := List.mem_iff_getElem?.mp hmem
    exact ⟨(s, i), List.mem_zipIdx_iff_getElem?.mpr hi, hs⟩

/-- The step that stands for a destination has no condition. -/
theorem finalIssues_failsIff (place : Place) (count : Nat) (p : Pipeline) :
    FailsIff False .wrongKind (finalIssues place count p) := by
  unfold finalIssues
  cases hfinal : p.destinationStep? (count + 1) with
  | none => exact .of_ok not_false
  | some s =>
    dsimp only
    split
    · exact .of_ok not_false
    · have hkind := (Pipeline.destinationStep?_eq_some hfinal).2.1
      exact (stepIssues_failsIff place count s).congr
        (iff_false_intro fun h => hkind h.1)

theorem pipelineIssues_failsIff (place : Place) (p : Pipeline) :
    FailsIff p.IsUnjudgeable .wrongKind (pipelineIssues place p) := by
  have hsteps := stepsIssues_failsIff place p.sortedSteps.length p.sortedSteps
  have hfinal := finalIssues_failsIff place p.sortedSteps.length p
  refine (hsteps.bind fun ofSteps _ => hfinal.map _).congr ?_
  have hmem : ∀ s, s ∈ p.sortedSteps ↔ s ∈ p.steps := fun s =>
    (List.mergeSort_perm p.steps _).mem_iff
  simp [Pipeline.IsUnjudgeable, hmem]

theorem pipelinesIssues_failsIff (ps : List Pipeline) :
    FailsIff (∃ p ∈ ps, p.IsUnjudgeable) .wrongKind (pipelinesIssues ps) := by
  have hparts : ∀ x ∈ ps.zipIdx, FailsIff x.1.IsUnjudgeable .wrongKind (do
      let place : Place := [.field "pipelines", .index x.2]
      let own ← pipelineIssues place x.1
      pure (issueIf ((ps.take x.2).any (·.id = x.1.id)) (place ++ [.field "id"])
        (.duplicatePipeline x.1.id) ++ own)) :=
    fun x _ => (pipelineIssues_failsIff _ x.1).map _
  refine ((FailsIff.mapM hparts).map List.flatten).congr ?_
  constructor
  · rintro ⟨⟨p, i⟩, hmem, hp⟩
    exact ⟨p, List.mem_of_getElem? (List.mem_zipIdx_iff_getElem?.mp hmem), hp⟩
  · rintro ⟨p, hmem, hp⟩
    obtain ⟨i, hi⟩ := List.mem_iff_getElem?.mp hmem
    exact ⟨(p, i), List.mem_zipIdx_iff_getElem?.mpr hi, hp⟩

end Validation

theorem Workflow.issues_failsIff (w : Workflow) :
    FailsIff (∃ p ∈ w.pipelines, p.IsUnjudgeable) .wrongKind w.issues :=
  (Validation.pipelinesIssues_failsIff w.pipelines).map _

/-! ## Compilation and loading -/

namespace AuthoringGraph

/-- A graph in which an edge makes a pipeline that cannot be judged. -/
def IsUnjudgeable (g : AuthoringGraph) : Prop := ∃ e ∈ g.edges, ∃ p, g.Draws e p ∧ p.IsUnjudgeable

theorem compileEdge_failsIff (g : AuthoringGraph) (e : GraphEdge) (i : Nat) :
    FailsIff (∃ p, g.Draws e p ∧ p.IsUnjudgeable) .wrongKind (g.compileEdge e i) := by
  unfold compileEdge
  dsimp only
  cases hp : g.pipeline? [.field "edges", .index i] e with
  | error issue =>
    refine .of_ok ?_
    rintro ⟨p, hdraws, -⟩
    rw [pipeline?_eq_ok_iff.mpr hdraws] at hp
    cases hp
  | ok p =>
    have hdraws := pipeline?_eq_ok_iff.mp hp
    refine ((Validation.pipelineIssues_failsIff _ p).map _).congr ⟨fun h => ⟨p, hdraws, h⟩, ?_⟩
    rintro ⟨p', hdraws', h⟩
    rw [pipeline?_eq_ok_iff.mpr hdraws'] at hp
    cases hp
    exact h

/-- A graph fails to compile with a fault if it cannot be judged, and otherwise compiles or is
refused with its issues. -/
theorem compile_cases (g : AuthoringGraph) :
    (g.IsUnjudgeable ∧ g.compile = .error (.fault .wrongKind)) ∨
      (¬g.IsUnjudgeable ∧
        ((∃ w, g.compile = .ok w) ∨ ∃ issues, g.compile = .error (.config issues))) := by
  have hedges : FailsIff g.IsUnjudgeable .wrongKind
      (g.edges.zipIdx.mapM fun x => g.compileEdge x.1 x.2) := by
    refine (FailsIff.mapM fun x _ => g.compileEdge_failsIff x.1 x.2).congr ?_
    constructor
    · rintro ⟨⟨e, i⟩, hmem, h⟩
      exact ⟨e, List.mem_of_getElem? (List.mem_zipIdx_iff_getElem?.mp hmem), h⟩
    · rintro ⟨e, hmem, h⟩
      obtain ⟨i, hi⟩ := List.mem_iff_getElem?.mp hmem
      exact ⟨(e, i), List.mem_zipIdx_iff_getElem?.mpr hi, h⟩
  have hcompile : g.compile = (do
      let edges ← (g.edges.zipIdx.mapM fun x => g.compileEdge x.1 x.2).mapError Failure.fault
      let issues := g.nodeIssues ++ edges.flatMap (·.2)
        ++ Validation.retentionIssues [.field "workflow"] g.header
      if issues.isEmpty then pure ⟨g.header, edges.filterMap (·.1)⟩
      else .error (.config issues)) := rfl
  rw [hcompile]
  rcases hedges with ⟨hg, herror⟩ | ⟨hg, edges, hok⟩
  · rw [herror]
    exact .inl ⟨hg, rfl⟩
  · rw [hok]
    refine .inr ⟨hg, ?_⟩
    simp only [Except.mapError, Bind.bind, Except.bind]
    split
    · exact .inl ⟨_, rfl⟩
    · exact .inr ⟨_, rfl⟩

end AuthoringGraph

/-- A document that is read as a workflow with a pipeline that cannot be judged. -/
def Document.IsUnjudgeable (d : Document) : Prop :=
  ∃ w, d.read Workflow.read = .ok w ∧ ∃ p ∈ w.pipelines, p.IsUnjudgeable

/-- A document fails to load with a fault if it cannot be judged, and otherwise loads or is refused as
invalid. -/
theorem Workflow.load_cases (d : Document) :
    (d.IsUnjudgeable ∧ Workflow.load d = .error (.fault .wrongKind)) ∨
      (¬d.IsUnjudgeable ∧
        ((∃ w, Workflow.load d = .ok w) ∨ ∃ e, Workflow.load d = .error (.validation e))) := by
  unfold load Document.IsUnjudgeable
  cases hread : d.read Workflow.read with
  | error e =>
    refine .inr ⟨?_, .inr ⟨_, rfl⟩⟩
    rintro ⟨w, hw, -⟩
    cases hw
  | ok w =>
    rcases w.issues_failsIff with ⟨hw, herror⟩ | ⟨hw, issues, hok⟩
    · refine .inl ⟨⟨w, rfl, hw⟩, ?_⟩
      show (w.issues.mapError Failure.fault >>= _) = _
      rw [herror]
      rfl
    · refine .inr ⟨?_, ?_⟩
      · rintro ⟨w', hw', h⟩
        cases hw'
        exact hw h
      · simp only [Except.mapError, Bind.bind, Except.bind, hok]
        split
        · exact .inl ⟨_, rfl⟩
        · exact .inr ⟨_, rfl⟩

/-- A step that compares by an operator which is a list. -/
def nameless : Value :=
  .object [("stepOrder", .int 1), ("stepName", .text "check"), ("stepType", .text "condition"),
    ("conditionExpression", .object [("field", .text "x"), ("operator", .list [])])]

end Conveyor
