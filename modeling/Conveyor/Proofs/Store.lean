import Conveyor.Proofs.Pipeline.Valid
import Conveyor.Store

/-!
# Saving workflows

When the store takes a workflow, and what it holds then.
-/

namespace Conveyor.WorkflowStore

open Outcome

/-- Rows are added when their ids differ, from each other and from those that are there. -/
theorem addRows_eq_ok_iff {rows more all : List PipelineRow} :
    addRows rows more = .ok all ↔
      (more.map (·.id)).Nodup ∧ (∀ r ∈ rows, ∀ m ∈ more, r.id ≠ m.id) ∧ all = rows ++ more := by
  induction more generalizing rows with
  | nil =>
    rw [addRows, List.append_nil, Except.ok.injEq]
    simp [eq_comm]
  | cons m rest ih =>
    rw [addRows]
    by_cases htaken : rows.any (·.id = m.id)
    · rw [if_pos htaken]
      obtain ⟨r, hr, hid⟩ := List.any_eq_true.mp htaken
      constructor
      · intro h
        cases h
      · rintro ⟨-, hfree, -⟩
        exact absurd (by simpa using hid) (hfree r hr m List.mem_cons_self)
    · rw [if_neg htaken, ih]
      have hm : ∀ r ∈ rows, r.id ≠ m.id := by simpa using htaken
      simp only [List.map_cons, List.nodup_cons, List.append_assoc, List.singleton_append,
        List.forall_mem_append, List.forall_mem_singleton, List.forall_mem_cons, List.mem_map,
        not_exists, not_and]
      constructor
      · rintro ⟨hnodup, ⟨hrows, hnew⟩, rfl⟩
        exact ⟨⟨fun r hr hid => hnew r hr hid.symm, hnodup⟩,
          fun r hr => ⟨hm r hr, hrows r hr⟩, rfl⟩
      · rintro ⟨⟨hnew, hnodup⟩, hrows, rfl⟩
        exact ⟨hnodup, ⟨fun r hr => (hrows r hr).2, fun r hr hid => hnew r hr hid.symm⟩, rfl⟩

/-- Rows are refused for their ids only. -/
theorem addRows_eq_error {rows more : List PipelineRow} {f : Fault}
    (h : addRows rows more = .error f) : f = .integrity := by
  induction more generalizing rows with
  | nil => cases h
  | cons m rest ih =>
    rw [addRows] at h
    split at h
    · cases h
      rfl
    · exact ih h

/-- The index rows of a workflow. -/
def rowsOf (w : Workflow) : List PipelineRow := w.pipelines.map fun p => ⟨p.id, w.id⟩

/-- No pipeline of another workflow has the id of one of the workflow's. -/
def IsFree (s : WorkflowStore) (w : Workflow) : Prop :=
  ∀ r ∈ s.pipelines, r.workflowId ≠ w.id → ∀ p ∈ w.pipelines, r.id ≠ p.id

/-- The rows of the other workflows. -/
def others (s : WorkflowStore) (w : Workflow) : List PipelineRow :=
  s.pipelines.filter fun r => r.workflowId ≠ w.id

/-- What becomes of a workflow in which nothing is wrong and that can be written. -/
theorem save_of_isValid {s : WorkflowStore} {w : Workflow} {document : String} (h : w.IsValid)
    (written : w.documentText = .ok document) :
    s.save w = if numbersFit w then
        (fun rows => ⟨s.documents.put w.id document, rows⟩) <$>
          (addRows (s.others w) (rowsOf w)).mapError Failure.fault
      else .error (.fault .overflow) := by
  unfold save
  rw [Workflow.issues_eq_nil_iff_isValid.mpr h, written]
  cases hnumbers : numbersFit w with
  | true => rfl
  | false => rfl

/-- A workflow in which nothing is wrong, but that cannot be written, is refused for that. -/
theorem save_of_unwritten {s : WorkflowStore} {w : Workflow} {f : Fault} (h : w.IsValid)
    (unwritten : w.documentText = .error f) : s.save w = .error (.fault f) := by
  unfold save
  rw [Workflow.issues_eq_nil_iff_isValid.mpr h, unwritten]
  rfl

/-- A workflow in which something is wrong is refused. -/
theorem save_of_not_isValid {s : WorkflowStore} {w : Workflow} (h : ¬w.IsValid) :
    (∃ f, w.issues = .error f ∧ s.save w = .error (.fault f)) ∨
      ∃ issues, issues ≠ [] ∧ w.issues = .ok issues ∧ s.save w = .error (.config issues) := by
  cases hissues : w.issues with
  | error f =>
    refine .inl ⟨f, rfl, ?_⟩
    unfold save
    rw [hissues]
    rfl
  | ok issues =>
    cases issues with
    | nil => exact absurd (Workflow.issues_eq_nil_iff_isValid.mp hissues) h
    | cons issue rest =>
      refine .inr ⟨_, List.cons_ne_nil _ _, rfl, ?_⟩
      unfold save
      rw [hissues]
      rfl

/-- A workflow is saved when it is valid and can be written, the numbers of its sources fit, and the ids
of its pipelines are free. Its document and its rows take the place of earlier ones. -/
theorem save_eq_ok_iff {s s' : WorkflowStore} {w : Workflow} :
    s.save w = .ok s' ↔ w.IsValid ∧ numbersFit w = true ∧ s.IsFree w ∧
      ∃ document, w.documentText = .ok document ∧
        s' = ⟨s.documents.put w.id document, s.others w ++ rowsOf w⟩ := by
  by_cases hvalid : w.IsValid
  · have hids : (rowsOf w).map (·.id) = w.pipelines.map (·.id) := by
      rw [rowsOf, List.map_map]
      rfl
    have hfree : (∀ r ∈ s.others w, ∀ m ∈ rowsOf w, r.id ≠ m.id) ↔ s.IsFree w := by
      simp [IsFree, others, rowsOf]
    cases hdocument : w.documentText with
    | error f =>
      rw [save_of_unwritten hvalid hdocument]
      constructor
      · intro h
        cases h
      · rintro ⟨-, -, -, _, h, -⟩
        cases h
    | ok document =>
      rw [save_of_isValid hvalid hdocument]
      by_cases hnumbers : numbersFit w = true
      · rw [if_pos hnumbers, map_eq_ok_iff]
        simp only [mapError_eq_ok_iff, addRows_eq_ok_iff, hids, hfree, hvalid, hvalid.ids, hnumbers,
          true_and]
        constructor
        · rintro ⟨rows, ⟨free, rfl⟩, rfl⟩
          exact ⟨free, document, rfl, rfl⟩
        · rintro ⟨free, _, hsame, rfl⟩
          cases hsame
          exact ⟨_, ⟨free, rfl⟩, rfl⟩
      · rw [if_neg hnumbers]
        constructor
        · intro h
          cases h
        · rintro ⟨-, h, -⟩
          exact absurd h hnumbers
  · constructor
    · intro h
      rcases save_of_not_isValid (s := s) hvalid with ⟨f, -, hf⟩ | ⟨issues, -, -, hf⟩
      · rw [h] at hf
        cases hf
      · rw [h] at hf
        cases hf
    · rintro ⟨h, -⟩
      exact absurd h hvalid

/-- A workflow is refused for its issues if there are any, and only then. -/
theorem save_eq_config_iff {s : WorkflowStore} {w : Workflow} {issues : List Issue} :
    s.save w = .error (.config issues) ↔ w.issues = .ok issues ∧ issues ≠ [] := by
  by_cases hvalid : w.IsValid
  · rw [Workflow.issues_eq_nil_iff_isValid.mpr hvalid]
    constructor
    · intro h
      cases hdocument : w.documentText with
      | error f =>
        rw [save_of_unwritten hvalid hdocument] at h
        cases h
      | ok document =>
        rw [save_of_isValid hvalid hdocument] at h
        split at h
        · cases hrows : addRows (s.others w) (rowsOf w) <;> rw [hrows] at h <;> cases h
        · cases h
    · rintro ⟨h, hne⟩
      exact absurd (Except.ok.inj h).symm hne
  · rcases save_of_not_isValid (s := s) hvalid with
      ⟨f, hissues, hsave⟩ | ⟨found, hne, hissues, hsave⟩
    · rw [hissues, hsave]
      constructor
      · intro h
        cases h
      · rintro ⟨h, -⟩
        cases h
    · rw [hissues, hsave]
      constructor
      · intro h
        cases h
        exact ⟨rfl, hne⟩
      · rintro ⟨h, -⟩
        cases h
        rfl

end Conveyor.WorkflowStore
