import Conveyor.Document
import Conveyor.Log.Table

/-!
# The workflow store

Saved workflows as documents under their ids, and an index of the pipelines in them. A save replaces
a workflow with all its pipelines or changes nothing: a workflow that has issues or no document is
refused before anything is written. What is read goes through validation again.
-/

namespace Conveyor

/-- A pipeline of a saved workflow. -/
structure PipelineRow where
  id : String
  workflowId : String

structure WorkflowStore where
  documents : Keyed String := []
  pipelines : List PipelineRow := []

namespace WorkflowStore

/-- Add index rows one by one; no two rows may have one id. -/
def addRows (rows : List PipelineRow) : List PipelineRow → Except Fault (List PipelineRow)
  | [] => .ok rows
  | r :: rest =>
    if rows.any (·.id = r.id) then .error .integrity else addRows (rows ++ [r]) rest

/-- Whether the numbers of all sources fit their column. -/
def numbersFit (w : Workflow) : Bool :=
  w.pipelines.all fun p => match p.sourceId with
    | some n => fitsColumn n
    | none => true

/-- Save a workflow in the place of an earlier one of its id. -/
def save (s : WorkflowStore) (w : Workflow) : Except Failure WorkflowStore := do
  let issues ← w.issues.mapError Failure.fault
  if !issues.isEmpty then .error (.config issues)
  else do
    let document ← w.documentText.mapError Failure.fault
    if !numbersFit w then .error (.fault .overflow)
    else do
      let others := s.pipelines.filter fun r => r.workflowId ≠ w.id
      let rows ← (addRows others (w.pipelines.map fun p => ⟨p.id, w.id⟩)).mapError Failure.fault
      pure ⟨s.documents.put w.id document, rows⟩

def get (s : WorkflowStore) (id : String) : Except Failure (Option Workflow) :=
  match s.documents.get? id with
  | some d => some <$> Workflow.load (.text d)
  | none => .ok none

/-- All workflows in the order of their ids. -/
def list (s : WorkflowStore) : Except Failure (List Workflow) :=
  s.documents.sorted.mapM fun (_, d) => Workflow.load (.text d)

def pipelineIds (s : WorkflowStore) (id : String) : List String :=
  (s.pipelines.filter fun r => r.workflowId = id).map (·.id)

/-- Delete a workflow and its pipelines; also, whether there was one. -/
def delete (s : WorkflowStore) (id : String) : Bool × WorkflowStore :=
  (s.documents.has id,
    ⟨s.documents.erase id, s.pipelines.filter fun r => r.workflowId ≠ id⟩)

/-- Put a document in without looking at it. -/
def putDocument (s : WorkflowStore) (id document : String) : Except Fault WorkflowStore :=
  if s.documents.has id then .error .integrity
  else .ok { s with documents := s.documents.put id document }

end WorkflowStore
end Conveyor
