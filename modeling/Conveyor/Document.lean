import Conveyor.Graph
import Conveyor.Json.Printer

/-!
# Workflow documents

A workflow as text: one canonical form, with the names of all objects in order and nothing between
items, so that equal workflows have equal texts. A workflow has no text if one of its values is nested
too deeply, or if a number in it is too long to be written. What is read back is validated again.
-/

namespace Conveyor

/-- A document given as text or already as a value. -/
inductive Document where
  | text (s : String)
  | value (v : Value)

/-- Read a document as a record of some type. -/
def Document.read {α : Type} (d : Document) (read : Fields → Checked α) : Except DocumentError α :=
  let fit (v : Value) : Except DocumentError α :=
    (Schema.record read v).toExcept.mapError .misfits
  match d with
  | .value v => fit v
  | .text s =>
    match Json.read? s with
    | some v => fit v
    | none => .error .notJson

/-- The canonical text of a workflow. Its free-form values are gone through before any of it is
written, so that it is they that are at fault first. -/
def Workflow.documentText (w : Workflow) : Except Fault String := do
  Value.descendAll w.freeValues
  if w.wire.isShowable then pure (Json.write .canonical w.wire) else .error .badValue

/-- A workflow from its document. -/
def Workflow.load (d : Document) : Except Failure Workflow := do
  let w ← (d.read Workflow.read).mapError fun e => .validation (.malformedWorkflow e)
  let issues ← w.issues.mapError Failure.fault
  if issues.isEmpty then pure w else .error (.validation (.invalidWorkflow issues))

/-- A graph from its document. -/
def AuthoringGraph.load (d : Document) : Except Failure AuthoringGraph :=
  (d.read AuthoringGraph.read).mapError fun e => .validation (.malformedGraph e)

end Conveyor
