import Conveyor.Pipeline.Basic

/-!
# The arena

The pipelines of all workflows, by id and by source. Only active pipelines of active workflows are
found by their source. Of several pipelines of one id the last one stands for all.
-/

namespace Conveyor

structure Arena where
  /-- The pipelines with their workflows, by id. -/
  pipelines : Keyed (Pipeline × Workflow) := []
  /-- The ids of the active pipelines under their sources. -/
  routes : List (SourceKey × String) := []

namespace Arena

/-- All pipelines of a list of workflows, each with its workflow. -/
def owned (ws : List Workflow) : List (Pipeline × Workflow) :=
  ws.flatMap fun w => w.pipelines.map fun p => (p, w)

/-- Whether a pipeline takes records. -/
def isRouted (pw : Pipeline × Workflow) : Bool := pw.2.header.isActive && pw.1.delivery.isActive

def ofWorkflows (ws : List Workflow) : Arena where
  pipelines := Keyed.ofPairs ((owned ws).map fun pw => (pw.1.id, pw))
  routes := ((owned ws).filter isRouted).map fun pw => (pw.1.sourceKey, pw.1.id)

def length (a : Arena) : Nat := a.pipelines.length

def pipeline? (a : Arena) (id : String) : Option Pipeline := (a.pipelines.get? id).map (·.1)

def workflowOf? (a : Arena) (id : String) : Option Workflow := (a.pipelines.get? id).map (·.2)

/-- The active pipelines of a source with their workflows, in the order of the workflows. -/
def forSource (a : Arena) (key : SourceKey) : List (Pipeline × Workflow) :=
  (a.routes.filter fun (k, _) => k = key).filterMap fun (_, id) => a.pipelines.get? id

end Arena
end Conveyor
