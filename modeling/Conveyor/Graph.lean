import Conveyor.Pipeline.Reading
import Conveyor.Pipeline.Wire
import Conveyor.Pipeline.Validation

/-!
# Authoring graphs

What an author draws: nodes that stand for sources and destinations, and edges that say how records
go from one to the other. A graph compiles to a workflow only if nothing at all is wrong with it,
and every workflow whose pipelines have sources can be drawn again.
-/

namespace Conveyor

/-- What a node stands for. -/
inductive NodeKind where
  | source (k : SourceKind)
  | destination (k : DestinationKind)
  deriving DecidableEq, Repr

def NodeKind.all : List NodeKind :=
  SourceKind.all.map .source ++ DestinationKind.all.map .destination

def NodeKind.name : NodeKind → String
  | .source k => k.name
  | .destination k => k.name

structure GraphNode where
  id : String
  kind : NodeKind
  /-- The number of the source or destination. -/
  refId : Int
  label : Option String := none

structure GraphEdge where
  id : String
  source : String
  target : Option String := none
  delivery : Option Delivery := none
  steps : List Step := []

structure AuthoringGraph where
  header : Header
  nodes : List GraphNode := []
  edges : List GraphEdge := []

open Schema in
def GraphNode.read (fs : Fields) : Checked GraphNode :=
  GraphNode.mk
    <$> required fs "id" text
    <*> required fs "kind" (choice NodeKind.all NodeKind.name)
    <*> required fs "refId" integer
    <*> optional fs "label" text

open Schema in
def GraphEdge.read (fs : Fields) : Checked GraphEdge :=
  GraphEdge.mk
    <$> required fs "id" text
    <*> required fs "source" text
    <*> optional fs "target" text
    <*> optional fs "pipeline" (record Delivery.read)
    <*> withDefault fs "steps" stepsReading []

open Schema in
def AuthoringGraph.read (fs : Fields) : Checked AuthoringGraph :=
  AuthoringGraph.mk
    <$> required fs "workflow" (record Header.read)
    <*> withDefault fs "nodes" (listOf (record GraphNode.read)) []
    <*> withDefault fs "edges" (listOf (record GraphEdge.read)) []

def GraphNode.wire (n : GraphNode) : Value :=
  .object (Wire.present [("id", some (.text n.id)),
    ("kind", some (.text n.kind.name)),
    ("refId", some (.int n.refId)),
    ("label", Wire.text n.label)])

def GraphEdge.wire (e : GraphEdge) : Value :=
  .object (Wire.present [("id", some (.text e.id)),
    ("source", some (.text e.source)),
    ("target", Wire.text e.target),
    ("pipeline", e.delivery.map Delivery.wire),
    ("steps", some (.list (e.steps.map Step.wire)))])

def AuthoringGraph.wire (g : AuthoringGraph) : Value :=
  .object [("workflow", g.header.wire),
    ("nodes", .list (g.nodes.map GraphNode.wire)),
    ("edges", .list (g.edges.map GraphEdge.wire))]

namespace AuthoringGraph

/-- The node of an id; of several, the last. -/
def node? (g : AuthoringGraph) (id : String) : Option GraphNode :=
  g.nodes.reverse.find? (·.id = id)

/-- The source that a node stands for. -/
def source? (g : AuthoringGraph) (node : String) : Option (SourceKind × Int) :=
  match g.node? node with
  | some ⟨_, .source k, n, _⟩ => some (k, n)
  | _ => none

/-- The destination that a node stands for. -/
def destination? (g : AuthoringGraph) (node : String) : Option DestinationRef :=
  match g.node? node with
  | some ⟨_, .destination k, n, _⟩ => some ⟨k, n⟩
  | _ => none

/-- The id of an edge's pipeline. -/
def pipelineId (g : AuthoringGraph) (e : GraphEdge) : String := s!"{g.header.id}:{e.id}"

/-- The number of a destination, if it is of the kind asked for. -/
def idOf (kind : DestinationKind) (ref : Option DestinationRef) : Option Int :=
  match ref with
  | some r => if r.kind = kind then some r.id else none
  | none => none

/-- The pipeline from a source to a destination. -/
def pipelineOf (g : AuthoringGraph) (e : GraphEdge) (source : SourceKind × Int)
    (target : Option DestinationRef) : Pipeline where
  id := g.pipelineId e
  workflowId := some g.header.id
  sourceKind := source.1
  applicationId := if source.1 = .senderApp then some source.2 else none
  mqttSourceId := if source.1 = .mqttSource then some source.2 else none
  destinationKind := target.map (·.kind)
  databaseId := idOf .database target
  restId := idOf .rest target
  sapId := idOf .sap target
  delivery := e.delivery.getD {}
  steps := e.steps

/-- The pipeline of an edge, or what keeps it from being one. -/
def pipeline? (g : AuthoringGraph) (place : Place) (e : GraphEdge) : Except Issue Pipeline :=
  match g.source? e.source with
  | none => .error ⟨place ++ [.field "source"], .notASource e.source⟩
  | some source =>
    match e.target with
    | some target =>
      match g.destination? target with
      | none => .error ⟨place ++ [.field "target"], .notADestination target⟩
      | some ref => .ok (g.pipelineOf e source (some ref))
    | none =>
      if e.steps.isEmpty then .error ⟨place ++ [.field "target"], .edgeWithoutDestination⟩
      else .ok (g.pipelineOf e source none)

/-- Nodes whose ids are taken. -/
def nodeIssues (g : AuthoringGraph) : List Issue :=
  g.nodes.zipIdx.flatMap fun (n, i) =>
    Validation.issueIf ((g.nodes.take i).any (·.id = n.id))
      [.field "nodes", .index i, .field "id"] (.duplicateNode n.id)

/-- The pipeline of an edge, if it has one, and everything that is wrong with the edge. -/
def compileEdge (g : AuthoringGraph) (e : GraphEdge) (i : Nat) :
    Except Fault (Option Pipeline × List Issue) := do
  let place : Place := [.field "edges", .index i]
  match g.pipeline? place e with
  | .error issue => pure (none, [issue])
  | .ok p => pure (some p, ← Validation.pipelineIssues place p)

/-- The workflow of a graph; all that is wrong with the graph keeps it from having one. -/
def compile (g : AuthoringGraph) : Except Failure Workflow := do
  let edges ← (g.edges.zipIdx.mapM fun (e, i) => g.compileEdge e i).mapError Failure.fault
  let issues := g.nodeIssues ++ edges.flatMap (·.2)
    ++ Validation.retentionIssues [.field "workflow"] g.header
  if issues.isEmpty then pure ⟨g.header, edges.filterMap (·.1)⟩ else .error (.config issues)

/-- The id of the node of a source or destination. -/
def nodeId (kind : NodeKind) (n : Int) : String := s!"{kind.name}-{n}"

def nodeOf (kind : NodeKind) (n : Int) : GraphNode := { id := nodeId kind n, kind, refId := n }

/-- A node is drawn once. -/
def addNode (nodes : List GraphNode) (n : GraphNode) : List GraphNode :=
  if nodes.any (·.id = n.id) then nodes else nodes ++ [n]

/-- The id of a pipeline's edge: what the workflow's id was put before. -/
def edgeId (h : Header) (p : Pipeline) : String :=
  match Text.after? (h.id ++ ":").toList p.id.toList with
  | some rest => String.ofList rest
  | none => p.id

/-- The edge of a pipeline with a source of the given number. -/
def edgeOf (h : Header) (p : Pipeline) (sourceId : Int) : GraphEdge where
  id := edgeId h p
  source := nodeId (.source p.sourceKind) sourceId
  target := p.destination?.map fun r => nodeId (.destination r.kind) r.id
  delivery := some p.delivery
  steps := p.steps

/-- The source of a pipeline; without its number there is no node to draw. -/
def sourceOf (p : Pipeline) : Checked (Pipeline × Int) :=
  match p.sourceId with
  | some n => .fits (p, n)
  | none => .misfits [⟨[.field "ref_id"], .notInteger⟩]

/-- The nodes of a pipeline added to those there are. -/
def addNodes (nodes : List GraphNode) (p : Pipeline × Int) : List GraphNode :=
  let nodes := addNode nodes (nodeOf (.source p.1.sourceKind) p.2)
  match p.1.destination? with
  | some r => addNode nodes (nodeOf (.destination r.kind) r.id)
  | none => nodes

/-- The first pipeline without a source number, or all with theirs. -/
def sourcesOf : List Pipeline → Checked (List (Pipeline × Int))
  | [] => .fits []
  | p :: rest =>
    match sourceOf p with
    | .fits x => (sourcesOf rest).map (x :: ·)
    | .misfits ms => .misfits ms

/-- The graph of a workflow. Ids of nodes come from what they stand for. -/
def ofWorkflow (w : Workflow) : Checked AuthoringGraph :=
  (sourcesOf w.pipelines).map fun ps =>
    { header := w.header
      nodes := ps.foldl addNodes []
      edges := ps.map fun (p, n) => edgeOf w.header p n }

end AuthoringGraph
end Conveyor
