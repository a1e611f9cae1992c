import Conveyor.Proofs.Graph.Compilation
import Conveyor.Proofs.Text

/-!
# Drawing a workflow again

A workflow that comes from a graph can be drawn, and the drawing compiles to the workflow itself
(`redrawn_compiles`). The drawing is not the graph that the workflow came from: its nodes are named
for what they stand for, and are only those that edges use.
-/

namespace Conveyor

theorem NodeKind.name_no_minus (k : NodeKind) : '-' ∉ k.name.toList := by
  cases k with
  | source k => cases k <;> decide
  | destination k => cases k <;> decide

theorem NodeKind.name_inj {k k' : NodeKind} (h : k.name = k'.name) : k = k' := by
  revert h
  cases k with
  | source k => cases k <;> cases k' with
    | source k' => cases k' <;> decide
    | destination k' => cases k' <;> decide
  | destination k => cases k <;> cases k' with
    | source k' => cases k' <;> decide
    | destination k' => cases k' <;> decide

namespace AuthoringGraph

/-! ## Nodes -/

theorem nodeId_eq (k : NodeKind) (n : Int) : nodeId k n = k.name ++ ("-" ++ Int.repr n) := by
  rw [← String.append_assoc]
  rfl

/-- The id of a node tells what it stands for. -/
theorem nodeId_inj {k k' : NodeKind} {m n : Int} (h : nodeId k m = nodeId k' n) :
    k = k' ∧ m = n := by
  rw [nodeId_eq, nodeId_eq] at h
  have hchars := congrArg String.toList h
  simp only [String.toList_append, show "-".toList = ['-'] by simp, List.cons_append,
    List.nil_append] at hchars
  have hname : k.name = k'.name := by
    have hbefore := congrArg (List.takeWhile (· ≠ '-')) hchars
    rw [Text.takeWhile_separated k.name_no_minus, Text.takeWhile_separated k'.name_no_minus]
      at hbefore
    exact String.toList_injective hbefore
  obtain rfl := NodeKind.name_inj hname
  have hnumber := (String.append_right_inj _).mp ((String.append_right_inj _).mp h)
  exact ⟨rfl, Text.intText_inj hnumber⟩

@[simp] theorem nodeOf_id (k : NodeKind) (n : Int) : (nodeOf k n).id = nodeId k n := rfl

/-- Every node is named for what it stands for, and no two have one id. -/
structure Named (nodes : List GraphNode) : Prop where
  named : ∀ x ∈ nodes, ∃ k n, x = nodeOf k n
  ids : (nodes.map (·.id)).Nodup

/-- A node that has the id of a thing is the node of that thing. -/
theorem Named.eq_nodeOf {nodes : List GraphNode} (h : Named nodes) {x : GraphNode} (hx : x ∈ nodes)
    {k : NodeKind} {n : Int} (hid : x.id = nodeId k n) : x = nodeOf k n := by
  obtain ⟨k', n', rfl⟩ := h.named x hx
  obtain ⟨rfl, rfl⟩ := nodeId_inj hid
  rfl

theorem mem_addNode {nodes : List GraphNode} {x y : GraphNode} (hx : x ∈ nodes) :
    x ∈ addNode nodes y := by
  unfold addNode
  split
  · exact hx
  · exact List.mem_append_left _ hx

theorem Named.addNode {nodes : List GraphNode} (h : Named nodes) (k : NodeKind) (n : Int) :
    Named (addNode nodes (nodeOf k n)) ∧
      nodeOf k n ∈ AuthoringGraph.addNode nodes (nodeOf k n) := by
  unfold AuthoringGraph.addNode
  split
  · rename_i htaken
    obtain ⟨x, hx, hid⟩ := List.any_eq_true.mp htaken
    rw [decide_eq_true_eq, nodeOf_id] at hid
    rw [h.eq_nodeOf hx hid] at hx
    exact ⟨h, hx⟩
  · rename_i hnew
    refine ⟨⟨?_, ?_⟩, by simp⟩
    · rw [List.forall_mem_append, List.forall_mem_singleton]
      exact ⟨h.named, k, n, rfl⟩
    · rw [List.map_append, List.map_singleton, List.nodup_append]
      refine ⟨h.ids, List.nodup_singleton _, ?_⟩
      intro id hid id' hid'
      obtain ⟨x, hx, rfl⟩ := List.mem_map.mp hid
      obtain rfl := List.mem_singleton.mp hid'
      intro heq
      exact hnew (List.any_eq_true.mpr ⟨x, hx, decide_eq_true heq⟩)

/-- The nodes have those of a pipeline among them. -/
structure Shown (nodes : List GraphNode) (x : Pipeline × Int) : Prop where
  source : nodeOf (.source x.1.sourceKind) x.2 ∈ nodes
  destination : ∀ ref, x.1.destination? = some ref → nodeOf (.destination ref.kind) ref.id ∈ nodes

theorem Shown.mono {nodes more : List GraphNode} {x : Pipeline × Int}
    (h : ∀ n ∈ nodes, n ∈ more) (hx : Shown nodes x) : Shown more x :=
  ⟨h _ hx.source, fun ref href => h _ (hx.destination ref href)⟩

/-- Drawing a pipeline adds its nodes to those that are there. -/
theorem Named.addNodes {nodes : List GraphNode} (h : Named nodes) (x : Pipeline × Int) :
    Named (addNodes nodes x) ∧ Shown (AuthoringGraph.addNodes nodes x) x ∧
      ∀ n ∈ nodes, n ∈ AuthoringGraph.addNodes nodes x := by
  obtain ⟨hsource, hmem⟩ := h.addNode (.source x.1.sourceKind) x.2
  unfold AuthoringGraph.addNodes
  cases hd : x.1.destination? with
  | none =>
    exact ⟨hsource, ⟨hmem, fun ref href => by rw [hd] at href; cases href⟩,
      fun n hn => mem_addNode hn⟩
  | some ref =>
    obtain ⟨hboth, hmem'⟩ := hsource.addNode (.destination ref.kind) ref.id
    refine ⟨hboth, ⟨mem_addNode hmem, fun ref' href => ?_⟩,
      fun n hn => mem_addNode (mem_addNode hn)⟩
    rw [hd] at href
    cases href
    exact hmem'

/-- The nodes of a drawing are named, and show all that was drawn. -/
theorem Named.foldl_addNodes {nodes : List GraphNode} (h : Named nodes)
    (xs : List (Pipeline × Int)) :
    Named (xs.foldl AuthoringGraph.addNodes nodes) ∧
      (∀ x ∈ xs, Shown (xs.foldl AuthoringGraph.addNodes nodes) x) ∧
      ∀ n ∈ nodes, n ∈ xs.foldl AuthoringGraph.addNodes nodes := by
  induction xs generalizing nodes with
  | nil => exact ⟨h, List.forall_mem_nil _, fun n hn => hn⟩
  | cons x xs ih =>
    obtain ⟨hnamed, hshown, hmem⟩ := h.addNodes x
    obtain ⟨hall, hxs, hkept⟩ := ih hnamed
    exact ⟨hall, List.forall_mem_cons.mpr ⟨hshown.mono hkept, hxs⟩,
      fun n hn => hkept n (hmem n hn)⟩

/-- A node of a drawing is found under its id. -/
theorem node?_nodeOf {g : AuthoringGraph} (h : Named g.nodes) {k : NodeKind} {n : Int}
    (hmem : nodeOf k n ∈ g.nodes) : g.node? (nodeId k n) = some (nodeOf k n) := by
  unfold node?
  cases hfind : g.nodes.reverse.find? (·.id = nodeId k n) with
  | none =>
    have hnone := List.find?_eq_none.mp hfind (nodeOf k n) (List.mem_reverse.mpr hmem)
    exact absurd (by simp) hnone
  | some x =>
    have hx := List.mem_reverse.mp (List.mem_of_find?_eq_some hfind)
    have hid : x.id = nodeId k n := by simpa using List.find?_some hfind
    rw [h.eq_nodeOf hx hid]

/-! ## Pipelines -/

section

variable (g : AuthoringGraph) (e : GraphEdge) (source : SourceKind × Int)
  (target : Option DestinationRef)

theorem sourceId_pipelineOf : (g.pipelineOf e source target).sourceId = some source.2 := by
  obtain ⟨kind, n⟩ := source
  cases kind <;> rfl

theorem destination?_pipelineOf : (g.pipelineOf e source target).destination? = target := by
  cases target with
  | none => rfl
  | some ref =>
    obtain ⟨kind, n⟩ := ref
    cases kind <;> rfl

/-- The edge of a pipeline has its id back. -/
theorem edgeId_pipelineOf : edgeId g.header (g.pipelineOf e source target) = e.id := by
  unfold edgeId
  rw [show (g.pipelineOf e source target).id = g.header.id ++ ":" ++ e.id from rfl,
    @String.toList_append (g.header.id ++ ":") e.id, Text.after?_append]
  exact String.ofList_toList

end

/-- Every pipeline of a graph can be drawn, with the number of its source. -/
theorem sourcesOf_eq {ps : List Pipeline} {xs : List (Pipeline × Int)}
    (h : List.Forall₂ (fun p x => x.1 = p ∧ p.sourceId = some x.2) ps xs) :
    sourcesOf ps = .fits xs := by
  induction h with
  | nil => rfl
  | @cons p x ps xs hx _ ih =>
    obtain ⟨rfl, hsource⟩ := hx
    rw [sourcesOf, sourceOf, hsource, ih]
    rfl

/-- The edge that is drawn for a pipeline draws it. -/
theorem draws_edgeOf {g d : AuthoringGraph} {e : GraphEdge} {source : SourceKind × Int}
    {target : Option DestinationRef} (connects : g.Connects e source target)
    (header : d.header = g.header) (named : Named d.nodes)
    (shown : Shown d.nodes (g.pipelineOf e source target, source.2)) :
    d.Draws (edgeOf g.header (g.pipelineOf e source target) source.2)
      (g.pipelineOf e source target) := by
  have htarget := destination?_pipelineOf g e source target
  refine ⟨source, target, ⟨?_, ?_⟩, ?_⟩
  · show d.source? (nodeId (.source source.1) source.2) = _
    have hnode := node?_nodeOf named shown.source
    rw [show (g.pipelineOf e source target).sourceKind = source.1 from rfl] at hnode
    rw [source?, hnode]
    rfl
  · have hshape : (edgeOf g.header (g.pipelineOf e source target) source.2).target =
        target.map fun r => nodeId (.destination r.kind) r.id := by
      rw [edgeOf, htarget]
    rw [hshape]
    cases target with
    | some ref =>
      refine ⟨ref, ?_, rfl⟩
      rw [destination?, node?_nodeOf named (shown.destination ref htarget)]
      rfl
    | none =>
      refine ⟨?_, rfl⟩
      have hedge := connects.target
      cases hnode : e.target with
      | some node =>
        rw [hnode] at hedge
        obtain ⟨ref, -, href⟩ := hedge
        cases href
      | none =>
        rw [hnode] at hedge
        exact hedge.1
  · have hid : d.pipelineId (edgeOf g.header (g.pipelineOf e source target) source.2) =
        g.pipelineId e := by
      rw [pipelineId_eq, pipelineId_eq, header]
      exact congrArg _ (edgeId_pipelineOf g e source target)
    unfold pipelineOf at hid ⊢
    rw [hid, header]
    rfl

/-- The number of a pipeline's source, if it has one. -/
def numberOf (p : Pipeline) : Int := p.sourceId.getD 0

/-- The drawing of a workflow all of whose pipelines have sources. -/
def drawing (w : Workflow) : AuthoringGraph where
  header := w.header
  nodes := (w.pipelines.map fun p => (p, numberOf p)).foldl addNodes []
  edges := w.pipelines.map fun p => edgeOf w.header p (numberOf p)

theorem ofWorkflow_eq {w : Workflow} (h : ∀ p ∈ w.pipelines, p.sourceId = some (numberOf p)) :
    ofWorkflow w = .fits (drawing w) := by
  have hsources : sourcesOf w.pipelines = .fits (w.pipelines.map fun p => (p, numberOf p)) := by
    apply sourcesOf_eq
    rw [List.forall₂_map_right_iff, List.forall₂_same]
    exact fun p hp => ⟨rfl, h p hp⟩
  rw [ofWorkflow, hsources, Checked.map, List.map_map]
  rfl

/-- The workflow of a graph can be drawn, and the drawing compiles to the same workflow: the same
header and the same pipelines in the same order, and so the same text. -/
theorem redrawn_compiles {g : AuthoringGraph} {w : Workflow} (compiled : g.compile = .ok w) :
    ∃ drawn, ofWorkflow w = .fits drawn ∧ drawn.compile = .ok w := by
  have compiles := compile_eq_ok_iff.mp compiled
  have hdraws : ∀ p ∈ w.pipelines, ∃ e source target, g.Connects e source target ∧
      p = g.pipelineOf e source target ∧ p.IsValid := by
    intro p hp
    obtain ⟨e, -, ⟨source, target, connects, hpipeline⟩, hvalid⟩ :=
      exists_of_mem compiles.pipelines hp
    exact ⟨e, source, target, connects, hpipeline, hvalid⟩
  have hnumber : ∀ p ∈ w.pipelines, p.sourceId = some (numberOf p) := by
    intro p hp
    obtain ⟨e, source, target, -, rfl, -⟩ := hdraws p hp
    rw [numberOf, sourceId_pipelineOf]
    rfl
  refine ⟨drawing w, ofWorkflow_eq hnumber, compile_eq_ok_iff.mpr ?_⟩
  obtain ⟨named, shown, -⟩ := Named.foldl_addNodes ⟨List.forall_mem_nil _, List.nodup_nil⟩
    (w.pipelines.map fun p => (p, numberOf p))
  refine ⟨named.ids, ?_, rfl, ?_⟩
  · show w.header.retentionHours.le .zero = false
    rw [compiles.header]
    exact compiles.retention
  · show List.Forall₂ _ (w.pipelines.map fun p => edgeOf w.header p (numberOf p)) w.pipelines
    rw [List.forall₂_map_left_iff, List.forall₂_same]
    intro p hp
    have hshown := shown _ (List.mem_map_of_mem hp)
    have hsource := hnumber p hp
    obtain ⟨e, source, target, connects, rfl, hvalid⟩ := hdraws p hp
    rw [sourceId_pipelineOf, Option.some.injEq] at hsource
    rw [← hsource] at hshown ⊢
    rw [compiles.header]
    exact ⟨draws_edgeOf connects compiles.header named hshown, hvalid⟩

theorem parallel_redrawn :
    ∃ w drawn, (parallel "e1" "e2").compile = .ok w ∧ w.pipelines = [lane "e1", lane "e2"] ∧
      ofWorkflow w = .fits drawn ∧ drawn.compile = .ok w := by
  have compiled := compile_eq_ok_iff.mpr (parallel_compiles "e1" "e2")
  obtain ⟨drawn, hdrawn, hcompile⟩ := redrawn_compiles compiled
  exact ⟨_, drawn, compiled, rfl, hdrawn, hcompile⟩

end AuthoringGraph
end Conveyor
