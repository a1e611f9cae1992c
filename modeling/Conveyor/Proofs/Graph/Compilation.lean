import Conveyor.Graph
import Conveyor.Proofs.Pipeline.Reload
import Conveyor.Proofs.Store

/-!
# Compiling graphs

A graph that compiles has nodes of different ids, and each of its edges becomes a valid pipeline
(`compile_eq_ok_iff`). Nothing is asked of the ids of the edges, from which the pipelines have
theirs, so the workflow of a graph is not always a valid one (`compiled_accepted_iff`).
-/

namespace Conveyor.AuthoringGraph

open Outcome

/-- The edge goes from a source to a destination; one with steps may do without a destination. -/
structure Connects (g : AuthoringGraph) (e : GraphEdge) (source : SourceKind × Int)
    (target : Option DestinationRef) : Prop where
  source : g.source? e.source = some source
  target : match e.target with
    | some node => ∃ ref, g.destination? node = some ref ∧ target = some ref
    | none => e.steps ≠ [] ∧ target = none

/-- The pipeline is that of the edge. -/
def Draws (g : AuthoringGraph) (e : GraphEdge) (p : Pipeline) : Prop :=
  ∃ source target, g.Connects e source target ∧ p = g.pipelineOf e source target

theorem pipeline?_eq_ok_iff {g : AuthoringGraph} {place : Place} {e : GraphEdge} {p : Pipeline} :
    g.pipeline? place e = .ok p ↔ g.Draws e p := by
  unfold pipeline?
  constructor
  · intro h
    cases hsource : g.source? e.source with
    | none =>
      rw [hsource] at h
      cases h
    | some source =>
      rw [hsource] at h
      dsimp only at h
      cases htarget : e.target with
      | some node =>
        rw [htarget] at h
        dsimp only at h
        cases href : g.destination? node with
        | none =>
          rw [href] at h
          cases h
        | some ref =>
          rw [href] at h
          exact ⟨source, some ref, ⟨hsource, by rw [htarget]; exact ⟨ref, href, rfl⟩⟩,
            (Except.ok.inj h).symm⟩
      | none =>
        rw [htarget] at h
        dsimp only at h
        split at h
        · cases h
        · rename_i hsteps
          exact ⟨source, none, ⟨hsource, by rw [htarget]; exact ⟨by simpa using hsteps, rfl⟩⟩,
            (Except.ok.inj h).symm⟩
  · rintro ⟨source, target, ⟨hsource, htarget⟩, rfl⟩
    rw [hsource]
    dsimp only
    cases hnode : e.target with
    | some node =>
      rw [hnode] at htarget
      obtain ⟨ref, href, rfl⟩ := htarget
      simp only [href]
    | none =>
      rw [hnode] at htarget
      obtain ⟨hsteps, rfl⟩ := htarget
      simp [hsteps]

theorem nodeIssues_eq_nil_iff {g : AuthoringGraph} :
    g.nodeIssues = [] ↔ (g.nodes.map (·.id)).Nodup := by
  simp only [nodeIssues, List.flatMap_eq_nil_iff, Prod.forall, List.mem_zipIdx_iff_getElem?,
    Validation.issueIf_eq_nil_iff, List.any_eq_false, decide_eq_true_eq,
    Validation.nodup_iff_take]
  exact ⟨fun h i n hi => h n i hi, fun h n i hi => h i n hi⟩

/-- An edge compiles without issues to a valid pipeline. -/
theorem compileEdge_eq_ok_nil_iff {g : AuthoringGraph} {e : GraphEdge} {i : Nat}
    {result : Option Pipeline × List Issue} :
    g.compileEdge e i = .ok result ∧ result.2 = [] ↔
      ∃ p, (g.Draws e p ∧ p.IsValid) ∧ result = (some p, []) := by
  unfold compileEdge
  dsimp only
  cases hp : g.pipeline? [.field "edges", .index i] e with
  | error issue =>
    constructor
    · rintro ⟨h, hnil⟩
      cases h
      cases hnil
    · rintro ⟨p, ⟨hdraws, -⟩, -⟩
      rw [pipeline?_eq_ok_iff.mpr hdraws] at hp
      cases hp
  | ok p =>
    rw [bind_eq_ok_iff]
    constructor
    · rintro ⟨⟨issues, hissues, h⟩, hnil⟩
      cases h
      dsimp only at hnil
      subst hnil
      exact ⟨p, ⟨pipeline?_eq_ok_iff.mp hp,
        Validation.pipelineIssues_eq_nil_iff_isValid.mp hissues⟩, rfl⟩
    · rintro ⟨q, ⟨hdraws, hvalid⟩, rfl⟩
      obtain rfl : p = q := Except.ok.inj (hp.symm.trans (pipeline?_eq_ok_iff.mpr hdraws))
      exact ⟨⟨[], Validation.pipelineIssues_eq_nil_iff_isValid.mpr hvalid, rfl⟩, rfl⟩

/-- Edges compile without issues when each of them does. -/
theorem compileEdges_iff {g : AuthoringGraph} {edges : List GraphEdge} {k : Nat}
    {ps : List Pipeline} :
    (∃ results, (edges.zipIdx k).mapM (fun (e, i) => g.compileEdge e i) = .ok results ∧
        results.flatMap (·.2) = [] ∧ results.filterMap (·.1) = ps) ↔
      List.Forall₂ (fun e p => g.Draws e p ∧ p.IsValid) edges ps := by
  simp only [mapM_eq_ok_iff]
  induction edges generalizing k ps with
  | nil =>
    simp only [List.zipIdx_nil, List.forall₂_nil_left_iff]
    constructor
    · rintro ⟨results, rfl, -, rfl⟩
      rfl
    · rintro rfl
      exact ⟨[], rfl, rfl, rfl⟩
  | cons e rest ih =>
    simp only [List.zipIdx_cons, List.forall₂_cons_left_iff]
    constructor
    · rintro ⟨results, ⟨result, more, hresult, hmore, rfl⟩, hnil, rfl⟩
      rw [List.flatMap_cons, List.append_eq_nil_iff] at hnil
      obtain ⟨p, hp, rfl⟩ := compileEdge_eq_ok_nil_iff.mp ⟨hresult, hnil.1⟩
      exact ⟨p, _, hp, ih.mp ⟨more, hmore, hnil.2, rfl⟩, rfl⟩
    · rintro ⟨p, ps, hp, hps, rfl⟩
      obtain ⟨hresult, -⟩ := compileEdge_eq_ok_nil_iff (i := k).mpr ⟨p, hp, rfl⟩
      obtain ⟨more, hmore, hnil, rfl⟩ := ih.mpr hps
      exact ⟨_, ⟨_, more, hresult, hmore, rfl⟩, hnil, rfl⟩

/-- The workflow is that of the graph: its pipelines are those of the edges, in order, and valid. -/
structure Compiles (g : AuthoringGraph) (w : Workflow) : Prop where
  nodes : (g.nodes.map (·.id)).Nodup
  retention : g.header.retentionHours.le .zero = false
  header : w.header = g.header
  pipelines : List.Forall₂ (fun e p => g.Draws e p ∧ p.IsValid) g.edges w.pipelines

theorem compile_eq_ok_iff {g : AuthoringGraph} {w : Workflow} :
    g.compile = .ok w ↔ g.Compiles w := by
  unfold compile
  rw [bind_eq_ok_iff]
  simp only [mapError_eq_ok_iff]
  constructor
  · rintro ⟨results, hresults, h⟩
    split at h
    · rename_i hempty
      rw [List.isEmpty_iff, List.append_eq_nil_iff, List.append_eq_nil_iff, nodeIssues_eq_nil_iff,
        Validation.retentionIssues, Validation.issueIf_eq_nil_iff] at hempty
      obtain ⟨⟨nodes, hnil⟩, retention⟩ := hempty
      cases h
      exact ⟨nodes, retention, rfl, compileEdges_iff.mp ⟨results, hresults, hnil, rfl⟩⟩
    · cases h
  · rintro ⟨nodes, retention, header, pipelines⟩
    obtain ⟨results, hresults, hnil, hps⟩ := compileEdges_iff (k := 0).mpr pipelines
    refine ⟨results, hresults, ?_⟩
    have hempty : g.nodeIssues ++ results.flatMap (·.2) ++
        Validation.retentionIssues [.field "workflow"] g.header = [] := by
      rw [nodeIssues_eq_nil_iff.mpr nodes, hnil, Validation.retentionIssues,
        Validation.issueIf_eq_nil_iff.mpr retention]
      rfl
    rw [hempty, hps, ← header]
    rfl

/-! ## Acceptance -/

theorem pipelineId_eq (g : AuthoringGraph) (e : GraphEdge) :
    g.pipelineId e = g.header.id ++ ":" ++ e.id := rfl

theorem Draws.id {g : AuthoringGraph} {e : GraphEdge} {p : Pipeline} (h : g.Draws e p) :
    p.id = g.pipelineId e := by
  obtain ⟨source, target, -, rfl⟩ := h
  rfl

/-- What is related to a list item by item is related to one of its items. -/
theorem exists_of_mem {α β : Type} {R : α → β → Prop} {as : List α} {bs : List β}
    (h : List.Forall₂ R as bs) {b : β} (hb : b ∈ bs) : ∃ a ∈ as, R a b := by
  induction h with
  | nil => cases hb
  | @cons a c as bs hac _ ih =>
    rcases List.mem_cons.mp hb with rfl | hb
    · exact ⟨a, List.mem_cons_self, hac⟩
    · obtain ⟨a', ha', h⟩ := ih hb
      exact ⟨a', List.mem_cons_of_mem _ ha', h⟩

namespace Compiles

variable {g : AuthoringGraph} {w : Workflow}

/-- The pipelines are named after the edges. -/
theorem ids (h : g.Compiles w) : w.pipelines.map (·.id) = g.edges.map g.pipelineId := by
  have hids := h.pipelines
  generalize g.edges = edges at hids
  generalize w.pipelines = ps at hids
  induction hids with
  | nil => rfl
  | cons hp _ ih => rw [List.map_cons, List.map_cons, ih, hp.1.id]

theorem isValid_of_mem (h : g.Compiles w) : ∀ p ∈ w.pipelines, p.IsValid := by
  intro p hp
  obtain ⟨e, -, -, hvalid⟩ := exists_of_mem h.pipelines hp
  exact hvalid

/-- The pipelines have different ids if the edges have. -/
theorem nodup_ids_iff (h : g.Compiles w) :
    (w.pipelines.map (·.id)).Nodup ↔ (g.edges.map (·.id)).Nodup := by
  have hids : g.edges.map g.pipelineId = (g.edges.map (·.id)).map (g.header.id ++ ":" ++ ·) := by
    rw [List.map_map]
    rfl
  rw [h.ids, hids, List.nodup_map_iff fun a b hab => (String.append_right_inj _).mp hab]

/-- The workflow of a graph is valid if the ids of the edges differ. -/
theorem isValid_iff (h : g.Compiles w) : w.IsValid ↔ (g.edges.map (·.id)).Nodup := by
  rw [← h.nodup_ids_iff]
  refine ⟨fun hvalid => hvalid.ids, fun ids => ⟨?_, ids, h.isValid_of_mem⟩⟩
  rw [h.header]
  exact h.retention

/-- The workflow is loaded from its document, if it has one, if it is valid. -/
theorem loaded_iff (h : g.Compiles w) (regular : w.wire.isRegular = true) {document : String}
    (written : w.documentText = .ok document) :
    (∃ loaded, Workflow.load (.text document) = .ok loaded) ↔ (g.edges.map (·.id)).Nodup := by
  simp only [Workflow.load_documentText_eq_ok_iff regular written]
  constructor
  · rintro ⟨loaded, hcanonical, -⟩
    have hids : w.canonical.pipelines.map (·.id) = w.pipelines.map (·.id) := List.map_map
    rw [← h.nodup_ids_iff, ← hids]
    exact hcanonical.ids
  · intro hids
    exact ⟨w.canonical, (h.isValid_iff.mpr hids).canonical regular, rfl⟩

/-- The store refuses the workflow if it is not valid. -/
theorem refused_iff (h : g.Compiles w) (s : WorkflowStore) :
    (∃ issues, s.save w = .error (.config issues)) ↔ ¬(g.edges.map (·.id)).Nodup := by
  simp only [WorkflowStore.save_eq_config_iff]
  rw [← h.isValid_iff, ← Workflow.issues_eq_nil_iff_isValid]
  obtain ⟨issues, hissues⟩ := Workflow.exists_issues h.isValid_of_mem
  rw [hissues]
  simp

theorem saved_iff (h : g.Compiles w) (s : WorkflowStore) :
    (∃ saved, s.save w = .ok saved) ↔ (g.edges.map (·.id)).Nodup ∧ w.IsWritable ∧
      WorkflowStore.numbersFit w = true ∧ s.IsFree w := by
  simp only [WorkflowStore.save_eq_ok_iff]
  rw [← h.isValid_iff, ← Workflow.exists_documentText]
  constructor
  · rintro ⟨_, valid, fits, free, document, written, -⟩
    exact ⟨valid, ⟨document, written⟩, fits, free⟩
  · rintro ⟨valid, ⟨document, written⟩, fits, free⟩
    exact ⟨_, valid, fits, free, document, written, rfl⟩

end Compiles

/-- The workflow of a graph has no issues, is loaded again from its document, if it has one, and is not
refused by the store for issues, if the ids of the edges differ, and only then. What else can keep it
from being saved is not in the edges: that it has no document, a number that does not fit its column, or
another workflow in the store that has one of its pipelines' ids. -/
theorem compiled_accepted_iff {g : AuthoringGraph} {w : Workflow} (compiled : g.compile = .ok w) :
    (w.issues = .ok [] ↔ (g.edges.map (·.id)).Nodup) ∧
      (w.wire.isRegular = true → ∀ document, w.documentText = .ok document →
        ((∃ loaded, Workflow.load (.text document) = .ok loaded) ↔ (g.edges.map (·.id)).Nodup)) ∧
      ∀ s : WorkflowStore,
        ((∃ issues, s.save w = .error (.config issues)) ↔ ¬(g.edges.map (·.id)).Nodup) ∧
          ((∃ saved, s.save w = .ok saved) ↔ (g.edges.map (·.id)).Nodup ∧ w.IsWritable ∧
            WorkflowStore.numbersFit w = true ∧ s.IsFree w) := by
  have compiles := compile_eq_ok_iff.mp compiled
  exact ⟨Workflow.issues_eq_nil_iff_isValid.trans compiles.isValid_iff,
    fun regular _ written => compiles.loaded_iff regular written,
    fun s => ⟨compiles.refused_iff s, compiles.saved_iff s⟩⟩

/-! ## Two edges between the same nodes -/

/-- Two edges with the given ids, from one source to one destination. -/
def parallel (first second : String) : AuthoringGraph where
  header := { id := "wf-1", name := "Twice" }
  nodes :=
    [{ id := "app", kind := .source .senderApp, refId := 7 },
      { id := "api", kind := .destination .rest, refId := 5 }]
  edges :=
    [{ id := first, source := "app", target := some "api" },
      { id := second, source := "app", target := some "api" }]

/-- The pipeline of one of the edges. -/
def lane (id : String) : Pipeline where
  id := "wf-1:" ++ id
  workflowId := some "wf-1"
  sourceKind := .senderApp
  applicationId := some 7
  destinationKind := some .rest
  restId := some 5

theorem lane_isValid (id : String) : (lane id).IsValid := by
  have sorted : (lane id).sortedSteps = [] := Pipeline.sortedSteps_eq List.Pairwise.nil
  refine ⟨⟨rfl, rfl⟩, rfl, ?_, ?_, fun s _ => ?_⟩
  · rw [sorted]
    rfl
  · rw [sorted]
    exact List.forall_mem_nil _
  · show if some DestinationKind.rest = some .rest then _ else _
    rw [if_pos rfl]
    exact ⟨List.nodup_nil, List.nodup_nil, List.forall_mem_nil _⟩

theorem parallel_compiles (first second : String) :
    (parallel first second).Compiles
      ⟨{ id := "wf-1", name := "Twice" }, [lane first, lane second]⟩ := by
  have connects : ∀ e : GraphEdge, e.source = "app" → e.target = some "api" →
      (parallel first second).Connects e (.senderApp, 7) (some ⟨.rest, 5⟩) := by
    intro e hsource htarget
    refine ⟨by rw [hsource]; rfl, ?_⟩
    rw [htarget]
    exact ⟨_, rfl, rfl⟩
  have nodes : (["app", "api"] : List String).Nodup := by decide
  have retention : defaultRetentionHours.le .zero = false := by decide +kernel
  refine ⟨nodes, retention, rfl, .cons ⟨⟨_, _, connects _ rfl rfl, rfl⟩, lane_isValid first⟩
    (.cons ⟨⟨_, _, connects _ rfl rfl, rfl⟩, lane_isValid second⟩ .nil)⟩

/-- The workflow of the two edges has a document: nothing in it has a form of its own. -/
theorem parallel_isWritable {first second : String} {w : Workflow}
    (compiled : (parallel first second).compile = .ok w) : w.IsWritable := by
  rw [compile_eq_ok_iff.mpr (parallel_compiles first second)] at compiled
  obtain rfl := Except.ok.inj compiled
  exact ⟨List.forall_mem_nil _, rfl⟩

theorem parallel_accepted :
    ∃ w, (parallel "e1" "e2").compile = .ok w ∧ w.issues = .ok [] ∧
      (∃ document loaded, w.documentText = .ok document ∧
        Workflow.load (.text document) = .ok loaded) ∧
      ∃ saved, ({} : WorkflowStore).save w = .ok saved := by
  have compiled := compile_eq_ok_iff.mpr (parallel_compiles "e1" "e2")
  obtain ⟨hissues, hloaded, hstore⟩ := compiled_accepted_iff compiled
  have hids : ((parallel "e1" "e2").edges.map (·.id)).Nodup := by decide
  have writable := parallel_isWritable compiled
  obtain ⟨document, written⟩ := Workflow.exists_documentText.mpr writable
  obtain ⟨loaded, hload⟩ := (hloaded (by decide +kernel) document written).mpr hids
  refine ⟨_, compiled, hissues.mpr hids, ⟨document, loaded, written, hload⟩,
    (hstore {}).2.mpr ⟨hids, writable, by decide, ?_⟩⟩
  intro r hr
  cases hr

/-- The graph compiles with two edges of one id, and what comes of it is no valid workflow: it is
neither loaded from its document nor saved. -/
theorem parallel_refused :
    ∃ w, (parallel "e1" "e1").compile = .ok w ∧ w.issues ≠ .ok [] ∧
      (∃ document, w.documentText = .ok document ∧
        ∀ loaded, Workflow.load (.text document) ≠ .ok loaded) ∧
      ∃ issues, ({} : WorkflowStore).save w = .error (.config issues) := by
  have compiles := parallel_compiles "e1" "e1"
  have compiled := compile_eq_ok_iff.mpr compiles
  have hids : ¬((parallel "e1" "e1").edges.map (·.id)).Nodup := by decide
  obtain ⟨document, written⟩ := Workflow.exists_documentText.mpr (parallel_isWritable compiled)
  refine ⟨_, compiled, fun h => ?_, ⟨document, written, fun loaded h => ?_⟩,
    (compiles.refused_iff {}).mpr hids⟩
  · exact hids (compiles.isValid_iff.mp (Workflow.issues_eq_nil_iff_isValid.mp h))
  · exact hids ((compiles.loaded_iff (by decide +kernel) written).mp ⟨loaded, h⟩)

end Conveyor.AuthoringGraph
